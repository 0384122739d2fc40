import RemoteCall.Proofs.Text.Utf8

/-!
# The order of texts in UTF-8

Texts are ordered by code points. The bytes that they are written in are ordered in the same way:
the lead byte of a character tells how many bytes there are, and these hold the code point from
its highest bits down.
-/

namespace RemoteCall.Text.Utf8

/-- Lists of bytes are compared where they differ first. -/
theorem ofNat_cons_lt {m n : Nat} (hn : n < 256) {first second : List UInt8}
    (h : m < n ∨ m = n ∧ first < second) : UInt8.ofNat m :: first < UInt8.ofNat n :: second := by
  rw [List.cons_lt_cons_iff]
  rcases h with hlt | ⟨rfl, hrest⟩
  · left
    have hm : m < 256 := Nat.lt_trans hlt hn
    rw [UInt8.lt_iff_toNat_lt, UInt8.toNat_ofNat_of_lt' hm, UInt8.toNat_ofNat_of_lt' hn]
    exact hlt
  · right
    exact ⟨rfl, hrest⟩

/-- The bytes of the smaller character come first, whatever follows them. -/
theorem utf8EncodeChar_append_lt {c d : Char} (h : c < d) (first second : List UInt8) :
    String.utf8EncodeChar c ++ first < String.utf8EncodeChar d ++ second := by
  have hlt : c.val.toNat < d.val.toNat := h
  have hbound : d.val.toNat < 0x110000 := by
    have hvalid : d.val.toNat < 0xD800 ∨ 0xDFFF < d.val.toNat ∧ d.val.toNat < 0x110000 := d.valid
    omega
  simp only [String.utf8EncodeChar]
  generalize c.val.toNat = v at hlt
  generalize d.val.toNat = w at hlt hbound
  -- where the larger character takes more bytes, the lead bytes differ already
  split
  · repeat' split
    all_goals exact ofNat_cons_lt (by omega) (Or.inl (by omega))
  · rw [if_neg (by omega : ¬ w ≤ 127)]
    split
    · split
      · have hbits : v / 64 % 32 + 192 < w / 64 % 32 + 192 ∨
            v / 64 % 32 + 192 = w / 64 % 32 + 192 ∧ v % 64 + 128 < w % 64 + 128 := by omega
        exact ofNat_cons_lt (by omega) (hbits.imp_right (And.imp_right fun hlast =>
          ofNat_cons_lt (by omega) (Or.inl hlast)))
      · repeat' split
        all_goals exact ofNat_cons_lt (by omega) (Or.inl (by omega))
    · rw [if_neg (by omega : ¬ w ≤ 2047)]
      split
      · split
        · have hbits : v / 4096 % 16 + 224 < w / 4096 % 16 + 224 ∨
              v / 4096 % 16 + 224 = w / 4096 % 16 + 224 ∧
                (v / 64 % 64 + 128 < w / 64 % 64 + 128 ∨
                  v / 64 % 64 + 128 = w / 64 % 64 + 128 ∧ v % 64 + 128 < w % 64 + 128) := by
            omega
          exact ofNat_cons_lt (by omega) (hbits.imp_right (And.imp_right fun hrest =>
            ofNat_cons_lt (by omega) (hrest.imp_right (And.imp_right fun hlast =>
              ofNat_cons_lt (by omega) (Or.inl hlast)))))
        · exact ofNat_cons_lt (by omega) (Or.inl (by omega))
      · rw [if_neg (by omega : ¬ w ≤ 65535)]
        have hbits : v / 262144 % 8 + 240 < w / 262144 % 8 + 240 ∨
            v / 262144 % 8 + 240 = w / 262144 % 8 + 240 ∧
              (v / 4096 % 64 + 128 < w / 4096 % 64 + 128 ∨
                v / 4096 % 64 + 128 = w / 4096 % 64 + 128 ∧
                  (v / 64 % 64 + 128 < w / 64 % 64 + 128 ∨
                    v / 64 % 64 + 128 = w / 64 % 64 + 128 ∧ v % 64 + 128 < w % 64 + 128)) := by
          by_cases hlead : v / 262144 < w / 262144
          · left
            omega
          · right
            refine ⟨by omega, ?_⟩
            by_cases hnext : v / 4096 < w / 4096
            · left
              omega
            · right
              exact ⟨by omega, by omega⟩
        exact ofNat_cons_lt (by omega) (hbits.imp_right (And.imp_right fun hrest =>
          ofNat_cons_lt (by omega) (hrest.imp_right (And.imp_right fun hrest =>
            ofNat_cons_lt (by omega) (hrest.imp_right (And.imp_right fun hlast =>
              ofNat_cons_lt (by omega) (Or.inl hlast)))))))

/-- What is written in UTF-8 is ordered as the characters are. -/
theorem encode_lt_encode {first second : List Char} (h : first < second) :
    encode first < encode second := by
  induction h with
  | @nil c rest =>
    rw [encode, encode, List.flatMap_nil, List.flatMap_cons]
    cases hbytes : String.utf8EncodeChar c with
    | nil => exact absurd hbytes String.utf8EncodeChar_ne_nil
    | cons b bytes => exact List.nil_lt_cons _ _
  | rel h => exact utf8EncodeChar_append_lt h _ _
  | cons h ih => exact List.append_left_lt ih

/-- Texts are ordered by code points as they are by bytes. -/
theorem bytesOf_lt_bytesOf {first second : String} (h : first < second) :
    Http.bytesOf first.toUTF8 < Http.bytesOf second.toUTF8 := by
  have hlt := encode_lt_encode (String.lt_iff.mp h)
  rwa [← bytesOf_ofList, ← bytesOf_ofList, String.ofList_toList, String.ofList_toList] at hlt

end RemoteCall.Text.Utf8
