import RemoteCall.Http.Request

/-!
# Reading what was written in UTF-8

The lenient reader meets no ill-formed piece in bytes that were written from characters:
it gives the characters back. The number of bytes of a character and the bounds of its
second byte follow from its code point, which is no surrogate.
-/

namespace RemoteCall.Text.Utf8

/-- A byte within the bounds adds its six bits to the code point. -/
theorem follow_bits {count code bits : Nat} {low high : UInt8} (hlow : low.toNat ≤ bits + 0x80)
    (hhigh : bits + 0x80 ≤ high.toNat) (rest : List UInt8) :
    follow (count + 1) low high code (UInt8.ofNat (bits + 0x80) :: rest) =
      follow count 0x80 0xBF (code * 64 + bits) rest := by
  have hlt : bits + 0x80 < 256 := Nat.lt_of_le_of_lt hhigh high.toNat_lt
  have htoNat : (UInt8.ofNat (bits + 0x80)).toNat = bits + 0x80 := UInt8.toNat_ofNat_of_lt' hlt
  have hbounds : low ≤ UInt8.ofNat (bits + 0x80) ∧ UInt8.ofNat (bits + 0x80) ≤ high := by
    rw [UInt8.le_iff_toNat_le, UInt8.le_iff_toNat_le, htoNat]
    exact ⟨hlow, hhigh⟩
  simp only [follow, if_pos hbounds, htoNat, Nat.add_sub_cancel]

/-- Within the usual bounds, any six bits do. -/
theorem follow_tail {code bits : Nat} (count : Nat) (hbits : bits < 64) (rest : List UInt8) :
    follow (count + 1) 0x80 0xBF code (UInt8.ofNat (bits + 0x80) :: rest) =
      follow count 0x80 0xBF (code * 64 + bits) rest := by
  have hhigh : bits + 0x80 ≤ 0xBF := by omega
  exact follow_bits (Nat.le_add_left 0x80 bits) hhigh rest

/-- The reader decides by the value of the lead byte. -/
theorem readChar_ofNat {n : Nat} (hn : n < 256) (rest : List UInt8) :
    readChar (UInt8.ofNat n) rest =
      if n < 0x80 then (Char.ofNat n, rest)
      else if n < 0xC2 then (replacement, rest)
      else if n < 0xE0 then follow 1 0x80 0xBF (n - 0xC0) rest
      else if n = 0xE0 then follow 2 0xA0 0xBF 0 rest
      else if n = 0xED then follow 2 0x80 0x9F 0x0D rest
      else if n < 0xF0 then follow 2 0x80 0xBF (n - 0xE0) rest
      else if n = 0xF0 then follow 3 0x90 0xBF 0 rest
      else if n < 0xF4 then follow 3 0x80 0xBF (n - 0xF0) rest
      else if n = 0xF4 then follow 3 0x80 0x8F 4 rest
      else (replacement, rest) := by
  have htoNat : (UInt8.ofNat n).toNat = n := UInt8.toNat_ofNat_of_lt' hn
  simp only [readChar, UInt8.lt_iff_toNat_lt, ← UInt8.toNat_inj, htoNat]
  rfl

/-- A code point of two bytes is read back from them. -/
theorem readChar_two_bytes {v : Nat} (hlow : 0x80 ≤ v) (hhigh : v ≤ 0x7FF)
    (rest : List UInt8) :
    readChar (UInt8.ofNat (v / 64 % 32 + 0xC0)) (UInt8.ofNat (v % 64 + 0x80) :: rest) =
      (Char.ofNat v, rest) := by
  have hcode : (v / 64 % 32 + 0xC0 - 0xC0) * 64 + v % 64 = v := by omega
  rw [readChar_ofNat (by omega), if_neg (by omega), if_neg (by omega), if_pos (by omega),
    follow_tail 0 (by omega), hcode]
  rfl

/-- The bounds of the second byte leave out what two bytes can write, and surrogates. -/
theorem readChar_three_bytes {v : Nat} (hlow : 0x800 ≤ v) (hhigh : v ≤ 0xFFFF)
    (hsurrogate : v < 0xD800 ∨ 0xDFFF < v) (rest : List UInt8) :
    readChar (UInt8.ofNat (v / 4096 % 16 + 0xE0))
        (UInt8.ofNat (v / 64 % 64 + 0x80) :: UInt8.ofNat (v % 64 + 0x80) :: rest) =
      (Char.ofNat v, rest) := by
  rw [readChar_ofNat (by omega), if_neg (by omega), if_neg (by omega), if_neg (by omega)]
  split
  · have hsecond : 0xA0 ≤ v / 64 % 64 + 0x80 ∧ v / 64 % 64 + 0x80 ≤ 0xBF := by omega
    have hcode : (0 * 64 + v / 64 % 64) * 64 + v % 64 = v := by omega
    rw [follow_bits hsecond.1 hsecond.2, follow_tail 0 (by omega), hcode]
    rfl
  · split
    · have hsecond : 0x80 ≤ v / 64 % 64 + 0x80 ∧ v / 64 % 64 + 0x80 ≤ 0x9F := by omega
      have hcode : (0x0D * 64 + v / 64 % 64) * 64 + v % 64 = v := by omega
      rw [follow_bits hsecond.1 hsecond.2, follow_tail 0 (by omega), hcode]
      rfl
    · have hcode : ((v / 4096 % 16 + 0xE0 - 0xE0) * 64 + v / 64 % 64) * 64 + v % 64 = v := by
        omega
      rw [if_pos (by omega), follow_tail 1 (by omega), follow_tail 0 (by omega), hcode]
      rfl

/-- The bounds of the second byte leave out what three bytes can write, and what is no code
point. -/
theorem readChar_four_bytes {v : Nat} (hlow : 0x10000 ≤ v) (hhigh : v ≤ 0x10FFFF)
    (rest : List UInt8) :
    readChar (UInt8.ofNat (v / 262144 % 8 + 0xF0))
        (UInt8.ofNat (v / 4096 % 64 + 0x80) :: UInt8.ofNat (v / 64 % 64 + 0x80) ::
          UInt8.ofNat (v % 64 + 0x80) :: rest) =
      (Char.ofNat v, rest) := by
  rw [readChar_ofNat (by omega), if_neg (by omega), if_neg (by omega), if_neg (by omega),
    if_neg (by omega), if_neg (by omega), if_neg (by omega)]
  split
  · have hsecond : 0x90 ≤ v / 4096 % 64 + 0x80 ∧ v / 4096 % 64 + 0x80 ≤ 0xBF := by omega
    have hcode : ((0 * 64 + v / 4096 % 64) * 64 + v / 64 % 64) * 64 + v % 64 = v := by omega
    rw [follow_bits hsecond.1 hsecond.2, follow_tail 1 (by omega), follow_tail 0 (by omega), hcode]
    rfl
  · split
    · have hcode : (((v / 262144 % 8 + 0xF0 - 0xF0) * 64 + v / 4096 % 64) * 64 +
          v / 64 % 64) * 64 + v % 64 = v := by omega
      rw [follow_tail 2 (by omega), follow_tail 1 (by omega), follow_tail 0 (by omega), hcode]
      rfl
    · have hsecond : 0x80 ≤ v / 4096 % 64 + 0x80 ∧ v / 4096 % 64 + 0x80 ≤ 0x8F := by omega
      have hcode : ((4 * 64 + v / 4096 % 64) * 64 + v / 64 % 64) * 64 + v % 64 = v := by omega
      rw [if_pos (by omega), follow_bits hsecond.1 hsecond.2, follow_tail 1 (by omega),
        follow_tail 0 (by omega), hcode]
      rfl

/-- The bytes of a character are read as that character, whatever follows them. -/
theorem decodeLenient_utf8EncodeChar (c : Char) (rest : List UInt8) :
    decodeLenient (String.utf8EncodeChar c ++ rest) = c :: decodeLenient rest := by
  have hvalid : c.val.toNat < 0xD800 ∨ 0xDFFF < c.val.toNat ∧ c.val.toNat < 0x110000 := c.valid
  have hchar : Char.ofNat c.val.toNat = c := Char.ofNat_toNat c
  simp only [String.utf8EncodeChar]
  split
  · rw [List.cons_append, decodeLenient, readChar_ofNat (by omega), if_pos (by omega), hchar]
    rfl
  · split
    · rw [List.cons_append, decodeLenient, List.cons_append,
        readChar_two_bytes (by omega) (by omega), hchar]
      rfl
    · split
      · rw [List.cons_append, decodeLenient, List.cons_append, List.cons_append,
          readChar_three_bytes (by omega) (by omega) (by omega), hchar]
        rfl
      · rw [List.cons_append, decodeLenient, List.cons_append, List.cons_append, List.cons_append,
          readChar_four_bytes (by omega) (by omega), hchar]
        rfl

/-- Whatever the characters, what is written in UTF-8 is read as it was. -/
theorem decodeLenient_encode (chars : List Char) : decodeLenient (encode chars) = chars := by
  induction chars with
  | nil => simp [encode, decodeLenient]
  | cons c chars ih =>
    have hsplit : encode (c :: chars) = String.utf8EncodeChar c ++ encode chars := by
      simp [encode]
    rw [hsplit, decodeLenient_utf8EncodeChar, ih]

/-- A text is kept as the bytes that its characters are written in. -/
theorem bytesOf_ofList (chars : List Char) :
    Http.bytesOf (String.ofList chars).toUTF8 = encode chars := by
  simp [Http.bytesOf, encode, List.utf8Encode]

/-- The bytes of a text are read strictly as the text, too. -/
theorem fromUTF8?_toUTF8 (text : String) : String.fromUTF8? text.toUTF8 = some text :=
  dif_pos text.isValidUTF8

end RemoteCall.Text.Utf8
