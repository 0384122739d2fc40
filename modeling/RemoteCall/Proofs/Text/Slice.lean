/-!
# Parts of a text by byte positions

A text is cut at byte positions. That only works between characters, so the positions of a part
must be known to lie there before it can be cut out.
-/

namespace RemoteCall.Text

/-- The part of a text between two byte positions. There is none unless both lie between
characters, the first not behind the second. -/
def slice? (text : String) (start stop : Nat) : Option String :=
  if h : (String.Pos.Raw.IsValid text ⟨start⟩ ∧ String.Pos.Raw.IsValid text ⟨stop⟩) ∧
      start ≤ stop then
    some (text.extract (text.pos ⟨start⟩ h.1.1) (text.pos ⟨stop⟩ h.1.2))
  else none

/-- The number of bytes that characters take. -/
def byteCount (chars : List Char) : Nat :=
  (String.ofList chars).utf8ByteSize

/-- The bytes of two pieces add up. -/
theorem byteCount_append (first second : List Char) :
    byteCount (first ++ second) = byteCount first + byteCount second := by
  rw [byteCount, String.ofList_append, String.utf8ByteSize_append, byteCount, byteCount]

/-- What stands between other characters is cut out at the bytes that they take. -/
theorem slice?_eq_some {text : String} {before middle after : List Char}
    (h : text.toList = before ++ middle ++ after) :
    slice? text (byteCount before) (byteCount before + byteCount middle) =
      some (String.ofList middle) := by
  have htext : text = String.ofList before ++ String.ofList middle ++ String.ofList after := by
    rw [← String.toList_inj, h]
    simp
  subst htext
  have hstart : String.Pos.Raw.IsValid
      (String.ofList before ++ String.ofList middle ++ String.ofList after)
      ⟨byteCount before⟩ := by
    rw [String.append_assoc]
    exact String.Pos.Raw.isValid_rawEndPos.append_right _
  have hstop : String.Pos.Raw.IsValid
      (String.ofList before ++ String.ofList middle ++ String.ofList after)
      ⟨byteCount before + byteCount middle⟩ := by
    have hend := (@String.Pos.Raw.isValid_rawEndPos
      (String.ofList before ++ String.ofList middle)).append_right (String.ofList after)
    rwa [String.rawEndPos, String.utf8ByteSize_append] at hend
  have hbytes : (String.ofList before ++ String.ofList middle ++ String.ofList after).toByteArray =
      (String.ofList before).toByteArray ++
        ((String.ofList middle).toByteArray ++ (String.ofList after).toByteArray) := by
    rw [String.append_assoc, String.toByteArray_append, String.toByteArray_append]
  rw [slice?, dif_pos ⟨⟨hstart, hstop⟩, Nat.le_add_right ..⟩, Option.some.injEq,
    ← String.toByteArray_inj, String.toByteArray_extract, hbytes]
  change ByteArray.extract _ (byteCount before) (byteCount before + byteCount middle) = _
  rw [byteCount, byteCount, ← String.size_toByteArray, ← String.size_toByteArray,
    ← Nat.add_zero (String.ofList before).toByteArray.size, Nat.add_assoc,
    ByteArray.extract_append_size_add, Nat.zero_add, ByteArray.extract_append_eq_left rfl]

end RemoteCall.Text
