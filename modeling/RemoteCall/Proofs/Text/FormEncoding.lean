import RemoteCall.Proofs.Text.Utf8
import RemoteCall.Text.FormEncoding

/-!
# Reading what was written as a form

An escaped text holds neither of the two separators, so the pieces of a form and the two
parts of a piece are found where they were joined. Every pair comes back as it was, whatever
characters its texts hold.
-/

namespace RemoteCall.Text.FormEncoding

/-- Whether a byte can stand in an escaped text. -/
def isEscaped (b : UInt8) : Bool :=
  isPlain b || b == 0x2B || b == 0x25

/-- What holds of the byte of every number below 256 holds of every byte. -/
theorem forall_byte {P : UInt8 → Prop} (h : ∀ n < 256, P (UInt8.ofNat n)) (b : UInt8) : P b := by
  have hb := h b.toNat b.toNat_lt
  rwa [UInt8.ofNat_toNat] at hb

/-- The two digits of a byte are plain and give its two halves back. -/
theorem digits_spec (b : UInt8) :
    hexValue? (hexDigit (b / 16)) = some (b / 16) ∧ hexValue? (hexDigit (b % 16)) = some (b % 16) ∧
      b / 16 * 16 + b % 16 = b ∧ isPlain (hexDigit (b / 16)) = true ∧
      isPlain (hexDigit (b % 16)) = true := by
  revert b
  exact forall_byte (by decide +kernel)

/-- A plain byte is neither the escape sign nor the sign for a space. -/
theorem isPlain_spec (b : UInt8) : isPlain b = true → b ≠ 0x25 ∧ b ≠ 0x2B := by
  revert b
  exact forall_byte (by decide +kernel)

/-- A byte that is not the escape sign stands for itself, or for a space. -/
theorem unescape_cons {b : UInt8} (hb : b ≠ 0x25) (rest : List UInt8) :
    unescape (b :: rest) = (if b = 0x2B then 0x20 else b) :: unescape rest := by
  match rest with
  | [] => simp [unescape]
  | [_] => simp [unescape]
  | _ :: _ :: _ => rw [unescape, if_neg hb]

/-- The form in which a byte is written is read back as the byte, whatever follows. -/
theorem unescape_escapeByte (b : UInt8) (rest : List UInt8) :
    unescape (escapeByte b ++ rest) = b :: unescape rest := by
  obtain ⟨hhigh, hlow, hsum, -⟩ := digits_spec b
  simp only [escapeByte]
  split
  · next hplain =>
    obtain ⟨hescape, hspace⟩ := isPlain_spec b hplain
    rw [List.cons_append, List.nil_append, unescape_cons hescape, if_neg hspace]
  · split
    · next hspace =>
      have hescape : (0x2B : UInt8) ≠ 0x25 := by decide
      rw [hspace, List.cons_append, List.nil_append, unescape_cons hescape, if_pos rfl]
    · simp only [List.cons_append, List.nil_append, unescape, if_pos, hhigh, hlow, hsum]

/-- Escaping loses no byte. -/
theorem unescape_escape (bytes : List UInt8) : unescape (escape bytes) = bytes := by
  induction bytes with
  | nil => simp [escape, unescape]
  | cons b bytes ih =>
    have hsplit : escape (b :: bytes) = escapeByte b ++ escape bytes := by simp [escape]
    rw [hsplit, unescape_escapeByte, ih]

/-- A text that has been written is read as it was. -/
theorem readText_writeText (text : String) : readText (writeText text) = text := by
  rw [readText, writeText, unescape_escape, Utf8.decodeLenient_encode, String.ofList_toList]

/-- Whatever the text, only plain bytes, `+` and `%` are written. -/
theorem isEscaped_of_mem_writeText {text : String} {b : UInt8} (h : b ∈ writeText text) :
    isEscaped b = true := by
  obtain ⟨written, -, hmem⟩ := List.mem_flatMap.mp h
  obtain ⟨-, -, -, hhigh, hlow⟩ := digits_spec written
  simp only [escapeByte] at hmem
  split at hmem
  · next hplain =>
    obtain rfl := List.mem_singleton.mp hmem
    simp [isEscaped, hplain]
  · split at hmem
    · obtain rfl := List.mem_singleton.mp hmem
      rfl
    · simp only [List.mem_cons, List.not_mem_nil, or_false] at hmem
      rcases hmem with rfl | rfl | rfl
      · rfl
      · simp [isEscaped, hhigh]
      · simp [isEscaped, hlow]

/-- A byte of an escaped text is ASCII, no separator and no mark that ends a query. -/
theorem isEscaped_spec (b : UInt8) :
    isEscaped b = true → b ≠ 0x26 ∧ b ≠ 0x3D ∧ b ≠ 0x23 ∧ b < 0x80 := by
  revert b
  exact forall_byte (by decide +kernel)

/-- Bytes without the separator are cut where they end. -/
theorem cut_append {separator : UInt8} {before : List UInt8} (hbefore : separator ∉ before)
    (after : List UInt8) : cut separator (before ++ separator :: after) = (before, some after) := by
  induction before with
  | nil => simp [cut]
  | cons b before ih =>
    simp only [List.mem_cons, not_or] at hbefore
    simp only [List.cons_append, cut, if_neg (Ne.symm hbefore.1), ih hbefore.2]

/-- Bytes without the separator are a single piece. -/
theorem cut_of_not_mem {separator : UInt8} {bytes : List UInt8} (h : separator ∉ bytes) :
    cut separator bytes = (bytes, none) := by
  induction bytes with
  | nil => rfl
  | cons b bytes ih =>
    simp only [List.mem_cons, not_or] at h
    simp only [cut, if_neg (Ne.symm h.1), ih h.2]

/-- What stands before the first separator is a piece, and the rest is taken apart in turn. -/
theorem pieces_append {separator : UInt8} {before : List UInt8} (hbefore : separator ∉ before)
    (after : List UInt8) :
    pieces separator (before ++ separator :: after) = before :: pieces separator after := by
  have hcut := cut_append hbefore after
  rw [pieces]
  split
  · next hnone =>
    rw [hcut] at hnone
    cases hnone
  · next rest hsome =>
    rw [hcut] at hsome
    cases hsome
    simp only [hcut]

/-- Bytes without the separator are all of the pieces. -/
theorem pieces_of_not_mem {separator : UInt8} {bytes : List UInt8} (h : separator ∉ bytes) :
    pieces separator bytes = [bytes] := by
  have hcut := cut_of_not_mem h
  rw [pieces]
  split
  · rw [hcut]
  · next rest hsome =>
    rw [hcut] at hsome
    cases hsome

/-- Bytes that are joined by a separator have the pieces of both parts. -/
theorem pieces_join (separator : UInt8) (before after : List UInt8) :
    pieces separator (before ++ separator :: after) =
      pieces separator before ++ pieces separator after := by
  induction hlength : before.length using Nat.strongRecOn generalizing before with
  | ind length ih =>
    by_cases hmem : separator ∈ before
    · obtain ⟨first, rest, rfl, hfirst⟩ := List.eq_append_cons_of_mem hmem
      have hshorter : rest.length < length := by
        rw [← hlength, List.length_append, List.length_cons]
        omega
      rw [List.append_assoc, List.cons_append, pieces_append hfirst, pieces_append hfirst,
        ih rest.length hshorter rest rfl, List.cons_append]
    · rw [pieces_append hmem, pieces_of_not_mem hmem, List.singleton_append]

/-- Forms that are joined are read one after the other. -/
theorem parse_join (before after : List UInt8) :
    parse (before ++ 0x26 :: after) = parse before ++ parse after := by
  rw [parse, pieces_join, List.filter_append, List.map_append, parse, parse]

/-- No bytes are the form without pairs. -/
theorem parse_nil : parse [] = [] := by
  simp [parse, pieces_of_not_mem]

/-- The piece that a pair is written as. -/
def writePair (pair : String × String) : List UInt8 :=
  writeText pair.1 ++ 0x3D :: writeText pair.2

/-- A separator stands between a pair and the next. -/
theorem serialize_cons_cons (pair next : String × String) (rest : List (String × String)) :
    serialize (pair :: next :: rest) = writePair pair ++ 0x26 :: serialize (next :: rest) := by
  simp [serialize, writePair]

/-- A piece holds its own separator, and none of the form. -/
theorem mem_writePair {pair : String × String} {b : UInt8} (h : b ∈ writePair pair) :
    isEscaped b = true ∨ b = 0x3D := by
  rcases List.mem_append.mp h with hname | hvalue
  · exact .inl (isEscaped_of_mem_writeText hname)
  · rcases List.mem_cons.mp hvalue with heq | hvalue
    · exact .inr heq
    · exact .inl (isEscaped_of_mem_writeText hvalue)

/-- The separator of the pairs is not written within a pair. -/
theorem ampersand_not_mem_writePair (pair : String × String) : 0x26 ∉ writePair pair := by
  intro h
  rcases mem_writePair h with hescaped | heq
  · exact (isEscaped_spec _ hescaped).1 rfl
  · exact absurd heq (by decide)

/-- A pair that has been written is read as it was. -/
theorem readPair_writePair (pair : String × String) : readPair (writePair pair) = pair := by
  have hname : 0x3D ∉ writeText pair.1 := fun hmem =>
    (isEscaped_spec _ (isEscaped_of_mem_writeText hmem)).2.1 rfl
  simp only [readPair, writePair, cut_append hname, Option.getD_some, readText_writeText]

/-- A pair is never written as nothing, not even if both of its texts are empty. -/
theorem isEmpty_writePair (pair : String × String) : (writePair pair).isEmpty = false := by
  simp [writePair]

/-- A form whose first piece is a pair is read as that pair and the rest of the form. -/
theorem parse_writePair_append (pair : String × String) (bytes : List UInt8) :
    parse (writePair pair ++ 0x26 :: bytes) = pair :: parse bytes := by
  simp [parse, pieces_append (ampersand_not_mem_writePair pair), isEmpty_writePair,
    readPair_writePair]

/-- Whatever the names and values, a form is read as it was written: all pairs, in their
order. -/
theorem parse_serialize (pairs : List (String × String)) : parse (serialize pairs) = pairs := by
  induction pairs with
  | nil => exact parse_nil
  | cons pair pairs ih =>
    cases pairs with
    | nil =>
      have hone : serialize [pair] = writePair pair := rfl
      simp [parse, hone, pieces_of_not_mem (ampersand_not_mem_writePair pair),
        isEmpty_writePair, readPair_writePair]
    | cons next rest => rw [serialize_cons_cons, parse_writePair_append, ih]

/-- A pair is written in ASCII, and without the sign that begins a fragment. -/
theorem ascii_of_mem_writePair {pair : String × String} {b : UInt8} (h : b ∈ writePair pair) :
    b ≠ 0x23 ∧ b < 0x80 := by
  rcases mem_writePair h with hescaped | rfl
  · exact (isEscaped_spec b hescaped).2.2
  · decide

/-- A form is ASCII and holds no mark that ends a query. -/
theorem mem_serialize {pairs : List (String × String)} {b : UInt8} (h : b ∈ serialize pairs) :
    b ≠ 0x23 ∧ b < 0x80 := by
  induction pairs with
  | nil => cases h
  | cons pair pairs ih =>
    cases pairs with
    | nil => exact ascii_of_mem_writePair h
    | cons next rest =>
      rw [serialize_cons_cons] at h
      rcases List.mem_append.mp h with hmem | hmem
      · exact ascii_of_mem_writePair hmem
      · rcases List.mem_cons.mp hmem with rfl | hmem
        · decide
        · exact ih hmem

end RemoteCall.Text.FormEncoding
