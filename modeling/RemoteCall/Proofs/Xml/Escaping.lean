import RemoteCall.Proofs.Xml.Spelling
import RemoteCall.Xml.Document
import RemoteCall.Xml.Escape

/-!
# Escaping and reading

Escaped text is read back as it was: every character that reading would change or take for
markup is written as a reference, and characters from references are taken as they are.
What is escaped without care for line ends and tabs is read back from an attribute if it
holds none.
-/

namespace RemoteCall.Xml

variable {chars rest : List Char}

/-! ## References -/

/-- Any character but an ampersand is read as itself. -/
theorem readWritten_plain {c : Char} (h : c ≠ '&') :
    readWritten (c :: rest) = (readWritten rest).map (.plain c :: ·) := by
  rw [readWritten]
  · cases readWritten rest <;> rfl
  · simpa using h

/-- A reference is read as the character that it stands for. -/
theorem readWritten_reference (name : List Char) {c : Char}
    (h : readReference (name ++ rest) = some (c, rest)) (hname : name ≠ []) :
    readWritten ('&' :: (name ++ rest)) = (readWritten rest).map (.reference c :: ·) := by
  have hlength : rest.length < (name ++ rest).length := by
    have := List.length_pos_iff.mpr hname
    rw [List.length_append]
    omega
  rw [readWritten]
  simp only [h, Option.bind_eq_bind, Option.bind_some, hlength, if_true]
  cases readWritten rest <;> rfl

/-- The character that is meant. -/
def Written.char : Written → Char
  | .plain c => c
  | .reference c => c

/-- How a character is written by the escaping: by a reference, unless it stands for
itself. -/
def writtenBy (escape : Char → List Char) (c : Char) : Written :=
  if escape c = [c] then .plain c else .reference c

/-- However a character is written, it is the one that is meant. -/
theorem char_writtenBy (escape : Char → List Char) (c : Char) :
    (writtenBy escape c).char = c := by
  unfold writtenBy
  split <;> rfl

/-- An escaped character is read as it was written, whatever follows. -/
def IsReadable (escape : Char → List Char) : Prop :=
  ∀ c rest, readWritten (escape c ++ rest) = (readWritten rest).map (writtenBy escape c :: ·)

/-- Characters in which markup is escaped are read as they were written. -/
theorem isReadable_escapeMarkup : IsReadable escapeMarkup := by
  intro c rest
  unfold writtenBy escapeMarkup
  split
  · exact readWritten_reference ['l', 't', ';'] rfl (by simp)
  · exact readWritten_reference ['g', 't', ';'] rfl (by simp)
  · exact readWritten_reference ['a', 'm', 'p', ';'] rfl (by simp)
  · exact readWritten_reference ['a', 'p', 'o', 's', ';'] rfl (by simp)
  · exact readWritten_reference ['q', 'u', 'o', 't', ';'] rfl (by simp)
  · next hne _ _ =>
    rw [if_pos rfl]
    exact readWritten_plain hne

/-- Characters escaped for text are read as they were written. -/
theorem isReadable_escapeTextChar : IsReadable escapeTextChar := by
  intro c rest
  by_cases hc : c = '\r'
  · subst hc
    exact readWritten_reference ['#', '1', '3', ';'] rfl (by simp)
  · have hescape : escapeTextChar c = escapeMarkup c := if_neg hc
    rw [writtenBy, hescape]
    exact isReadable_escapeMarkup c rest

/-- Characters escaped for attribute values are read as they were written. -/
theorem isReadable_escapeAttributeChar : IsReadable escapeAttributeChar := by
  intro c rest
  by_cases hfeed : c = '\n'
  · subst hfeed
    exact readWritten_reference ['#', '1', '0', ';'] rfl (by simp)
  · by_cases htab : c = '\t'
    · subst htab
      exact readWritten_reference ['#', '9', ';'] rfl (by simp)
    · have hescape : escapeAttributeChar c = escapeTextChar c := by
        rw [escapeAttributeChar, if_neg hfeed, if_neg htab]
      rw [writtenBy, hescape]
      exact isReadable_escapeTextChar c rest

/-- An escaped text is read character by character, each as it was written. -/
theorem IsReadable.readWritten_flatMap {escape : Char → List Char} (h : IsReadable escape)
    (chars : List Char) :
    readWritten (chars.flatMap escape) = some (chars.map (writtenBy escape)) := by
  induction chars with
  | nil => simp [readWritten]
  | cons c chars ih => rw [List.flatMap_cons, h, ih]; rfl

/-! ## Line ends -/

/-- Text in which no carriage return is plain is taken as it is. -/
theorem normalizeText_of_forall {written : List Written} (h : .plain '\r' ∉ written)
    (afterReference : Bool) : normalizeText afterReference written = written.map Written.char := by
  fun_induction normalizeText afterReference written with
  | case1 => rfl
  | case2 _ c rest ih => rw [ih (by simp_all)]; rfl
  | case3 => simp at h
  | case4 => simp at h
  | case5 => simp at h
  | case6 => simp at h
  | case7 _ c rest _ _ _ _ ih => rw [ih (by simp_all)]; rfl

/-- Whether an attribute value keeps the character when it is written plainly. -/
def isKeptInValue (c : Char) : Bool :=
  c != '\n' && c != '\r' && c != '\t'

/-- A value without plain line ends and tabs is taken as it is. -/
theorem normalizeAttribute_of_forall {written : List Written}
    (h : ∀ c, .plain c ∈ written → isKeptInValue c = true) :
    normalizeAttribute written = written.map Written.char := by
  fun_induction normalizeAttribute written with
  | case1 => rfl
  | case2 => simp [isKeptInValue] at h
  | case3 c rest _ ih =>
    have hc := h c (by simp)
    rw [ih fun d hd => h d (by simp [hd])]
    simp_all [isKeptInValue, Written.char]
  | case4 c rest ih => rw [ih fun d hd => h d (by simp [hd])]; rfl

/-! ## Escaped text -/

/-- Whether the text holds only characters that a document may hold. -/
def isXmlText (text : String) : Bool :=
  text.toList.all isXmlChar

/-- Whether no plain line end or tab is among the characters, so that an attribute keeps
them even when only markup is escaped. -/
def isOneLine (text : String) : Bool :=
  text.toList.all isKeptInValue

/-- Escaping leaves no character that could end a text or a quoted value, and none that a
document may not hold. -/
def IsConfined (escape : Char → List Char) : Prop :=
  ∀ c, ∀ d ∈ escape c, d ∉ ['<', '>', '"'] ∧ (isXmlChar c = true → isXmlChar d = true)

/-- A reference is harmless, whatever it stands for. -/
theorem confined_reference {written : List Char}
    (h : (written.all fun d => d ∉ ['<', '>', '"'] && isXmlChar d) = true) (c : Char) :
    ∀ d ∈ written, d ∉ ['<', '>', '"'] ∧ (isXmlChar c = true → isXmlChar d = true) := by
  intro d hd
  have hd' := List.all_eq_true.mp h d hd
  rw [Bool.and_eq_true, decide_eq_true_eq] at hd'
  exact ⟨hd'.1, fun _ => hd'.2⟩

/-- Where markup is escaped, none is left. -/
theorem isConfined_escapeMarkup : IsConfined escapeMarkup := by
  intro c
  unfold escapeMarkup
  split
  iterate 5 exact confined_reference (by decide) _
  · intro d hd
    obtain rfl := List.mem_singleton.mp hd
    exact ⟨by simp_all, id⟩

/-- The escaping of text leaves no markup. -/
theorem isConfined_escapeTextChar : IsConfined escapeTextChar := by
  intro c
  unfold escapeTextChar
  split
  · exact confined_reference (by decide) c
  · exact isConfined_escapeMarkup c

/-- The escaping of attribute values leaves no markup and no quote. -/
theorem isConfined_escapeAttributeChar : IsConfined escapeAttributeChar := by
  intro c
  unfold escapeAttributeChar
  split
  · exact confined_reference (by decide) c
  · split
    · exact confined_reference (by decide) c
    · exact isConfined_escapeTextChar c

/-- An escaped text holds no bracket and no double quote. -/
theorem IsConfined.not_mem_flatMap {escape : Char → List Char} (h : IsConfined escape)
    {d : Char} (hd : d ∈ ['<', '>', '"']) : d ∉ chars.flatMap escape := by
  intro hmem
  obtain ⟨c, -, hc⟩ := List.mem_flatMap.mp hmem
  exact (h c d hc).1 hd

/-- An escaped text is legal if the text is. -/
theorem IsConfined.isXmlChar_flatMap {escape : Char → List Char} (h : IsConfined escape)
    (hchars : chars.all isXmlChar = true) : (chars.flatMap escape).all isXmlChar = true := by
  refine List.all_eq_true.mpr fun d hd => ?_
  obtain ⟨c, hc, hd⟩ := List.mem_flatMap.mp hd
  exact (h c d hd).2 (List.all_eq_true.mp hchars c hc)

/-- Escaped text can stand between double quotes, and is as legal as it was. -/
theorem IsConfined.forall_mem_escaped {escape : Char → List Char} (h : IsConfined escape)
    {text : String} (hlegal : isXmlText text = true) :
    ∀ c ∈ (String.ofList (text.toList.flatMap escape)).toList,
      c ∉ ['<', '>', '"'] ∧ isXmlChar c = true := by
  intro c hc
  rw [String.toList_ofList] at hc
  refine ⟨fun hmem => h.not_mem_flatMap hmem hc, ?_⟩
  exact List.all_eq_true.mp (h.isXmlChar_flatMap hlegal) c hc

/-- What the escaping leaves as it is, attribute values keep. -/
theorem attributeValue_flatMap {escape : Char → List Char} (h : IsReadable escape)
    {value : String} (hkept : ∀ c ∈ value.toList, escape c = [c] → isKeptInValue c = true) :
    attributeValue (value.toList.flatMap escape) = some value := by
  have hwritten : normalizeAttribute (value.toList.map (writtenBy escape)) = value.toList := by
    rw [normalizeAttribute_of_forall, List.map_map]
    · simp [Function.comp_def, char_writtenBy]
    · simp only [List.mem_map, writtenBy]
      rintro c ⟨d, hd, heq⟩
      split at heq
      · next hescape =>
        cases heq
        exact hkept c hd hescape
      · cases heq
  simp [attributeValue, h.readWritten_flatMap, hwritten]

/-- An escaped attribute value is read as the value, whatever it holds. -/
theorem attributeValue_escapeAttribute (value : String) :
    attributeValue (escapeAttribute value).toList = some value := by
  rw [escapeAttribute, String.toList_ofList]
  refine attributeValue_flatMap isReadable_escapeAttributeChar fun c _ hescape => ?_
  by_cases hc : c ∈ ['\n', '\r', '\t']
  · simp only [List.mem_cons, List.not_mem_nil, or_false] at hc
    rcases hc with rfl | rfl | rfl <;> cases hescape
  · simp_all [isKeptInValue]

/-- Text that has been escaped keeps its line ends, since no carriage return is plain. -/
theorem normalizeText_writtenBy (chars : List Char) :
    normalizeText false (chars.map (writtenBy escapeTextChar)) = chars := by
  rw [normalizeText_of_forall, List.map_map]
  · simp [Function.comp_def, char_writtenBy]
  · simp only [List.mem_map, not_exists, not_and, writtenBy]
    intro c _ heq
    split at heq
    · next hescape =>
      cases heq
      cases hescape
    · cases heq

/-- Escaped text between tags is the text. -/
theorem resolve_escapeText (scope : List Binding) (text : String) :
    resolve scope (.text (escapeText text).toList) =
      some (.text text.toList (escapeText text).toList []) := by
  have hread := isReadable_escapeTextChar.readWritten_flatMap text.toList
  simp [resolve, escapeText, hread, normalizeText_writtenBy]

end RemoteCall.Xml
