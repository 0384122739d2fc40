import RemoteCall.Proofs.Xml.Escaping

/-!
# Escaping by replacement

Escaping goes over a text more than once: markup is escaped first, and then one character after
the other is replaced by a reference. No pass touches what an earlier one has written, so all of
them together work on each character by itself, and nothing is lost.
-/

namespace RemoteCall.Xml

variable {escape : Char → List Char}

/-- Writes one character in another way. -/
def replaceIn (chars : List Char) (replacement : Char × String) : List Char :=
  chars.flatMap fun c => if c = replacement.1 then replacement.2.toList else [c]

/-- Writes one character of a text in another way. -/
def replaceChar (text : String) (replacement : Char × String) : String :=
  String.ofList (replaceIn text.toList replacement)

/-- The references that stand for markup characters and quotes. -/
def predefined : List String :=
  ["&lt;", "&gt;", "&amp;", "&apos;", "&quot;"]

/-- What text is written with besides. -/
def textReplacements : List (Char × String) :=
  [('\r', "&#13;")]

/-- What attribute values are written with besides. -/
def valueReplacements : List (Char × String) :=
  [('\n', "&#10;"), ('\r', "&#13;"), ('\t', "&#9;")]

/-- Markup is escaped, and then some characters are written as references, one after the other.
What is written can be told apart from markup, and no two texts are written alike. -/
structure IsEscaping (escape : String → String) (replacements : List (Char × String))
    (forbidden : List Char) : Prop where
  passes : ∀ text, escape text = replacements.foldl replaceChar (escapePlain text)
  injective : ∀ first second, escape first = escape second → first = second
  append : ∀ first second, escape (first ++ second) = escape first ++ escape second
  confined : ∀ text, ∀ c ∈ forbidden, c ∉ (escape text).toList
  references : ∀ text before after, (escape text).toList = before ++ '&' :: after →
    ∃ reference ∈ predefined ++ replacements.map Prod.snd, reference.toList <+: '&' :: after

/-- What can be read back is written alike for no two texts. -/
theorem IsReadable.flatMap_inj (h : IsReadable escape) {first second : List Char}
    (heq : first.flatMap escape = second.flatMap escape) : first = second := by
  have hread := h.readWritten_flatMap first
  rw [heq, h.readWritten_flatMap second, Option.some.injEq] at hread
  have hchars := congrArg (List.map Written.char) hread
  simpa [Function.comp_def, char_writtenBy] using hchars.symm

/-- Replacing goes over every character by itself, so the later passes may be made at once with
the first. -/
theorem foldl_replaceChar (replacements : List (Char × String)) (chars : List Char)
    (escape : Char → List Char) :
    replacements.foldl replaceChar (String.ofList (chars.flatMap escape)) =
      String.ofList (chars.flatMap fun c => replacements.foldl replaceIn (escape c)) := by
  induction replacements generalizing escape with
  | nil => rfl
  | cons replacement replacements ih =>
    have hfirst : replaceChar (String.ofList (chars.flatMap escape)) replacement =
        String.ofList (chars.flatMap fun c => replaceIn (escape c) replacement) := by
      rw [replaceChar, replaceIn, String.toList_ofList, List.flatMap_assoc]
      rfl
    rw [List.foldl_cons, hfirst, ih]
    rfl

/-- The text begins with its only ampersand. -/
def IsReference (reference : String) : Prop :=
  reference.toList.head? = some '&' ∧ '&' ∉ reference.toList.tail

instance (reference : String) : Decidable (IsReference reference) :=
  inferInstanceAs (Decidable (_ ∧ _))

/-- A character is written by one of the references, or as it is if it is no ampersand. -/
structure WritesReferences (references : List String) (escape : Char → List Char) : Prop where
  written : ∀ c, (escape c = [c] ∧ c ≠ '&') ∨ ∃ reference ∈ references, escape c = reference.toList
  isReference : ∀ reference ∈ references, IsReference reference

namespace WritesReferences

variable {references : List String}

/-- An ampersand that is written begins a reference. -/
theorem exists_reference (h : WritesReferences references escape) {chars before after : List Char}
    (heq : chars.flatMap escape = before ++ '&' :: after) :
    ∃ reference ∈ references, reference.toList <+: '&' :: after := by
  induction chars generalizing before with
  | nil => simp at heq
  | cons c chars ih =>
    rw [List.flatMap_cons] at heq
    rcases List.append_eq_append_iff.mp heq with ⟨middle, rfl, hrest⟩ | ⟨middle, hwritten, hrest⟩
    · exact ih hrest
    · cases middle with
      | nil => exact @ih [] hrest.symm
      | cons d middle =>
        -- the ampersand is one of the characters written for `c`
        obtain ⟨rfl, rfl⟩ := List.cons.inj hrest
        rcases h.written c with ⟨hplain, hne⟩ | ⟨reference, hmem, hreference⟩
        · have hc : '&' ∈ [c] := by simp [← hplain, hwritten]
          exact absurd (List.mem_singleton.mp hc).symm hne
        · have hfirst := h.isReference reference hmem
          rw [IsReference, ← hreference, hwritten] at hfirst
          cases before with
          | nil =>
            rw [List.nil_append] at hwritten
            exact ⟨reference, hmem, chars.flatMap escape, by rw [← hreference, hwritten]; rfl⟩
          | cons e before => simp at hfirst

/-- No character is left that is neither written plainly nor part of a reference. -/
theorem not_mem_flatMap (h : WritesReferences references escape) {forbidden : List Char}
    (hplain : ∀ c ∈ forbidden, escape c ≠ [c])
    (hreferences : ∀ reference ∈ references, ∀ c ∈ forbidden, c ∉ reference.toList)
    (chars : List Char) : ∀ c ∈ forbidden, c ∉ chars.flatMap escape := by
  intro c hc hmem
  obtain ⟨d, -, hd⟩ := List.mem_flatMap.mp hmem
  rcases h.written d with ⟨hself, -⟩ | ⟨reference, hreference, hwritten⟩
  · rw [hself, List.mem_singleton] at hd
    subst hd
    exact hplain c hc hself
  · rw [hwritten] at hd
    exact hreferences reference hreference c hc hd

/-- An escaping of the characters is one of texts. -/
theorem isEscaping {replacements : List (Char × String)} {forbidden : List Char}
    (h : WritesReferences (predefined ++ replacements.map Prod.snd) escape)
    (hreadable : IsReadable escape)
    (hpasses : ∀ c, escape c = replacements.foldl replaceIn (escapeMarkup c))
    (hplain : ∀ c ∈ forbidden, escape c ≠ [c])
    (hreferences : ∀ reference ∈ predefined ++ replacements.map Prod.snd, ∀ c ∈ forbidden,
      c ∉ reference.toList) :
    IsEscaping (fun text => String.ofList (text.toList.flatMap escape)) replacements forbidden where
  passes text := by
    rw [escapePlain, foldl_replaceChar]
    simp only [← hpasses]
  injective first second heq :=
    String.toList_inj.mp (hreadable.flatMap_inj (String.ofList_injective heq))
  append first second := by rw [String.toList_append, List.flatMap_append, String.ofList_append]
  confined text := by
    rw [String.toList_ofList]
    exact h.not_mem_flatMap hplain hreferences text.toList
  references text before after heq := by
    rw [String.toList_ofList] at heq
    exact h.exists_reference heq

end WritesReferences

/-- The first pass writes the predefined references. -/
theorem writesReferences_escapeMarkup : WritesReferences predefined escapeMarkup where
  written := by
    intro c
    unfold escapeMarkup
    split
    · exact .inr ⟨"&lt;", by decide, by decide⟩
    · exact .inr ⟨"&gt;", by decide, by decide⟩
    · exact .inr ⟨"&amp;", by decide, by decide⟩
    · exact .inr ⟨"&apos;", by decide, by decide⟩
    · exact .inr ⟨"&quot;", by decide, by decide⟩
    · next hne _ _ => exact .inl ⟨rfl, hne⟩
  isReference := by decide

/-- Writing one more character by a reference. -/
theorem WritesReferences.replace {references references' : List String}
    {replaced : Char → List Char} (h : WritesReferences references escape) (c : Char)
    (reference : String)
    (hsubset : reference :: references ⊆ references')
    (hreference : ∀ reference ∈ references', IsReference reference)
    (hreplaced : ∀ d, replaced d = if d = c then reference.toList else escape d) :
    WritesReferences references' replaced where
  written d := by
    rw [hreplaced]
    split
    · exact .inr ⟨reference, hsubset (by simp), rfl⟩
    · rcases h.written d with hplain | ⟨other, hmem, hother⟩
      · exact .inl hplain
      · exact .inr ⟨other, hsubset (List.mem_cons_of_mem _ hmem), hother⟩
  isReference := hreference

/-- For text, one reference is written besides: that of a carriage return. -/
theorem writesReferences_escapeTextChar :
    WritesReferences (predefined ++ textReplacements.map Prod.snd) escapeTextChar :=
  writesReferences_escapeMarkup.replace '\r' "&#13;" (by decide) (by decide) fun _ => rfl

/-- For attribute values, the references of line ends and tabs are written besides. -/
theorem writesReferences_escapeAttributeChar :
    WritesReferences (predefined ++ valueReplacements.map Prod.snd) escapeAttributeChar := by
  have htab : WritesReferences (predefined ++ ["&#13;", "&#9;"])
      fun d => if d = '\t' then "&#9;".toList else escapeTextChar d :=
    writesReferences_escapeTextChar.replace '\t' "&#9;" (by decide) (by decide) fun _ => rfl
  exact htab.replace '\n' "&#10;" (by decide) (by decide) fun _ => rfl

/-- Replacing a character that is not there changes nothing. -/
theorem replaceIn_eq_self {chars : List Char} {replacement : Char × String}
    (h : replacement.1 ∉ chars) : replaceIn chars replacement = chars := by
  induction chars with
  | nil => rfl
  | cons c chars ih =>
    obtain ⟨hne, hchars⟩ := List.ne_and_not_mem_of_not_mem_cons h
    have hrest : chars.flatMap (fun c => if c = replacement.1 then replacement.2.toList else [c]) =
        chars := ih hchars
    rw [replaceIn, List.flatMap_cons, if_neg (Ne.symm hne), hrest]
    rfl

/-- Replacing characters none of which is there changes nothing. -/
theorem foldl_replaceIn_eq_self {replacements : List (Char × String)} {chars : List Char}
    (h : ∀ replacement ∈ replacements, replacement.1 ∉ chars) :
    replacements.foldl replaceIn chars = chars := by
  induction replacements with
  | nil => rfl
  | cons replacement replacements ih =>
    obtain ⟨hfirst, hrest⟩ := List.forall_mem_cons.mp h
    rw [List.foldl_cons, replaceIn_eq_self hfirst, ih hrest]

/-- The later passes leave alone what the first has written, unless it is a character that they
replace. -/
theorem foldl_replaceIn_escapeMarkup {replacements : List (Char × String)} {c : Char}
    (hc : ∀ replacement ∈ replacements, replacement.1 ≠ c)
    (hreferences : ∀ replacement ∈ replacements, ∀ reference ∈ predefined,
      replacement.1 ∉ reference.toList) :
    replacements.foldl replaceIn (escapeMarkup c) = escapeMarkup c := by
  refine foldl_replaceIn_eq_self fun replacement hmem => ?_
  rcases writesReferences_escapeMarkup.written c with ⟨hplain, -⟩ | ⟨reference, href, hwritten⟩
  · rw [hplain]
    simpa using hc replacement hmem
  · rw [hwritten]
    exact hreferences replacement hmem reference href

/-- Text is escaped in two passes: markup, and then carriage returns. -/
theorem isEscaping_escapeText :
    IsEscaping escapeText textReplacements ['<', '>', '"', '\'', '\r'] := by
  refine writesReferences_escapeTextChar.isEscaping isReadable_escapeTextChar (fun c => ?_)
    (by simp [escapeTextChar, escapeMarkup]) (by simp [predefined, textReplacements])
  by_cases hc : c = '\r'
  · subst hc
    rfl
  · rw [foldl_replaceIn_escapeMarkup (by simpa [textReplacements] using Ne.symm hc)
      (by decide), escapeTextChar,
      if_neg hc]

/-- Attribute values are escaped in four passes: markup, line feeds, carriage returns, tabs. -/
theorem isEscaping_escapeAttribute :
    IsEscaping escapeAttribute valueReplacements
      ['<', '>', '"', '\'', '\r', '\n', '\t'] := by
  refine writesReferences_escapeAttributeChar.isEscaping isReadable_escapeAttributeChar
    (fun c => ?_) (by simp [escapeAttributeChar, escapeTextChar, escapeMarkup])
    (by simp [predefined, valueReplacements])
  by_cases hc : c ∈ ['\n', '\r', '\t']
  · simp only [List.mem_cons, List.not_mem_nil, or_false] at hc
    rcases hc with rfl | rfl | rfl <;> rfl
  · simp only [List.mem_cons, List.not_mem_nil, or_false, not_or] at hc
    have hreplaced : ∀ replacement ∈ valueReplacements, replacement.1 ≠ c := by
      simp [valueReplacements, Ne.symm hc.1, Ne.symm hc.2.1, Ne.symm hc.2.2]
    rw [foldl_replaceIn_escapeMarkup hreplaced (by decide), escapeAttributeChar, if_neg hc.1,
      if_neg hc.2.2, escapeTextChar, if_neg hc.2.1]

end RemoteCall.Xml
