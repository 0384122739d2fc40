import RemoteCall.Xml.Lexeme

/-!
# How markup is spelled

A grammar for the parts of a tag: names, attribute values, attributes and what ends the
tag. Each reader accepts exactly the spellings of its grammar, takes a spelling whole and
leaves the rest alone.
-/

namespace RemoteCall.Xml

variable {chars rest source : List Char}

/-- The characters are the end, or begin with one that does not pass the test. -/
def Stops (test : Char → Bool) (rest : List Char) : Prop :=
  ∀ c ∈ rest.head?, test c = false

/-- Taking letters stops at the end of the source if what follows is no letter. -/
theorem Stops.takeWhile_append {test : Char → Bool} (hsource : ∀ c ∈ source, test c = true)
    (hrest : Stops test rest) : (source ++ rest).takeWhile test = source := by
  rw [List.takeWhile_append_of_pos hsource]
  cases rest with
  | nil => simp
  | cons c rest => simp [hrest c rfl]

/-- Dropping letters leaves what follows the source if that begins with none. -/
theorem Stops.dropWhile_append {test : Char → Bool} (hsource : ∀ c ∈ source, test c = true)
    (hrest : Stops test rest) : (source ++ rest).dropWhile test = rest := by
  rw [List.dropWhile_append_of_pos hsource]
  cases rest with
  | nil => rfl
  | cons c rest => simp [hrest c rfl]

/-- What is left after dropping does not begin with a letter that would have been dropped. -/
theorem stops_dropWhile (test : Char → Bool) (chars : List Char) :
    Stops test (chars.dropWhile test) := by
  intro c hc
  have hhead := List.head?_dropWhile_not test chars
  rw [Option.mem_def.mp hc] at hhead
  simpa using hhead

/-- Whether the character goes on with a name once colons count as letters. -/
def isNameLetter (c : Char) : Bool :=
  c == ':' || isNameChar c

/-- A character that may begin a name may also go on with one. -/
theorem isNameChar_of_isNameStart {c : Char} (h : isNameStart c = true) :
    isNameChar c = true := by
  simp [isNameChar, h]

/-! ## Names -/

/-- The spellings of a qualified name. A colon may stand before a local part that has no
prefix. -/
inductive QName.Spells : QName → List Char → Prop
  | bare {name : List Char} (hname : isNamePart name = true) : Spells ⟨[], name⟩ name
  | prefixed {scope name : List Char} (hscope : scope.isEmpty || isNamePart scope)
      (hname : isNamePart name = true) : Spells ⟨scope, name⟩ (scope ++ ':' :: name)

/-- Every character of a name may go on with a name, the first included. -/
theorem isNameChar_of_isNamePart {name : List Char} (h : isNamePart name = true) :
    ∀ c ∈ name, isNameChar c = true := by
  cases name with
  | nil => simp
  | cons c rest =>
    obtain ⟨hc, hrest⟩ := Bool.and_eq_true_iff.mp h
    intro d hd
    rcases List.mem_cons.mp hd with rfl | hd
    · exact isNameChar_of_isNameStart hc
    · exact List.all_eq_true.mp hrest d hd

/-- A qualified name is spelled with name characters and colons only. -/
theorem QName.Spells.isNameLetter {name : QName} (h : name.Spells source) :
    ∀ c ∈ source, isNameLetter c = true := by
  intro c hc
  cases h with
  | bare hname => simp [Xml.isNameLetter, isNameChar_of_isNamePart hname c hc]
  | @prefixed scope local_ hscope hname =>
    rcases List.mem_append.mp hc with hc | hc
    · have hpart : isNamePart scope = true := by
        cases scope <;> simp_all
      simp [Xml.isNameLetter, isNameChar_of_isNamePart hpart c hc]
    · rcases List.mem_cons.mp hc with rfl | hc
      · rfl
      · simp [Xml.isNameLetter, isNameChar_of_isNamePart hname c hc]

/-- A qualified name ends where neither a name character nor a colon follows. -/
theorem stops_isNameLetter_iff :
    Stops isNameLetter rest ↔ Stops isNameChar rest ∧ rest.head? ≠ some ':' := by
  cases rest with
  | nil => simp [Stops]
  | cons c rest => simp [Stops, isNameLetter, and_comm]

/-- A name is read up to where no letter follows. -/
theorem readQName_eq_some_iff {name : QName} :
    readQName chars = some (name, rest) ↔
      ∃ source, name.Spells source ∧ chars = source ++ rest ∧ Stops isNameLetter rest := by
  constructor
  · intro h
    have hsplit := (List.takeWhile_append_dropWhile (p := isNameChar) (l := chars)).symm
    have hstop := stops_dropWhile isNameChar chars
    simp only [readQName] at h
    split at h
    · next after hafter =>
      have hsplit' := (List.takeWhile_append_dropWhile (p := isNameChar) (l := after)).symm
      have hstop' := stops_dropWhile isNameChar after
      split at h
      · next hvalid =>
        simp only [Bool.and_eq_true] at hvalid
        obtain ⟨⟨hscope, hname⟩, hcolon⟩ := hvalid
        cases h
        refine ⟨_, .prefixed hscope hname, ?_, ?_⟩
        · rw [List.append_assoc, List.cons_append, ← hsplit', ← hafter]
          exact hsplit
        · exact stops_isNameLetter_iff.mpr ⟨hstop', by simpa using hcolon⟩
      · cases h
    · next hcolon =>
      split at h
      · next hname =>
        cases h
        refine ⟨_, .bare hname, hsplit, stops_isNameLetter_iff.mpr ⟨hstop, ?_⟩⟩
        intro hhead
        obtain ⟨after, hafter⟩ := List.head?_eq_some_iff.mp hhead
        exact hcolon after hafter
      · cases h
  · rintro ⟨source, hspells, rfl, hrest⟩
    obtain ⟨hchar, hcolon⟩ := stops_isNameLetter_iff.mp hrest
    cases hspells with
    | bare hname =>
      have hname' := isNameChar_of_isNamePart hname
      simp only [readQName, hchar.takeWhile_append hname', hchar.dropWhile_append hname']
      split
      · simp_all
      · simp [hname]
    | @prefixed scope name hscope hname =>
      have hname' := isNameChar_of_isNamePart hname
      have hscope' : ∀ c ∈ scope, isNameChar c = true := by
        cases scope with
        | nil => simp
        | cons c scope => exact isNameChar_of_isNamePart (by simpa using hscope)
      have hstop : Stops isNameChar (':' :: (name ++ rest)) := by
        intro c hc
        cases hc
        decide
      rw [List.append_assoc, List.cons_append]
      simp only [readQName, hstop.takeWhile_append hscope', hstop.dropWhile_append hscope',
        hchar.takeWhile_append hname', hchar.dropWhile_append hname']
      simp [hname, hcolon, hscope]

/-! ## Space -/

/-- The characters are all space. -/
def IsSpacing (chars : List Char) : Prop :=
  ∀ c ∈ chars, isSpace c = true

/-- No characters are space. -/
theorem isSpacing_nil : IsSpacing [] := by simp [IsSpacing]

/-- What is skipped is space, and it stands before what is left. -/
theorem exists_isSpacing_append_skipSpace (chars : List Char) :
    ∃ space, IsSpacing space ∧ chars = space ++ skipSpace chars := by
  refine ⟨chars.takeWhile isSpace, fun c hc => ?_, ?_⟩
  · exact List.all_eq_true.mp List.all_takeWhile c hc
  · exact List.takeWhile_append_dropWhile.symm

/-- All of the space is skipped if none follows. -/
theorem IsSpacing.skipSpace_append {space : List Char} (h : IsSpacing space)
    (hrest : Stops isSpace rest) : skipSpace (space ++ rest) = rest :=
  hrest.dropWhile_append h

/-- Space ends before any other character. -/
theorem stops_isSpace_cons {c : Char} (h : isSpace c = false) : Stops isSpace (c :: rest) := by
  intro d hd
  cases hd
  exact h

/-- After space, if there is any, a name ends where what follows is no letter. -/
theorem IsSpacing.stops_isNameLetter {space : List Char} (h : IsSpacing space)
    (hrest : Stops isNameLetter rest) : Stops isNameLetter (space ++ rest) := by
  cases space with
  | nil => exact hrest
  | cons d space =>
    intro c hc
    cases hc
    have hspace := h d (by simp)
    simp only [isSpace, Bool.or_eq_true, beq_iff_eq] at hspace
    rcases hspace with ((rfl | rfl) | rfl) | rfl <;> decide

/-- A name ends before any character that is no letter of it. -/
theorem stops_isNameLetter_cons {c : Char} (h : isNameLetter c = false) :
    Stops isNameLetter (c :: rest) := by
  intro d hd
  cases hd
  exact h

/-! ## Attributes -/

/-- The spellings of what follows the name of an attribute. -/
inductive ValueSpells : List Char → List Char → Prop
  | quoted {value before after : List Char} {quote : Char} (hbefore : IsSpacing before)
      (hafter : IsSpacing after) (hquote : quote = '"' ∨ quote = '\'')
      (hvalue : ∀ c ∈ value, c ≠ quote ∧ c ≠ '<') :
      ValueSpells value (before ++ '=' :: (after ++ quote :: (value ++ [quote])))

/-- A value is read up to its closing quote. -/
theorem readValue_eq_some_iff {value : List Char} :
    readValue chars = some (value, rest) ↔
      ∃ source, ValueSpells value source ∧ chars = source ++ rest := by
  constructor
  · intro h
    obtain ⟨before, hbefore, hchars⟩ := exists_isSpacing_append_skipSpace chars
    simp only [readValue] at h
    split at h
    · next first hfirst =>
      obtain ⟨after, hafter, hfirst'⟩ := exists_isSpacing_append_skipSpace first
      split at h
      · next quote second hsecond =>
        split at h
        · next hquote =>
          have hsplit := (List.takeWhile_append_dropWhile
            (p := fun c => c != quote && c != '<') (l := second)).symm
          split at h
          · next c third hthird =>
            split at h
            · next hc =>
              have hc' : c = quote := by simpa using hc
              subst hc'
              cases h
              refine ⟨_, .quoted hbefore hafter (by simpa using hquote) fun d hd => ?_, ?_⟩
              · simpa using List.all_eq_true.mp List.all_takeWhile d hd
              · rw [hthird] at hsplit
                rw [hchars, hfirst, hfirst', hsecond]
                simpa using hsplit
            · cases h
          · cases h
        · cases h
      · cases h
    · cases h
  · rintro ⟨source, hspells, rfl⟩
    cases hspells with
    | @quoted before after quote hbefore hafter hquote hvalue =>
      have hequals : Stops isSpace ('=' :: (after ++ quote :: (value ++ quote :: rest))) :=
        stops_isSpace_cons rfl
      have hopen : Stops isSpace (quote :: (value ++ quote :: rest)) := by
        apply stops_isSpace_cons
        rcases hquote with rfl | rfl <;> rfl
      have hclose : Stops (fun c => c != quote && c != '<') (quote :: rest) := by
        intro c hc
        cases hc
        simp
      have hvalue' : ∀ c ∈ value, (c != quote && c != '<') = true := by simpa using hvalue
      have hchars : before ++ '=' :: (after ++ quote :: (value ++ [quote])) ++ rest =
          before ++ '=' :: (after ++ quote :: (value ++ quote :: rest)) := by simp
      simp only [readValue, hchars, hbefore.skipSpace_append hequals,
        hafter.skipSpace_append hopen, hclose.takeWhile_append hvalue',
        hclose.dropWhile_append hvalue']
      simp [hquote]

/-- What follows the name of an attribute ends the name: it begins with space or with `=`. -/
theorem ValueSpells.stops_isNameLetter {value : List Char} (h : ValueSpells value source) :
    Stops isNameLetter (source ++ rest) := by
  cases h with
  | quoted hbefore =>
    rw [List.append_assoc]
    exact hbefore.stops_isNameLetter (stops_isNameLetter_cons rfl)

/-- The spellings of an attribute. -/
inductive RawAttribute.Spells : RawAttribute → List Char → Prop
  | mk {name : QName} {value nameSource valueSource : List Char}
      (hname : name.Spells nameSource) (hvalue : ValueSpells value valueSource) :
      Spells ⟨name, value⟩ (nameSource ++ valueSource)

/-- An attribute is read exactly where the characters begin with one of its spellings. -/
theorem readAttribute_eq_some_iff {raw : RawAttribute} :
    readAttribute chars = some (raw, rest) ↔
      ∃ source, raw.Spells source ∧ chars = source ++ rest := by
  simp only [readAttribute, Option.bind_eq_bind, Option.bind_eq_some_iff, Option.some.injEq,
    Prod.mk.injEq, Prod.exists]
  constructor
  · rintro ⟨name, after, hreadName, value, rest, hreadValue, rfl, rfl⟩
    obtain ⟨nameSource, hname, rfl, -⟩ := readQName_eq_some_iff.mp hreadName
    obtain ⟨valueSource, hvalue, rfl⟩ := readValue_eq_some_iff.mp hreadValue
    exact ⟨_, .mk hname hvalue, (List.append_assoc ..).symm⟩
  · rintro ⟨source, hspells, rfl⟩
    cases hspells with
    | @mk name value nameSource valueSource hname hvalue =>
      refine ⟨name, valueSource ++ rest, ?_, value, rest, ?_, rfl, rfl⟩
      · exact readQName_eq_some_iff.mpr
          ⟨nameSource, hname, by simp, hvalue.stops_isNameLetter⟩
      · exact readValue_eq_some_iff.mpr ⟨valueSource, hvalue, rfl⟩

/-- Whether a name may begin with the character, colons included. -/
def isNameOpening (c : Char) : Bool :=
  c == ':' || isNameStart c

/-- A qualified name begins with a character that may begin one. -/
theorem QName.Spells.exists_cons {name : QName} (h : name.Spells source) :
    ∃ c tail, source = c :: tail ∧ isNameOpening c = true := by
  have hpart (part : List Char) (hpart : isNamePart part = true) :
      ∃ c tail, part = c :: tail ∧ isNameOpening c = true := by
    cases part with
    | nil => cases hpart
    | cons c tail =>
      exact ⟨c, tail, rfl, by simp [isNameOpening, (Bool.and_eq_true_iff.mp hpart).1]⟩
  cases h with
  | bare hname => exact hpart _ hname
  | @prefixed scope name hscope hname =>
    cases scope with
    | nil => exact ⟨':', name, rfl, rfl⟩
    | cons c scope =>
      obtain ⟨d, tail, heq, hd⟩ := hpart _ (by simpa using hscope)
      exact ⟨d, tail ++ ':' :: name, by rw [heq]; rfl, hd⟩

/-- An attribute begins as its name does. -/
theorem RawAttribute.Spells.exists_cons {raw : RawAttribute} (h : raw.Spells source) :
    ∃ c tail, source = c :: tail ∧ isNameOpening c = true := by
  cases h with
  | mk hname hvalue =>
    obtain ⟨c, tail, rfl, hc⟩ := hname.exists_cons
    exact ⟨c, _, rfl, hc⟩

/-- A name does not begin with a character that ends a tag or begins other markup. -/
theorem not_isNameOpening {c : Char}
    (h : c ∈ ['>', '/', '!', '?', '<', ' ', '\t', '\n', '\r']) : isNameOpening c = false := by
  simp only [List.mem_cons, List.not_mem_nil, or_false] at h
  rcases h with rfl | rfl | rfl | rfl | rfl | rfl | rfl | rfl | rfl <;> decide

/-- No name begins with space. -/
theorem isSpace_of_isNameOpening {c : Char} (h : isNameOpening c = true) :
    isSpace c = false := by
  cases hspace : isSpace c with
  | false => rfl
  | true =>
    simp only [isSpace, Bool.or_eq_true, beq_iff_eq] at hspace
    rw [not_isNameOpening (by rcases hspace with ((rfl | rfl) | rfl) | rfl <;> simp)] at h
    cases h

/-- The spellings of what follows the name in a tag: attributes, each with space before it,
and the end, which tells whether the tag is empty. -/
inductive AttributesSpell : List RawAttribute → Bool → List Char → Prop
  | opened {space : List Char} (hspace : IsSpacing space) :
      AttributesSpell [] false (space ++ ['>'])
  | closed {space : List Char} (hspace : IsSpacing space) :
      AttributesSpell [] true (space ++ ['/', '>'])
  | cons {raw : RawAttribute} {raws : List RawAttribute} {closed : Bool}
      {space rawSource source : List Char} (hne : space ≠ []) (hspace : IsSpacing space)
      (hraw : raw.Spells rawSource) (hraws : AttributesSpell raws closed source) :
      AttributesSpell (raw :: raws) closed (space ++ (rawSource ++ source))

/-- What follows the name of a tag ends the name: space, or the end of the tag. -/
theorem AttributesSpell.stops_isNameLetter {raws : List RawAttribute} {closed : Bool}
    (h : AttributesSpell raws closed source) : Stops isNameLetter (source ++ rest) := by
  cases h with
  | opened hspace =>
    rw [List.append_assoc]
    exact hspace.stops_isNameLetter (stops_isNameLetter_cons rfl)
  | closed hspace =>
    rw [List.append_assoc]
    exact hspace.stops_isNameLetter (stops_isNameLetter_cons rfl)
  | @cons raw raws closed space rawSource source hne hspace hraw hraws =>
    obtain ⟨d, space, rfl⟩ := List.exists_cons_of_ne_nil hne
    have hstop : Stops isNameLetter (d :: space ++ []) :=
      hspace.stops_isNameLetter (by simp [Stops])
    intro c hc
    exact hstop c (by simpa using hc)

/-- Attributes that are read have been spelled, up to the end of the tag. -/
theorem attributesSpell_of_readAttributes {raws : List RawAttribute} {closed : Bool}
    (h : readAttributes chars = some (raws, closed, rest)) :
    ∃ source, AttributesSpell raws closed source ∧ chars = source ++ rest := by
  fun_induction readAttributes chars generalizing raws closed rest with
  | case1 chars after hafter =>
    obtain ⟨space, hspace, hchars⟩ := exists_isSpacing_append_skipSpace chars
    cases h
    exact ⟨_, .opened hspace, by rw [hchars, hafter]; simp⟩
  | case2 chars after hafter =>
    obtain ⟨space, hspace, hchars⟩ := exists_isSpacing_append_skipSpace chars
    cases h
    exact ⟨_, .closed hspace, by rw [hchars, hafter]; simp⟩
  | case3 chars hhead _ _ ih =>
    obtain ⟨space, hspace, hchars⟩ := exists_isSpacing_append_skipSpace chars
    simp only [Option.bind_eq_bind, Option.bind_eq_some_iff, Prod.exists] at h
    obtain ⟨first, after, hfirst, h⟩ := h
    split at h
    · next hlength =>
      simp only [Option.bind_eq_some_iff, Prod.exists, Option.some.injEq, Prod.mk.injEq] at h
      obtain ⟨raws, closed, rest, hraws, rfl, rfl, rfl⟩ := h
      obtain ⟨rawSource, hraw, hskip⟩ := readAttribute_eq_some_iff.mp hfirst
      obtain ⟨source, hsource, rfl⟩ := ih after hlength hraws
      have hne : space ≠ [] := by
        rintro rfl
        obtain ⟨c, tail, rfl, hc⟩ := hraw.exists_cons
        rw [hchars, hskip] at hhead
        simp [isSpace_of_isNameOpening hc] at hhead
      exact ⟨_, .cons hne hspace hraw hsource, by rw [hchars, hskip]; simp⟩
    · cases h
  | case4 => cases h

/-- The end of a tag is read with all attributes before it. -/
theorem readAttributes_eq_some_iff {raws : List RawAttribute} {closed : Bool} :
    readAttributes chars = some (raws, closed, rest) ↔
      ∃ source, AttributesSpell raws closed source ∧ chars = source ++ rest := by
  refine ⟨attributesSpell_of_readAttributes, ?_⟩
  rintro ⟨source, hspells, rfl⟩
  induction hspells with
  | opened hspace =>
    have hend : Stops isSpace ('>' :: rest) := stops_isSpace_cons rfl
    rw [readAttributes, List.append_assoc, List.singleton_append, hspace.skipSpace_append hend]
    rfl
  | closed hspace =>
    have hend : Stops isSpace ('/' :: '>' :: rest) := stops_isSpace_cons rfl
    rw [readAttributes, List.append_assoc, List.cons_append, List.singleton_append,
      hspace.skipSpace_append hend]
    rfl
  | @cons raw raws closed space rawSource source hne hspace hraw hraws ih =>
    obtain ⟨c, tail, rfl, hc⟩ := hraw.exists_cons
    have hstop : Stops isSpace (c :: tail ++ (source ++ rest)) :=
      stops_isSpace_cons (isSpace_of_isNameOpening hc)
    have hread : readAttribute (c :: tail ++ (source ++ rest)) = some (raw, source ++ rest) :=
      readAttribute_eq_some_iff.mpr ⟨_, hraw, rfl⟩
    have hlength : (source ++ rest).length <
        (space ++ (c :: tail ++ (source ++ rest))).length := by
      simp only [List.length_append, List.length_cons]
      omega
    have hhead : (space ++ (c :: tail ++ (source ++ rest))).head?.any isSpace = true := by
      cases space with
      | nil => exact absurd rfl hne
      | cons d space => simpa using hspace d (by simp)
    rw [readAttributes, List.append_assoc, List.append_assoc, hspace.skipSpace_append hstop]
    split
    · next heq =>
      obtain ⟨rfl, -⟩ := List.cons.inj heq
      cases hc
    · next heq =>
      obtain ⟨rfl, -⟩ := List.cons.inj heq
      cases hc
    · rw [if_pos hhead]
      simp only [Option.bind_eq_bind, hread, Option.bind_some, if_pos hlength, ih]

end RemoteCall.Xml
