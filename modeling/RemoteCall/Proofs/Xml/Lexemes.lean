import RemoteCall.Proofs.Xml.Spelling

/-!
# Documents as sequences of lexemes

A grammar for lexemes, and the reading of a whole document: the lexemes that are read are
exactly those whose sources, put together, are the document. What a lexeme is does not
depend on what follows it, except that text ends before an angle bracket.
-/

namespace RemoteCall.Xml

variable {chars rest source : List Char}

/-! ## Markers -/

/-- The marker is found exactly if it occurs somewhere. -/
theorem contains_eq_true_iff {marker : List Char} :
    contains marker chars = true ↔ marker <:+: chars := by
  induction chars with
  | nil => simp [contains]
  | cons c rest ih => simp [contains, List.infix_cons_iff, ih]

private theorem append_dropLast_starts (before marker after : List Char) :
    before ++ marker.dropLast <+: before ++ (marker ++ after) := by
  rw [List.prefix_append_right_inj]
  exact (List.dropLast_prefix marker).trans (List.prefix_append ..)

/-- Breaking on a marker finds its first occurrence: none begins earlier. -/
theorem breakOn_eq_some_iff {marker before after : List Char} (hmarker : marker ≠ []) :
    breakOn marker chars = some (before, after) ↔
      chars = before ++ (marker ++ after) ∧ ¬ marker <:+: before ++ marker.dropLast := by
  have hlength : marker.dropLast.length + 1 = marker.length := by
    have := List.length_pos_iff.mpr hmarker
    rw [List.length_dropLast]
    omega
  induction chars generalizing before with
  | nil => simp [breakOn, hmarker]
  | cons c rest ih =>
    by_cases hstarts : marker <+: c :: rest
    · simp only [breakOn, List.isPrefixOf_iff_prefix.mpr hstarts, if_true, Option.some.injEq,
        Prod.mk.injEq]
      constructor
      · rintro ⟨rfl, rfl⟩
        refine ⟨(List.prefix_iff_eq_append.mp hstarts).symm, fun hoccurs => ?_⟩
        have := hoccurs.length_le
        rw [List.nil_append] at this
        omega
      · rintro ⟨heq, hoccurs⟩
        cases before with
        | nil => simp [heq]
        | cons d before =>
          rw [heq] at hstarts
          have hearlier := append_dropLast_starts (d :: before) marker after
          exact absurd (List.prefix_of_prefix_length_le hstarts hearlier
            (by simp only [List.length_append, List.length_cons]; omega)).isInfix hoccurs
    · have hstarts' : marker.isPrefixOf (c :: rest) = false :=
        Bool.eq_false_iff.mpr fun h => hstarts (List.isPrefixOf_iff_prefix.mp h)
      simp only [breakOn, hstarts', Bool.false_eq_true, if_false, Option.map_eq_some_iff,
        Prod.exists, Prod.mk.injEq]
      constructor
      · rintro ⟨before, after, hbreak, rfl, rfl⟩
        obtain ⟨rfl, hoccurs⟩ := ih.mp hbreak
        refine ⟨rfl, fun h => ?_⟩
        rcases List.infix_cons_iff.mp h with h | h
        · exact hstarts (h.trans (append_dropLast_starts (c :: before) marker after))
        · exact hoccurs h
      · rintro ⟨heq, hoccurs⟩
        cases before with
        | nil => exact absurd ⟨after, heq.symm⟩ hstarts
        | cons d before =>
          obtain ⟨rfl, rfl⟩ := List.cons.inj heq
          exact ⟨before, after, ih.mpr ⟨rfl, fun h =>
            hoccurs (List.infix_cons_iff.mpr (.inr h))⟩, rfl, rfl⟩

/-! ## Tokens -/

/-- A name in which colons count as letters. -/
def IsColonName (name : List Char) : Prop :=
  name.head?.any isNameOpening = true ∧ ∀ c ∈ name, isNameLetter c = true

/-- A name with colons is read as far as its letters go, and it has one at least. -/
theorem readName_eq_some_iff {name : List Char} :
    readName chars = some (name, rest) ↔
      IsColonName name ∧ chars = name ++ rest ∧ Stops isNameLetter rest := by
  cases chars with
  | nil =>
    simp only [readName, reduceCtorEq, false_iff]
    rintro ⟨⟨hhead, -⟩, heq, -⟩
    obtain ⟨rfl, -⟩ := List.append_eq_nil_iff.mp heq.symm
    cases hhead
  | cons c tail =>
    have hsplit := (List.takeWhile_append_dropWhile (p := isNameLetter) (l := c :: tail)).symm
    simp only [readName]
    constructor
    · intro h
      split at h
      · next hc =>
        have hletter : isNameLetter c = true := by
          simp only [isNameLetter, Bool.or_eq_true] at hc ⊢
          exact hc.imp_right isNameChar_of_isNameStart
        cases h
        refine ⟨⟨?_, fun d hd => List.all_eq_true.mp List.all_takeWhile d hd⟩, hsplit,
          stops_dropWhile _ _⟩
        change ((c :: tail).takeWhile isNameLetter).head?.any isNameOpening = true
        rw [List.takeWhile_cons_of_pos hletter]
        simpa [isNameOpening] using hc
      · cases h
    · rintro ⟨⟨hhead, hname⟩, heq, hrest⟩
      have hc : isNameOpening c = true := by
        cases name with
        | nil => cases hhead
        | cons d name =>
          obtain ⟨rfl, -⟩ := List.cons.inj heq
          simpa using hhead
      rw [if_pos (by simpa [isNameOpening] using hc), heq]
      exact congrArg some (Prod.ext (hrest.takeWhile_append hname) (hrest.dropWhile_append hname))

/-- The spellings of tokens. -/
inductive Token.Spells : Token → List Char → Prop
  | startTag {name : QName} {raws : List RawAttribute} {nameSource source : List Char}
      (hname : name.Spells nameSource) (hraws : AttributesSpell raws false source) :
      Spells (.startTag ⟨name, raws⟩) ('<' :: (nameSource ++ source))
  | emptyTag {name : QName} {raws : List RawAttribute} {nameSource source : List Char}
      (hname : name.Spells nameSource) (hraws : AttributesSpell raws true source) :
      Spells (.emptyTag ⟨name, raws⟩) ('<' :: (nameSource ++ source))
  | endTag {name : QName} {nameSource space : List Char} (hname : name.Spells nameSource)
      (hspace : IsSpacing space) :
      Spells (.endTag name) ('<' :: '/' :: (nameSource ++ (space ++ ['>'])))
  | text {source : List Char} (hne : source ≠ []) (hopen : '<' ∉ source)
      (hclose : ¬ [']', ']', '>'] <:+: source) : Spells .text source
  | characterData {content : List Char} (hclose : ¬ [']', ']', '>'] <:+: content ++ [']', ']']) :
      Spells (.characterData content)
        ('<' :: '!' :: '[' :: 'C' :: 'D' :: 'A' :: 'T' :: 'A' :: '[' ::
          (content ++ [']', ']', '>']))
  | comment {content : List Char} (hclose : ¬ ['-', '-'] <:+: content ++ ['-']) :
      Spells .aside ('<' :: '!' :: '-' :: '-' :: (content ++ ['-', '-', '>']))
  | instruction {target space content : List Char} (htarget : IsColonName target)
      (hspace : IsSpacing space) (hstop : Stops isNameLetter (space ++ (content ++ ['?', '>'])))
      (hcontent : Stops isSpace (content ++ ['?', '>']))
      (hclose : ¬ ['?', '>'] <:+: content ++ ['?'])
      (hdeclaration : ¬ ['x', 'm', 'l', ' '] <+: target ++ (space ++ (content ++ ['?', '>']))) :
      Spells .aside ('<' :: '?' :: (target ++ (space ++ (content ++ ['?', '>']))))

/-- What is read behind an angle bracket spells a tag together with it. -/
theorem spells_of_readTag {token : Token} (h : readTag chars = some (token, rest)) :
    ∃ source, token.Spells ('<' :: source) ∧ chars = source ++ rest := by
  simp only [readTag, Option.bind_eq_bind, Option.bind_eq_some_iff, Option.some.injEq,
    Prod.mk.injEq, Prod.exists] at h
  obtain ⟨name, after, hreadName, raws, closed, rest, hreadRaws, rfl, rfl⟩ := h
  obtain ⟨nameSource, hname, rfl, -⟩ := readQName_eq_some_iff.mp hreadName
  obtain ⟨source, hraws, rfl⟩ := readAttributes_eq_some_iff.mp hreadRaws
  refine ⟨nameSource ++ source, ?_, (List.append_assoc ..).symm⟩
  cases closed with
  | false => exact .startTag hname hraws
  | true => exact .emptyTag hname hraws

/-- A spelled name with spelled attributes is read as a tag, empty or not as its end says. -/
theorem readTag_append {name : QName} {raws : List RawAttribute} {closed : Bool}
    {nameSource : List Char} (hname : name.Spells nameSource)
    (hraws : AttributesSpell raws closed source) :
    readTag (nameSource ++ source ++ rest) =
      some (if closed then .emptyTag ⟨name, raws⟩ else .startTag ⟨name, raws⟩, rest) := by
  have hreadName : readQName (nameSource ++ (source ++ rest)) = some (name, source ++ rest) :=
    readQName_eq_some_iff.mpr ⟨nameSource, hname, rfl, hraws.stops_isNameLetter⟩
  have hreadRaws : readAttributes (source ++ rest) = some (raws, closed, rest) :=
    readAttributes_eq_some_iff.mpr ⟨source, hraws, rfl⟩
  rw [List.append_assoc]
  simp only [readTag, Option.bind_eq_bind, hreadName, Option.bind_some, hreadRaws]

/-- An end tag is a qualified name, space and a closing bracket. -/
theorem readEndTag_eq_some_iff {token : Token} :
    readEndTag chars = some (token, rest) ↔
      ∃ name nameSource space, token = .endTag name ∧ name.Spells nameSource ∧
        IsSpacing space ∧ chars = nameSource ++ (space ++ '>' :: rest) := by
  simp only [readEndTag, Option.bind_eq_bind, Option.bind_eq_some_iff, Prod.exists]
  constructor
  · rintro ⟨name, after, hreadName, h⟩
    obtain ⟨nameSource, hname, rfl, -⟩ := readQName_eq_some_iff.mp hreadName
    obtain ⟨space, hspace, hafter⟩ := exists_isSpacing_append_skipSpace after
    split at h
    · next hskip =>
      cases h
      exact ⟨name, nameSource, space, rfl, hname, hspace, by rw [← hskip, ← hafter]⟩
    · cases h
  · rintro ⟨name, nameSource, space, rfl, hname, hspace, rfl⟩
    refine ⟨name, space ++ '>' :: rest, readQName_eq_some_iff.mpr ⟨_, hname, rfl, ?_⟩, ?_⟩
    · exact hspace.stops_isNameLetter (stops_isNameLetter_cons rfl)
    · rw [hspace.skipSpace_append (stops_isSpace_cons rfl)]
      rfl

/-- A comment goes on to the first two hyphens, which must close it. -/
theorem readComment_eq_some_iff {token : Token} :
    readComment chars = some (token, rest) ↔
      token = .aside ∧ ∃ content, ¬ ['-', '-'] <:+: content ++ ['-'] ∧
        chars = content ++ ('-' :: '-' :: '>' :: rest) := by
  simp only [readComment, Option.bind_eq_bind, Option.bind_eq_some_iff, Prod.exists,
    breakOn_eq_some_iff (List.cons_ne_nil '-' ['-'])]
  constructor
  · rintro ⟨content, after, ⟨rfl, hclose⟩, h⟩
    split at h
    · cases h
      exact ⟨rfl, content, hclose, rfl⟩
    · cases h
  · rintro ⟨rfl, content, hclose, rfl⟩
    exact ⟨content, '>' :: rest, ⟨rfl, hclose⟩, rfl⟩

/-- An instruction has a target, and goes on to the first `?>`. -/
theorem readInstruction_eq_some_iff {token : Token} :
    readInstruction chars = some (token, rest) ↔
      token = .aside ∧ ∃ target space content, IsColonName target ∧ IsSpacing space ∧
        Stops isNameLetter (space ++ (content ++ ['?', '>'])) ∧
        Stops isSpace (content ++ ['?', '>']) ∧ ¬ ['?', '>'] <:+: content ++ ['?'] ∧
        chars = target ++ (space ++ (content ++ '?' :: '>' :: rest)) := by
  have hhead (space content : List Char) :
      (space ++ (content ++ ['?', '>'])).head? =
        (space ++ (content ++ '?' :: '>' :: rest)).head? := by
    cases space <;> cases content <;> rfl
  simp only [readInstruction, Option.bind_eq_bind, Option.bind_eq_some_iff, Prod.exists,
    readName_eq_some_iff, breakOn_eq_some_iff (List.cons_ne_nil '?' ['>']), Option.some.injEq,
    Prod.mk.injEq]
  constructor
  · rintro ⟨target, after, ⟨htarget, rfl, hstop⟩, content, rest', ⟨hskip, hclose⟩, rfl, rfl⟩
    obtain ⟨space, hspace, hafter⟩ := exists_isSpacing_append_skipSpace after
    rw [hskip] at hafter
    have hcontent := stops_dropWhile isSpace after
    rw [← skipSpace, hskip] at hcontent
    refine ⟨rfl, target, space, content, htarget, hspace, ?_, ?_, hclose, by rw [hafter]; rfl⟩
    · rw [Stops, hhead]
      rwa [hafter] at hstop
    · have hhead' := hhead [] content
      rw [List.nil_append] at hhead'
      rw [Stops, hhead']
      exact hcontent
  · rintro ⟨rfl, target, space, content, htarget, hspace, hstop, hcontent, hclose, rfl⟩
    refine ⟨target, _, ⟨htarget, rfl, ?_⟩, content, rest, ⟨?_, hclose⟩, rfl, rfl⟩
    · rwa [Stops, hhead] at hstop
    · have hhead' := hhead [] content
      rw [List.nil_append] at hhead'
      rw [Stops, hhead'] at hcontent
      exact hspace.skipSpace_append hcontent

/-- Nothing follows, or markup does. -/
def StartsMarkup (rest : List Char) : Prop :=
  Stops (· != '<') rest

/-- Markup begins with an opening bracket. -/
theorem startsMarkup_cons : StartsMarkup ('<' :: rest) := by
  intro c hc
  cases hc
  rfl

/-- Whether markup begins is told by the first character. -/
theorem startsMarkup_append_iff (hne : source ≠ []) :
    StartsMarkup (source ++ rest) ↔ StartsMarkup source := by
  obtain ⟨c, tail, rfl⟩ := List.exists_cons_of_ne_nil hne
  simp [StartsMarkup, Stops]

/-- If neither of two pieces begins with text, nor does what they make up. -/
theorem StartsMarkup.append (hsource : StartsMarkup source) (hrest : StartsMarkup rest) :
    StartsMarkup (source ++ rest) := by
  cases source with
  | nil => exact hrest
  | cons c tail => exact (startsMarkup_append_iff (List.cons_ne_nil c tail)).mpr hsource

/-- A token that is read has been spelled, and a text goes on up to the next markup. -/
theorem spells_of_readToken {token : Token} (h : readToken chars = some (token, rest)) :
    ∃ source, token.Spells source ∧ chars = source ++ rest ∧
      (token = .text → StartsMarkup rest) := by
  unfold readToken at h
  split at h
  · cases h
  · -- an end tag
    obtain ⟨name, nameSource, space, rfl, hname, hspace, rfl⟩ := readEndTag_eq_some_iff.mp h
    exact ⟨_, .endTag hname hspace, by simp, by simp⟩
  · -- a comment
    obtain ⟨rfl, content, hclose, rfl⟩ := readComment_eq_some_iff.mp h
    exact ⟨_, .comment hclose, by simp, by simp⟩
  · -- character data
    simp only [Option.map_eq_some_iff, Prod.exists, Prod.mk.injEq] at h
    obtain ⟨content, rest, hbreak, rfl, rfl⟩ := h
    obtain ⟨rfl, hclose⟩ := (breakOn_eq_some_iff (List.cons_ne_nil ']' [']', '>'])).mp hbreak
    exact ⟨_, .characterData hclose, by simp, by simp⟩
  · -- a processing instruction
    split at h
    · cases h
    · next hdeclaration =>
      obtain ⟨rfl, target, space, content, htarget, hspace, hstop, hcontent, hclose, rfl⟩ :=
        readInstruction_eq_some_iff.mp h
      refine ⟨_, .instruction htarget hspace hstop hcontent hclose ?_, by simp, by simp⟩
      intro hstarts
      apply hdeclaration
      rw [List.isPrefixOf_iff_prefix]
      exact hstarts.trans ⟨rest, by simp⟩
  · -- a start tag or an empty tag
    obtain ⟨source, hsource, rfl⟩ := spells_of_readTag h
    refine ⟨_, hsource, rfl, ?_⟩
    rintro rfl
    cases hsource with
    | text hne hopen hclose => exact absurd List.mem_cons_self hopen
  · -- text
    next c tail _ _ _ _ hopen =>
    have hc : (c != '<') = true := by simpa using hopen
    have hsplit := (List.takeWhile_append_dropWhile (p := (· != '<')) (l := c :: tail)).symm
    rw [List.takeWhile_cons_of_pos (p := (· != '<')) hc,
      List.dropWhile_cons_of_pos (p := (· != '<')) hc] at hsplit
    dsimp only at h
    split at h
    · cases h
    · next hclose =>
      cases h
      refine ⟨_, .text (List.cons_ne_nil _ _) ?_ ?_, hsplit, fun _ => stops_dropWhile _ _⟩
      · rw [← List.takeWhile_cons_of_pos (p := (· != '<')) hc]
        intro hmem
        simpa using List.all_eq_true.mp List.all_takeWhile _ hmem
      · rwa [contains_eq_true_iff] at hclose

/-- An angle bracket before a letter of a name opens a tag. -/
theorem readToken_of_isNameOpening {c : Char} (hc : isNameOpening c = true) :
    readToken ('<' :: c :: rest) = readTag (c :: rest) := by
  have hne (d : Char) (hd : d ∈ ['>', '/', '!', '?', '<', ' ', '\t', '\n', '\r']) : c ≠ d := by
    rintro rfl
    rw [not_isNameOpening hd] at hc
    cases hc
  unfold readToken
  split <;> grind

/-- Characters before the next markup are read as one text, if none of them closes a section. -/
theorem readToken_text (hne : source ≠ []) (hopen : '<' ∉ source)
    (hclose : ¬ [']', ']', '>'] <:+: source) (hrest : StartsMarkup rest) :
    readToken (source ++ rest) = some (.text, rest) := by
  obtain ⟨c, tail, rfl⟩ := List.exists_cons_of_ne_nil hne
  have hc : c ≠ '<' := fun h => hopen (by simp [h])
  have htail : ∀ d ∈ tail, (d != '<') = true := by
    intro d hd
    simp only [bne_iff_ne]
    rintro rfl
    exact hopen (List.mem_cons_of_mem _ hd)
  have hclose' : contains [']', ']', '>'] (c :: tail) = false := by
    rwa [Bool.eq_false_iff, ne_eq, contains_eq_true_iff]
  rw [List.cons_append]
  unfold readToken
  split <;> grind [hrest.takeWhile_append htail, hrest.dropWhile_append htail]

/-- A token is read exactly where the characters begin with one of its spellings, and text
only up to the next markup. -/
theorem readToken_eq_some_iff {token : Token} :
    readToken chars = some (token, rest) ↔
      ∃ source, token.Spells source ∧ chars = source ++ rest ∧
        (token = .text → StartsMarkup rest) := by
  refine ⟨spells_of_readToken, ?_⟩
  rintro ⟨source, hspells, rfl, hrest⟩
  cases hspells with
  | @startTag name raws nameSource source hname hraws =>
    obtain ⟨c, tail, rfl, hc⟩ := hname.exists_cons
    exact (readToken_of_isNameOpening hc).trans (readTag_append hname hraws)
  | @emptyTag name raws nameSource source hname hraws =>
    obtain ⟨c, tail, rfl, hc⟩ := hname.exists_cons
    exact (readToken_of_isNameOpening hc).trans (readTag_append hname hraws)
  | @endTag name nameSource space hname hspace =>
    exact readEndTag_eq_some_iff.mpr ⟨name, nameSource, space, rfl, hname, hspace, by simp⟩
  | text hne hopen hclose => exact readToken_text hne hopen hclose (hrest rfl)
  | @characterData content hclose =>
    have hbreak : breakOn [']', ']', '>'] (content ++ (']' :: ']' :: '>' :: rest)) =
        some (content, rest) :=
      (breakOn_eq_some_iff (List.cons_ne_nil ']' [']', '>'])).mpr ⟨rfl, hclose⟩
    simp [readToken, hbreak]
  | @comment content hclose =>
    exact readComment_eq_some_iff.mpr ⟨rfl, content, hclose, by simp⟩
  | @instruction target space content htarget hspace hstop hcontent hclose hdeclaration =>
    have hread : readInstruction (target ++ (space ++ (content ++ '?' :: '>' :: rest))) =
        some (.aside, rest) :=
      readInstruction_eq_some_iff.mpr
        ⟨rfl, target, space, content, htarget, hspace, hstop, hcontent, hclose, rfl⟩
    have hdeclaration' : ¬ ['x', 'm', 'l', ' '] <+:
        target ++ (space ++ (content ++ '?' :: '>' :: rest)) := by
      intro hstarts
      have hsource : target ++ (space ++ (content ++ ['?', '>'])) <+:
          target ++ (space ++ (content ++ '?' :: '>' :: rest)) := ⟨rest, by simp⟩
      rcases List.prefix_or_prefix_of_prefix hstarts hsource with h | h
      · exact hdeclaration h
      · have hmem : '>' ∈ ['x', 'm', 'l', ' '] := h.subset (by simp)
        simp at hmem
    simp [readToken, hread, hdeclaration']

/-- No token is spelled without a character. -/
theorem Token.Spells.ne_nil {token : Token} (h : token.Spells source) : source ≠ [] := by
  cases h with
  | text hne => exact hne
  | _ => simp

/-! ## Sequences -/

/-- The characters that the lexemes were read from. -/
def sourceOf (lexemes : List Lexeme) : List Char :=
  lexemes.flatMap Lexeme.source

/-- No lexemes have no source. -/
@[simp] theorem sourceOf_nil : sourceOf [] = [] := rfl

/-- The source of the first lexeme stands before that of the others. -/
@[simp] theorem sourceOf_cons (lexeme : Lexeme) (lexemes : List Lexeme) :
    sourceOf (lexeme :: lexemes) = lexeme.source ++ sourceOf lexemes := rfl

/-- The sources of two sequences stand one after the other. -/
@[simp] theorem sourceOf_append (first second : List Lexeme) :
    sourceOf (first ++ second) = sourceOf first ++ sourceOf second := by
  simp [sourceOf]

/-- Every lexeme is spelled as it should be, and none that is text comes before another. -/
def IsSequence : List Lexeme → Prop
  | [] => True
  | lexeme :: rest =>
    lexeme.token.Spells lexeme.source ∧ (lexeme.token = .text → StartsMarkup (sourceOf rest)) ∧
      IsSequence rest

/-- Lexemes that are read make up the source, each spelled as it should be. -/
theorem isSequence_of_readLexemes {lexemes : List Lexeme}
    (h : readLexemes chars = some lexemes) : IsSequence lexemes ∧ chars = sourceOf lexemes := by
  fun_induction readLexemes chars generalizing lexemes with
  | case1 chars hempty =>
    cases h
    exact ⟨trivial, by simpa using hempty⟩
  | case2 chars hempty ih =>
    simp only [Option.bind_eq_bind, Option.bind_eq_some_iff, Prod.exists] at h
    obtain ⟨token, rest, htoken, h⟩ := h
    split at h
    · next hlength =>
      simp only [Option.bind_eq_some_iff, Option.some.injEq] at h
      obtain ⟨lexemes, hlexemes, rfl⟩ := h
      obtain ⟨source, hspells, rfl, hrest⟩ := readToken_eq_some_iff.mp htoken
      obtain ⟨hsequence, rfl⟩ := ih rest hlength hlexemes
      have hsource : (source ++ sourceOf lexemes).take
          ((source ++ sourceOf lexemes).length - (sourceOf lexemes).length) = source := by
        simp
      rw [hsource]
      exact ⟨⟨hspells, hrest, hsequence⟩, rfl⟩
    · cases h

/-- The lexemes of a document are those that make it up. -/
theorem readLexemes_eq_some_iff {lexemes : List Lexeme} :
    readLexemes chars = some lexemes ↔ IsSequence lexemes ∧ chars = sourceOf lexemes := by
  refine ⟨isSequence_of_readLexemes, ?_⟩
  rintro ⟨h, rfl⟩
  induction lexemes with
  | nil => simp [readLexemes]
  | cons lexeme lexemes ih =>
    obtain ⟨hspells, hrest, hsequence⟩ := h
    have hread : readToken (sourceOf (lexeme :: lexemes)) =
        some (lexeme.token, sourceOf lexemes) :=
      readToken_eq_some_iff.mpr ⟨lexeme.source, hspells, rfl, hrest⟩
    have hlength : (sourceOf lexemes).length < (sourceOf (lexeme :: lexemes)).length := by
      have := List.length_pos_iff.mpr hspells.ne_nil
      simp only [sourceOf_cons, List.length_append]
      omega
    have hempty : (sourceOf (lexeme :: lexemes)).isEmpty = false := by
      simp [hspells.ne_nil]
    have htake : (sourceOf (lexeme :: lexemes)).take
        ((sourceOf (lexeme :: lexemes)).length - (sourceOf lexemes).length) = lexeme.source := by
      simp
    rw [readLexemes]
    simp only [hempty, Bool.false_eq_true, if_false, Option.bind_eq_bind, hread,
      Option.bind_some, hlength, if_true, ih hsequence, htake]

/-- Two sequences are one if the second begins with markup: no two texts come to stand side by side.
-/
theorem IsSequence.append {first second : List Lexeme} (hfirst : IsSequence first)
    (hsecond : IsSequence second) (hmarkup : StartsMarkup (sourceOf second)) :
    IsSequence (first ++ second) := by
  induction first with
  | nil => exact hsecond
  | cons lexeme first ih =>
    obtain ⟨hspells, hrest, hfirst⟩ := hfirst
    refine ⟨hspells, fun htext => ?_, ih hfirst⟩
    cases first with
    | nil => exact hmarkup
    | cons next first =>
      have hne := hfirst.1.ne_nil
      have hhead := (startsMarkup_append_iff hne).mp (hrest htext)
      exact (startsMarkup_append_iff hne).mpr hhead

/-- Each part of a sequence is one. -/
theorem IsSequence.of_append {first second : List Lexeme} (h : IsSequence (first ++ second)) :
    IsSequence first ∧ IsSequence second := by
  induction first with
  | nil => exact ⟨trivial, h⟩
  | cons lexeme first ih =>
    obtain ⟨hspells, hrest, h⟩ := h
    obtain ⟨hfirst, hsecond⟩ := ih h
    refine ⟨⟨hspells, fun htext => ?_, hfirst⟩, hsecond⟩
    cases first with
    | nil => simp [StartsMarkup, Stops]
    | cons next first =>
      have hne := hfirst.1.ne_nil
      have hhead := (startsMarkup_append_iff hne).mp (hrest htext)
      exact (startsMarkup_append_iff hne).mpr hhead

end RemoteCall.Xml
