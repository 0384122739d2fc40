import RemoteCall.Proofs.Xml.Declarations

/-!
# The root of a document

Only space, comments and instructions stand before the root. So a document that begins with a
tag begins with its root, and the root has the name that stands behind the first angle bracket,
whatever comes after the name.
-/

namespace RemoteCall.Xml

/-- The tag that a token opens an element with, if it opens one. -/
def Token.openingTag? : Token → Option Tag
  | .startTag tag => some tag
  | .emptyTag tag => some tag
  | _ => none

/-- The first lexeme of a sequence is read first, and the others are left. -/
theorem IsSequence.readToken {lexeme : Lexeme} {lexemes : List Lexeme}
    (h : IsSequence (lexeme :: lexemes)) :
    readToken (sourceOf (lexeme :: lexemes)) = some (lexeme.token, sourceOf lexemes) :=
  readToken_eq_some_iff.mpr ⟨lexeme.source, h.1, rfl, h.2.1⟩

/-- A sequence of lexemes that is not empty begins with one that can be read. -/
theorem exists_readToken {lexemes : List Lexeme} {c : Char} {chars : List Char}
    (h : IsSequence lexemes) (hsource : sourceOf lexemes = c :: chars) :
    ∃ token rest, readToken (c :: chars) = some (token, rest) := by
  cases lexemes with
  | nil => cases hsource
  | cons lexeme lexemes => exact ⟨_, _, hsource ▸ h.readToken⟩

/-- What stands beside the root is a lexeme of its own, and no tag. -/
theorem exists_lexemes_of_isMisc {tree : Tree} (h : rootOf?.isMisc tree = true) :
    ∃ lexeme, tree.lexemes = [lexeme] ∧ lexeme.token.openingTag? = none := by
  cases tree with
  | text source => exact ⟨_, rfl, rfl⟩
  | aside source => exact ⟨_, rfl, rfl⟩
  | _ => cases h

/-- If a document begins with a tag, the tag is that of its root. -/
theorem eq_nil_of_readToken {before trees : List Tree} {token : Token} {tag : Tag}
    {chars rest : List Char} (hbefore : ∀ tree ∈ before, rootOf?.isMisc tree = true)
    (hsequence : IsSequence (Tree.lexemesOf (before ++ trees)))
    (hsource : sourceOf (Tree.lexemesOf (before ++ trees)) = chars)
    (hread : readToken chars = some (token, rest)) (htag : token.openingTag? = some tag) :
    before = [] := by
  cases before with
  | nil => rfl
  | cons first before =>
    obtain ⟨lexeme, hlexeme, hnone⟩ := exists_lexemes_of_isMisc (hbefore first (by simp))
    rw [List.cons_append, Tree.lexemesOf, hlexeme, List.singleton_append] at hsequence hsource
    rw [← hsource, hsequence.readToken, Option.some.injEq, Prod.mk.injEq] at hread
    rw [hread.1, htag] at hnone
    cases hnone

/-- An element begins with its tag. -/
theorem exists_lexemes_element (tag : Tag) (opening closing : List Char) (content : List Tree) :
    ∃ token lexemes, (Tree.element tag opening content closing).lexemes =
      ⟨token, opening⟩ :: lexemes ∧ token.openingTag? = some tag := by
  rw [Tree.lexemes]
  split
  · exact ⟨_, _, rfl, rfl⟩
  · exact ⟨_, _, rfl, rfl⟩

/-- Characters that begin with an angle bracket and a name are read as a tag of that name, if
they are read at all. -/
theorem openingTag_of_readToken {name rest after : List Char} {token : Token}
    (hname : isNamePart name = true) (hrest : Stops isNameLetter rest)
    (hread : readToken ('<' :: (name ++ rest)) = some (token, after)) :
    ∃ raws, token.openingTag? = some ⟨⟨[], name⟩, raws⟩ := by
  have hreadName : readQName (name ++ rest) = some (⟨[], name⟩, rest) :=
    readQName_eq_some_iff.mpr ⟨name, .bare hname, rfl, hrest⟩
  obtain ⟨c, tail, rfl, hopening⟩ := (QName.Spells.bare hname).exists_cons
  rw [List.cons_append, readToken_of_isNameOpening hopening, ← List.cons_append] at hread
  simp only [readTag, Option.bind_eq_bind, Option.bind_eq_some_iff, hreadName,
    Option.some.injEq, Prod.mk.injEq, Prod.exists] at hread
  obtain ⟨name, rest', ⟨rfl, rfl⟩, raws, closed, rest, -, rfl, rfl⟩ := hread
  cases closed
  · exact ⟨raws, rfl⟩
  · exact ⟨raws, rfl⟩

/-- Where a document begins with a tag, there is no declaration to skip. -/
theorem skipProlog_of_isNamePart {name : List Char} (hname : isNamePart name = true)
    (rest : List Char) : skipProlog ('<' :: (name ++ rest)) = some ('<' :: (name ++ rest)) := by
  obtain ⟨c, tail, rfl, hopening⟩ := (QName.Spells.bare hname).exists_cons
  have hne : c ≠ '?' := by
    rintro rfl
    rw [not_isNameOpening (by simp)] at hopening
    cases hopening
  simp [skipProlog, hne]

/-- A document that begins with a tag has the name of the tag for the name of its root. -/
theorem root_of_parse? {text : String} {name rest : List Char} {node : Node}
    (hname : isNamePart name = true) (hrest : Stops isNameLetter rest)
    (htext : text.toList = '<' :: (name ++ rest)) (hparse : parse? text = some node) :
    ∃ uri attributes nodes opening closing,
      node = .element uri (String.ofList name) attributes nodes opening closing := by
  simp only [parse?, Option.bind_eq_bind, Option.bind_eq_some_iff, htext] at hparse
  obtain ⟨root, hread, hresolve⟩ := hparse
  obtain ⟨-, trees, hbody, hsequence, hshaped, hroot⟩ := readTree_eq_some_iff.mp hread
  rw [skipProlog_of_isNamePart hname, Option.some.injEq, ← sourceOf_lexemesOf hshaped] at hbody
  obtain ⟨before, after, tag, opening, content, closing, rfl, rfl, hbefore, -⟩ :=
    rootOf?_eq_some_iff.mp hroot
  obtain ⟨token, after', hread⟩ := exists_readToken hsequence hbody.symm
  obtain ⟨raws, htag⟩ := openingTag_of_readToken hname hrest hread
  obtain rfl := eq_nil_of_readToken hbefore hsequence hbody.symm hread htag
  obtain ⟨token', lexemes, hlexemes, htag'⟩ := exists_lexemes_element tag opening closing content
  rw [List.nil_append, Tree.lexemesOf, hlexemes, List.cons_append] at hsequence hbody
  rw [hbody, hsequence.readToken, Option.some.injEq, Prod.mk.injEq] at hread
  rw [← hread.1, htag', Option.some.injEq] at htag
  obtain ⟨declarations, bindings, uri, attributes, nodes, -, -, -, -, -, rfl⟩ :=
    resolve_element_eq_some_iff.mp hresolve
  rw [htag]
  exact ⟨uri, attributes, _, opening, closing, rfl⟩

end RemoteCall.Xml
