import RemoteCall.Proofs.Xml.Root

/-!
# Text that is content

A text that makes a well-formed document when it is put into an element is content: it
closes all that it opens, and closes nothing else. So it can be put between any other tags.
-/

namespace RemoteCall.Xml

variable {source : List Char}

/-- The last angle bracket determines what stands before it. -/
theorem append_cons_inj {before before' after after' : List Char} {c : Char}
    (h : before ++ c :: after = before' ++ c :: after') (hafter : c ∉ after)
    (hafter' : c ∉ after') : before = before' ∧ after = after' := by
  rcases List.append_eq_append_iff.mp h with ⟨middle, hbefore, hmiddle⟩ | ⟨middle, hbefore, hmiddle⟩
  · cases middle with
    | nil => simp_all
    | cons d middle =>
      obtain ⟨-, rfl⟩ := List.cons.inj hmiddle
      simp at hafter
  · cases middle with
    | nil => simp_all
    | cons d middle =>
      obtain ⟨-, rfl⟩ := List.cons.inj hmiddle
      simp at hafter'

/-- What stands beside the root ends in space, or as a comment or an instruction does. -/
theorem source_of_isMisc {tree : Tree} (h : rootOf?.isMisc tree = true)
    (hsequence : IsSequence tree.lexemes) :
    (∃ before c, isSpace c = true ∧ tree.source = before ++ [c]) ∨
      ∃ before c, c ∈ ['-', '?'] ∧ tree.source = before ++ [c, '>'] := by
  cases tree with
  | text source =>
    obtain ⟨before, c, rfl⟩ := (List.eq_nil_or_concat source).resolve_left hsequence.1.ne_nil
    rw [List.concat_eq_append] at h ⊢
    exact .inl ⟨before, c, List.all_eq_true.mp h c (by simp), rfl⟩
  | aside source =>
    have hspells : Token.aside.Spells source := hsequence.1
    cases hspells with
    | @comment content hclose =>
      exact .inr ⟨'<' :: '!' :: '-' :: '-' :: (content ++ ['-']), '-', by simp,
        by simp [Tree.source]⟩
    | @instruction target space content =>
      exact .inr ⟨'<' :: '?' :: (target ++ (space ++ content)), '?', by simp, by simp [Tree.source]⟩
  | _ => cases h

/-- An end tag has no angle bracket but the first that opens markup. -/
theorem exists_cons_of_endTag_spells {name : QName}
    (h : (Token.endTag name).Spells source) : ∃ tail, source = '<' :: tail ∧ '<' ∉ tail := by
  cases h with
  | @endTag name nameSource space hname hspace =>
    refine ⟨_, rfl, fun hmem => ?_⟩
    simp only [List.mem_cons, List.mem_append, List.not_mem_nil, or_false] at hmem
    rcases hmem with hmem | hmem | hmem | hmem
    · cases hmem
    · cases hname.isNameLetter _ hmem
    · cases hspace _ hmem
    · cases hmem

/-- If a document ends with an end tag, the tag is that of its root. -/
theorem eq_nil_of_endTag {after : List Tree} {chars chars' : List Char}
    (hafter : ∀ tree ∈ after, rootOf?.isMisc tree = true)
    (hsequence : IsSequence (Tree.lexemesOf after))
    (hsource : chars ++ Tree.sources after = chars' ++ ['<', '/', 'x', '>']) : after = [] := by
  rcases List.eq_nil_or_concat after with hnil | ⟨before, last, hconcat⟩
  · exact hnil
  · rw [List.concat_eq_append] at hconcat
    subst hconcat
    rw [Tree.lexemesOf_append] at hsequence
    have hlast : IsSequence last.lexemes := by
      simpa [Tree.lexemesOf] using hsequence.of_append.2
    have hend : Tree.sources (before ++ [last]) = Tree.sources before ++ last.source := by
      simp [Tree.sources_append, Tree.sources]
    rw [hend] at hsource
    have hends := source_of_isMisc (hafter last (by simp)) hlast
    rcases hends with ⟨front, c, hc, hlast⟩ | ⟨front, c, hc, hlast⟩
    · have heq : (chars ++ (Tree.sources before ++ front)) ++ [c] =
          (chars' ++ ['<', '/', 'x']) ++ ['>'] := by
        simpa [hlast] using hsource
      obtain ⟨-, hlast⟩ := List.append_inj' heq rfl
      obtain rfl : c = '>' := by simpa using hlast
      cases hc
    · have heq : (chars ++ (Tree.sources before ++ front)) ++ [c, '>'] =
          (chars' ++ ['<', '/']) ++ ['x', '>'] := by
        simpa [hlast] using hsource
      obtain ⟨-, hlast⟩ := List.append_inj' heq rfl
      obtain rfl : c = 'x' := by simpa using hlast
      simp at hc

/-- The start tag of the element that a text is put into. -/
def wrapperTag : Tag :=
  ⟨⟨[], ['x']⟩, []⟩

/-- The document that a text makes inside an element. -/
def wrapped (value : List Char) : List Char :=
  '<' :: 'x' :: '>' :: (value ++ ['<', '/', 'x', '>'])

/-- A wrapped value begins with the tag it is wrapped into. -/
theorem readToken_wrapped (value : List Char) :
    readToken (wrapped value) = some (.startTag wrapperTag, value ++ ['<', '/', 'x', '>']) :=
  readToken_eq_some_iff.mpr
    ⟨['<', 'x', '>'], .startTag (.bare rfl) (.opened isSpacing_nil), rfl, by simp⟩

/-- The root of such a document is the element, and the text is all that it holds. -/
theorem eq_wrapperTag_of_sourceOf {tag : Tag} {content after : List Tree}
    {opening closing value : List Char}
    (hafter : ∀ tree ∈ after, rootOf?.isMisc tree = true)
    (hshaped : ∀ tree ∈ .element tag opening content closing :: after, tree.Shaped)
    (hsequence : IsSequence (Tree.lexemesOf (.element tag opening content closing :: after)))
    (hsource : sourceOf (Tree.lexemesOf (.element tag opening content closing :: after)) =
      wrapped value) :
    tag = wrapperTag ∧ IsSequence (Tree.lexemesOf content) ∧ Tree.sources content = value := by
  have hread := readToken_wrapped value
  rw [Tree.lexemesOf] at hsequence hsource
  have hopened : closing ≠ [] := by
    rintro rfl
    rw [Tree.lexemes, List.isEmpty_nil, if_pos rfl, List.singleton_append] at hsequence hsource
    have hread' := hsequence.readToken
    rw [hsource, hread] at hread'
    cases hread'
  have hlexemes : Tree.lexemes (.element tag opening content closing) =
      ⟨.startTag tag, opening⟩ ::
        (Tree.lexemesOf content ++ [⟨.endTag tag.name, closing⟩]) := by
    rw [Tree.lexemes, if_neg (by simpa using hopened)]
  rw [hlexemes, List.cons_append] at hsequence hsource
  have hread' := hsequence.readToken
  rw [hsource, hread, Option.some.injEq, Prod.mk.injEq, Token.startTag.injEq] at hread'
  obtain ⟨htag, hinside⟩ := hread'
  obtain ⟨hinner, hrest⟩ := hsequence.2.2.of_append
  obtain ⟨hcontent, hend⟩ := hinner.of_append
  obtain ⟨hroot, hshapedAfter⟩ := List.forall_mem_cons.mp hshaped
  cases hroot with
  | element _ hshapedContent =>
    simp only [sourceOf_append, sourceOf_cons, sourceOf_nil, List.append_nil,
      sourceOf_lexemesOf hshapedAfter, sourceOf_lexemesOf hshapedContent] at hinside
    obtain rfl := eq_nil_of_endTag hafter hrest hinside.symm
    obtain ⟨tail, rfl, htail⟩ := exists_cons_of_endTag_spells hend.1
    rw [Tree.sources, List.append_nil] at hinside
    obtain ⟨hvalue, -⟩ := append_cons_inj hinside (by decide) htail
    exact ⟨htag.symm, hcontent, hvalue.symm⟩

/-- A text that is well-formed inside an element is content, and its names are resolved. -/
theorem exists_isContent_of_isWellFormed {value : String}
    (h : isWellFormed ("<x>" ++ value ++ "</x>") = true) :
    ∃ trees nodes, IsContent trees value.toList ∧ resolveAll [] trees = some nodes := by
  have hchars : ("<x>" ++ value ++ "</x>").toList = wrapped value.toList := by simp [wrapped]
  obtain ⟨node, hparse⟩ := Option.isSome_iff_exists.mp h
  simp only [parse?, Option.bind_eq_bind, Option.bind_eq_some_iff, hchars] at hparse
  obtain ⟨root, hread, hresolve⟩ := hparse
  obtain ⟨hlegal, trees, hbody, hsequence, hshaped, hroot⟩ := readTree_eq_some_iff.mp hread
  have hsource : sourceOf (Tree.lexemesOf trees) = wrapped value.toList := by
    rw [sourceOf_lexemesOf hshaped]
    exact (Option.some.inj hbody).symm
  obtain ⟨before, after, tag, opening, content, closing, rfl, rfl, hbefore, hafter⟩ :=
    rootOf?_eq_some_iff.mp hroot
  obtain rfl :=
    eq_nil_of_readToken hbefore hsequence hsource (readToken_wrapped value.toList) rfl
  obtain ⟨rfl, hcontent, hvalue⟩ := eq_wrapperTag_of_sourceOf hafter hshaped hsequence hsource
  obtain ⟨declarations, bindings, uri, attributes, nodes, hdeclared, hbindings, -, -, hnodes, -⟩ :=
    resolve_element_eq_some_iff.mp hresolve
  cases hdeclared
  cases hbindings
  have hshapedContent : ∀ tree ∈ content, tree.Shaped := by
    cases (List.forall_mem_cons.mp hshaped).1 with
    | element _ hshapedContent => exact hshapedContent
  refine ⟨content, nodes, ⟨hshapedContent, hcontent, hvalue, ?_⟩, hnodes⟩
  simp only [wrapped, List.all_cons, List.all_append, Bool.and_eq_true] at hlegal
  exact hlegal.2.2.2.1

end RemoteCall.Xml
