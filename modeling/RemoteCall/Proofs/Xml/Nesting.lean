import RemoteCall.Proofs.Xml.Lexemes
import RemoteCall.Xml.Tree

/-!
# Trees and their lexemes

A tree gives back the lexemes it was nested from. Nesting the lexemes of trees yields the
trees, and whatever trees nesting yields, their lexemes are those that were nested.
-/

namespace RemoteCall.Xml

mutual

/-- The lexemes that a node was nested from. An element without closing characters was an
empty tag. -/
def Tree.lexemes : Tree → List Lexeme
  | .element tag opening content closing =>
    if closing.isEmpty then [⟨.emptyTag tag, opening⟩]
    else ⟨.startTag tag, opening⟩ ::
      (Tree.lexemesOf content ++ [⟨.endTag tag.name, closing⟩])
  | .text source => [⟨.text, source⟩]
  | .characterData content source => [⟨.characterData content, source⟩]
  | .aside source => [⟨.aside, source⟩]

/-- The lexemes that the nodes were nested from. -/
def Tree.lexemesOf : List Tree → List Lexeme
  | [] => []
  | tree :: rest => tree.lexemes ++ Tree.lexemesOf rest

end

/-- Elements without closing characters have no content, at every depth. -/
inductive Tree.Shaped : Tree → Prop
  | element {tag : Tag} {opening closing : List Char} {content : List Tree}
      (hclosing : closing = [] → content = []) (hcontent : ∀ tree ∈ content, Shaped tree) :
      Shaped (.element tag opening content closing)
  | text {source : List Char} : Shaped (.text source)
  | characterData {content source : List Char} : Shaped (.characterData content source)
  | aside {source : List Char} : Shaped (.aside source)

/-- The lexemes of the first nodes stand before those of the others. -/
theorem Tree.lexemesOf_append (first second : List Tree) :
    Tree.lexemesOf (first ++ second) = Tree.lexemesOf first ++ Tree.lexemesOf second := by
  induction first with
  | nil => rfl
  | cons tree first ih => simp [Tree.lexemesOf, ih]

/-- Nodes are made up by their lexemes if each of them is. -/
theorem sourceOf_lexemesOf_of_forall {trees : List Tree}
    (h : ∀ tree ∈ trees, sourceOf tree.lexemes = tree.source) :
    sourceOf (Tree.lexemesOf trees) = Tree.sources trees := by
  induction trees with
  | nil => rfl
  | cons tree trees ih =>
    rw [Tree.lexemesOf, sourceOf_append, h tree (by simp), Tree.sources,
      ih fun tree htree => h tree (List.mem_cons_of_mem _ htree)]

/-- The lexemes of a tree make up its source. -/
theorem Tree.Shaped.sourceOf_lexemes {tree : Tree} (h : tree.Shaped) :
    sourceOf tree.lexemes = tree.source := by
  induction h with
  | @element tag opening closing content hclosing hcontent ih =>
    have hsources := sourceOf_lexemesOf_of_forall ih
    cases closing with
    | nil => simp [Tree.lexemes, Tree.source, hclosing rfl, Tree.sources]
    | cons c closing => simp [Tree.lexemes, Tree.source, hsources]
  | text => simp [Tree.lexemes, Tree.source]
  | characterData => simp [Tree.lexemes, Tree.source]
  | aside => simp [Tree.lexemes, Tree.source]

/-! ## Nesting the lexemes of trees -/

/-- The lexemes of nodes of the proper shape make up their sources. -/
theorem sourceOf_lexemesOf {trees : List Tree} (h : ∀ tree ∈ trees, tree.Shaped) :
    sourceOf (Tree.lexemesOf trees) = Tree.sources trees :=
  sourceOf_lexemesOf_of_forall fun tree htree => (h tree htree).sourceOf_lexemes

/-- If each node is nested from its lexemes among any others, so are several in a row. -/
theorem nest_lexemesOf_of_forall {trees siblings : List Tree} {stack : List OpenElement}
    {rest : List Lexeme}
    (h : ∀ tree ∈ trees, ∀ siblings rest,
      nest stack siblings (tree.lexemes ++ rest) = nest stack (tree :: siblings) rest) :
    nest stack siblings (Tree.lexemesOf trees ++ rest) =
      nest stack (trees.reverse ++ siblings) rest := by
  induction trees generalizing siblings with
  | nil => rfl
  | cons tree trees ih =>
    rw [Tree.lexemesOf, List.append_assoc, h tree (by simp),
      ih fun tree htree => h tree (List.mem_cons_of_mem _ htree)]
    simp

/-- The lexemes of a tree nest into that tree, among any other nodes. -/
theorem Tree.Shaped.nest_lexemes {tree : Tree} (h : tree.Shaped) (stack : List OpenElement)
    (siblings : List Tree) (rest : List Lexeme) :
    nest stack siblings (tree.lexemes ++ rest) = nest stack (tree :: siblings) rest := by
  induction h generalizing stack siblings rest with
  | @element tag opening closing content hclosing hcontent ih =>
    cases closing with
    | nil =>
      rw [hclosing rfl]
      cases stack <;> rfl
    | cons c closing =>
      have hlexemes : Tree.lexemes (.element tag opening content (c :: closing)) ++ rest =
          ⟨.startTag tag, opening⟩ :: (Tree.lexemesOf content ++
            ⟨.endTag tag.name, c :: closing⟩ :: rest) := by
        simp [Tree.lexemes]
      have hstart : nest stack siblings (⟨.startTag tag, opening⟩ :: (Tree.lexemesOf content ++
          ⟨.endTag tag.name, c :: closing⟩ :: rest)) =
          nest (⟨tag, opening, siblings⟩ :: stack) [] (Tree.lexemesOf content ++
            ⟨.endTag tag.name, c :: closing⟩ :: rest) := by
        cases stack <;> rfl
      rw [hlexemes, hstart, nest_lexemesOf_of_forall fun tree htree => ih tree htree _]
      simp [nest]
  | text => cases stack <;> rfl
  | characterData => cases stack <;> rfl
  | aside => cases stack <;> rfl

/-- Nodes of the proper shape are nested from their lexemes. -/
theorem nest_lexemesOf {trees : List Tree} (h : ∀ tree ∈ trees, tree.Shaped) :
    nest [] [] (Tree.lexemesOf trees) = some trees := by
  have hnest : nest [] [] (Tree.lexemesOf trees ++ []) = nest [] (trees.reverse ++ []) [] :=
    nest_lexemesOf_of_forall fun tree htree => (h tree htree).nest_lexemes []
  simpa [nest] using hnest

/-! ## What nesting yields -/

/-- The lexemes of the open elements and of the nodes before the place that has been reached. -/
def pendingLexemes : List OpenElement → List Tree → List Lexeme
  | [], siblings => Tree.lexemesOf siblings.reverse
  | outer :: stack, siblings =>
    pendingLexemes stack outer.before ++
      ⟨.startTag outer.tag, outer.opening⟩ :: Tree.lexemesOf siblings.reverse

/-- A node that is finished adds its lexemes at the place that has been reached. -/
theorem pendingLexemes_cons (stack : List OpenElement) (tree : Tree) (siblings : List Tree) :
    pendingLexemes stack (tree :: siblings) = pendingLexemes stack siblings ++ tree.lexemes := by
  cases stack <;> simp [pendingLexemes, Tree.lexemesOf_append, Tree.lexemesOf]

/-- Nesting keeps the lexemes and makes trees of the proper shape. -/
theorem lexemesOf_of_nest {stack : List OpenElement} {siblings trees : List Tree}
    {lexemes : List Lexeme} (h : nest stack siblings lexemes = some trees)
    (hsources : ∀ lexeme ∈ lexemes, lexeme.source ≠ [])
    (hstack : ∀ outer ∈ stack, ∀ tree ∈ outer.before, tree.Shaped)
    (hsiblings : ∀ tree ∈ siblings, tree.Shaped) :
    Tree.lexemesOf trees = pendingLexemes stack siblings ++ lexemes ∧
      ∀ tree ∈ trees, tree.Shaped := by
  fun_induction nest stack siblings lexemes with
  | case1 siblings =>
    cases h
    exact ⟨by simp [pendingLexemes], by simpa using hsiblings⟩
  | case2 => cases h
  | case3 stack siblings tag source rest ih =>
    -- the siblings wait behind the start tag
    obtain ⟨hlexemes, hshaped⟩ := ih h (List.forall_mem_cons.mp hsources).2
      (List.forall_mem_cons.mpr ⟨hsiblings, hstack⟩) (by simp)
    exact ⟨by rw [hlexemes]; simp [pendingLexemes, Tree.lexemesOf], hshaped⟩
  | case4 stack siblings tag source rest ih =>
    obtain ⟨hlexemes, hshaped⟩ := ih h (List.forall_mem_cons.mp hsources).2 hstack
      (List.forall_mem_cons.mpr ⟨.element (fun _ => rfl) (by simp), hsiblings⟩)
    exact ⟨by rw [hlexemes, pendingLexemes_cons]; simp [Tree.lexemes], hshaped⟩
  | case5 => cases h
  | case6 outer stack siblings source rest ih =>
    -- the innermost open element is complete
    have hsource : source ≠ [] := (List.forall_mem_cons.mp hsources).1
    obtain ⟨hlexemes, hshaped⟩ := ih h (List.forall_mem_cons.mp hsources).2
      (List.forall_mem_cons.mp hstack).2
      (List.forall_mem_cons.mpr ⟨.element (fun hclosing => absurd hclosing hsource)
        (by simpa using hsiblings), (List.forall_mem_cons.mp hstack).1⟩)
    exact ⟨by rw [hlexemes, pendingLexemes_cons]; simp [Tree.lexemes, pendingLexemes, hsource],
      hshaped⟩
  | case7 => cases h
  | case8 stack siblings source rest ih =>
    obtain ⟨hlexemes, hshaped⟩ := ih h (List.forall_mem_cons.mp hsources).2 hstack
      (List.forall_mem_cons.mpr ⟨.text, hsiblings⟩)
    exact ⟨by rw [hlexemes, pendingLexemes_cons]; simp [Tree.lexemes], hshaped⟩
  | case9 stack siblings content source rest ih =>
    obtain ⟨hlexemes, hshaped⟩ := ih h (List.forall_mem_cons.mp hsources).2 hstack
      (List.forall_mem_cons.mpr ⟨.characterData, hsiblings⟩)
    exact ⟨by rw [hlexemes, pendingLexemes_cons]; simp [Tree.lexemes], hshaped⟩
  | case10 stack siblings source rest ih =>
    obtain ⟨hlexemes, hshaped⟩ := ih h (List.forall_mem_cons.mp hsources).2 hstack
      (List.forall_mem_cons.mpr ⟨.aside, hsiblings⟩)
    exact ⟨by rw [hlexemes, pendingLexemes_cons]; simp [Tree.lexemes], hshaped⟩

/-- Nesting undoes the taking apart of trees. -/
theorem nest_eq_some_iff {trees : List Tree} {lexemes : List Lexeme}
    (hsources : ∀ lexeme ∈ lexemes, lexeme.source ≠ []) :
    nest [] [] lexemes = some trees ↔
      lexemes = Tree.lexemesOf trees ∧ ∀ tree ∈ trees, tree.Shaped := by
  constructor
  · intro h
    obtain ⟨hlexemes, hshaped⟩ := lexemesOf_of_nest h hsources (by simp) (by simp)
    exact ⟨by simpa [pendingLexemes, Tree.lexemesOf] using hlexemes.symm, hshaped⟩
  · rintro ⟨rfl, hshaped⟩
    exact nest_lexemesOf hshaped

/-! ## Documents -/

/-- Every lexeme of a sequence has characters. -/
theorem IsSequence.source_ne_nil {lexemes : List Lexeme} (h : IsSequence lexemes) :
    ∀ lexeme ∈ lexemes, lexeme.source ≠ [] := by
  induction lexemes with
  | nil => simp
  | cons lexeme lexemes ih => exact List.forall_mem_cons.mpr ⟨h.1.ne_nil, ih h.2.2⟩

/-- Asides and space before the root do not matter for it. -/
theorem rootOf?_cons_misc {tree : Tree} (h : rootOf?.isMisc tree = true) (trees : List Tree) :
    rootOf? (tree :: trees) = rootOf? trees := by
  cases tree with
  | element => cases h
  | _ => simp [rootOf?, h]

/-- The root is an element, and stands alone but for asides and space. -/
theorem rootOf?_eq_some_iff {trees : List Tree} {root : Tree} :
    rootOf? trees = some root ↔
      ∃ before after tag opening content closing, root = .element tag opening content closing ∧
        trees = before ++ root :: after ∧ (∀ tree ∈ before, rootOf?.isMisc tree = true) ∧
        ∀ tree ∈ after, rootOf?.isMisc tree = true := by
  constructor
  · intro h
    induction trees with
    | nil => cases h
    | cons tree trees ih =>
      by_cases hmisc : rootOf?.isMisc tree = true
      · rw [rootOf?_cons_misc hmisc] at h
        obtain ⟨before, after, tag, opening, content, closing, hroot, rfl, hbefore, hafter⟩ := ih h
        exact ⟨tree :: before, after, tag, opening, content, closing, hroot, rfl,
          List.forall_mem_cons.mpr ⟨hmisc, hbefore⟩, hafter⟩
      · cases tree with
        | element tag opening content closing =>
          simp only [rootOf?, List.all_eq_true, Option.ite_none_right_eq_some,
            Option.some.injEq] at h
          exact ⟨[], trees, tag, opening, content, closing, h.2.symm, by rw [← h.2]; rfl,
            by simp, h.1⟩
        | _ => simp [rootOf?, hmisc] at h
  · rintro ⟨before, after, tag, opening, content, closing, rfl, rfl, hbefore, hafter⟩
    induction before with
    | nil => simpa [rootOf?] using hafter
    | cons tree before ih =>
      obtain ⟨hmisc, hbefore⟩ := List.forall_mem_cons.mp hbefore
      rw [List.cons_append, rootOf?_cons_misc hmisc, ih hbefore]

/-- A document is a sequence of lexemes that nest into trees, one of which is the root. -/
theorem readTree_eq_some_iff {chars : List Char} {root : Tree} :
    readTree chars = some root ↔
      chars.all isXmlChar = true ∧ ∃ trees, skipProlog chars = some (Tree.sources trees) ∧
        IsSequence (Tree.lexemesOf trees) ∧ (∀ tree ∈ trees, tree.Shaped) ∧
        rootOf? trees = some root := by
  simp only [readTree, Option.bind_eq_bind]
  constructor
  · intro h
    split at h
    · next hchars =>
      simp only [Option.bind_eq_some_iff] at h
      obtain ⟨body, hbody, lexemes, hlexemes, trees, htrees, hroot⟩ := h
      obtain ⟨hsequence, rfl⟩ := readLexemes_eq_some_iff.mp hlexemes
      obtain ⟨rfl, hshaped⟩ := (nest_eq_some_iff hsequence.source_ne_nil).mp htrees
      exact ⟨hchars, trees, by rw [hbody, sourceOf_lexemesOf hshaped], hsequence, hshaped, hroot⟩
    · cases h
  · rintro ⟨hchars, trees, hbody, hsequence, hshaped, hroot⟩
    have hlexemes : readLexemes (Tree.sources trees) = some (Tree.lexemesOf trees) :=
      readLexemes_eq_some_iff.mpr ⟨hsequence, (sourceOf_lexemesOf hshaped).symm⟩
    have htrees : nest [] [] (Tree.lexemesOf trees) = some trees := nest_lexemesOf hshaped
    simp [hchars, hbody, hlexemes, htrees, hroot]

end RemoteCall.Xml
