import RemoteCall.Proofs.Xml.Prolog
import RemoteCall.Proofs.Xml.Sources

/-!
# Elements in their surroundings

An element stands in others, beside other nodes. How those are read does not depend on it: where
an element stands in a document, another may stand in its place if it is read under the same
bindings, and nothing else of the document is read differently.
-/

namespace RemoteCall.Xml

variable {source source' : List Char}

/-! ## Surroundings -/

/-- The node is an element. -/
def Node.IsElement : Node → Prop
  | .element .. => True
  | _ => False

/-- An element without one of the nodes that it holds. -/
structure NodeFrame where
  namespaceUri : Option String
  localName : String
  attributes : List Attribute
  opening : List Char
  left : List Node
  right : List Node
  closing : List Char

namespace NodeFrame

/-- The element with the node in its place. -/
def fill (frame : NodeFrame) (node : Node) : Node :=
  .element frame.namespaceUri frame.localName frame.attributes (frame.left ++ node :: frame.right)
    frame.opening frame.closing

/-- The outermost of the elements, the first, with the node in the place of the innermost. -/
def fillAll (frames : List NodeFrame) (node : Node) : Node :=
  frames.foldr fill node

/-- The characters of the elements before the place. -/
def before : List NodeFrame → List Char
  | [] => []
  | frame :: inner => frame.opening ++ Node.sources frame.left ++ before inner

/-- The characters of the elements behind the place. -/
def after : List NodeFrame → List Char
  | [] => []
  | frame :: inner => after inner ++ Node.sources frame.right ++ frame.closing

end NodeFrame

open NodeFrame (fillAll)

/-- The source of the first nodes stands before that of the others. -/
theorem Node.sources_append (first second : List Node) :
    Node.sources (first ++ second) = Node.sources first ++ Node.sources second := by
  induction first with
  | nil => rfl
  | cons node first ih => simp [Node.sources, ih]

/-- The source of a node stands in that of its surroundings, between what is before it and what is
behind. -/
theorem source_fillAll (frames : List NodeFrame) (node : Node) :
    (fillAll frames node).source =
      NodeFrame.before frames ++ node.source ++ NodeFrame.after frames := by
  induction frames with
  | nil => simp [fillAll, NodeFrame.before, NodeFrame.after]
  | cons frame inner ih =>
    have hcons : fillAll (frame :: inner) node = frame.fill (fillAll inner node) := rfl
    rw [hcons, NodeFrame.fill, Node.source, Node.sources_append, Node.sources, ih, NodeFrame.before,
      NodeFrame.after]
    simp

/-- What surrounds an element is an element. -/
theorem isElement_fillAll (frames : List NodeFrame) {node : Node} (h : node.IsElement) :
    (fillAll frames node).IsElement := by
  cases frames with
  | nil => exact h
  | cons => trivial

/-! ## Merging around an element -/

/-- Puts a node before merged ones, into the first of them if both are text. -/
def join (node : Node) (merged : List Node) : List Node :=
  match node, merged with
  | .text content first later, .text content' first' later' :: rest =>
    .text (content ++ content') first (later ++ first' ++ later') :: rest
  | node, rest => node :: rest

/-- Merging puts each node before those that have been merged behind it. -/
theorem mergeText_eq_join (node : Node) (rest : List Node) :
    mergeText (node :: rest) = join node (mergeText rest) := rfl

/-- What is put before merged nodes does not get past an element among them. -/
theorem join_append_cons {node : Node} (h : node.IsElement) (next : Node) (left right : List Node) :
    join next (left ++ node :: right) = join next left ++ node :: right := by
  cases node with
  | element => cases next <;> cases left with
    | nil => rfl
    | cons head left => cases head <;> rfl
  | _ => cases h

/-- Texts are not merged across an element, so what is before it and what is behind are merged
apart. -/
theorem mergeText_append_cons {node : Node} (h : node.IsElement) (first second : List Node) :
    mergeText (first ++ node :: second) = mergeText first ++ node :: mergeText second := by
  induction first with
  | nil =>
    cases node with
    | element => rfl
    | _ => cases h
  | cons next first ih =>
    rw [List.cons_append, mergeText_eq_join, ih, join_append_cons h, mergeText_eq_join]

/-- An element among joined nodes was put before them or is one of them. -/
theorem eq_of_join_eq {node next : Node} (h : node.IsElement) {merged left right : List Node}
    (hjoin : join next merged = left ++ node :: right) :
    (left = [] ∧ next = node ∧ merged = right) ∨
      ∃ front, merged = front ++ node :: right ∧ join next front = left := by
  have hback {front : List Node} (hmerged : merged = front ++ node :: right) :
      join next front = left := by
    rw [hmerged, join_append_cons h] at hjoin
    exact List.append_cancel_right hjoin
  fun_cases join next merged with
  | case1 content first later content' first' later' rest =>
    -- the joined text is no element, so the element is behind it
    rw [join] at hjoin
    obtain ⟨hleft, hnode⟩ | ⟨left, rfl, hrest⟩ := List.append_eq_cons_iff.mp hjoin.symm
    · cases hnode
      cases h
    · exact .inr ⟨_ :: left, by rw [hrest]; rfl, hback (by rw [hrest]; rfl)⟩
  | case2 =>
    have hcons : join next merged = next :: merged := by
      rw [join]
      assumption
    rw [hcons] at hjoin
    obtain ⟨rfl, hnode⟩ | ⟨left, rfl, hrest⟩ := List.append_eq_cons_iff.mp hjoin.symm
    · obtain ⟨rfl, rfl⟩ := List.cons.inj hnode
      exact .inl ⟨rfl, rfl, rfl⟩
    · exact .inr ⟨left, hrest, hback hrest⟩

/-- What is merged before an element and behind it was before it and behind it. -/
theorem exists_append_of_mergeText {node : Node} (h : node.IsElement) {nodes left right : List Node}
    (hmerged : mergeText nodes = left ++ node :: right) :
    ∃ first second, nodes = first ++ node :: second ∧ mergeText first = left ∧
      mergeText second = right := by
  induction nodes generalizing left with
  | nil => simp [mergeText] at hmerged
  | cons next rest ih =>
    rw [mergeText_eq_join] at hmerged
    rcases eq_of_join_eq h hmerged with ⟨rfl, rfl, hrest⟩ | ⟨front, hrest, rfl⟩
    · exact ⟨[], rest, rfl, rfl, hrest⟩
    · obtain ⟨first, second, rfl, rfl, hsecond⟩ := ih hrest
      exact ⟨next :: first, second, rfl, mergeText_eq_join next first, hsecond⟩

/-- A node among those that nodes are resolved to is that of one of them, and the others are
resolved to the nodes beside it. -/
theorem exists_append_of_resolveAll {scope : List Binding} {trees : List Tree}
    {left right : List Node} {node : Node}
    (h : resolveAll scope trees = some (left ++ node :: right)) :
    ∃ first tree second, trees = first ++ tree :: second ∧ resolveAll scope first = some left ∧
      resolve scope tree = some node ∧ resolveAll scope second = some right := by
  induction trees generalizing left with
  | nil => simp [resolveAll] at h
  | cons next rest ih =>
    simp only [resolveAll, Option.bind_eq_bind, Option.bind_eq_some_iff, Option.some.injEq] at h
    obtain ⟨head, hhead, nodes, hnodes, heq⟩ := h
    cases left with
    | nil =>
      obtain ⟨rfl, rfl⟩ := List.cons.inj heq
      exact ⟨[], next, rest, rfl, rfl, hhead, hnodes⟩
    | cons first left =>
      obtain ⟨rfl, rfl⟩ := List.cons.inj heq
      obtain ⟨first, tree, second, rfl, hleft, htree, hright⟩ := ih hnodes
      exact ⟨next :: first, tree, second, rfl, by simp [resolveAll, hhead, hleft], htree, hright⟩

/-! ## Content around an element -/

/-- Only elements are resolved to elements. -/
theorem exists_element_of_resolve {scope : List Binding} {tree : Tree} {node : Node}
    (h : resolve scope tree = some node) (hnode : node.IsElement) :
    ∃ tag opening content closing, tree = .element tag opening content closing := by
  cases tree with
  | element tag opening content closing => exact ⟨tag, opening, content, closing, rfl⟩
  | text source =>
    simp only [resolve, Option.bind_eq_bind, Option.bind_eq_some_iff, Option.some.injEq] at h
    obtain ⟨written, -, rfl⟩ := h
    cases hnode
  | _ =>
    cases h
    cases hnode

/-- What is resolved to an element has its characters, and holds what is resolved to its nodes. -/
theorem exists_of_resolve_eq_element {scope : List Binding} {tree : Tree} {uri : Option String}
    {name : String} {attributes : List Attribute} {nodes : List Node} {opening closing : List Char}
    (h : resolve scope tree = some (.element uri name attributes nodes opening closing)) :
    ∃ tag content declarations bindings children,
      tree = .element tag opening content closing ∧
      tag.attributes.mapM declared = some declarations ∧
      bindingsOf declarations = some bindings ∧
      elementNamespace (bindings ++ scope) tag.name = some uri ∧
      attributesOf (bindings ++ scope) declarations = some attributes ∧
      resolveAll (bindings ++ scope) content = some children ∧
      String.ofList tag.name.localPart = name ∧ mergeText children = nodes := by
  obtain ⟨tag, opening', content, closing', rfl⟩ := exists_element_of_resolve h trivial
  obtain ⟨declarations, bindings, uri', attributes', children, hdeclared, hbindings, huri,
    hattributes, hchildren, hnode⟩ := resolve_element_eq_some_iff.mp h
  rw [Node.element.injEq] at hnode
  obtain ⟨rfl, rfl, rfl, rfl, rfl, rfl⟩ := hnode
  exact ⟨tag, content, declarations, bindings, children, rfl, hdeclared, hbindings, huri,
    hattributes, hchildren, rfl, rfl⟩

/-- An element begins and ends with markup. -/
theorem lexemes_element (tag : Tag) (opening closing : List Char) (content : List Tree) :
    ∃ lexemes last, (Tree.element tag opening content closing).lexemes = lexemes ++ [last] ∧
      last.token ≠ .text := by
  rw [Tree.lexemes]
  split
  · exact ⟨[], _, rfl, by simp⟩
  · exact ⟨_ :: Tree.lexemesOf content, _, rfl, by simp⟩

/-- Any sequence may follow a lexeme that is no text. -/
theorem IsSequence.append_of_ne_text {first second : List Lexeme} {last : Lexeme}
    (h : IsSequence (first ++ [last])) (hlast : last.token ≠ .text) (hsecond : IsSequence second) :
    IsSequence (first ++ [last] ++ second) := by
  obtain ⟨hfirst, hspells, -, -⟩ := h.of_append
  obtain ⟨tail, htail⟩ := hspells.exists_cons hlast
  have hrest : IsSequence (last :: second) := ⟨hspells, fun h => absurd h hlast, hsecond⟩
  have hmarkup : StartsMarkup (sourceOf (last :: second)) := by
    rw [sourceOf_cons, htail]
    exact startsMarkup_cons
  simpa using hfirst.append hrest hmarkup

namespace IsContent

/-- Each part of content is content. -/
theorem of_append {first second : List Tree} (h : IsContent (first ++ second) source) :
    IsContent first (Tree.sources first) ∧ IsContent second (Tree.sources second) := by
  have hsequence := h.sequence
  have hlegal := h.legal
  rw [Tree.lexemesOf_append] at hsequence
  rw [← h.source_eq, Tree.sources_append, List.all_append, Bool.and_eq_true] at hlegal
  exact ⟨⟨fun tree htree => h.shaped tree (List.mem_append_left _ htree), hsequence.of_append.1,
    rfl, hlegal.1⟩, ⟨fun tree htree => h.shaped tree (List.mem_append_right _ htree),
    hsequence.of_append.2, rfl, hlegal.2⟩⟩

/-- The first node of content is content, and so are the others. -/
theorem of_cons {tree : Tree} {rest : List Tree} (h : IsContent (tree :: rest) source) :
    IsContent [tree] (Tree.sources [tree]) ∧ IsContent rest (Tree.sources rest) := by
  have happend : IsContent ([tree] ++ rest) source := h
  exact happend.of_append

/-- The node is read from the characters of what it is resolved to. -/
theorem of_resolve {tree : Tree} {scope : List Binding} {node : Node}
    (h : IsContent [tree] source) (hresolve : resolve scope tree = some node) :
    IsContent [tree] node.source := by
  have hsource : source = node.source := by
    rw [(h.shaped tree List.mem_cons_self).source_of_resolve hresolve, ← h.source_eq, Tree.sources,
      Tree.sources, List.append_nil]
  rwa [← hsource]

/-- Any content may follow an element. -/
theorem cons_element {tag : Tag} {opening closing : List Char} {content second : List Tree}
    (hfirst : IsContent [.element tag opening content closing] source)
    (hsecond : IsContent second source') :
    IsContent (.element tag opening content closing :: second) (source ++ source') where
  shaped := List.forall_mem_cons.mpr ⟨hfirst.shaped _ (by simp), hsecond.shaped⟩
  sequence := by
    obtain ⟨lexemes, last, hlexemes, hlast⟩ := lexemes_element tag opening closing content
    have hsequence := hfirst.sequence
    rw [Tree.lexemesOf, Tree.lexemesOf, List.append_nil, hlexemes] at hsequence
    rw [Tree.lexemesOf, hlexemes]
    exact hsequence.append_of_ne_text hlast hsecond.sequence
  source_eq := by
    rw [← hfirst.source_eq, ← hsecond.source_eq, Tree.sources, Tree.sources, Tree.sources,
      List.append_nil]
  legal := by rw [List.all_append, hfirst.legal, hsecond.legal]; rfl

/-- An element begins with an angle bracket. -/
theorem exists_cons {tag : Tag} {opening closing : List Char} {content : List Tree}
    (h : IsContent [.element tag opening content closing] source) :
    ∃ tail, source = '<' :: tail := by
  obtain ⟨token, lexemes, hlexemes, htag⟩ := exists_lexemes_element tag opening closing content
  have hsequence := h.sequence
  have hsource := sourceOf_lexemesOf h.shaped
  rw [Tree.lexemesOf, Tree.lexemesOf, List.append_nil, hlexemes] at hsequence hsource
  have htoken : token ≠ .text := by
    rintro rfl
    cases htag
  obtain ⟨tail, rfl⟩ := hsequence.1.exists_cons htoken
  exact ⟨_, by rw [← h.source_eq, ← hsource]; rfl⟩

/-- Among other nodes, an element may stand in the place of any node. -/
theorem exchange {left right : List Tree} {first : Tree} {tag : Tag}
    {opening closing : List Char} {content : List Tree}
    (h : IsContent (left ++ first :: right) source)
    (helement : IsContent [.element tag opening content closing] source') :
    IsContent (left ++ .element tag opening content closing :: right)
      (Tree.sources left ++ (source' ++ Tree.sources right)) := by
  have hleft := h.of_append.1
  have hright := h.of_append.2.of_cons.2
  refine hleft.append (helement.cons_element hright) ?_
  obtain ⟨tail, rfl⟩ := helement.exists_cons
  exact startsMarkup_cons

/-- The content of an element that is not empty stands between a start tag and its end tag. -/
theorem of_element {tag : Tag} {opening closing : List Char} {content : List Tree}
    (h : IsContent [.element tag opening content closing] source) (hclosing : closing ≠ []) :
    (Token.startTag tag).Spells opening ∧ (Token.endTag tag.name).Spells closing ∧
      IsContent content (Tree.sources content) ∧ opening.all isXmlChar = true ∧
      closing.all isXmlChar = true := by
  have hsequence := h.sequence
  have hlegal := h.legal
  rw [← h.source_eq, Tree.sources, Tree.sources, Tree.source] at hlegal
  simp only [List.all_append, List.all_nil, Bool.and_true, Bool.and_eq_true] at hlegal
  rw [Tree.lexemesOf, Tree.lexemesOf, List.append_nil, Tree.lexemes,
    if_neg (by simpa using hclosing)] at hsequence
  obtain ⟨hcontent, hend⟩ := hsequence.2.2.of_append
  have hshaped : ∀ tree ∈ content, tree.Shaped := by
    cases h.shaped _ List.mem_cons_self with
    | element _ hshaped => exact hshaped
  exact ⟨hsequence.1, hend.1, ⟨hshaped, hcontent, rfl, hlegal.1.2⟩, hlegal.1.1, hlegal.2⟩

end IsContent

/-! ## Exchanging elements -/

/-- A node of the content of an element is resolved under the bindings of the element, and the
nodes beside it are resolved to those that stand beside it in the end. -/
theorem exists_of_resolve_fill {scope : List Binding} {tree : Tree} {frame : NodeFrame}
    {node : Node} (hnode : node.IsElement) (h : resolve scope tree = some (frame.fill node)) :
    ∃ tag left child right inner,
      tree = .element tag frame.opening (left ++ child :: right) frame.closing ∧
      resolve inner child = some node ∧
      ∀ child' node', node'.IsElement → resolve inner child' = some node' →
        resolve scope (.element tag frame.opening (left ++ child' :: right) frame.closing) =
          some (frame.fill node') := by
  obtain ⟨tag, content, declarations, bindings, children, rfl, hdeclared, hbindings, huri,
    hattributes, hchildren, hname, hmerged⟩ := exists_of_resolve_eq_element h
  obtain ⟨first, second, rfl, hfirst, hsecond⟩ := exists_append_of_mergeText hnode hmerged
  obtain ⟨left, child, right, rfl, hleft, hchild, hright⟩ := exists_append_of_resolveAll hchildren
  refine ⟨tag, left, child, right, bindings ++ scope, rfl, hchild, fun child' node' hnode' h' => ?_⟩
  have hinside : resolveAll (bindings ++ scope) (child' :: right) = some (node' :: second) := by
    simp [resolveAll, h', hright]
  refine resolve_element_eq_some_iff.mpr ⟨declarations, bindings, _, _, first ++ node' :: second,
    hdeclared, hbindings, huri, hattributes, resolveAll_append hleft hinside, ?_⟩
  rw [mergeText_append_cons hnode', hfirst, hsecond, NodeFrame.fill, hname]

/-- An element inside another is resolved under some bindings, and any element that can be resolved
under them may stand in its place. -/
theorem exists_place_of_fill {scope : List Binding} {tree : Tree} {frame : NodeFrame} {node : Node}
    (hnode : node.IsElement) (hcontent : IsContent [tree] source)
    (h : resolve scope tree = some (frame.fill node)) :
    ∃ inner child, IsContent [child] node.source ∧ resolve inner child = some node ∧
      ∀ child' node', node'.IsElement → IsContent [child'] node'.source →
        resolve inner child' = some node' →
        ∃ tree', IsContent [tree'] (frame.fill node').source ∧
          resolve scope tree' = some (frame.fill node') := by
  obtain ⟨tag, left, child, right, inner, rfl, hchild, hrest⟩ := exists_of_resolve_fill hnode h
  have hclosed : frame.closing ≠ [] := by
    intro hempty
    cases hcontent.shaped _ List.mem_cons_self with
    | element hshape => simpa using hshape hempty
  obtain ⟨hstart, hend, hinside, hlegal, hlegal'⟩ := hcontent.of_element hclosed
  have hchildContent := hinside.of_append.2.of_cons.1
  refine ⟨inner, child, hchildContent.of_resolve hchild, hchild, fun child' node' hnode' hcontent'
    hchild' => ?_⟩
  obtain ⟨tag', opening', content', closing', rfl⟩ := exists_element_of_resolve hchild' hnode'
  have hresolve := hrest _ _ hnode' hchild'
  exact ⟨_, (IsContent.element hstart hend (hinside.exchange hcontent') hlegal hlegal').of_resolve
    hresolve, hresolve⟩

/-- The same holds of an element at any depth. -/
theorem exists_place_of_fillAll {scope : List Binding} {tree : Tree} {frames : List NodeFrame}
    {node : Node} (hnode : node.IsElement) (hcontent : IsContent [tree] source)
    (h : resolve scope tree = some (fillAll frames node)) :
    ∃ inner child, IsContent [child] node.source ∧ resolve inner child = some node ∧
      ∀ child' node', node'.IsElement → IsContent [child'] node'.source →
        resolve inner child' = some node' →
        ∃ tree', IsContent [tree'] (fillAll frames node').source ∧
          resolve scope tree' = some (fillAll frames node') := by
  induction frames generalizing scope tree source with
  | nil =>
    exact ⟨scope, tree, hcontent.of_resolve h, h, fun child' node' _ hcontent' hchild' =>
      ⟨child', hcontent', hchild'⟩⟩
  | cons frame frames ih =>
    obtain ⟨outer, next, hnext, hresolve, houter⟩ :=
      exists_place_of_fill (isElement_fillAll frames hnode) hcontent h
    obtain ⟨inner, child, hchildContent, hchild, hinner⟩ := ih hnext hresolve
    refine ⟨inner, child, hchildContent, hchild, fun child' node' hnode' hcontent' hchild' => ?_⟩
    obtain ⟨next', hnext', hresolve'⟩ := hinner child' node' hnode' hcontent' hchild'
    exact houter next' _ (isElement_fillAll frames hnode') hnext' hresolve'

/-! ## Documents -/

/-- A document holds the characters of its root, in place of which others may stand. -/
theorem exists_append_of_parse? {text : String} {root : Node} (h : parse? text = some root) :
    ∃ lead trail tree, text.toList = lead ++ root.source ++ trail ∧
      IsContent [tree] root.source ∧ resolve [] tree = some root ∧
      ∀ tree' root', root'.IsElement → IsContent [tree'] root'.source →
        resolve [] tree' = some root' →
        parse? (String.ofList (lead ++ root'.source ++ trail)) = some root' := by
  simp only [parse?, Option.bind_eq_bind, Option.bind_eq_some_iff] at h ⊢
  obtain ⟨tree, hread, hresolve⟩ := h
  obtain ⟨hlegal, trees, hbody, hsequence, hshaped, hroot⟩ := readTree_eq_some_iff.mp hread
  obtain ⟨lead, hchars, hprolog⟩ := exists_append_of_skipProlog hbody
  obtain ⟨before, after, -, -, -, -, -, rfl, hbefore, hafter⟩ := rootOf?_eq_some_iff.mp hroot
  rw [hchars, List.all_append, Bool.and_eq_true] at hlegal
  have hcontent : IsContent _ _ := ⟨hshaped, hsequence, rfl, hlegal.2⟩
  have hrootContent := hcontent.of_append.2.of_cons.1
  have hsource := (hshaped tree (by simp)).source_of_resolve hresolve
  refine ⟨lead ++ Tree.sources before, Tree.sources after, tree, ?_,
    hrootContent.of_resolve hresolve, hresolve, fun tree' root' helement hcontent' hresolve' => ?_⟩
  · simp [hchars, Tree.sources_append, Tree.sources, hsource]
  · obtain ⟨tag', opening', content', closing', rfl⟩ := exists_element_of_resolve hresolve' helement
    have hexchanged := hcontent.exchange hcontent'
    have hroot' := rootOf?_eq_some_iff.mpr
      ⟨before, after, tag', opening', content', closing', rfl, rfl, hbefore, hafter⟩
    have hbare := isBare_sources hexchanged.shaped hexchanged.sequence hroot'
    have hchars' : lead ++ Tree.sources before ++ root'.source ++ Tree.sources after =
        lead ++ Tree.sources
          (before ++ .element tag' opening' content' closing' :: after) := by
      rw [hexchanged.source_eq]
      simp
    have hlegal' := hexchanged.legal
    rw [← hexchanged.source_eq] at hlegal'
    refine ⟨_, readTree_eq_some_iff.mpr ⟨?_, _, ?_, hexchanged.sequence, hexchanged.shaped, hroot'⟩,
      hresolve'⟩
    · rw [String.toList_ofList, hchars', List.all_append, hlegal.1, hlegal', Bool.and_self]
    · rw [String.toList_ofList, hchars', hprolog _ hbare]

/-- An element of a document is resolved under some bindings. Any other that can be resolved under
them may stand in its place, and nothing else is read differently. -/
theorem exists_place {text : String} {frames : List NodeFrame} {node : Node}
    (hnode : node.IsElement) (h : parse? text = some (fillAll frames node)) :
    ∃ lead trail scope tree,
      text.toList =
        lead ++ (NodeFrame.before frames ++ node.source ++ NodeFrame.after frames) ++ trail ∧
      IsContent [tree] node.source ∧ resolve scope tree = some node ∧
      ∀ tree' node', node'.IsElement → IsContent [tree'] node'.source →
        resolve scope tree' = some node' →
        parse? (String.ofList
          (lead ++ (NodeFrame.before frames ++ node'.source ++ NodeFrame.after frames) ++ trail)) =
            some (fillAll frames node') := by
  obtain ⟨lead, trail, tree, htext, hcontent, hresolve, hroot⟩ := exists_append_of_parse? h
  obtain ⟨scope, child, hchildContent, hchild, hplace⟩ :=
    exists_place_of_fillAll hnode hcontent hresolve
  rw [source_fillAll] at htext
  refine ⟨lead, trail, scope, child, htext, hchildContent, hchild,
    fun child' node' hnode' hcontent' hchild' => ?_⟩
  obtain ⟨tree', htree', hresolve'⟩ := hplace child' node' hnode' hcontent' hchild'
  rw [← source_fillAll]
  exact hroot tree' _ (isElement_fillAll frames hnode') htree' hresolve'

end RemoteCall.Xml
