import RemoteCall.Proofs.Xml.Wrapped

/-!
# What nodes were read from

Resolving names and merging text keep the characters that the nodes were read from. So the
nodes of a text that is well-formed inside an element give the text back, and only character
data at the end that was merged from several pieces is not told in full.
-/

namespace RemoteCall.Xml

/-- Merging texts keeps the source, also that of pieces that come later in a text. -/
theorem sources_mergeText (nodes : List Node) :
    Node.sources (mergeText nodes) = Node.sources nodes := by
  induction nodes with
  | nil => rfl
  | cons node rest ih =>
    unfold mergeText
    split
    · next hmerged =>
      rw [hmerged] at ih
      simp [Node.sources, Node.source, ← ih]
    · simp only [Node.sources, ih]

/-- If each of some nodes keeps its source when it is resolved, so do all in a row. -/
theorem sources_of_resolveAll_of_forall {scope : List Binding} {trees : List Tree}
    (h : ∀ tree ∈ trees, ∀ node, resolve scope tree = some node → node.source = tree.source)
    {nodes : List Node} (hnodes : resolveAll scope trees = some nodes) :
    Node.sources nodes = Tree.sources trees := by
  induction trees generalizing nodes with
  | nil =>
    cases hnodes
    rfl
  | cons tree trees ih =>
    simp only [resolveAll, Option.bind_eq_bind, Option.bind_eq_some_iff, Option.some.injEq]
      at hnodes
    obtain ⟨node, hnode, rest, hrest, rfl⟩ := hnodes
    obtain ⟨hfirst, hlater⟩ := List.forall_mem_cons.mp h
    rw [Node.sources, Tree.sources, hfirst node hnode, ih hlater hrest]

/-- A node is resolved to one that was read from the same characters. -/
theorem Tree.Shaped.source_of_resolve {tree : Tree} (h : tree.Shaped) {scope : List Binding}
    {node : Node} (hnode : resolve scope tree = some node) : node.source = tree.source := by
  induction h generalizing scope node with
  | element _ _ ih =>
    obtain ⟨declarations, bindings, uri, attributes, children, -, -, -, -, hchildren, rfl⟩ :=
      resolve_element_eq_some_iff.mp hnode
    rw [Node.source, Tree.source, sources_mergeText,
      sources_of_resolveAll_of_forall (fun tree htree _ => ih tree htree) hchildren]
  | text =>
    simp only [resolve, Option.bind_eq_bind, Option.bind_eq_some_iff, Option.some.injEq] at hnode
    obtain ⟨written, -, rfl⟩ := hnode
    simp [Node.source, Tree.source]
  | characterData =>
    cases hnode
    simp [Node.source, Tree.source]
  | aside =>
    cases hnode
    rfl

/-- Content is resolved to nodes that were read from the same characters. -/
theorem IsContent.sources_eq {trees : List Tree} {source : List Char} (h : IsContent trees source)
    {scope : List Binding} {nodes : List Node} (hnodes : resolveAll scope trees = some nodes) :
    Node.sources (mergeText nodes) = source := by
  rw [sources_mergeText, ← h.source_eq]
  exact sources_of_resolveAll_of_forall
    (fun tree htree _ => (h.shaped tree htree).source_of_resolve) hnodes

/-- Whether the last node is character data that was merged from several pieces, as text and a
`CDATA` section next to each other are. -/
def endsInPieces (nodes : List Node) : Bool :=
  match nodes.getLast? with
  | some (.text _ _ later) => !later.isEmpty
  | _ => false

/-- The pieces of the last node behind its first, if it is character data. -/
def laterPieces (nodes : List Node) : List Char :=
  match nodes.getLast? with
  | some (.text _ _ later) => later
  | _ => []

/-- The nodes end in a text of several pieces exactly if there are later pieces to leave out. -/
theorem endsInPieces_eq (nodes : List Node) :
    endsInPieces nodes = !(laterPieces nodes).isEmpty := by
  unfold endsInPieces laterPieces
  cases nodes.getLast? with
  | none => rfl
  | some last => cases last <;> rfl

/-- From the start of the first node to the end of the last stands everything, but the end of the
last is taken to be that of its first piece. -/
theorem sources_eq_append (nodes : List Node) :
    Node.sources nodes = Node.verbatim nodes ++ laterPieces nodes := by
  fun_induction Node.verbatim nodes with
  | case1 => rfl
  | case2 content first later => simp [Node.sources, Node.source, laterPieces]
  | case3 node rest hlast ih =>
    cases rest with
    | nil =>
      cases node with
      | text content first later => exact (hlast content first later rfl rfl).elim
      | _ => simp [Node.sources, Node.verbatim, laterPieces]
    | cons next rest =>
      have hlater : laterPieces (node :: next :: rest) = laterPieces (next :: rest) := by
        simp [laterPieces, List.getLast?_cons]
      rw [Node.sources, ih, hlater, List.append_assoc]

/-- The verbatim source is the whole one unless the nodes end in a text of several pieces. -/
theorem verbatim_eq_sources_iff {nodes : List Node} :
    Node.verbatim nodes = Node.sources nodes ↔ endsInPieces nodes = false := by
  rw [sources_eq_append, endsInPieces_eq]
  simp

/-- Nodes that do not end in a text of several pieces are taken over whole. -/
theorem verbatim_eq_sources {nodes : List Node} (h : endsInPieces nodes = false) :
    Node.verbatim nodes = Node.sources nodes :=
  verbatim_eq_sources_iff.mpr h

/-- Inside an element, content is read as the nodes that it is resolved to. -/
theorem parse?_wrapped {value : String} {trees : List Tree} {nodes : List Node}
    (hcontent : IsContent trees value.toList) (hnodes : resolveAll [] trees = some nodes) :
    parse? ("<x>" ++ value ++ "</x>") =
      some (.element none "x" [] (mergeText nodes) ['<', 'x', '>'] ['<', '/', 'x', '>']) := by
  have hwritable : wrapperTag.IsWritable := ⟨⟨rfl, by decide⟩, by simp [wrapperTag]⟩
  have hchars : ("<x>" ++ value ++ "</x>").toList =
      wrapperTag.start.render ++ value.toList ++ wrapperTag.finish.render := by
    simp [Tag.start, Tag.finish, wrapperTag, QName.text, Markup.renderAttributes]
  have hinside := hwritable.isContent hcontent
  have hbody : skipProlog ("<x>" ++ value ++ "</x>").toList =
      some ("<x>" ++ value ++ "</x>").toList := by
    have hname : isNamePart ['x'] = true := by decide
    simpa using skipProlog_of_isNamePart hname ('>' :: (value.toList ++ ['<', '/', 'x', '>']))
  have hnode : resolve [] (.element wrapperTag wrapperTag.start.render trees
      wrapperTag.finish.render) = some (.element none "x" [] (mergeText nodes)
        wrapperTag.start.render wrapperTag.finish.render) :=
    resolve_element_eq_some_iff.mpr ⟨[], [], none, [], nodes, rfl, rfl, rfl, rfl, hnodes, rfl⟩
  have hlegal := hinside.legal
  rw [← hchars] at hinside hlegal
  exact parse?_of_isContent hlegal hbody hinside hnode

end RemoteCall.Xml
