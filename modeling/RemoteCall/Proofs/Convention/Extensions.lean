import RemoteCall.Proofs.CallResult.Compatibility
import RemoteCall.Proofs.Convention.Agreement
import RemoteCall.Proofs.Convention.Roots
import RemoteCall.Proofs.Element.Legality

/-!
# Documents with extensions

A document may hold elements that its reader cannot know: elements in a namespace, and elements
with names of their own. Deleting them never changes what result a document is. A request is read
by local names, so a parameter or a data section in a namespace counts as one without. Deleting it
changes nothing only if it is no data section, and says nothing that the others do not say.
-/

namespace RemoteCall

open Xml (Node Attribute)

/-! ## Deleting extensions -/

/-- Whether the element is in a namespace. -/
def Element.isForeign (element : Element) : Bool :=
  (Element.nonEmpty element.namespaceUri).isSome

/-- Whether no reader can know the element, if it stands right under the root. -/
def Element.isExtension (element : Element) : Bool :=
  element.isForeign || (element.localName ≠ "param" && element.localName ≠ "data")

/-- Whether the node is an element that no reader can know, if it stands right under the root. -/
def Xml.Node.isExtension : Node → Bool
  | .element uri name _ _ _ _ =>
    (Element.nonEmpty uri).isSome || (name ≠ "param" && name ≠ "data")
  | _ => false

/-- The second root is the first one without the extensions among its children. The text that
stood between them may have been put together. -/
inductive IsPruned : Node → Node → Prop
  | element {uri : Option String} {name : String} {attributes : List Attribute}
      {nodes nodes' : List Node} {opening closing opening' closing' : List Char}
      (helements : nodes'.filter CallResult.isElement =
        (nodes.filter CallResult.isElement).filter (!·.isExtension))
      (htext : CallResult.HasBlankText nodes ↔ CallResult.HasBlankText nodes') :
      IsPruned (.element uri name attributes nodes opening closing)
        (.element uri name attributes nodes' opening' closing')

/-- What nothing is made of may be left out. -/
theorem filterMap_filter_of_forall {α β : Type} {f : α → Option β} {kept : α → Bool}
    {items : List α} (h : ∀ item ∈ items, kept item = false → f item = none) :
    (items.filter kept).filterMap f = items.filterMap f := by
  rw [List.filterMap_filter]
  refine List.filterMap_congr fun item hitem => ?_
  cases hkept : kept item with
  | true => rfl
  | false => exact (h item hitem hkept).symm

/-! ## Results -/

namespace CallResult

variable {nodes nodes' : List Node}

/-- What is no element is neither a parameter nor a data section, in no reading. -/
theorem not_isElement {node : Node} (h : isElement node = false) :
    parameterOf? attributeNamed? node = none ∧ dataOf? node = none ∧
      Element.ofNode? node = none := by
  cases node with
  | element => cases h
  | text | aside => exact ⟨rfl, rfl, by rw [Element.ofNode?]; simp⟩

/-- Extensions are nothing to a reader of results. -/
theorem eq_none_of_isExtension {node : Node} (h : node.isExtension = true) :
    parameterOf? attributeNamed? node = none ∧ dataOf? node = none := by
  cases node with
  | element uri name attributes content opening closing =>
    simp only [Xml.Node.isExtension, Bool.or_eq_true, Bool.and_eq_true, decide_eq_true_eq] at h
    rcases h with huri | ⟨hparam, hdata⟩
    · have hne : uri ≠ none := by
        rintro rfl
        cases huri
      simp [parameterOf?, dataOf?, hne]
    · simp [parameterOf?, dataOf?, hparam, hdata]
  | text | aside => cases h

/-- What is made neither of text nor of extensions is made of the elements that are left. -/
theorem filterMap_of_isPruned {α : Type} {f : Node → Option α}
    (helements : nodes'.filter isElement = (nodes.filter isElement).filter (!·.isExtension))
    (hother : ∀ node, isElement node = false → f node = none)
    (hextension : ∀ node, node.isExtension = true → f node = none) :
    nodes.filterMap f = nodes'.filterMap f :=
  calc nodes.filterMap f
    _ = (nodes.filter isElement).filterMap f :=
      (filterMap_filter_of_forall fun node _ => hother node).symm
    _ = ((nodes.filter isElement).filter (!·.isExtension)).filterMap f :=
      (filterMap_filter_of_forall fun node _ hnode =>
        hextension node (by simpa using hnode)).symm
    _ = (nodes'.filter isElement).filterMap f := by rw [helements]
    _ = nodes'.filterMap f := filterMap_filter_of_forall fun node _ => hother node

/-- A result is read from what is left of its document. -/
theorem ofRoot_eq_ok_iff_of_isPruned {root root' : Node} (h : IsPruned root root')
    {result : CallResult} : ofRoot root = .ok result ↔ ofRoot root' = .ok result := by
  cases h with
  | @element uri name attributes nodes nodes' opening closing opening' closing' helements htext =>
    have halike : LookAlike attributeNamed? nodes nodes' := by
      refine ⟨htext, List.Perm.of_eq ?_, List.Perm.of_eq ?_⟩
      · exact filterMap_of_isPruned helements (fun _ hnode => (not_isElement hnode).1)
          fun _ hnode => (eq_none_of_isExtension hnode).1
      · exact filterMap_of_isPruned helements (fun _ hnode => (not_isElement hnode).2.1)
          fun _ hnode => (eq_none_of_isExtension hnode).2
    exact halike.ofRoot_eq_ok_iff

end CallResult

/-! ## Requests -/

/-- The element is the root without the extensions among its children. Its text does not matter. -/
structure Element.IsPrunedFrom (root pruned : Element) : Prop where
  localName : pruned.localName = root.localName
  attributes : pruned.attributes = root.attributes
  children : pruned.children = root.children.filter (!·.isExtension)

/-- An element is an extension when the node that it is read from is one. -/
theorem isExtension_of_ofNode? {node : Node} {element : Element}
    (h : Element.ofNode? node = some element) : element.isExtension = node.isExtension := by
  cases node with
  | element =>
    rw [Element.ofNode?] at h
    cases h
    rfl
  | text | aside => simp [Element.ofNode?] at h

/-- Extensions are left out before the nodes become elements, or after that. -/
theorem filterMap_ofNode?_filter (nodes : List Node) :
    (nodes.filter (!·.isExtension)).filterMap Element.ofNode? =
      (nodes.filterMap Element.ofNode?).filter (!·.isExtension) := by
  rw [List.filterMap_filter, List.filter_filterMap]
  refine List.filterMap_congr fun node _ => ?_
  cases hnode : Element.ofNode? node with
  | none => simp
  | some element => simp [Option.filter_some, isExtension_of_ofNode? hnode]

/-- Deleting extensions from a document deletes them from the element that it is read as. -/
theorem IsPruned.exists_isPrunedFrom {root root' : Node} (h : IsPruned root root')
    {element : Element} (helement : Element.ofNode? root = some element) :
    ∃ pruned, Element.ofNode? root' = some pruned ∧ element.IsPrunedFrom pruned := by
  cases h with
  | @element uri name attributes nodes nodes' opening closing opening' closing' helements htext =>
    have hother (nodes : List Node) :
        (nodes.filter CallResult.isElement).filterMap Element.ofNode? =
          nodes.filterMap Element.ofNode? :=
      filterMap_filter_of_forall fun _ _ hnode => (CallResult.not_isElement hnode).2.2
    have hchildren : Element.ofNodes nodes' = (Element.ofNodes nodes).filter (!·.isExtension) := by
      rw [Element.ofNodes_eq_filterMap, Element.ofNodes_eq_filterMap, ← hother nodes', helements,
        filterMap_ofNode?_filter, hother]
    rw [Element.ofNode?] at helement ⊢
    cases helement
    exact ⟨_, rfl, rfl, rfl, hchildren⟩

namespace Document

variable {root pruned : Element}

/-- Of the children that readers ask for, those in a namespace are deleted. -/
theorem childrenNamed_of_isPrunedFrom (h : root.IsPrunedFrom pruned) {name : String}
    (hname : name = "param" ∨ name = "data") :
    pruned.childrenNamed name = (root.childrenNamed name).filter (!·.isForeign) := by
  rw [Element.childrenNamed, Element.childrenNamed, h.children, List.filter_filter,
    List.filter_filter]
  refine List.filter_congr fun child _ => ?_
  by_cases hchild : child.localName = name
  · rcases hname with rfl | rfl <;> simp [Element.isExtension, hchild]
  · simp [hchild]

/-- What is in a namespace says nothing more than what is in none: there is no data section in a
namespace, and a parameter in one has a name and agrees with all others of the name. If it may
reach a function, it repeats one that is in no namespace. -/
structure IsHarmless (root : Element) : Prop where
  data : ∀ data ∈ root.childrenNamed "data", data.isForeign = false
  named : ∀ param ∈ root.childrenNamed "param", param.isForeign = true → (entryOf param).1 ≠ ""
  values : ∀ param ∈ root.childrenNamed "param", param.isForeign = true →
    ∀ other ∈ root.childrenNamed "param", (entryOf other).1 = (entryOf param).1 →
      (entryOf other).2 = (entryOf param).2
  repeated : ∀ param ∈ root.childrenNamed "param", param.isForeign = true →
    reachesFunction (entryOf param).1 (entryOf param).2 = true →
      ∃ other ∈ root.childrenNamed "param", other.isForeign = false ∧ entryOf other = entryOf param

/-- An entry is the one of some parameter. -/
theorem mem_entries_iff {entry : String × String} :
    entry ∈ entries root ↔ ∃ param ∈ root.childrenNamed "param", entryOf param = entry :=
  List.mem_map

/-- The entries that are left are those of the parameters in no namespace. -/
theorem mem_entries_iff_of_isPrunedFrom (h : root.IsPrunedFrom pruned)
    {entry : String × String} : entry ∈ entries pruned ↔
      ∃ param ∈ root.childrenNamed "param", param.isForeign = false ∧ entryOf param = entry := by
  rw [mem_entries_iff, childrenNamed_of_isPrunedFrom h (.inl rfl)]
  simp only [List.mem_filter, Bool.not_eq_true', and_assoc]

/-- No entry is new. -/
theorem mem_entries_of_isPrunedFrom (h : root.IsPrunedFrom pruned) {entry : String × String}
    (hentry : entry ∈ entries pruned) : entry ∈ entries root := by
  obtain ⟨param, hparam, -, hentry⟩ := (mem_entries_iff_of_isPrunedFrom h).mp hentry
  exact mem_entries_iff.mpr ⟨param, hparam, hentry⟩

/-- What is left of an acceptable root is acceptable. -/
theorem IsAcceptable.of_isPrunedFrom (h : root.IsPrunedFrom pruned) (hroot : IsAcceptable root) :
    IsAcceptable pruned where
  named entry hentry := hroot.named entry (mem_entries_of_isPrunedFrom h hentry)
  values name value other hvalue hother := hroot.values name value other
    (mem_entries_of_isPrunedFrom h hvalue) (mem_entries_of_isPrunedFrom h hother)
  names entry hentry := hroot.names entry (mem_entries_of_isPrunedFrom h hentry)
  data := by
    rw [childrenNamed_of_isPrunedFrom h (.inr rfl)]
    exact (List.length_filter_le _ _).trans hroot.data

namespace IsHarmless

variable (h : root.IsPrunedFrom pruned) (hroot : IsHarmless root)

include h hroot

/-- Where the extensions are harmless, the data sections stay as they are. -/
theorem childrenNamed_data : pruned.childrenNamed "data" = root.childrenNamed "data" := by
  rw [childrenNamed_of_isPrunedFrom h (.inr rfl), List.filter_eq_self]
  intro data hdata
  rw [hroot.data data hdata, Bool.not_false]

/-- What may reach a function is there without the namespaces. -/
theorem mem_entries_iff {entry : String × String}
    (hreaches : reachesFunction entry.1 entry.2 = true) :
    entry ∈ entries root ↔ entry ∈ entries pruned := by
  refine ⟨fun hentry => ?_, mem_entries_of_isPrunedFrom h⟩
  obtain ⟨param, hparam, rfl⟩ := Document.mem_entries_iff.mp hentry
  rw [mem_entries_iff_of_isPrunedFrom h]
  cases hforeign : param.isForeign with
  | false => exact ⟨param, hparam, hforeign, rfl⟩
  | true => exact hroot.repeated param hparam hforeign hreaches

/-- Harmless extensions never make a root unacceptable. -/
theorem isAcceptable (hpruned : IsAcceptable pruned) : IsAcceptable root := by
  -- a parameter in no namespace is one that is left
  have hleft {param : Element} (hparam : param ∈ root.childrenNamed "param")
      (hforeign : param.isForeign = false) : entryOf param ∈ entries pruned :=
    (mem_entries_iff_of_isPrunedFrom h).mpr ⟨param, hparam, hforeign, rfl⟩
  constructor
  · intro entry hentry
    obtain ⟨param, hparam, rfl⟩ := Document.mem_entries_iff.mp hentry
    cases hforeign : param.isForeign with
    | false => exact hpruned.named _ (hleft hparam hforeign)
    | true => exact hroot.named param hparam hforeign
  · intro name value other hvalue hother
    obtain ⟨first, hfirst, hvalue⟩ := Document.mem_entries_iff.mp hvalue
    obtain ⟨second, hsecond, hother⟩ := Document.mem_entries_iff.mp hother
    have hnames : (entryOf first).1 = (entryOf second).1 := by rw [hvalue, hother]
    suffices hvalues : (entryOf first).2 = (entryOf second).2 by rwa [hvalue, hother] at hvalues
    cases hforeign : first.isForeign with
    | true => exact (hroot.values first hfirst hforeign second hsecond hnames.symm).symm
    | false =>
      cases hforeign' : second.isForeign with
      | true => exact hroot.values second hsecond hforeign' first hfirst hnames
      | false =>
        exact hpruned.values (entryOf first).1 _ _ (hleft hfirst hforeign)
          (by rw [hnames]; exact hleft hsecond hforeign')
  · intro entry hentry hreaches
    exact hpruned.names entry ((mem_entries_iff h hroot hreaches).mp hentry) hreaches
  · rw [← childrenNamed_data h hroot]
    exact hpruned.data

/-- Both roots give the same to a function. -/
theorem isCallOf_iff {function : String} {call : FunctionRequest} :
    IsCallOf function root call ↔ IsCallOf function pruned call := by
  have hentries (name value : String) :
      (name, value) ∈ entries root ∧ reachesFunction name value = true ↔
        (name, value) ∈ entries pruned ∧ reachesFunction name value = true :=
    and_congr_left fun hreaches => mem_entries_iff h hroot hreaches
  have hdata := childrenNamed_data h hroot
  constructor
  · rintro ⟨hfunction, hparameters, hsection⟩
    exact ⟨hfunction, fun name value => (hparameters name value).trans (hentries name value),
      by rw [hsection, hdata]⟩
  · rintro ⟨hfunction, hparameters, hsection⟩
    exact ⟨hfunction, fun name value => (hparameters name value).trans (hentries name value).symm,
      by rw [hsection, hdata]⟩

end IsHarmless

/-- Where a root and what is left of it are the same call, the rest is harmless. -/
theorem isHarmless_of_isCallOf (h : root.IsPrunedFrom pruned) {function : String}
    {call : FunctionRequest} (hacceptable : IsAcceptable root)
    (hroot : IsCallOf function root call) (hpruned : IsCallOf function pruned call) :
    IsHarmless root := by
  constructor
  · intro data hdata
    have hone : root.childrenNamed "data" = [data] := by
      obtain ⟨other, hother⟩ := List.length_eq_one_iff.mp
        (Nat.le_antisymm hacceptable.data (List.length_pos_of_mem hdata))
      rw [hother] at hdata ⊢
      rw [List.mem_singleton.mp hdata]
    have hhead := hroot.data.symm.trans hpruned.data
    rw [childrenNamed_of_isPrunedFrom h (.inr rfl), hone] at hhead
    cases hforeign : data.isForeign with
    | false => rfl
    | true => simp [hforeign] at hhead
  · intro param hparam _
    exact hacceptable.named _ (mem_entries_iff.mpr ⟨param, hparam, rfl⟩)
  · intro param hparam _ other hother hname
    have hmem := mem_entries_iff.mpr ⟨other, hother, rfl⟩
    exact hacceptable.values (entryOf param).1 _ _ (hname ▸ hmem)
      (mem_entries_iff.mpr ⟨param, hparam, rfl⟩)
  · intro param hparam _ hreaches
    have hget := (hroot.parameters _ _).mpr ⟨mem_entries_iff.mpr ⟨param, hparam, rfl⟩, hreaches⟩
    exact (mem_entries_iff_of_isPrunedFrom h).mp ((hpruned.parameters _ _).mp hget).1

/-- What is left is converted by the function of the whole root and by its own parameters and data
section. -/
theorem convertRoot_eq_ok_iff_of_isPrunedFrom (h : root.IsPrunedFrom pruned)
    {call : FunctionRequest} : convertRoot pruned = .ok call ↔
      root.localName = "request" ∧ ∃ function,
        Element.nonEmpty (root.attribute? "function") = some function ∧
          checkFunctionName function = .ok () ∧ IsAcceptable pruned ∧
          IsCallOf function pruned call := by
  have hfunction : pruned.attribute? "function" = root.attribute? "function" := by
    rw [Element.attribute?, Element.attributeNs?, h.attributes]
    rfl
  rw [convertRoot_eq_ok_iff, h.localName, hfunction]

/-- Roots are answered alike with and without extensions if the latter is refused, or if the
extensions are harmless. -/
theorem convertRoot_alike_iff (h : root.IsPrunedFrom pruned) :
    (∀ call, convertRoot root = .ok call ↔ convertRoot pruned = .ok call) ↔
      (∀ call, convertRoot pruned ≠ .ok call) ∨ IsHarmless root := by
  constructor
  · intro halike
    by_cases hrefused : ∀ call, convertRoot pruned ≠ .ok call
    · exact .inl hrefused
    · right
      simp only [not_forall, not_not] at hrefused
      obtain ⟨call, hpruned⟩ := hrefused
      obtain ⟨-, function, hfunction, -, hacceptable, hcall⟩ :=
        convertRoot_eq_ok_iff.mp ((halike call).mpr hpruned)
      obtain ⟨-, other, hother, -, -, hleft⟩ :=
        (convertRoot_eq_ok_iff_of_isPrunedFrom h).mp hpruned
      obtain rfl : function = other := Option.some.inj (hfunction.symm.trans hother)
      exact isHarmless_of_isCallOf h hacceptable hcall hleft
  · rintro (hrefused | hharmless) call
    · refine iff_of_false (fun hroot => ?_) (hrefused call)
      -- what is left of an accepted root would be accepted, too
      obtain ⟨hname, function, hfunction, hcheck, hacceptable, -⟩ :=
        convertRoot_eq_ok_iff.mp hroot
      have hleft := hacceptable.of_isPrunedFrom h
      obtain ⟨parameters, -, -, hcall⟩ := hleft.exists_isCallOf function
      exact hrefused _ ((convertRoot_eq_ok_iff_of_isPrunedFrom h).mpr
        ⟨hname, function, hfunction, hcheck, hleft, hcall⟩)
    · have hacceptable : IsAcceptable root ↔ IsAcceptable pruned :=
        ⟨fun hroot => hroot.of_isPrunedFrom h, hharmless.isAcceptable h⟩
      rw [convertRoot_eq_ok_iff, convertRoot_eq_ok_iff_of_isPrunedFrom h]
      simp only [hacceptable, hharmless.isCallOf_iff h]

end Document

/-! ## Documents that are sent -/

/-- The request sends a document with the root, as the type of its body says. -/
structure SendsDocument (request : Http.Request) (root : Node) : Prop where
  type : checkDocumentType request = .ok ()
  document : (String.fromUTF8? request.body).bind Xml.parse? = some root

/-- The convention in use makes the call of the request. -/
def Document.Converts (request : Http.Request) (call : FunctionRequest) : Prop :=
  (Document.convention.inUse.convert request .empty).1 = .ok call

/-- The tag of the root is part of the document. -/
theorem Xml.mem_of_parse? {text : String} {root : Node} (h : Xml.parse? text = some root) :
    '<' ∈ text.toList := by
  obtain ⟨tree, htree, -⟩ := Option.bind_eq_some_iff.mp h
  obtain ⟨-, trees, hprolog, hsequence, hshaped, hroot⟩ := Xml.readTree_eq_some_iff.mp htree
  obtain ⟨before, after, tag, opening, content, closing, rfl, rfl, -, -⟩ :=
    Xml.rootOf?_eq_some_iff.mp hroot
  obtain ⟨token, rest, hlexemes, htoken⟩ : ∃ token rest,
      (Xml.Tree.element tag opening content closing).lexemes = ⟨token, opening⟩ :: rest ∧
        (token = .startTag tag ∨ token = .emptyTag tag) := by
    rw [Xml.Tree.lexemes]
    split
    · exact ⟨_, _, rfl, .inr rfl⟩
    · exact ⟨_, _, rfl, .inl rfl⟩
  rw [Xml.Tree.lexemesOf_append, Xml.Tree.lexemesOf, hlexemes] at hsequence
  have hopening : '<' ∈ opening := by
    have hspells := hsequence.of_append.2.1
    rcases htoken with rfl | rfl <;> cases hspells <;> exact List.mem_cons_self
  refine Xml.subset_of_skipProlog hprolog ?_
  rw [← Xml.sourceOf_lexemesOf hshaped, Xml.Tree.lexemesOf_append, Xml.Tree.lexemesOf, hlexemes]
  simp [hopening]

/-- The body of a request that sends a document is read as the element of its root. -/
theorem SendsDocument.parseBody_eq {request : Http.Request} {root : Node} {element : Element}
    (h : SendsDocument request root) (helement : Element.ofNode? root = some element) :
    parseBody request = .ok element := by
  obtain ⟨text, htext, hparse⟩ := Option.bind_eq_some_iff.mp h.document
  have hblank : Text.isBlankText text = false := by
    rw [Text.isBlankText, List.all_eq_false]
    exact ⟨'<', Xml.mem_of_parse? hparse, by decide⟩
  simp [parseBody, htext, hblank, Element.parse, hparse, helement]

/-- A request is converted as the root that it sends. -/
theorem SendsDocument.converts_iff {request : Http.Request} {root : Node} {element : Element}
    (h : SendsDocument request root) (helement : Element.ofNode? root = some element)
    {call : FunctionRequest} :
    Document.Converts request call ↔ Document.convertRoot element = .ok call := by
  have hhook : (Document.convention.inUse.convention.convert request none).1 =
      .ofExcept (Document.convertRoot element) := by
    show (Document.convert request none).1 = _
    simp only [Document.convert, readBody, if_true, h.type, h.parseBody_eq helement]
  rw [Document.Converts, ManagedConvention.convert_of_isUsable rfl rfl]
  simp only [RequestContext.empty, hhook]
  cases hconverted : Document.convertRoot element with
  | error e =>
    simp only [HookResult.ofExcept, ManagedConvention.conversionVerdict]
    split <;> simp
  | ok converted =>
    have hname : converted.function ≠ "" :=
      checkFunctionName_ne_empty (Document.isClean_of_convertRoot hconverted).function
    simp [HookResult.ofExcept, ManagedConvention.conversionVerdict, hname]

/-- **Extensions of results are passed over; of requests, only those that say nothing.** Deleting
the extensions right under the root leaves a result what it is. It leaves the answer to a request
what it is exactly if the request without them is refused, or what they hold in a namespace is
harmless: no data section, and only parameters that add nothing to those in no namespace. -/
theorem prunes_alike_iff {root root' : Node} (h : IsPruned root root') :
    (∀ request request' element, SendsDocument request root → SendsDocument request' root' →
      Element.ofNode? root = some element →
      ((∀ call, Document.Converts request call ↔ Document.Converts request' call) ↔
        (∀ call, ¬ Document.Converts request' call) ∨ Document.IsHarmless element)) ∧
    ∀ bytes bytes', CallResult.documentRoot? bytes = some root →
      CallResult.documentRoot? bytes' = some root' →
      ∀ result, CallResult.parse bytes = .ok result ↔ CallResult.parse bytes' = .ok result := by
  constructor
  · intro request request' element hsends hsends' helement
    obtain ⟨pruned, hpruned, hleft⟩ := h.exists_isPrunedFrom helement
    simp only [hsends.converts_iff helement, hsends'.converts_iff hpruned]
    exact Document.convertRoot_alike_iff hleft
  · intro bytes bytes' hroot hroot' result
    rw [CallResult.parse_of_documentRoot? hroot, CallResult.parse_of_documentRoot? hroot']
    exact CallResult.ofRoot_eq_ok_iff_of_isPruned h

/-- A document in a request. -/
def posted (text : String) : Http.Request :=
  { Http.Request.ofTarget Http.Method.post "/" with
    headers := Http.Headers.empty.append "Content-Type" "text/xml"
    body := text.toUTF8 }

/-- A document that can be read is sent by posting it. -/
theorem sendsDocument_posted {text : String} {root : Node} (h : Xml.parse? text = some root) :
    SendsDocument (posted text) root where
  type := by
    have htype : checkDocumentType (posted "") = .ok () := by decide +kernel
    exact htype
  document := by
    show (String.fromUTF8? text.toUTF8).bind Xml.parse? = some root
    rw [Text.Utf8.fromUTF8?_toUTF8, Option.bind_some, h]

/-- A parameter. -/
def plainNode : Node :=
  .element none "param" [⟨none, "name", "a"⟩] [.text ['1'] ['1'] []]
    "<param name='a'>".toList "</param>".toList

/-- The same parameter in a namespace. -/
def qualifiedNode : Node :=
  .element (some "u") "param" [⟨none, "name", "a"⟩] [.text ['1'] ['1'] []]
    "<x:param name='a'>".toList "</x:param>".toList

/-- An element of another name. -/
def moreNode : Node :=
  .element none "more" [] [] "<more/>".toList []

/-- A root that binds a prefix for extensions. -/
def echoRoot (nodes : List Node) : Node :=
  .element none "request" [⟨none, "function", "Echo"⟩] nodes
    "<request function='Echo' xmlns:x='u'>".toList "</request>".toList

/-- Without the repeated parameter and the unknown element, one parameter is left. -/
theorem isPruned_repeated : IsPruned (echoRoot [plainNode, qualifiedNode, moreNode])
    (echoRoot [plainNode]) :=
  .element rfl (by simp [CallResult.HasBlankText, plainNode, qualifiedNode, moreNode])

/-- The document with both extensions can be read. -/
theorem parse?_repeated : Xml.parse? ("<request function='Echo' xmlns:x='u'>" ++
    "<param name='a'>1</param><x:param name='a'>1</x:param><more/></request>") =
      some (echoRoot [plainNode, qualifiedNode, moreNode]) := by
  decide +kernel

/-- The document with the one parameter can be read. -/
theorem parse?_plain : Xml.parse?
    "<request function='Echo' xmlns:x='u'><param name='a'>1</param></request>" =
      some (echoRoot [plainNode]) := by
  decide +kernel

/-- The call that both documents ask for. -/
def echoCall : FunctionRequest :=
  ⟨"Echo", Dictionary.empty.insert "a" "1", none⟩

/-- A document with a repeated parameter in a namespace makes the call that it makes without it. -/
theorem prunes_alike_iff_repeated :
    Document.Converts (posted ("<request function='Echo' xmlns:x='u'>" ++
      "<param name='a'>1</param><x:param name='a'>1</x:param><more/></request>")) echoCall := by
  have hplain : Document.Converts
      (posted "<request function='Echo' xmlns:x='u'><param name='a'>1</param></request>")
      echoCall := ((sendsDocument_posted parse?_plain).converts_iff rfl).mpr rfl
  have hharmless : Document.IsHarmless (.mk "request" none [⟨none, "function", "Echo"⟩]
      [.mk "param" none [⟨none, "name", "a"⟩] [] (some "1"),
        .mk "param" (some "u") [⟨none, "name", "a"⟩] [] (some "1"),
        .mk "more" none [] [] none] none) := by
    constructor <;> simp [Element.childrenNamed, Element.children, Element.localName,
      Element.isForeign, Element.namespaceUri, Element.nonEmpty, Document.entryOf,
      Element.attribute?, Element.attributeNs?, Element.attributes, Element.hasKey, Element.text]
  have halike := (prunes_alike_iff isPruned_repeated).1 _ _ _ (sendsDocument_posted parse?_repeated)
    (sendsDocument_posted parse?_plain) rfl
  exact (halike.mpr (.inr hharmless) echoCall).mpr hplain

/-- The document with nothing but a parameter in a namespace can be read. -/
theorem parse?_qualified : Xml.parse?
    "<request function='Echo' xmlns:x='u'><x:param name='a'>1</x:param></request>" =
      some (echoRoot [qualifiedNode]) := by
  decide +kernel

/-- The document without parameters can be read. -/
theorem parse?_nothing : Xml.parse? "<request function='Echo' xmlns:x='u'></request>" =
    some (echoRoot []) := by
  decide +kernel

/-- A parameter that is there only in a namespace is a parameter of the call. -/
theorem not_converts_alike : ¬ ∀ request request' attributes nodes opening closing root',
    request.method = Http.Method.post → request'.method = Http.Method.post →
    SendsDocument request (.element none "request" attributes nodes opening closing) →
    SendsDocument request' root' →
    IsPruned (.element none "request" attributes nodes opening closing) root' →
      ∀ call, Document.Converts request call ↔ Document.Converts request' call := by
  intro halike
  have hpruned : IsPruned (echoRoot [qualifiedNode]) (echoRoot []) :=
    .element rfl (by simp [CallResult.HasBlankText, qualifiedNode])
  have hsends := sendsDocument_posted parse?_qualified
  have hsends' := sendsDocument_posted parse?_nothing
  have hpost (text : String) : (posted text).method = Http.Method.post :=
    Http.Request.method_ofTarget ..
  have hcall := halike _ _ _ _ _ _ _ (hpost _) (hpost _) hsends hsends' hpruned echoCall
  rw [hsends.converts_iff rfl, hsends'.converts_iff rfl] at hcall
  have hnone : Document.convertRoot (.mk "request" none [⟨none, "function", "Echo"⟩] [] none) =
      .ok ⟨"Echo", Dictionary.empty, none⟩ := rfl
  cases hnone.symm.trans (hcall.mp rfl)

end RemoteCall
