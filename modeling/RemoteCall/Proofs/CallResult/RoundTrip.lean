import RemoteCall.Proofs.CallResult.Parameter
import RemoteCall.Proofs.Text.Utf8

/-!
# Results that are written and read

A written result is a document that is read back: with its code, its data section and every
parameter that is not markup. Reading goes through the children of the root one by one, so
what it gathers is described for any stretch of them.
-/

namespace RemoteCall.CallResult

open Xml Element

/-! ## Parameters -/

/-- The names and values can be written: names without line ends and tabs, and each value as
its declaration asks for. -/
structure ArePortable (spec : Option FunctionSpec) (entries : List (String × String)) : Prop where
  name : ∀ entry ∈ entries, isXmlText entry.1 = true ∧ isOneLine entry.1 = true
  escaped : ∀ entry ∈ entries, isRaw spec entry.1 = false → isXmlText entry.2 = true
  raw : ∀ entry ∈ entries, entry.1 ≠ "" → entry.2 ≠ "" → isRaw spec entry.1 = true →
    ParamType.xml.accepts entry.2 = true

/-- After the entries have been read, each that is not empty and not markup is there with its
value, and nothing has changed under any other name. -/
structure AreGathered (spec : Option FunctionSpec) (entries : List (String × String))
    (before after : Parameters) : Prop where
  kept : ∀ entry ∈ entries, entry.1 ≠ "" → entry.2 ≠ "" → isRaw spec entry.1 = false →
    after.get? entry.1 = some entry.2
  others : ∀ name, (∀ value, (name, value) ∈ entries → name = "" ∨ value = "") →
    after.get? name = before.get? name

/-- What is there after a parameter with a new name has been read. -/
def withParameter (name : String) (content : List Node) (parameters : Parameters) : Parameters :=
  if parameterValue content = "" then parameters
  else parameters.insert name (parameterValue content)

/-- Reading a parameter changes nothing under another name. -/
theorem get?_withParameter_of_ne {name other : String} (h : other ≠ name) (content : List Node)
    (parameters : Parameters) :
    (withParameter name content parameters).get? other = parameters.get? other := by
  unfold withParameter
  split
  · rfl
  · rw [Dictionary.get?_insert, if_neg h.symm]

/-- A parameter with a new name is added, and reading goes on behind it. -/
theorem readChildren_param {name : String} (hne : name ≠ "") {parameters : Parameters}
    (hnew : parameters.get? name = none) (data : Option Element) (content rest : List Node)
    (opening closing : List Char) :
    readChildren parameters data
        (.element none "param" [⟨none, "name", name⟩] content opening closing :: rest) =
      readChildren (withParameter name content parameters) data rest := by
  have hname : nonEmpty (attributeNamed? "name" [⟨none, "name", name⟩]) = some name := by
    simp [attributeNamed?, nonEmpty, hne]
  have hread : readParameter [⟨none, "name", name⟩] content parameters =
      .ok (withParameter name content parameters) := by
    simp only [readParameter, hname, hnew, withParameter]
    split <;> rfl
  simp [readChildren, hread]

variable {spec : Option FunctionSpec}

/-- A parameter with the empty name or the empty value is not written, so nothing is gathered of it.
-/
theorem AreGathered.cons_of_empty {entries : List (String × String)} {before after : Parameters}
    (h : AreGathered spec entries before after) {name value : String}
    (hempty : name = "" ∨ value = "") :
    AreGathered spec ((name, value) :: entries) before after where
  kept := by
    intro entry hentry hname hvalue hraw
    rcases List.mem_cons.mp hentry with rfl | hentry
    · exact absurd hempty (not_or.mpr ⟨hname, hvalue⟩)
    · exact h.kept entry hentry hname hvalue hraw
  others := fun other hother =>
    h.others other fun value hvalue => hother value (List.mem_cons_of_mem _ hvalue)

/-- A parameter with a new name is gathered first, and keeps its value unless that is markup. -/
theorem AreGathered.cons {entries : List (String × String)} {before after : Parameters}
    {name value : String} {content : List Node}
    (h : AreGathered spec entries (withParameter name content before) after)
    (hnew : ∀ entry ∈ entries, entry.1 ≠ name) (hname : name ≠ "") (hvalue : value ≠ "")
    (hcontent : isRaw spec name = false → parameterValue content = value) :
    AreGathered spec ((name, value) :: entries) before after where
  kept := by
    intro entry hentry hname hvalue hraw
    rcases List.mem_cons.mp hentry with rfl | hentry
    · rw [h.others name fun value hvalue => absurd rfl (hnew _ hvalue), withParameter,
        hcontent hraw, if_neg hvalue, Dictionary.get?_insert, if_pos rfl]
    · exact h.kept entry hentry hname hvalue hraw
  others := by
    intro other hother
    have hne : other ≠ name := by
      rintro rfl
      exact absurd (hother value List.mem_cons_self) (not_or.mpr ⟨hname, hvalue⟩)
    rw [h.others other fun value hvalue => hother value (List.mem_cons_of_mem _ hvalue),
      get?_withParameter_of_ne hne]

/-- Parameters with different names are written as content that is read as these parameters. -/
theorem exists_readsAs_parameters {entries : List (String × String)}
    (hsorted : Entries.Sorted entries) (hportable : ArePortable spec entries) :
    ∃ elements trees nodes,
      ReadsAs [] (charsOf (entries.flatMap fun entry => parameterMarkup spec entry.1 entry.2))
        elements trees nodes ∧
      ∀ before : Parameters, (∀ entry ∈ entries, before.get? entry.1 = none) →
        ∃ after, AreGathered spec entries before after ∧
          ∀ data rest, readChildren before data (nodes ++ rest) = readChildren after data rest := by
  induction entries with
  | nil =>
    exact ⟨[], [], [], .nil [], fun before _ =>
      ⟨before, ⟨by simp, fun _ _ => rfl⟩, fun _ _ => rfl⟩⟩
  | cons first entries ih =>
    obtain ⟨name, value⟩ := first
    obtain ⟨hfirst, hrest⟩ := List.pairwise_cons.mp hsorted
    obtain ⟨hname, hnames⟩ := List.forall_mem_cons.mp hportable.name
    obtain ⟨hescaped, hescapeds⟩ := List.forall_mem_cons.mp hportable.escaped
    obtain ⟨hraw, hraws⟩ := List.forall_mem_cons.mp hportable.raw
    obtain ⟨elements, trees, nodes, hreads, hgather⟩ := ih hrest ⟨hnames, hescapeds, hraws⟩
    rw [List.flatMap_cons, charsOf_append]
    by_cases hempty : name = "" ∨ value = ""
    · -- nothing is written
      have hnone : parameterMarkup spec name value = [] := if_pos hempty
      rw [hnone]
      refine ⟨elements, trees, nodes, hreads, fun before hbefore => ?_⟩
      obtain ⟨after, hafter, hread⟩ := hgather before (List.forall_mem_cons.mp hbefore).2
      exact ⟨after, hafter.cons_of_empty hempty, hread⟩
    · obtain ⟨hnameNe, hvalueNe⟩ := not_or.mp hempty
      obtain ⟨elements', tree, opening, closing, content, hreads', hcontent⟩ :=
        exists_readsAs_parameter hname.1 hname.2 hnameNe hvalueNe hescaped
          (hraw hnameNe hvalueNe)
      refine ⟨_, _, _, hreads'.append hreads, fun before hbefore => ?_⟩
      obtain ⟨hnew, hlater⟩ := List.forall_mem_cons.mp hbefore
      have hne : ∀ entry ∈ entries, entry.1 ≠ name := by
        rintro entry hentry rfl
        exact String.lt_irrefl _ (hfirst entry hentry)
      obtain ⟨after, hafter, hread⟩ := hgather (withParameter name content before) (by
        intro entry hentry
        rw [get?_withParameter_of_ne (hne entry hentry)]
        exact hlater entry hentry)
      refine ⟨after, hafter.cons hne hnameNe hvalueNe hcontent, fun data rest => ?_⟩
      rw [List.singleton_append, List.cons_append, readChildren_param hnameNe hnew]
      exact hread data rest

/-! ## The data section -/

/-- Whether the element is one that is read as a data section. -/
def isDataSection (root : Element) : Bool :=
  root.localName = "data" && root.namespaceUri = none

/-- A data section is told by its local name and by being in no namespace. -/
theorem isDataSection_iff {root : Element} :
    isDataSection root = true ↔ root.localName = "data" ∧ root.namespaceUri = none := by
  simp [isDataSection]

/-- A data section is kept if it is one. -/
theorem filter_isDataSection {data : Option Element}
    (h : ∀ root ∈ data, isDataSection root = true) : data.filter isDataSection = data := by
  cases data with
  | none => rfl
  | some root => exact Option.filter_some_pos (h root rfl)

/-- A data section is not taken for a parameter. -/
theorem ne_param_of_isDataSection {data : Option Element}
    (h : ∀ root ∈ data, isDataSection root = true) :
    ∀ root ∈ data, root.namespaceUri = none → root.localName ≠ "param" := by
  intro root hroot _
  rw [(isDataSection_iff.mp (h root hroot)).1]
  decide

/-- An element that is called otherwise than parameters is read if it is a data section, and
passed over if it is not. -/
theorem exists_readsAs_carried {data : Option Element} (h : ∀ root ∈ data, Portable none root)
    (hparam : ∀ root ∈ data, root.namespaceUri = none → root.localName ≠ "param") :
    ∃ elements trees nodes,
      ReadsAs [] (charsOf ((data.map Element.markup).getD [])) elements trees nodes ∧
      ∀ parameters,
        readChildren parameters none nodes = .ok (parameters, data.filter isDataSection) := by
  cases data with
  | none => exact ⟨[], [], [], .nil [], fun _ => rfl⟩
  | some root =>
    have hscope : lookUp [] none = none := rfl
    obtain ⟨trees, nodes, opening, closing, hreads⟩ := (h root rfl).exists_readsAs hscope
    have hroot := hreads.elements
    simp only [ofNodes, ofNode?, List.cons.injEq, and_true] at hroot
    refine ⟨_, _, _, hreads, fun parameters => ?_⟩
    by_cases hsection : isDataSection root = true
    · obtain ⟨hname, huri⟩ := isDataSection_iff.mp hsection
      rw [Option.filter_some_pos hsection]
      rw [hname, huri] at hroot ⊢
      simp [readChildren, ofNode?, hroot]
    · rw [Option.filter_some_neg (Bool.eq_false_iff.mpr hsection), readChildren]
      cases huri : root.namespaceUri with
      | some uri => rfl
      | none =>
        have hdata : root.localName ≠ "data" := fun hname =>
          hsection (isDataSection_iff.mpr ⟨hname, huri⟩)
        simp [hparam root rfl huri, hdata, readChildren]

/-- A data section that a document can carry: one that has been built, in no namespace, with
the name that the format gives it. -/
structure IsPortableData (data : Element) : Prop where
  built : data.Built
  name : data.localName = "data"
  plain : data.Every IsPlain

/-- What a document can carry as a data section is one. -/
theorem IsPortableData.isDataSection {root : Element} (h : IsPortableData root) :
    isDataSection root = true :=
  isDataSection_iff.mpr ⟨h.name, h.plain.test.namespaceUri⟩

/-- A data section that a document can carry is written as content that is read as the section. -/
theorem exists_readsAs_data {data : Option Element} (h : ∀ root ∈ data, IsPortableData root) :
    ∃ elements trees nodes,
      ReadsAs [] (charsOf ((data.map Element.markup).getD [])) elements trees nodes ∧
      ∀ parameters, readChildren parameters none nodes = .ok (parameters, data) := by
  have hportable : ∀ root ∈ data, Portable none root := fun root hroot =>
    portable_of_every (h root hroot).built.every_isRegular (h root hroot).plain
  have hsection : ∀ root ∈ data, isDataSection root = true := fun root hroot =>
    (h root hroot).isDataSection
  have hread := exists_readsAs_carried hportable (ne_param_of_isDataSection hsection)
  rwa [filter_isDataSection hsection] at hread

/-! ## The root -/

/-- The root of a result document, without what is in it. -/
def rootElement (code : Option String) : Element :=
  .mk "result" none (code.map fun code => ⟨none, "errorcode", code⟩).toList [] none

/-- The root of a result can be written if the code is legal. -/
theorem isPortableIn_rootElement {code : Option String}
    (h : ∀ text ∈ code, isXmlText text = true) : IsPortableIn none (rootElement code) where
  name := (by decide : isNamePart "result".toList = true)
  namespaceUri := .inl rfl
  attributes := by
    intro candidate hcandidate
    cases code with
    | none => cases hcandidate
    | some code =>
      obtain rfl := List.mem_singleton.mp hcandidate
      have hpart : isNamePart "errorcode".toList = true := by decide
      have hne : "errorcode" ≠ "xmlns" := by decide
      exact ⟨hpart, hne, by simp, h code rfl⟩
  attributeKeys := by cases code <;> simp [rootElement, attributes]
  textLegal := by simp [rootElement, text]
  textKept := rfl

/-- The start tag of the root has the code in `errorcode`, if there is one. -/
theorem start_rootElement {code : Option String} (h : ∀ text ∈ code, isOneLine text = true) :
    (tagIn none (rootElement code)).start = .startTag "result"
      (code.map (fun code => ("errorcode", escapePlain code))).toList := by
  have hline : ∀ candidate ∈ (rootElement code).attributes,
      candidate.namespaceUri = none ∧ isOneLine candidate.value = true := by
    intro candidate hcandidate
    cases code with
    | none => cases hcandidate
    | some code =>
      obtain rfl := List.mem_singleton.mp hcandidate
      exact ⟨rfl, h code rfl⟩
  rw [start_tagIn rfl hline]
  cases code <;> rfl

/-- The code of the root is read as it is, unless it is the empty one. -/
theorem readCode_rootElement {code : Option String} (hne : code ≠ some "") :
    readCode (rootElement code).attributes = .ok code := by
  cases code with
  | none => rfl
  | some code =>
    have herrorcode : attributeNamed? "errorcode" (rootElement (some code)).attributes =
        some code := by
      simp [rootElement, attributes, attributeNamed?]
    have hcode : attributeNamed? "code" (rootElement (some code)).attributes = none := by
      simp [rootElement, attributes, attributeNamed?]
    rw [readCode, herrorcode, hcode, nonEmpty_eq_self hne]
    rfl

/-- There is no stray text among elements. -/
theorem strayText?_eq_none {nodes : List Node} (h : AreElements nodes) :
    strayText? nodes = none := by
  refine List.findSome?_eq_none_iff.mpr fun node hnode => ?_
  have hsome := h node hnode
  cases node with
  | element => rfl
  | _ => cases hsome

/-- A root is read if its text, its code and its children are. -/
theorem ofRoot_eq_ok {attributes : List Attribute} {nodes : List Node} {code : Option String}
    {parameters : Parameters} {data : Option Element} (hstray : strayText? nodes = none)
    (hcode : readCode attributes = .ok code)
    (hchildren : readChildren Dictionary.empty none nodes = .ok (parameters, data))
    (opening closing : List Char) :
    ofRoot (.element none "result" attributes nodes opening closing) =
      .ok (make code parameters data) := by
  simp only [ofRoot, hstray, hcode, hchildren]
  rfl

/-- What a document can carry without loss, apart from values that are markup. -/
structure IsPortable (spec : Option FunctionSpec) (result : CallResult) : Prop where
  code : ∀ code ∈ result.code, isXmlText code = true ∧ isOneLine code = true
  parameters : ArePortable spec result.parameters.entries
  data : ∀ data ∈ result.data, IsPortableData data

/-- The declaration that documents are written with is skipped. -/
theorem skipProlog_declaration (rest : List Char) :
    skipProlog (Markup.declaration.render ++ rest) = some rest := by
  have hrender : Markup.declaration.render = ['<', '?', 'x', 'm', 'l', ' ', 'v', 'e', 'r', 's',
      'i', 'o', 'n', '=', '"', '1', '.', '0', '"', ' ', 'e', 'n', 'c', 'o', 'd', 'i', 'n', 'g',
      '=', '"', 'U', 'T', 'F', '-', '8', '"', '?', '>'] := by rfl
  rw [hrender]
  rfl

/-- A text that begins with markup has no byte order mark. -/
theorem dropByteOrderMark_eq_self {text : String} (h : text.toList.head? = some '<') :
    dropByteOrderMark text = text := by
  unfold dropByteOrderMark
  split
  · next heq =>
    rw [heq] at h
    cases h
  · rfl

/-- A text that begins with markup is read as what its document is. -/
theorem parse_toUTF8 {text : String} {root : Node} (h : text.toList.head? = some '<')
    (hroot : Xml.parse? text = some root) : parse text.toUTF8 = ofRoot root := by
  simp only [parse, Text.Utf8.fromUTF8?_toUTF8, parseText, dropByteOrderMark_eq_self h, hroot]

/-- The document of a result is its declaration, and its parameters and data section between the
tags of the root. -/
theorem toList_toXml {result : CallResult} (h : ∀ code ∈ result.code, isOneLine code = true)
    (spec : Option FunctionSpec) :
    (result.toXml spec).toList = Markup.declaration.render ++
      ((tagIn none (rootElement result.code)).start.render ++
        (charsOf (result.parameters.entries.flatMap fun entry =>
          parameterMarkup spec entry.1 entry.2) ++
        charsOf ((result.data.map Element.markup).getD [])) ++
        (tagIn none (rootElement result.code)).finish.render) := by
  rw [toXml, Markup.textOf, String.toList_ofList, markup, start_rootElement h, finish_tagIn]
  simp only [List.flatMap_cons, List.flatMap_append, List.flatMap_nil, List.append_nil,
    List.append_assoc, charsOf, rootElement, Element.localName]

/-- The root of the document is a `result` element around what the content is read as. -/
theorem exists_parse?_toXml {result : CallResult}
    (hcode : ∀ code ∈ result.code, isXmlText code = true ∧ isOneLine code = true)
    {elements : List Element} {trees : List Tree} {nodes : List Node}
    (hreads : ReadsAs [] (charsOf (result.parameters.entries.flatMap fun entry =>
      parameterMarkup spec entry.1 entry.2) ++
        charsOf ((result.data.map Element.markup).getD [])) elements trees nodes) :
    ∃ opening closing, Xml.parse? (result.toXml spec) =
      some (.element none "result" (rootElement result.code).attributes nodes opening closing) := by
  have hroot := isPortableIn_rootElement fun code hmem => (hcode code hmem).1
  have hchars := toList_toXml (fun code hmem => (hcode code hmem).2) spec
  have hcontent := hroot.isWritable_tagIn.isContent hreads.content
  have hlegal : (result.toXml spec).toList.all isXmlChar = true := by
    rw [hchars, List.all_append, hcontent.legal]
    decide
  have hbody := skipProlog_declaration ((tagIn none (rootElement result.code)).start.render ++
    (charsOf (result.parameters.entries.flatMap fun entry =>
      parameterMarkup spec entry.1 entry.2) ++
        charsOf ((result.data.map Element.markup).getD [])) ++
      (tagIn none (rootElement result.code)).finish.render)
  rw [← hchars] at hbody
  have hself : scopeIn none (rootElement result.code) [] = [] :=
    scopeIn_eq_self rfl (by cases result.code <;> simp [rootElement, attributes]) []
  have hresolved := hreads.resolved
  rw [← hself] at hresolved
  have hnode := hroot.resolve_tagIn rfl hresolved
    (tagIn none (rootElement result.code)).start.render
    (tagIn none (rootElement result.code)).finish.render
  rw [mergeText_eq_self hreads.areElements] at hnode
  exact ⟨_, _, parse?_of_isContent hlegal hbody hcontent hnode⟩

/-- A result is read back with its code, with what the entries of its parameters are gathered to,
and with what its data section is read as. -/
theorem exists_parse_eq_of_readsAs {result : CallResult}
    (hcode : ∀ code ∈ result.code, isXmlText code = true ∧ isOneLine code = true)
    (hne : result.code ≠ some "") (hportable : ArePortable spec result.parameters.entries)
    {elements : List Element} {trees : List Tree} {nodes : List Node} {data : Option Element}
    (hreads : ReadsAs [] (charsOf ((result.data.map Element.markup).getD [])) elements trees nodes)
    (hdata : ∀ parameters, readChildren parameters none nodes = .ok (parameters, data)) :
    ∃ parameters, AreGathered spec result.parameters.entries Dictionary.empty parameters ∧
      parse (result.toXml spec).toUTF8 = .ok ⟨result.code, parameters, data⟩ := by
  obtain ⟨_, trees', nodes', hreads', hgather⟩ :=
    exists_readsAs_parameters result.parameters.sorted hportable
  obtain ⟨parameters, hparameters, hread⟩ := hgather Dictionary.empty (by simp)
  have hinside := hreads'.append hreads
  obtain ⟨opening, closing, hparse⟩ := exists_parse?_toXml hcode hinside
  have hhead : (result.toXml spec).toList.head? = some '<' := by
    rw [toList_toXml (fun code hmem => (hcode code hmem).2) spec]
    rfl
  have hchildren : readChildren Dictionary.empty none (nodes' ++ nodes) =
      .ok (parameters, data) := by
    rw [hread, hdata]
  refine ⟨parameters, hparameters, ?_⟩
  rw [parse_toUTF8 hhead hparse, ofRoot_eq_ok (strayText?_eq_none hinside.areElements)
    (readCode_rootElement hne) hchildren, make, nonEmpty_eq_self hne]

/-- A result that a document can carry is read back with its code and data section, and with
what the entries of its parameters are gathered to. -/
theorem IsPortable.exists_parse_eq {result : CallResult} (h : result.IsPortable spec)
    (hcode : result.code ≠ some "") :
    ∃ parameters, AreGathered spec result.parameters.entries Dictionary.empty parameters ∧
      parse (result.toXml spec).toUTF8 = .ok ⟨result.code, parameters, result.data⟩ := by
  obtain ⟨_, trees, nodes, hreads, hdata⟩ := exists_readsAs_data h.data
  exact exists_parse_eq_of_readsAs h.code hcode h.parameters hreads hdata

/-! ## What arrives -/

/-- Nothing is gathered under a name that has no parameter, or an empty one. -/
theorem AreGathered.get?_eq_none {parameters gathered : Parameters}
    (h : AreGathered spec parameters.entries Dictionary.empty gathered) {name : String}
    (hempty : ∀ value, parameters.get? name = some value → name = "" ∨ value = "") :
    gathered.get? name = none :=
  h.others name fun value hvalue => hempty value (Dictionary.mem_entries_iff.mp hvalue)

/-- Where no value is markup, all parameters are gathered but the empty ones. -/
theorem AreGathered.eq_filter {parameters gathered : Parameters}
    (h : AreGathered none parameters.entries Dictionary.empty gathered) :
    gathered = parameters.filter fun name value => name ≠ "" && value ≠ "" := by
  refine Dictionary.ext_get? fun name => ?_
  rw [Dictionary.get?_filter]
  cases hget : parameters.get? name with
  | none =>
    rw [h.get?_eq_none (by simp [hget])]
    rfl
  | some value =>
    by_cases hempty : name = "" ∨ value = ""
    · have hnone : gathered.get? name = none := h.get?_eq_none (by simpa [hget] using hempty)
      rw [hnone, Option.filter_some_neg]
      rcases hempty with rfl | rfl <;> simp
    · obtain ⟨hname, hvalue⟩ := not_or.mp hempty
      have hkept := h.kept _ (Dictionary.mem_entries_iff.mpr hget) hname hvalue rfl
      rw [hkept, Option.filter_some_pos]
      simp [hname, hvalue]

/-- Without a declaration every value is escaped. The result is read back as it was, with
the parameters of empty name or value left out. -/
theorem parse_toXml_eq_ok {code : Option String} {parameters : Parameters}
    {data : Option Element} (h : IsPortable none (make code parameters data)) :
    parse ((make code parameters data).toXml none).toUTF8 =
      .ok (make code (parameters.filter fun name value => name ≠ "" && value ≠ "") data) := by
  obtain ⟨gathered, hgathered, hparse⟩ := h.exists_parse_eq (nonEmpty_ne_some_empty code)
  have hfilter : gathered = parameters.filter fun name value => name ≠ "" && value ≠ "" :=
    AreGathered.eq_filter hgathered
  rw [hparse, hfilter]
  rfl

/-- An error with quotes, markup and line ends in its code, a parameter and its data section. -/
theorem parse_toXml_eq_ok_quoted :
    parse ((make (some "Bad\"<Code>")
        ((Dictionary.empty.insert "reason" "\"<&>'\r\n\r ").insert "empty" "")
        (some (.mk "data" none [⟨none, "id", "a\t\"b\""⟩]
          [.mk "item" none [] [] (some " 1 < 2\r")] none))).toXml none).toUTF8 =
      .ok (make (some "Bad\"<Code>") (Dictionary.empty.insert "reason" "\"<&>'\r\n\r ")
        (some (.mk "data" none [⟨none, "id", "a\t\"b\""⟩]
          [.mk "item" none [] [] (some " 1 < 2\r")] none))) := by
  have hkept : ((Dictionary.empty.insert "reason" "\"<&>'\r\n\r ").insert "empty" "").filter
      (fun name value => name ≠ "" && value ≠ "") =
        Dictionary.empty.insert "reason" "\"<&>'\r\n\r " := by decide
  have hitem : (Element.mk "item" none [] [] (some " 1 < 2\r")).IsRegular :=
    ⟨by decide, by decide, by decide, by decide, by decide⟩
  have hdata : IsPortableData (.mk "data" none [⟨none, "id", "a\t\"b\""⟩]
      [.mk "item" none [] [] (some " 1 < 2\r")] none) := by
    refine ⟨built_iff_every_isRegular.mpr (.node ?_ ?_), rfl, .node ?_ ?_⟩
    · exact ⟨by decide, by decide, by decide, by decide, by decide⟩
    · exact List.forall_mem_singleton.mpr (.node hitem (by simp [children]))
    · exact ⟨rfl, by decide, by decide, by decide⟩
    · exact List.forall_mem_singleton.mpr
        (.node ⟨rfl, by decide, by decide, by decide⟩ (by simp [children]))
  rw [← hkept]
  exact parse_toXml_eq_ok
    ⟨by decide, ⟨by decide, by decide, by decide⟩, by simpa [make] using hdata⟩

/-- Whatever values the declaration of a function lets pass as markup, they stay in their own
parameters: the code, the data section and every other parameter arrive as they were, and no
parameter is added. -/
theorem exists_parse_toXml_of_markup {spec : FunctionSpec} {code : Option String}
    {parameters : Parameters} {data : Option Element}
    (h : IsPortable (some spec) (make code parameters data)) :
    ∃ parsed, parse ((make code parameters data).toXml (some spec)).toUTF8 = .ok parsed ∧
      parsed.code = (make code parameters data).code ∧ parsed.data = data ∧
      (∀ name value, parameters.get? name = some value → name ≠ "" → value ≠ "" →
        spec.outputType name ≠ some .xml → parsed.parameters.get? name = some value) ∧
      ∀ name value, parsed.parameters.get? name = some value →
        ∃ sent, parameters.get? name = some sent ∧ name ≠ "" ∧ sent ≠ "" := by
  obtain ⟨gathered, hgathered, hparse⟩ := h.exists_parse_eq (nonEmpty_ne_some_empty code)
  refine ⟨_, hparse, rfl, rfl, fun name value hget hname hvalue htype => ?_,
    fun name value hget => ?_⟩
  · have hescaped : isRaw (some spec) name = false := by simpa [isRaw] using htype
    exact hgathered.kept _ (Dictionary.mem_entries_iff.mpr hget) hname hvalue hescaped
  · -- a name that was not sent, or not with a value, is not there
    cases hsent : parameters.get? name with
    | none =>
      have hnone : gathered.get? name = none :=
        AreGathered.get?_eq_none hgathered (by simp [make, hsent])
      cases hget.symm.trans hnone
    | some sent =>
      by_cases hempty : name = "" ∨ sent = ""
      · have hnone : gathered.get? name = none :=
          AreGathered.get?_eq_none hgathered (by simpa [make, hsent] using hempty)
        cases hget.symm.trans hnone
      · obtain ⟨hname, hvalue⟩ := not_or.mp hempty
        exact ⟨sent, rfl, hname, hvalue⟩

/-- A page whose comment looks like the end of its parameter and the beginning of another. -/
theorem exists_parse_toXml_of_markup_page :
    ∃ parsed, parse ((make none ((Dictionary.empty.insert "page"
        "<b>1</b><!--</param><param name='n'>-->").insert "n" "<2>") none).toXml
          (some ⟨"Page", [], [⟨"page", .xml, true⟩], [], []⟩)).toUTF8 = .ok parsed ∧
      parsed.code = none ∧ parsed.data = none ∧ parsed.parameters.get? "n" = some "<2>" := by
  have hvalue : ParamType.xml.accepts "<b>1</b><!--</param><param name='n'>-->" = true := by
    decide +kernel
  have hportable : IsPortable (some ⟨"Page", [], [⟨"page", .xml, true⟩], [], []⟩)
      (make none ((Dictionary.empty.insert "page"
        "<b>1</b><!--</param><param name='n'>-->").insert "n" "<2>") none) := by
    refine ⟨by decide, ⟨by decide, by decide, ?_⟩, by simp [make]⟩
    refine List.forall_mem_cons.mpr ⟨fun _ _ hraw => ?_, ?_⟩
    · exact absurd hraw (by decide)
    · exact List.forall_mem_singleton.mpr fun _ _ _ => hvalue
  obtain ⟨parsed, hparse, hcode, hdata, hkept, -⟩ := exists_parse_toXml_of_markup hportable
  exact ⟨parsed, hparse, hcode, hdata, hkept "n" "<2>" rfl (by decide) (by decide) (by decide)⟩

end RemoteCall.CallResult
