import RemoteCall.Proofs.CallResult.Attributes
import RemoteCall.Proofs.CallResult.Readability
import RemoteCall.Proofs.Xml.Sources

/-!
# Values that are markup

A parameter that is declared as markup is written as it is. Its reader knows no declarations, and
tells markup by the elements in it: with elements the value that arrives is the source, and
without any it is the text that the source stands for.
-/

namespace RemoteCall.CallResult

open Xml Element

variable {name value : String}

/-- There are elements among the nodes if some node is read as one. -/
theorem any_isElement_iff {nodes : List Node} :
    nodes.any isElement = true ↔ ofNodes nodes ≠ [] := by
  constructor
  · intro hany hnil
    rw [any_isElement_of_ofNodes hnil] at hany
    cases hany
  · intro hne
    induction nodes with
    | nil => exact absurd rfl hne
    | cons node rest ih =>
      rw [List.any_cons, Bool.or_eq_true]
      cases node with
      | element => exact .inl rfl
      | _ => exact .inr (ih hne)

/-- The value of a parameter with elements in it is its source. -/
theorem parameterValue_of_ofNodes_ne_nil {nodes : List Node} (hne : ofNodes nodes ≠ [])
    (hend : endsInPieces nodes = false) :
    parameterValue nodes = String.ofList (Node.sources nodes) := by
  rw [parameterValue, if_pos (any_isElement_iff.mpr hne), verbatim_eq_sources hend]

/-- The value of a parameter without elements in it is its text. -/
theorem parameterValue_of_ofNodes_eq_nil {nodes : List Node} (hnil : ofNodes nodes = []) :
    parameterValue nodes = String.ofList (textOfNodes nodes) := by
  rw [parameterValue, any_isElement_of_ofNodes hnil, if_neg (by decide)]

/-- A leaf keeps all of its text. -/
theorem keptText_nil_getD (text : String) : (keptText [] (some text)).getD "" = text := by
  by_cases hempty : text = ""
  · subst hempty
    rfl
  · simp [keptText, nonEmpty, Option.filter, hempty]

/-! ## Parameters that are markup -/

/-- The content of an element that the value is put into. -/
def contentOf? (value : String) : Option (List Node) :=
  match Xml.parse? ("<x>" ++ value ++ "</x>") with
  | some (.element _ _ _ content _ _) => some content
  | _ => none

/-- An accepted value is content that can stand anywhere, and all that stands in its element. -/
theorem exists_isContent_of_accepts (h : ParamType.xml.accepts value = true) :
    ∃ trees nodes, IsContent trees value.toList ∧ resolveAll [] trees = some nodes ∧
      contentOf? value = some (mergeText nodes) := by
  obtain ⟨trees, nodes, hcontent, hnodes⟩ := exists_isContent_of_isWellFormed h
  exact ⟨trees, nodes, hcontent, hnodes, by rw [contentOf?, parse?_wrapped hcontent hnodes]⟩

/-- A value that can be put into an element is markup. -/
theorem accepts_of_contentOf? {content : List Node} (h : contentOf? value = some content) :
    ParamType.xml.accepts value = true := by
  rw [ParamType.accepts, isWellFormed]
  cases hparse : Xml.parse? ("<x>" ++ value ++ "</x>") with
  | some root => rfl
  | none =>
    rw [contentOf?, hparse] at h
    cases h

/-- A value is written between the tags of its parameter as it is. -/
theorem exists_readsAs_markup {spec : FunctionSpec} (htype : spec.outputType name = some .xml)
    (hlegal : isXmlText name = true) (hname : name ≠ "") (hvalue : value ≠ "")
    {content : List Node} (hcontent : contentOf? value = some content) :
    ∃ elements tree opening closing,
      ReadsAs [] (charsOf (parameterMarkup (some spec) name value)) elements [tree]
        [.element none "param" [⟨none, "name", flattened name⟩] content opening closing] := by
  obtain ⟨trees, nodes, htrees, hnodes, hmerged⟩ :=
    exists_isContent_of_accepts (accepts_of_contentOf? hcontent)
  obtain rfl := Option.some.inj (hcontent.symm.trans hmerged)
  obtain ⟨elements, tree, opening, closing, hreads⟩ :=
    readsAs_plainTag "param" "name" (by decide) (by decide) (by decide) hlegal htrees hnodes
  have hraw : isRaw (some spec) name = true := by simp [isRaw, htype]
  have hsource : (plainTag "param" "name" name).start.render ++ value.toList ++
      (plainTag "param" "name" name).finish.render =
        charsOf (parameterMarkup (some spec) name value) := by
    rw [start_plainTag, finish_plainTag, parameterMarkup, if_neg (by simp [hname, hvalue]), hraw]
    simp [charsOf]
  rw [hsource] at hreads
  exact ⟨elements, tree, opening, closing, hreads⟩

/-- A result that has been given one parameter has that one, unless its value is empty. -/
theorem parameters_setParameter (hname : name ≠ "") (value : String) :
    (success.setParameter name value).parameters =
      if value = "" then Dictionary.empty else Dictionary.empty.insert name value := by
  simp only [setParameter, success, hname, false_or]
  split <;> rfl

/-- What is read of a parameter that is markup is the value of its content. -/
theorem parse_toXml_setParameter {spec : FunctionSpec}
    (htype : spec.outputType name = some .xml) (hlegal : isXmlText name = true)
    (hname : name ≠ "") (hvalue : value ≠ "") {content : List Node}
    (hcontent : contentOf? value = some content) :
    parse ((success.setParameter name value).toXml (some spec)).toUTF8 =
      .ok (success.setParameter (flattened name) (parameterValue content)) := by
  obtain ⟨elements, tree, opening, closing, hreads⟩ :=
    exists_readsAs_markup htype hlegal hname hvalue hcontent
  have hcode : ∀ code ∈ (success.setParameter name value).code,
      isXmlText code = true ∧ isOneLine code = true := by simp [setParameter, success]
  have hsource : charsOf (parameterMarkup (some spec) name value) =
      charsOf ((success.setParameter name value).parameters.entries.flatMap fun entry =>
        parameterMarkup (some spec) entry.1 entry.2) ++
      charsOf (((success.setParameter name value).data.map Element.markup).getD []) := by
    rw [parameters_setParameter hname, if_neg hvalue]
    simp [Dictionary.insert, Dictionary.empty, Entries.insert, setParameter, success, charsOf]
  rw [hsource] at hreads
  obtain ⟨opening', closing', hparse⟩ := exists_parse?_toXml hcode hreads
  have hhead : ((success.setParameter name value).toXml (some spec)).toList.head? = some '<' := by
    rw [toList_toXml (fun code hmem => (hcode code hmem).2)]
    rfl
  have hread : readChildren Dictionary.empty none
      [.element none "param" [⟨none, "name", flattened name⟩] content opening closing] =
        .ok ((success.setParameter (flattened name) (parameterValue content)).parameters,
          none) := by
    have hne := flattened_ne_empty hname
    rw [readChildren_param hne rfl, parameters_setParameter hne]
    rfl
  have hnone : readCode (rootElement none).attributes = .ok none :=
    readCode_rootElement (by simp)
  rw [parse_toUTF8 hhead hparse]
  exact ofRoot_eq_ok (strayText?_eq_none hreads.areElements) hnone hread _ _

/-- **A value with elements in it arrives as it was sent**, if it does not end in character data
of several pieces. One without elements arrives as the text that it stands for: with its
references and `CDATA` sections resolved and its comments left out, and not at all if that is
nothing. -/
theorem exists_received_of_markup {spec : FunctionSpec}
    (htype : spec.outputType name = some .xml) (hlegal : isXmlText name = true)
    (hline : isOneLine name = true) (hname : name ≠ "") (hvalue : value ≠ "")
    (haccepts : ParamType.xml.accepts value = true) :
    ∃ element content received,
      Element.parse ("<x>" ++ value ++ "</x>") = .ok element ∧
      contentOf? value = some content ∧
      parse ((success.setParameter name value).toXml (some spec)).toUTF8 =
        .ok (success.setParameter name received) ∧
      (element.children ≠ [] → endsInPieces content = false → received = value) ∧
      (element.children = [] → received = element.text.getD "") := by
  obtain ⟨trees, nodes, htrees, hnodes, hcontent⟩ := exists_isContent_of_accepts haccepts
  have helement : Element.parse ("<x>" ++ value ++ "</x>") =
      .ok (.mk "x" none [] (ofNodes (mergeText nodes)) (keptText (ofNodes (mergeText nodes))
        (some (String.ofList (textOfNodes (mergeText nodes)))))) := by
    rw [Element.parse, parse?_wrapped htrees hnodes, Option.bind_some, ofNode?]
  have hparse := parse_toXml_setParameter htype hlegal hname hvalue hcontent
  rw [flattened_eq_self_iff.mpr hline] at hparse
  refine ⟨_, _, _, helement, hcontent, hparse, ?_, ?_⟩
  · intro hchildren hend
    rw [parameterValue_of_ofNodes_ne_nil hchildren hend, htrees.sources_eq hnodes,
      String.ofList_toList]
  · intro hchildren
    have hnil : ofNodes (mergeText nodes) = [] := hchildren
    rw [parameterValue_of_ofNodes_eq_nil hnil, Element.text, hnil, keptText_nil_getD]

/-- A function with one output parameter, which is markup. -/
def showing (name : String) : FunctionSpec :=
  ⟨"Show", [], [⟨name, .xml, true⟩], [], []⟩

/-- Markup with an element, a reference and a comment. -/
theorem exists_received_of_markup_page :
    parse ((success.setParameter "page" " <b>1</b>&amp;<!--c-->").toXml
        (some (showing "page"))).toUTF8 =
      .ok (success.setParameter "page" " <b>1</b>&amp;<!--c-->") := by
  obtain ⟨element, content, received, helement, hcontent, hparse, hmarkup, -⟩ :=
    exists_received_of_markup (show (showing "page").outputType "page" = some .xml by decide)
      (by decide) (by decide) (by decide) (by decide)
      (show ParamType.xml.accepts " <b>1</b>&amp;<!--c-->" = true by decide +kernel)
  have hchildren : (Element.parse ("<x>" ++ " <b>1</b>&amp;<!--c-->" ++ "</x>")).toOption.map
      (fun element => element.children.isEmpty) = some false := by decide +kernel
  have hend : (contentOf? " <b>1</b>&amp;<!--c-->").map endsInPieces = some false := by
    decide +kernel
  rw [helement] at hchildren
  rw [hcontent] at hend
  rw [hparse, hmarkup (by simpa [Except.toOption] using hchildren) (Option.some.inj hend)]

/-- What is read of a parameter that is sent as markup. -/
def received? (name value : String) : Option String :=
  match parse ((success.setParameter name value).toXml (some (showing name))).toUTF8 with
  | .ok parsed => parsed.parameter? name
  | .error _ => none

/-- What is received under a name is found under the name that arrives, with the text of what was
put between the tags. -/
theorem received?_eq {text : String} (hlegal : isXmlText name = true) (hname : name ≠ "")
    (hvalue : value ≠ "") (htext : (contentOf? value).map parameterValue = some text) :
    received? name value = (success.setParameter (flattened name) text).parameter? name := by
  obtain ⟨content, hcontent, rfl⟩ := Option.map_eq_some_iff.mp htext
  have htype : (showing name).outputType name = some .xml := by
    simp [showing, FunctionSpec.outputType, FunctionSpec.typeIn]
  rw [received?, parse_toXml_setParameter htype hlegal hname hvalue hcontent]

/-- A parameter that is sent as its declaration asks for is not received as it was sent. -/
structure IsAltered (name value : String) : Prop where
  declared : (showing name).outputType name = some .xml
  isSet : value ≠ ""
  accepted : ParamType.xml.accepts value = true
  altered : received? name value ≠ some value

/-- Markup without elements is resolved, a `CDATA` section behind a text is lost at the end, no
parameter has the empty name, a tab in a name becomes a space, and a name that no document may
hold spoils the document. -/
theorem not_received_markup :
    IsAltered "page" "1 &lt; 2" ∧ IsAltered "page" "<b/>1<![CDATA[2]]>" ∧ IsAltered "" "<b/>" ∧
      IsAltered "my\tpage" "<b/>" ∧ IsAltered "page\x00" "<b/>" := by
  have hbreak : (contentOf? "<b/>").map parameterValue = some "<b/>" := by decide +kernel
  refine ⟨⟨by decide, by decide, by decide +kernel, ?_⟩,
    ⟨by decide, by decide, by decide +kernel, ?_⟩, ⟨by decide, by decide, by decide +kernel, ?_⟩,
    ⟨by decide, by decide, by decide +kernel, ?_⟩,
    ⟨by decide, by decide, by decide +kernel, ?_⟩⟩
  · have hresolved : (contentOf? "1 &lt; 2").map parameterValue = some "1 < 2" := by decide +kernel
    rw [received?_eq (by decide) (by decide) (by decide) hresolved]
    decide
  · have hshort : (contentOf? "<b/>1<![CDATA[2]]>").map parameterValue = some "<b/>1" := by
      decide +kernel
    rw [received?_eq (by decide) (by decide) (by decide) hshort]
    decide
  · decide +kernel
  · rw [received?_eq (by decide) (by decide) (by decide) hbreak]
    decide
  · have hillegal : isXmlText ((success.setParameter "page\x00" "<b/>").toXml
        (some (showing "page\x00"))) = false := by decide
    rw [received?]
    split
    · next hparse =>
      rw [isXmlText_of_parse rfl hparse] at hillegal
      cases hillegal
    · decide

end RemoteCall.CallResult
