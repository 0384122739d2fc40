import RemoteCall.Proofs.Element.Legality
import RemoteCall.Spec.Violation

/-!
# Reports of violations

A report has one child for each declaration that is broken. Its names are ordinary whatever is
broken; its texts are names that are declared and values that are sent, so these decide whether
a document can carry it.
-/

namespace RemoteCall

/-! ## Reports as elements -/

/-- Adding the children one after the other appends them all, in order. -/
theorem Element.foldl_addChild {α : Type} (child : α → Element) (items : List α) (name : String)
    (uri : Option String) (attributes : List Xml.Attribute) (children : List Element) :
    items.foldl (fun (element : Element) item => element.addChild (child item))
        (.mk name uri attributes children none) =
      .mk name uri attributes (children ++ items.map child) none := by
  induction items generalizing children with
  | nil => simp
  | cons item rest ih =>
    rw [List.foldl_cons]
    have hstep := ih (children ++ [child item])
    simpa [addChild, keptText, nonEmpty] using hstep

namespace Violation

/-- A parameter in the list of a combination. -/
def listed (name : String) : Element :=
  described "param" [("name", name)]

/-- The mention of one parameter in a combination, attribute by attribute. -/
theorem listed_eq (name : String) :
    listed name = .mk "param" none [⟨none, "name", name⟩] [] none := rfl

/-- The entry for a missing parameter, attribute by attribute. -/
theorem element_missing (param : String) :
    (missing param).element = .mk "missing-param" none [⟨none, "param", param⟩] [] none := rfl

/-- The entry for a value outside its type, attribute by attribute. -/
theorem element_invalidValue (param : String) (type : ParamType) (value : String) :
    (invalidValue param type value).element = .mk "invalid-value-for-type" none
      [⟨none, "param", param⟩, ⟨none, "type", type.name⟩, ⟨none, "value", value⟩] [] none := rfl

/-- The entry for a broken combination, with one child for each parameter it lists. -/
theorem element_combination (kind : ComboKind) (params : List String) :
    (combination kind params).element = .mk "param-combo" none [⟨none, "type", kind.name⟩]
      (params.map listed) none :=
  Element.foldl_addChild ..

/-- A report has one child for each violation. -/
theorem report_eq_some {violations : List Violation} {data : Element}
    (h : report violations = some data) :
    data = .mk "data" none [] (violations.map element) none := by
  unfold report at h
  split at h
  · cases h
  · rw [Option.some.injEq] at h
    rw [← h]
    exact Element.foldl_addChild ..

/-! ## Reports in documents -/

/-- The texts of a violation. -/
def texts : Violation → List String
  | .missing param => [param]
  | .invalidValue param _ value => [param, value]
  | .combination _ params => params

/-- An element without namespaces and text, whose names are ordinary. -/
theorem isRegular_and_isSimple {name : String} {attributes : List Xml.Attribute}
    (names : List String) (children : List Element)
    (hkeys : attributes.map Element.attributeKey = names.map (Prod.mk none))
    (hnames : isName name = true ∧ names.Nodup ∧ ∀ n ∈ names, isName n = true ∧ n ≠ "xmlns") :
    Element.IsRegular (.mk name none attributes children none) ∧
      Element.IsSimple (.mk name none attributes children none) := by
  obtain ⟨hname, hdistinct, hordinary⟩ := hnames
  have hne : name ≠ "" := by
    rintro rfl
    cases hname
  have hattributes : ∀ candidate ∈ attributes, candidate.namespaceUri = none ∧
      isName candidate.localName = true ∧ candidate.localName ≠ "xmlns" := by
    intro candidate hcandidate
    have hkey : Element.attributeKey candidate ∈ names.map (Prod.mk none) := by
      rw [← hkeys]
      exact List.mem_map_of_mem hcandidate
    obtain ⟨n, hn, heq⟩ := List.mem_map.mp hkey
    obtain ⟨huri, hlocal⟩ := Prod.mk.inj heq
    rw [← huri, ← hlocal]
    exact ⟨rfl, hordinary n hn⟩
  have hnodup : (attributes.map Element.attributeKey).Nodup := by
    rw [hkeys]
    exact List.pairwise_map.mpr (hdistinct.imp fun hne heq => hne (Prod.mk.inj heq).2)
  refine ⟨⟨hne, by simp [Element.namespaceUri], fun candidate hcandidate => ?_, hnodup, rfl⟩,
    rfl, hname, hattributes⟩
  rw [(hattributes candidate hcandidate).1]
  simp

/-- A violation is an element with ordinary names, whatever its texts are. -/
theorem every_isSimple (violation : Violation) :
    violation.element.Every fun node => node.IsRegular ∧ node.IsSimple := by
  cases violation with
  | missing param =>
    rw [element_missing]
    exact .node (isRegular_and_isSimple ["param"] _ rfl (by decide)) (by simp [Element.children])
  | invalidValue param type value =>
    rw [element_invalidValue]
    exact .node (isRegular_and_isSimple ["param", "type", "value"] _ rfl (by decide))
      (by simp [Element.children])
  | combination kind params =>
    rw [element_combination]
    refine .node (isRegular_and_isSimple ["type"] _ rfl (by decide)) fun child hchild => ?_
    obtain ⟨name, -, rfl⟩ := List.mem_map.mp hchild
    rw [listed_eq]
    exact .node (isRegular_and_isSimple ["name"] _ rfl (by decide)) (by simp [Element.children])

/-- The texts of the element are those of the violation, and names of types and kinds. -/
theorem every_isLegal {violation : Violation}
    (h : ∀ text ∈ violation.texts, Xml.isXmlText text = true) :
    violation.element.Every Element.IsLegal := by
  cases violation with
  | missing param =>
    rw [element_missing]
    exact .node ⟨by simp [Element.text], List.forall_mem_singleton.mpr (h param (by simp [texts]))⟩
      (by simp [Element.children])
  | invalidValue param type value =>
    rw [element_invalidValue]
    have hparam := h param (by simp [texts])
    have hvalue := h value (by simp [texts])
    have htype : Xml.isXmlText type.name = true := by cases type <;> decide
    refine .node ⟨by simp [Element.text], ?_⟩ (by simp [Element.children])
    exact List.forall_mem_cons.mpr ⟨hparam, List.forall_mem_cons.mpr
      ⟨htype, List.forall_mem_singleton.mpr hvalue⟩⟩
  | combination kind params =>
    rw [element_combination]
    have hkind : Xml.isXmlText kind.name = true := by cases kind <;> decide
    refine .node ⟨by simp [Element.text], List.forall_mem_singleton.mpr hkind⟩ fun child hchild => ?_
    obtain ⟨name, hname, rfl⟩ := List.mem_map.mp hchild
    rw [listed_eq]
    exact .node ⟨by simp [Element.text], List.forall_mem_singleton.mpr (h name hname)⟩
      (by simp [Element.children])

/-- A report is plain throughout: no text, no namespaces and no names but its own. -/
theorem every_isSimple_of_report {violations : List Violation} {data : Element}
    (h : report violations = some data) :
    data.Every fun node => node.IsRegular ∧ node.IsSimple := by
  rw [report_eq_some h]
  refine .node (isRegular_and_isSimple [] _ rfl (by decide)) fun child hchild => ?_
  obtain ⟨violation, -, rfl⟩ := List.mem_map.mp hchild
  exact every_isSimple violation

/-- A report holds only legal characters when all the texts it quotes do. -/
theorem every_isLegal_of_report {violations : List Violation} {data : Element}
    (hreport : report violations = some data)
    (h : ∀ violation ∈ violations, ∀ text ∈ violation.texts, Xml.isXmlText text = true) :
    data.Every Element.IsLegal := by
  rw [report_eq_some hreport]
  refine .node ⟨by simp [Element.text], by simp [Element.attributes]⟩ fun child hchild => ?_
  obtain ⟨violation, hviolation, rfl⟩ := List.mem_map.mp hchild
  exact every_isLegal (h violation hviolation)

/-- A report is an element named data. -/
theorem localName_of_report {violations : List Violation} {data : Element}
    (h : report violations = some data) : data.localName = "data" := by
  rw [report_eq_some h]
  rfl

end Violation

/-! ## Texts in reports -/

section Texts

variable {parameters : Parameters}
  (hvalues : ∀ name value, parameters.get? name = some value → Xml.isXmlText value = true)

include hvalues in
/-- What is wrong with a parameter is told by its name and its value. -/
theorem ParamSpec.isXmlText_of_violation? {spec : ParamSpec} (hname : Xml.isXmlText spec.name = true)
    {violation : Violation} (h : spec.violation? parameters = some violation) :
    ∀ text ∈ violation.texts, Xml.isXmlText text = true := by
  unfold violation? at h
  cases hset : parameters.setValue? spec.name with
  | none =>
    simp only [hset] at h
    split at h
    · cases h
      exact List.forall_mem_singleton.mpr hname
    · cases h
  | some value =>
    have hvalue := hvalues _ _ (Option.filter_eq_some_iff.mp hset).1
    simp only [hset] at h
    split at h
    · cases h
    · cases h
      exact List.forall_mem_cons.mpr ⟨hname, List.forall_mem_singleton.mpr hvalue⟩

/-- A broken combination quotes the names it lists and no value. -/
theorem ParamCombo.texts_of_violation? {combo : ParamCombo} {violation : Violation}
    (h : combo.violation? parameters = some violation) : violation.texts = combo.params := by
  unfold violation? at h
  dsimp only at h
  split at h
  · cases h
  · cases h
    rfl

variable {spec : FunctionSpec}

include hvalues in
/-- Reports on input hold declared names and values that were sent. -/
theorem FunctionSpec.isXmlText_of_inputViolations
    (hnames : ∀ declaration ∈ spec.input, Xml.isXmlText declaration.name = true)
    (hcombos : ∀ combo ∈ spec.combos, ∀ name ∈ combo.params, Xml.isXmlText name = true) :
    ∀ violation ∈ spec.inputViolations parameters, ∀ text ∈ violation.texts,
      Xml.isXmlText text = true := by
  intro violation hviolation
  rcases List.mem_append.mp hviolation with hmem | hmem
  · obtain ⟨declaration, hdeclaration, hsome⟩ := List.mem_filterMap.mp hmem
    exact declaration.isXmlText_of_violation? hvalues (hnames declaration hdeclaration) hsome
  · obtain ⟨combo, hcombo, hsome⟩ := List.mem_filterMap.mp hmem
    rw [combo.texts_of_violation? hsome]
    exact hcombos combo hcombo

include hvalues in
/-- Reports on output hold declared names and values that were returned. -/
theorem FunctionSpec.isXmlText_of_outputViolations
    (hnames : ∀ declaration ∈ spec.output, Xml.isXmlText declaration.name = true) :
    ∀ violation ∈ spec.outputViolations parameters, ∀ text ∈ violation.texts,
      Xml.isXmlText text = true := by
  intro violation hviolation
  obtain ⟨declaration, hdeclaration, hsome⟩ := List.mem_filterMap.mp hviolation
  exact declaration.isXmlText_of_violation? hvalues (hnames declaration hdeclaration) hsome

end Texts

end RemoteCall
