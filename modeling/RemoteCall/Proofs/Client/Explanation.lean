import RemoteCall.Client.Classification
import RemoteCall.Proofs.Api.Report
import RemoteCall.Proofs.CallResult.Readability

/-!
# Reports and explanations

The server reports the declarations that a call breaks, and the client puts the report into
words. Between the two the report is a document. What the client says is what the declarations
and the values come to, one sentence for each declaration that is broken, in the order in which
they are declared.
-/

namespace RemoteCall

/-! ## What is to be said -/

/-- A name in quotes. -/
def inQuotes (name : String) : String :=
  "\"" ++ name ++ "\""

/-- A list in words, one name after another. -/
def enumeration : List String → String
  | [] => ""
  | [name] => inQuotes name
  | [name, last] => inQuotes name ++ " and " ++ inQuotes last
  | name :: next :: rest => inQuotes name ++ ", " ++ enumeration (next :: rest)

/-- What is to be said of a declared parameter: that it is required and not set, or that its
value is not one of its type. -/
def ParamSpec.complaint? (declaration : ParamSpec) (parameters : Parameters) : Option String :=
  match parameters.setValue? declaration.name with
  | none =>
    if declaration.required then
      some s!"No value given for required parameter \"{declaration.name}\"."
    else none
  | some value =>
    if declaration.type.accepts value then none
    else some (s!"The value \"{value}\" for the parameter \"{declaration.name}\" " ++
      s!"is considered invalid for the type \"{declaration.type.name}\".")

/-- What is to be said of a combination: that it does not admit as many set parameters. -/
def ParamCombo.complaint? (combo : ParamCombo) (parameters : Parameters) : Option String :=
  let set := combo.params.countP fun name => (parameters.setValue? name).isSome
  if combo.kind.admits set combo.params.length then none
  else some (s!"Violated param-combo constraint of type \"{combo.kind.name}\" on parameters " ++
    enumeration combo.params ++ ".")

/-- What is to be said of a call: the parameters first, then the combinations, each in the
order of their declarations. -/
def FunctionSpec.complaints (spec : FunctionSpec) (parameters : Parameters) : List String :=
  spec.input.filterMap (·.complaint? parameters) ++ spec.combos.filterMap (·.complaint? parameters)

/-! ## Sentences -/

/-- A list of more than one name ends in the word that joins the last one. -/
theorem quotedList_concat {names : List String} (h : names ≠ []) (last : String) :
    quotedList (names ++ [last]) =
      ", ".intercalate (names.map inQuotes) ++ " and " ++ inQuotes last := by
  have hreverse : (names ++ [last]).reverse = last :: names.reverse := List.reverse_concat
  unfold quotedList
  dsimp only
  rw [hreverse]
  split
  · next heq => cases heq
  · next heq =>
    obtain ⟨-, hnil⟩ := List.cons.inj heq
    exact absurd (List.reverse_eq_nil_iff.mp hnil) h
  · next last' rest hrest heq =>
    obtain ⟨rfl, rfl⟩ := List.cons.inj heq
    rw [List.reverse_reverse]
    rfl

/-- From three names on, the first one is set off by a comma. -/
theorem enumeration_cons_cons (name next : String) {rest : List String} (h : rest ≠ []) :
    enumeration (name :: next :: rest) = inQuotes name ++ ", " ++ enumeration (next :: rest) := by
  cases rest with
  | nil => exact absurd rfl h
  | cons later rest => rfl

/-- In words, too, a list of more than one name ends in the word that joins the last one. -/
theorem enumeration_concat {names : List String} (h : names ≠ []) (last : String) :
    enumeration (names ++ [last]) =
      ", ".intercalate (names.map inQuotes) ++ " and " ++ inQuotes last := by
  induction names with
  | nil => exact absurd rfl h
  | cons name rest ih =>
    cases rest with
    | nil =>
      rw [List.map_singleton, String.intercalate_singleton]
      rfl
    | cons next rest =>
      have hrest := ih (List.cons_ne_nil next rest)
      have hsplit : ", ".intercalate ((name :: next :: rest).map inQuotes) =
          inQuotes name ++ ", " ++ ", ".intercalate ((next :: rest).map inQuotes) :=
        String.intercalate_cons_of_ne_nil (by simp)
      rw [List.cons_append] at hrest
      rw [List.cons_append, List.cons_append, enumeration_cons_cons _ _ (by simp), hrest, hsplit]
      simp only [String.append_assoc]

/-- The list that is quoted is the list in words. -/
theorem quotedList_eq_enumeration (names : List String) : quotedList names = enumeration names := by
  rcases List.eq_nil_or_concat names with rfl | ⟨init, last, rfl⟩
  · rfl
  by_cases hinit : init = []
  · subst hinit
    rfl
  · rw [List.concat_eq_append, quotedList_concat hinit, enumeration_concat hinit]

namespace Violation

/-- The sentence for a violation. -/
def sentence : Violation → String
  | .missing param => missingSentence param
  | .invalidValue param type value => invalidValueSentence (some value) param type.name
  | .combination kind params => combinationSentence kind.name params

end Violation

/-- What is to be said of a declared parameter is the sentence for its violation. -/
theorem ParamSpec.complaint?_eq (declaration : ParamSpec) (parameters : Parameters) :
    declaration.complaint? parameters =
      (declaration.violation? parameters).map Violation.sentence := by
  unfold complaint? violation?
  cases parameters.setValue? declaration.name with
  | none =>
    dsimp only
    split <;> rfl
  | some value =>
    dsimp only
    split <;> rfl

/-- What is to be said of a combination is the sentence for its violation. -/
theorem ParamCombo.complaint?_eq (combo : ParamCombo) (parameters : Parameters) :
    combo.complaint? parameters = (combo.violation? parameters).map Violation.sentence := by
  unfold complaint? violation?
  rw [← quotedList_eq_enumeration]
  dsimp only
  split <;> rfl

/-- What is to be said of all parameters is said violation by violation, in the order of the checks.
-/
theorem FunctionSpec.complaints_eq (spec : FunctionSpec) (parameters : Parameters) :
    spec.complaints parameters = (spec.inputViolations parameters).map Violation.sentence := by
  rw [complaints, inputViolations, List.map_append, List.map_filterMap, List.map_filterMap]
  simp only [ParamSpec.complaint?_eq, ParamCombo.complaint?_eq]

/-! ## From the report to the sentences -/

namespace Violation

/-- The sentence that a client makes of an entry is the one for the violation that it reports. -/
theorem sentence?_element (violation : Violation) :
    sentence? violation.element = some violation.sentence := by
  cases violation with
  | missing param =>
    rw [element_missing]
    rfl
  | invalidValue param type value =>
    rw [element_invalidValue]
    rfl
  | combination kind params =>
    have hlisted : (params.map listed).filter (fun child => child.localName = "param") =
        params.map listed := by
      rw [List.filter_eq_self]
      intro child hchild
      obtain ⟨name, -, rfl⟩ := List.mem_map.mp hchild
      rfl
    have hnames : (params.map listed).filterMap (·.attribute? "name") = params := by
      rw [List.filterMap_map]
      exact List.filterMap_some
    have hchildren : sentence? (combination kind params).element =
        some (combinationSentence kind.name
          (((params.map listed).filter (fun child => child.localName = "param")).filterMap
            (·.attribute? "name"))) := by
      rw [element_combination]
      rfl
    rw [hchildren, hlisted, hnames, sentence]

/-- No sentence is lost, and none is added. -/
theorem describeViolations_report {violations : List Violation} {data : Element}
    (h : report violations = some data) :
    describeViolations (some data) = " ".intercalate (violations.map sentence) := by
  rw [report_eq_some h, describeViolations, Element.children, List.filterMap_map]
  have hsentences : sentence? ∘ element = some ∘ sentence := funext sentence?_element
  rw [hsentences, List.filterMap_eq_map]

end Violation

/-! ## From the server to the client -/

section Report

variable {spec : FunctionSpec} {parameters : Parameters}

/-- An error with a report arrives as it was sent. -/
theorem parse_withData_error {code : String} {report : Element} (hne : code ≠ "")
    (hcode : Xml.isXmlText code = true ∧ Xml.isOneLine code = true)
    (h : CallResult.IsPortableData report) (declared : Option FunctionSpec) :
    CallResult.parse (((CallResult.error code).withData report).toXml declared).toUTF8 =
      .ok ((CallResult.error code).withData report) := by
  have herror : (CallResult.error code).withData report =
      ⟨some code, Dictionary.empty, some report⟩ := by
    simp [CallResult.error, CallResult.make, CallResult.withData, Element.nonEmpty, hne]
  have hportable : CallResult.IsPortable declared ⟨some code, Dictionary.empty, some report⟩ := by
    refine ⟨?_, ⟨?_, ?_, ?_⟩, ?_⟩
    · rintro code' hmem
      cases hmem
      exact hcode
    · exact fun entry hmem => absurd hmem List.not_mem_nil
    · exact fun entry hmem => absurd hmem List.not_mem_nil
    · exact fun entry hmem => absurd hmem List.not_mem_nil
    · rintro data hmem
      cases hmem
      exact h
  obtain ⟨gathered, hgathered, hparse⟩ := hportable.exists_parse_eq (by simpa using hne)
  have hempty : gathered = Dictionary.empty := by
    refine Dictionary.ext_get? fun name => ?_
    exact hgathered.others name fun value hmem => absurd hmem List.not_mem_nil
  rw [herror, hparse, hempty]

/-- **What the client says of a report is what is to be said of the call.** The report arrives as
it was sent, and every declaration that is broken has its sentence, in order. -/
theorem classify_of_checkInput {report : Element}
    (hreport : spec.checkInput parameters = some report)
    (hnames : ∀ declaration ∈ spec.input, Xml.isXmlText declaration.name = true)
    (hcombos : ∀ combo ∈ spec.combos, ∀ name ∈ combo.params, Xml.isXmlText name = true)
    (hvalues : ∀ name value, parameters.get? name = some value → Xml.isXmlText value = true) :
    ∃ parsed, CallResult.parse (((CallResult.error invalidRequestCode).withData report).toXml
        (some spec)).toUTF8 = .ok parsed ∧
      ∀ known, classify parsed known =
        .error (.invalidRequest (" ".intercalate (spec.complaints parameters)) (some report)) := by
  have hsimple := Violation.every_isSimple_of_report hreport
  have hlegal := Violation.every_isLegal_of_report hreport
    (FunctionSpec.isXmlText_of_inputViolations hvalues hnames hcombos)
  have hportable := CallResult.isPortableData_of_every (Violation.localName_of_report hreport)
    hsimple hlegal
  have hcode : Xml.isXmlText invalidRequestCode = true ∧ Xml.isOneLine invalidRequestCode = true :=
    by decide
  refine ⟨_, parse_withData_error (by decide) hcode hportable (some spec), fun known => ?_⟩
  rw [FunctionSpec.complaints_eq, ← Violation.describeViolations_report hreport]
  rfl

/-- A function that delivers to one place. -/
def FunctionSpec.order : FunctionSpec where
  name := "Order"
  input := [⟨"name", .text, true⟩, ⟨"count", .int32, false⟩]
  combos := [⟨.exclusiveOr, ["street", "box", "shop"]⟩]

/-- A call without a name, with a count that is none, and with two places. -/
theorem classify_of_checkInput_order :
    ∃ report parsed, FunctionSpec.order.checkInput
        (((Dictionary.empty.insert "count" "\"2\"\n<3>").insert "street" "A").insert "shop" "B") =
          some report ∧
      CallResult.parse (((CallResult.error invalidRequestCode).withData report).toXml
        (some FunctionSpec.order)).toUTF8 = .ok parsed ∧
      classify parsed none = .error (.invalidRequest
        ("No value given for required parameter \"name\". " ++
          "The value \"\"2\"\n<3>\" for the parameter \"count\" " ++
          "is considered invalid for the type \"_int32\". " ++
          "Violated param-combo constraint of type \"exclusive-or\" on parameters " ++
          "\"street\", \"box\" and \"shop\".") (some report)) := by
  obtain ⟨report, hreport⟩ : ∃ report, FunctionSpec.order.checkInput
      (((Dictionary.empty.insert "count" "\"2\"\n<3>").insert "street" "A").insert "shop" "B") =
        some report := ⟨_, rfl⟩
  have hvalues : ∀ entry ∈ (((Dictionary.empty.insert "count" "\"2\"\n<3>").insert "street" "A"
      ).insert "shop" "B").entries, Xml.isXmlText entry.2 = true := by decide
  obtain ⟨parsed, hparse, hclassify⟩ := classify_of_checkInput hreport (by decide) (by decide)
    fun name value hget => hvalues (name, value) (Dictionary.mem_entries_iff.mpr hget)
  have hdetail : " ".intercalate (FunctionSpec.order.complaints
      (((Dictionary.empty.insert "count" "\"2\"\n<3>").insert "street" "A").insert "shop" "B")) =
        "No value given for required parameter \"name\". " ++
          "The value \"\"2\"\n<3>\" for the parameter \"count\" " ++
          "is considered invalid for the type \"_int32\". " ++
          "Violated param-combo constraint of type \"exclusive-or\" on parameters " ++
          "\"street\", \"box\" and \"shop\"." := by decide +kernel
  refine ⟨report, parsed, hreport, hparse, ?_⟩
  rw [hclassify none, hdetail]

end Report

end RemoteCall
