import RemoteCall.Proofs.Api.Invocation
import RemoteCall.Proofs.Api.Report
import RemoteCall.Proofs.CallResult.Readability

/-!
# Functions that hand on what they are given

What an API answers is written as a document. For functions with ordinary names that declare no
markup, the names in an answer are ordinary too, and its values are legal if those of the call
are. Reports on a call, which repeat its values, are no exception.
-/

namespace RemoteCall

/-! ## Results -/

namespace CallResult

variable {spec : Option FunctionSpec} {result : CallResult}

/-- Setting a parameter adds its own entry and keeps some of the others: no third kind of entry
appears. -/
theorem mem_entries_setParameter {name value : String} {entry : String × String}
    (h : entry ∈ (result.setParameter name value).parameters.entries) :
    entry = (name, value) ∨ entry ∈ result.parameters.entries := by
  unfold setParameter at h
  dsimp only at h
  split at h
  · exact Or.inr (List.mem_filter.mp h).1
  · exact Entries.mem_insert h

/-- The empty success has the shape, where nothing is declared raw. -/
theorem isShaped_success (hescaped : ∀ name, isRaw spec name = false) : success.IsShaped spec where
  code := by simp [success]
  name := fun entry hentry => absurd hentry List.not_mem_nil
  escaped := hescaped
  data := by simp [success]

/-- A bare error has the shape when its code can stand in an attribute. -/
theorem isShaped_error (hescaped : ∀ name, isRaw spec name = false) {code : String}
    (hcode : code ≠ "" ∧ Xml.isXmlText code = true ∧ Xml.isOneLine code = true) :
    (error code).IsShaped spec where
  code := by
    intro code' hmem
    have hkept : (error code).code = some code := by simp [error, make, Element.nonEmpty, hcode.1]
    rw [hkept] at hmem
    cases hmem
    exact hcode
  name := fun entry hentry => absurd hentry List.not_mem_nil
  escaped := hescaped
  data := by simp [error, make]

/-- Setting a parameter keeps the shape when its name can stand in an attribute. -/
theorem IsShaped.setParameter (h : result.IsShaped spec) {name : String}
    (hname : name ≠ "" ∧ Xml.isXmlText name = true ∧ Xml.isOneLine name = true) (value : String) :
    (result.setParameter name value).IsShaped spec where
  code := h.code
  name := by
    intro entry hentry
    rcases mem_entries_setParameter hentry with rfl | hold
    · exact hname
    · exact h.name entry hold
  escaped := h.escaped
  data := h.data

/-- Attaching a data section keeps the shape when the section is plain throughout. -/
theorem IsShaped.withData (h : result.IsShaped spec) {data : Element}
    (hname : data.localName = "data")
    (hsimple : data.Every fun node => node.IsRegular ∧ node.IsSimple) :
    (result.withData data).IsShaped spec where
  code := h.code
  name := h.name
  escaped := h.escaped
  data := by
    rintro data' hmem
    cases hmem
    exact ⟨hname, hsimple⟩

/-- The empty success holds nothing that XML could not carry. -/
theorem holdsLegal_success : success.HoldsLegal where
  value := fun entry hentry => absurd hentry List.not_mem_nil
  data := by simp [success]

/-- A bare error holds no value that XML could not carry. -/
theorem holdsLegal_error (code : String) : (error code).HoldsLegal where
  value := fun entry hentry => absurd hentry List.not_mem_nil
  data := by simp [error, make]

/-- Setting a parameter to a value of legal characters keeps all values legal. -/
theorem HoldsLegal.setParameter (h : result.HoldsLegal) (name : String) {value : String}
    (hvalue : Xml.isXmlText value = true) : (result.setParameter name value).HoldsLegal where
  value := by
    intro entry hentry
    rcases mem_entries_setParameter hentry with rfl | hold
    · exact hvalue
    · exact h.value entry hold
  data := h.data

/-- Attaching a data section of legal characters keeps the result legal. -/
theorem HoldsLegal.withData (h : result.HoldsLegal) {data : Element}
    (hdata : data.Every Element.IsLegal) : (result.withData data).HoldsLegal where
  value := h.value
  data := by
    rintro data' hmem
    cases hmem
    exact hdata

/-- Nothing is written as markup where no output is declared so. -/
theorem isRaw_of_output {spec : FunctionSpec}
    (h : ∀ declaration ∈ spec.output, declaration.type ≠ .xml) (name : String) :
    isRaw (some spec) name = false := by
  rw [isRaw, decide_eq_false_iff_not]
  intro hraw
  obtain ⟨declaration, hfind, htype⟩ := Option.map_eq_some_iff.mp hraw
  exact h declaration (List.mem_of_find?_eq_some hfind) htype

end CallResult

/-! ## Functions -/

/-- The values of a call are legal. -/
def FunctionRequest.HoldsLegal (call : FunctionRequest) : Prop :=
  ∀ name value, call.parameters.get? name = some value → Xml.isXmlText value = true

/-- A function with ordinary names that hands on what it is given. -/
structure ApiFunction.IsTame (function : ApiFunction) : Prop where
  name : Xml.isXmlText function.spec.name = true
  input : ∀ declaration ∈ function.spec.input, Xml.isXmlText declaration.name = true
  combos : ∀ combo ∈ function.spec.combos, ∀ name ∈ combo.params, Xml.isXmlText name = true
  output : ∀ declaration ∈ function.spec.output,
    Xml.isXmlText declaration.name = true ∧ declaration.type ≠ .xml
  run : ∀ call, ∃ result, function.run call = .result result ∧
    result.IsShaped (some function.spec) ∧ (call.HoldsLegal → result.HoldsLegal)

namespace Api

/-- The results that carry a report of violations have the shape. -/
theorem isShaped_reported {spec : Option FunctionSpec}
    (hescaped : ∀ name, CallResult.isRaw spec name = false) {code : String}
    (hcode : code ≠ "" ∧ Xml.isXmlText code = true ∧ Xml.isOneLine code = true)
    {violations : List Violation} {report : Element} (h : Violation.report violations = some report) :
    ((CallResult.error code).withData report).IsShaped spec :=
  (CallResult.isShaped_error hescaped hcode).withData (Violation.localName_of_report h)
    (Violation.every_isSimple_of_report h)

/-- A run of a tame function answers with a result of the right shape on every request, and with
legal values on requests that have them. -/
theorem isTame_run {function : ApiFunction} (h : function.IsTame) (call : FunctionRequest) :
    (run function call).IsShaped (some function.spec) ∧
      (call.HoldsLegal → (run function call).HoldsLegal) := by
  have hescaped := CallResult.isRaw_of_output fun declaration hmem => (h.output declaration hmem).2
  unfold run
  split
  · next report hreport =>
    refine ⟨isShaped_reported hescaped (by decide) hreport, fun hlegal => ?_⟩
    have htexts := FunctionSpec.isXmlText_of_inputViolations hlegal h.input h.combos
    exact (CallResult.holdsLegal_error _).withData
      (Violation.every_isLegal_of_report hreport htexts)
  · obtain ⟨result, hrun, hshaped, hlegal⟩ := h.run call
    rw [hrun]
    dsimp only
    unfold checked
    split
    · split
      · exact ⟨hshaped, hlegal⟩
      · next report hreport =>
        refine ⟨isShaped_reported hescaped (by decide) hreport, fun hcall => ?_⟩
        have hnames := fun declaration hmem => (h.output declaration hmem).1
        have htexts := FunctionSpec.isXmlText_of_outputViolations (fun name value hget =>
          (hlegal hcall).value (name, value) (Dictionary.mem_entries_iff.mpr hget)) hnames
        exact (CallResult.holdsLegal_error _).withData
          (Violation.every_isLegal_of_report hreport htexts)
    · exact ⟨hshaped, hlegal⟩

/-- All functions of the API have ordinary names and hand on what they are given. -/
def IsTame (api : Api) : Prop :=
  ∀ name function, api.functions.get? name = some function →
    Xml.isXmlText name = true ∧ function.IsTame

variable {api : Api}

/-- An API with no functions yet is tame. -/
theorem isTame_ofName (name : String) : (ofName name).IsTame := by
  intro other function hget
  cases hget

/-- Registering a tame function keeps an API tame and leaves its name alone. -/
theorem IsTame.withFunction (h : api.IsTame) {function : ApiFunction}
    (hfunction : function.IsTame) {next : Api} (hnext : api.withFunction function = .ok next) :
    next.IsTame ∧ next.name = api.name := by
  obtain ⟨-, -, -, rfl⟩ := withFunction_eq_ok_iff.mp hnext
  refine ⟨fun name registered hget => ?_, rfl⟩
  rw [Dictionary.get?_insert] at hget
  split at hget
  · next heq =>
    cases hget
    exact heq ▸ ⟨hfunction.name, hfunction⟩
  · exact h name registered hget

/-- Adding functions keeps the API tame, and does not change its name. -/
theorem IsTame.registerAll (h : api.IsTame) {functions : List ApiFunction}
    (hfunctions : ∀ function ∈ functions, function.IsTame) {next : Api}
    (hnext : api.registerAll functions = .ok next) : next.IsTame ∧ next.name = api.name := by
  induction functions generalizing api with
  | nil =>
    cases hnext
    exact ⟨h, rfl⟩
  | cons function rest ih =>
    obtain ⟨hfunction, hrest⟩ := List.forall_mem_cons.mp hfunctions
    rw [Api.registerAll, List.foldlM_cons] at hnext
    cases hadded : api.withFunction function with
    | error e =>
      rw [hadded] at hnext
      cases hnext
    | ok added =>
      rw [hadded] at hnext
      obtain ⟨htame, hname⟩ := h.withFunction hfunction hadded
      obtain ⟨htame', hname'⟩ := ih htame hrest hnext
      exact ⟨htame', hname'.trans hname⟩

/-- No function of a tame API has a result parameter that is written raw. -/
theorem IsTame.isRaw (h : api.IsTame) (function name : String) :
    CallResult.isRaw (api.spec? function) name = false := by
  cases hget : api.functions.get? function with
  | none => simp [spec?, hget, CallResult.isRaw]
  | some registered =>
    have houtput := (h function registered hget).2.output
    rw [spec?, hget]
    exact CallResult.isRaw_of_output (fun declaration hmem => (houtput declaration hmem).2) name

/-- The function list is one element for each registered function, in order, flagged by the disabled
set. -/
theorem functionList_eq (api : Api) :
    api.functionList = .mk "data" none [] (api.functionNames.map fun name =>
      listEntry name !api.disabled.contains name) none :=
  Element.foldl_addChild ..

/-- An entry of the function list, attribute by attribute. -/
theorem listEntry_eq (name : String) (enabled : Bool) :
    listEntry name enabled = .mk "function" none [⟨none, "name", name⟩,
      ⟨none, "enabled", if enabled then "true" else "false"⟩] [] none := rfl

/-- The function list is plain throughout: no text, no namespaces and no names but its own. -/
theorem every_isSimple_functionList (api : Api) :
    api.functionList.Every fun node => node.IsRegular ∧ node.IsSimple := by
  rw [functionList_eq]
  refine .node (Violation.isRegular_and_isSimple [] _ rfl (by decide)) fun child hchild => ?_
  obtain ⟨name, -, rfl⟩ := List.mem_map.mp hchild
  exact .node (Violation.isRegular_and_isSimple ["name", "enabled"] _ rfl (by decide))
    (by simp [listEntry_eq, Element.children])

/-- The function list of a tame API holds only legal characters, since the names of its functions
do. -/
theorem IsTame.every_isLegal_functionList (h : api.IsTame) :
    api.functionList.Every Element.IsLegal := by
  rw [functionList_eq]
  refine .node ⟨by simp [Element.text], by simp [Element.attributes]⟩ fun child hchild => ?_
  obtain ⟨name, hmem, rfl⟩ := List.mem_map.mp hchild
  obtain ⟨function, hget⟩ :=
    Option.isSome_iff_exists.mp (Dictionary.mem_names_iff.mp hmem)
  have hname := (h name function hget).1
  have hswitch : Xml.isXmlText (if !api.disabled.contains name then "true" else "false") =
      true := by
    cases api.disabled.contains name <;> rfl
  rw [listEntry_eq]
  exact .node ⟨by simp [Element.text],
    List.forall_mem_cons.mpr ⟨hname, List.forall_mem_singleton.mpr hswitch⟩⟩
    (by simp [Element.children])

/-- The meta functions of a tame API answer with the right shape, and with legal values when the
API's own name is legal. -/
theorem IsTame.isShaped_invokeMeta (h : api.IsTame) (function : String) :
    (api.invokeMeta function).IsShaped (api.spec? function) ∧
      (Xml.isXmlText api.name = true → (api.invokeMeta function).HoldsLegal) := by
  have hsuccess := CallResult.isShaped_success (h.isRaw function)
  unfold invokeMeta
  split
  · refine ⟨(hsuccess.setParameter (by decide) _).setParameter (by decide) _, fun hname => ?_⟩
    exact (CallResult.holdsLegal_success.setParameter _ (by decide)).setParameter _ hname
  · split
    · refine ⟨hsuccess.withData ?_ api.every_isSimple_functionList, fun _ => ?_⟩
      · rw [functionList_eq]
        rfl
      · exact CallResult.holdsLegal_success.withData h.every_isLegal_functionList
    · exact ⟨hsuccess, fun _ => CallResult.holdsLegal_success⟩

/-- What such an API answers has ordinary names, and legal values if the call has and if its
own name is legal. -/
theorem IsTame.isShaped_invoke (h : api.IsTame) {call : FunctionRequest} {result : CallResult}
    (hresult : api.invoke call = .ok result) :
    result.IsShaped (api.spec? call.function) ∧
      (Xml.isXmlText api.name = true → call.HoldsLegal → result.HoldsLegal) := by
  cases hmeta : isMetaFunction call.function with
  | true =>
    rw [invoke, if_pos hmeta, Except.ok.injEq] at hresult
    obtain ⟨hshaped, hlegal⟩ := h.isShaped_invokeMeta call.function
    exact hresult ▸ ⟨hshaped, fun hname _ => hlegal hname⟩
  | false =>
    cases hget : api.functions.get? call.function with
    | none =>
      rw [invoke_eq_error_iff.mpr ⟨hmeta, hget, rfl⟩] at hresult
      cases hresult
    | some function =>
      rw [invoke_of_get? hmeta hget, Except.ok.injEq] at hresult
      subst hresult
      split
      · exact ⟨CallResult.isShaped_error (h.isRaw call.function) (by decide),
          fun _ _ => CallResult.holdsLegal_error _⟩
      · have hspec : api.spec? call.function = some function.spec := by
          rw [spec?, hget]
          rfl
        obtain ⟨hshaped, hlegal⟩ := isTame_run (h call.function function hget).2 call
        exact ⟨hspec ▸ hshaped, fun _ => hlegal⟩

end Api

end RemoteCall
