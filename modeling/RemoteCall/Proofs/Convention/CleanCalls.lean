import RemoteCall.Config.Basic
import RemoteCall.Proofs.Convention.Parameters

/-!
# Calls that conventions let through

Each convention gathers the parameters of a request in a way of its own, and all of them hand
over what is left after one and the same cleaning. Whatever a request holds, a call that comes
out of it has acceptable names, no empty parameter, and a data section that is one.
-/

namespace RemoteCall

/-- What holds of every call that reaches a function: its names are acceptable, no parameter is
empty, and the data section is one. -/
structure FunctionRequest.IsClean (call : FunctionRequest) : Prop where
  function : checkFunctionName call.function = .ok ()
  parameters : ∀ name value, call.parameters.get? name = some value →
    checkParameterName name = .ok () ∧ value ≠ ""
  data : ∀ data, call.data = some data → data.localName = "data"

/-- The conventions that there are. -/
def Convention.builtIn : List Convention :=
  [Standard.convention, Document.convention, Script.convention]

/-- What passes as the name of a parameter is a name. -/
theorem isName_of_checkParameterName {name : String} (h : checkParameterName name = .ok ()) :
    isName name = true := by
  simp only [checkParameterName] at h
  split at h
  · cases h
  · split at h
    · cases h
    · split at h
      · assumption
      · cases h

/-- What a function gets of any parameters is acceptable. -/
theorem forall_of_functionParameters {parameters accepted : Parameters}
    (h : functionParameters parameters = .ok accepted) :
    ∀ name value, accepted.get? name = some value →
      checkParameterName name = .ok () ∧ value ≠ "" := by
  simp only [functionParameters] at h
  split at h
  · next hnames =>
    cases h
    intro name value hget
    refine ⟨checkParameterNames_eq_ok_iff.mp hnames name value hget, ?_⟩
    rw [cleanUp, Dictionary.get?_filter, Option.filter_eq_some_iff] at hget
    rintro rfl
    simp [reachesFunction] at hget
  · cases h

/-! ## Data sections -/

/-- What is read as a data section is an element named data. -/
theorem localName_of_parseDataSection {xml : String} {root : Element}
    (h : parseDataSection xml = .ok root) : root.localName = "data" := by
  simp only [parseDataSection] at h
  split at h
  · cases h
  · split at h
    · next hname =>
      cases h
      exact hname
    · cases h

/-- An element that a value becomes has the name that it is given. -/
theorem Json.localName_of_toElement {name : String} {value : Json} {element : Element}
    (h : value.toElement name = .ok element) : element.localName = name := by
  unfold toElement at h
  split at h
  · split at h
    · cases h
    · split at h
      · cases h
        rfl
      · cases h
  · split at h <;> cases h
  · split at h
    · cases h
    · cases h
      rfl

/-- What is read as a data section is an element named data, here too. -/
theorem Json.localName_of_readDataSection {text : String} {root : Element}
    (h : readDataSection text = .ok root) : root.localName = "data" := by
  simp only [readDataSection] at h
  split at h
  · cases h
  · split at h
    · exact localName_of_toElement h
    · cases h

/-- Whatever notation it is in, a data section of the parameters has been read from a text. -/
theorem Standard.exists_read_of_sectionOf {read : String → Except RequestFault Element}
    {parameters : Parameters} {data : Element}
    (h : sectionOf read parameters = .ok (some data)) : ∃ text, read text = .ok data := by
  simp only [sectionOf] at h
  split at h
  · cases h
  · next text _ =>
    split at h
    · next hread =>
      cases h
      exact ⟨text, hread⟩
    · cases h

/-! ## What each convention makes of a request -/

/-- The standard convention makes a call exactly when the function, the data section and the
parameters pass, and then of what has passed. -/
theorem Standard.callOf_eq_ok_iff {function : String} {parameters : Parameters}
    {call : FunctionRequest} :
    callOf function parameters = .ok call ↔
      checkFunctionName function = .ok () ∧ ∃ data accepted, dataSection parameters = .ok data ∧
        functionParameters parameters = .ok accepted ∧ call = ⟨function, accepted, data⟩ := by
  constructor
  · intro h
    simp only [callOf] at h
    split at h
    · cases h
    · next hfunction =>
      split at h
      · cases h
      · next data hdata =>
        split at h
        · cases h
        · next accepted haccepted =>
          cases h
          exact ⟨hfunction, data, accepted, hdata, haccepted, rfl⟩
  · rintro ⟨hfunction, data, accepted, hdata, haccepted, rfl⟩
    simp only [callOf, hfunction, hdata, haccepted]

/-- A document makes a call exactly when the function and the parameters pass and it has one data
section at most. -/
theorem Document.callOf_eq_ok_iff {root : Element} {function : String} {call : FunctionRequest} :
    callOf root function = .ok call ↔
      checkFunctionName function = .ok () ∧ ∃ parameters accepted,
        collectParameters Dictionary.empty (root.childrenNamed "param") = .ok parameters ∧
        functionParameters parameters = .ok accepted ∧ (root.childrenNamed "data").length ≤ 1 ∧
        call = ⟨function, accepted, (root.childrenNamed "data").head?⟩ := by
  constructor
  · intro h
    simp only [callOf] at h
    split at h
    · cases h
    · next hfunction =>
      split at h
      · cases h
      · next parameters hparameters =>
        split at h
        · cases h
        · next accepted haccepted =>
          refine ⟨hfunction, parameters, accepted, hparameters, haccepted, ?_⟩
          split at h
          · next hnone =>
            cases h
            simp [hnone]
          · next data hone =>
            cases h
            simp [hone]
          · cases h
  · rintro ⟨hfunction, parameters, accepted, hparameters, haccepted, hlength, rfl⟩
    simp only [callOf, hfunction, hparameters, haccepted]
    match hsections : root.childrenNamed "data", hlength with
    | [], _ => rfl
    | [data], _ => rfl

/-- The convention for scripts makes a call exactly when the function, the callback, the data
section and the parameters pass; its own parameters are left out. -/
theorem Script.callOf_eq_ok_iff {function : String} {request : Http.Request}
    {call : FunctionRequest} :
    callOf function request = .ok call ↔
      checkFunctionName function = .ok () ∧ ∃ callback parameters data accepted,
        callback? request = .ok callback ∧ gatherParameters request = .ok parameters ∧
        dataSection parameters = .ok data ∧
        functionParameters (withoutOwn parameters) = .ok accepted ∧
        call = ⟨function, accepted, data⟩ := by
  constructor
  · intro h
    simp only [callOf] at h
    split at h
    · cases h
    · next hfunction =>
      split at h
      · cases h
      · next callback hcallback =>
        split at h
        · cases h
        · next parameters hparameters =>
          split at h
          · cases h
          · next data hdata =>
            split at h
            · cases h
            · next accepted haccepted =>
              cases h
              exact ⟨hfunction, callback, parameters, data, accepted, hcallback, hparameters,
                hdata, haccepted, rfl⟩
  · rintro ⟨hfunction, callback, parameters, data, accepted, hcallback, hparameters, hdata,
      haccepted, rfl⟩
    simp only [callOf, hfunction, hcallback, hparameters, hdata, haccepted]

/-! ## Calls are clean -/

/-- Renaming errors leaves the values alone. -/
theorem mapError_eq_ok_iff {ε δ α : Type} {f : ε → δ} {outcome : Except ε α} {value : α} :
    outcome.mapError f = .ok value ↔ outcome = .ok value := by
  constructor
  · intro h
    cases outcome with
    | ok result =>
      cases h
      rfl
    | error cause => cases h
  · rintro rfl
    rfl

/-- The calls of the standard convention are clean. -/
theorem Standard.isClean_of_convert {request : Http.Request} {call : FunctionRequest}
    (h : convert request = .ok call) : call.IsClean := by
  simp only [convert] at h
  split at h
  · cases h
  · split at h
    · cases h
    · obtain ⟨hfunction, data, accepted, hdata, haccepted, rfl⟩ :=
        callOf_eq_ok_iff.mp (mapError_eq_ok_iff.mp h)
      refine ⟨hfunction, forall_of_functionParameters haccepted, ?_⟩
      rintro root rfl
      obtain ⟨text, hread⟩ := exists_read_of_sectionOf hdata
      exact localName_of_parseDataSection hread

/-- The calls that documents make are clean. -/
theorem Document.isClean_of_convertRoot {root : Element} {call : FunctionRequest}
    (h : convertRoot root = .ok call) : call.IsClean := by
  simp only [convertRoot] at h
  split at h
  · cases h
  · split at h
    · cases h
    · obtain ⟨hfunction, parameters, accepted, -, haccepted, -, rfl⟩ :=
        callOf_eq_ok_iff.mp (mapError_eq_ok_iff.mp h)
      refine ⟨hfunction, forall_of_functionParameters haccepted, fun data hdata => ?_⟩
      simpa using (List.mem_filter.mp (List.mem_of_mem_head? hdata)).2

/-- The calls of the convention for scripts are clean. -/
theorem Script.isClean_of_convert {request : Http.Request} {call : FunctionRequest}
    (h : convert request = .ok call) : call.IsClean := by
  simp only [convert] at h
  split at h
  · cases h
  · obtain ⟨hfunction, callback, parameters, data, accepted, -, -, hdata, haccepted, rfl⟩ :=
      callOf_eq_ok_iff.mp (mapError_eq_ok_iff.mp h)
    refine ⟨hfunction, forall_of_functionParameters haccepted, ?_⟩
    rintro root rfl
    obtain ⟨text, hread⟩ := Standard.exists_read_of_sectionOf hdata
    exact Json.localName_of_readDataSection hread

/-- A hook returns what its computation gives. -/
theorem HookResult.ofExcept_eq_returned_iff {α : Type} {outcome : Except ConventionError α}
    {value : α} : ofExcept outcome = .returned value ↔ outcome = .ok value := by
  cases outcome <;> simp [ofExcept]

/-- A call that the hook of a convention returns is clean, whatever root it is given. -/
theorem Convention.isClean_of_returned {convention : Convention} (h : convention ∈ builtIn)
    {request : Http.Request} {kept : Option Element} {call : FunctionRequest}
    (hreturned : (convention.convert request kept).1 = .returned call) : call.IsClean := by
  simp only [builtIn, List.mem_cons, List.not_mem_nil, or_false] at h
  rcases h with rfl | rfl | rfl
  · exact Standard.isClean_of_convert (HookResult.ofExcept_eq_returned_iff.mp hreturned)
  · simp only [Document.convention, Document.convert] at hreturned
    split at hreturned
    · exact Document.isClean_of_convertRoot (HookResult.ofExcept_eq_returned_iff.mp hreturned)
    · cases hreturned
  · exact Script.isClean_of_convert (HookResult.ofExcept_eq_returned_iff.mp hreturned)

/-- A call that was not there before has been returned by the hook. -/
theorem ManagedConvention.returned_of_convert {managed : ManagedConvention}
    {request : Http.Request} {context : RequestContext} {call : FunctionRequest}
    (hnew : context.call = none) (h : (managed.convert request context).1 = .ok call) :
    (managed.convention.convert request context.body).1 = .returned call := by
  simp only [convert, hnew] at h
  split at h
  · cases h
  · split at h
    · next hreturned =>
      split at h
      · cases h
      · cases h
        exact hreturned
    · split at h <;> cases h
    · cases h

/-- **Only clean calls come out of a request**, whichever convention converts it, and whether or
not its body has been read before. No parameter has a name of the framework. -/
theorem ManagedConvention.isClean_of_convert_builtIn {managed : ManagedConvention}
    {request : Http.Request} {context : RequestContext} {call : FunctionRequest}
    (hbuiltIn : managed.convention ∈ Convention.builtIn) (hnew : context.call = none)
    (hconvert : (managed.convert request context).1 = .ok call) :
    call.IsClean ∧ ∀ name value, call.parameters.get? name = some value →
      isName name = true ∧ name ≠ reservedParameter ∧ name.toList.head? ≠ some '_' := by
  have hclean := Convention.isClean_of_returned hbuiltIn (returned_of_convert hnew hconvert)
  refine ⟨hclean, fun name value hget => ?_⟩
  have hname := (hclean.parameters name value hget).1
  exact ⟨isName_of_checkParameterName hname, (name_of_checkParameterName hname).2⟩

/-- A request by the script convention with parameters of the framework, a reserved and an empty
one, beside the one that arrives. -/
theorem isClean_of_convert_builtIn_echo :
    ∃ call, ((ManagedConvention.ofConvention Script.convention).start.convert
        (Http.Request.ofTarget Http.Method.get
          "/Echo?output=json&text=hi&_context=x&function=y&none=&_data=%7B%22pet%22:%22Rex%22%7D")
        .empty).1 = .ok call ∧
      call.parameters.entries = [("text", "hi")] ∧ call.data.isSome = true ∧ call.IsClean := by
  let managed := (ManagedConvention.ofConvention Script.convention).start
  let request := Http.Request.ofTarget Http.Method.get
    "/Echo?output=json&text=hi&_context=x&function=y&none=&_data=%7B%22pet%22:%22Rex%22%7D"
  have hparts : ((managed.convert request .empty).1.toOption.map fun call =>
      (call.parameters.entries, call.data.isSome)) = some ([("text", "hi")], true) := by
    decide +kernel
  obtain ⟨call, hcall, hentries⟩ := Option.map_eq_some_iff.mp hparts
  cases hconvert : (managed.convert request .empty).1 with
  | error e =>
    rw [hconvert] at hcall
    cases hcall
  | ok converted =>
    rw [hconvert] at hcall
    cases hcall
    obtain ⟨hclean, -⟩ :=
      ManagedConvention.isClean_of_convert_builtIn (by simp [Convention.builtIn, managed,
        ManagedConvention.ofConvention, ManagedConvention.start]) rfl hconvert
    rw [Prod.mk.injEq] at hentries
    exact ⟨call, rfl, hentries.1, hentries.2, hclean⟩

end RemoteCall
