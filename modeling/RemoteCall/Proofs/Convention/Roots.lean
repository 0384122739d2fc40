import RemoteCall.Proofs.Convention.CleanCalls

/-!
# Calls that documents ask for

What call a document asks for can be told without regard to the order in which its parameters are
entered. A root is accepted if its parameters have names and do not contradict each other, what a
function gets of them is acceptable, and there is one data section at most.
-/

namespace RemoteCall

/-- Cleaning up keeps the parameters that reach the function, and their values. -/
theorem cleanUp_get?_eq_some_iff {parameters : Parameters} {name value : String} :
    (cleanUp parameters).get? name = some value ↔
      parameters.get? name = some value ∧ reachesFunction name value = true := by
  rw [cleanUp, Dictionary.get?_filter, Option.filter_eq_some_iff]

/-- The parameters of a call are those that reach the function, and all their names have to pass. -/
theorem functionParameters_eq_ok_iff {parameters accepted : Parameters} :
    functionParameters parameters = .ok accepted ↔
      (∀ name value, parameters.get? name = some value → reachesFunction name value = true →
        checkParameterName name = .ok ()) ∧ accepted = cleanUp parameters := by
  have hnames : checkParameterNames (cleanUp parameters) = .ok () ↔
      ∀ name value, parameters.get? name = some value → reachesFunction name value = true →
        checkParameterName name = .ok () := by
    simp only [checkParameterNames_eq_ok_iff, cleanUp_get?_eq_some_iff, and_imp]
  rw [← hnames, functionParameters]
  cases checkParameterNames (cleanUp parameters) <;> simp [eq_comm]

/-- Gathered pairs are looked up as they are, if no name comes with two values. -/
theorem gatherPairs_empty_eq_ok {parameters : Parameters} {pairs : List (String × String)}
    (h : gatherPairs Dictionary.empty pairs = .ok parameters) :
    IsConsistent pairs ∧ ∀ name value,
      parameters.get? name = some value ↔ (name, value) ∈ pairs := by
  have hconsistent : IsConsistent pairs := exists_gatherPairs_iff.mp ⟨parameters, h⟩
  refine ⟨hconsistent, fun name value => ?_⟩
  rw [get?_of_gatherPairs h, ← hconsistent.lookup_eq_some_iff]
  simp

namespace Document

/-- The name and the value of a parameter. -/
def entryOf (param : Element) : String × String :=
  ((param.attribute? "name").getD "", param.text.getD "")

/-- The names and values of the parameters of a root, whatever namespaces they are in. -/
def entries (root : Element) : List (String × String) :=
  (root.childrenNamed "param").map entryOf

/-- The root can be a call of any function. -/
structure IsAcceptable (root : Element) : Prop where
  named : ∀ entry ∈ entries root, entry.1 ≠ ""
  values : IsConsistent (entries root)
  names : ∀ entry ∈ entries root, reachesFunction entry.1 entry.2 = true →
    checkParameterName entry.1 = .ok ()
  data : (root.childrenNamed "data").length ≤ 1

/-- The call has what the root gives to the function. -/
structure IsCallOf (function : String) (root : Element) (call : FunctionRequest) : Prop where
  function : call.function = function
  parameters : ∀ name value, call.parameters.get? name = some value ↔
    (name, value) ∈ entries root ∧ reachesFunction name value = true
  data : call.data = (root.childrenNamed "data").head?

variable {root : Element} {function : String} {call : FunctionRequest}

/-- A root describes one call. -/
theorem IsCallOf.eq {other : FunctionRequest} (h : IsCallOf function root call)
    (hother : IsCallOf function root other) : call = other := by
  obtain ⟨callFunction, parameters, data⟩ := call
  obtain ⟨otherFunction, otherParameters, otherData⟩ := other
  have hparameters : parameters = otherParameters := by
    refine Dictionary.ext_get? fun name => Option.ext fun value => ?_
    exact (h.parameters name value).trans (hother.parameters name value).symm
  obtain rfl : callFunction = otherFunction := h.function.trans hother.function.symm
  obtain rfl : data = otherData := h.data.trans hother.data.symm
  rw [hparameters]

/-- The parameters are gathered as pairs are, once all of them have names. -/
theorem collectParameters_eq_ok_iff {before after : Parameters} {params : List Element} :
    collectParameters before params = .ok after ↔
      (∀ entry ∈ params.map entryOf, entry.1 ≠ "") ∧
        gatherPairs before (params.map entryOf) = .ok after := by
  induction params generalizing before with
  | nil => simp [collectParameters, gatherPairs]
  | cons param params ih =>
    simp only [List.map_cons, List.forall_mem_cons, collectParameters, entryOf]
    generalize (param.attribute? "name").getD "" = name
    generalize param.text.getD "" = value
    rw [gatherPairs]
    by_cases hname : name = ""
    · simp [hname]
    · cases before.get? name with
      | none => simp [hname, ih]
      | some existing =>
        by_cases hagree : existing = value
        · simp [hname, hagree, ih]
        · simp [hname, hagree]

/-- An acceptable root gives every function what it needs for a call. -/
theorem IsAcceptable.exists_isCallOf (h : IsAcceptable root) (function : String) :
    ∃ parameters, collectParameters Dictionary.empty (root.childrenNamed "param") =
        .ok parameters ∧ functionParameters parameters = .ok (cleanUp parameters) ∧
      IsCallOf function root
        ⟨function, cleanUp parameters, (root.childrenNamed "data").head?⟩ := by
  obtain ⟨parameters, hparameters⟩ := exists_gatherPairs_iff.mpr
    (show IsConsistent (Dictionary.empty.entries ++ entries root) from h.values)
  have hget := (gatherPairs_empty_eq_ok hparameters).2
  refine ⟨parameters, collectParameters_eq_ok_iff.mpr ⟨h.named, hparameters⟩,
    functionParameters_eq_ok_iff.mpr ⟨?_, rfl⟩, rfl, ?_, rfl⟩
  · intro name value hvalue
    exact h.names (name, value) ((hget name value).mp hvalue)
  · intro name value
    rw [cleanUp_get?_eq_some_iff, hget]

/-- A root makes a call exactly when the function passes and the root is acceptable, and then the
call is the one that it describes. -/
theorem callOf_eq_ok_iff_isCallOf : callOf root function = .ok call ↔
    checkFunctionName function = .ok () ∧ IsAcceptable root ∧ IsCallOf function root call := by
  rw [callOf_eq_ok_iff]
  constructor
  · rintro ⟨hfunction, parameters, accepted, hparameters, haccepted, hdata, rfl⟩
    obtain ⟨hnamed, hpairs⟩ := collectParameters_eq_ok_iff.mp hparameters
    obtain ⟨hconsistent, hget⟩ := gatherPairs_empty_eq_ok hpairs
    obtain ⟨hnames, rfl⟩ := functionParameters_eq_ok_iff.mp haccepted
    simp only [hget] at hnames
    refine ⟨hfunction, ⟨hnamed, hconsistent, fun entry => hnames entry.1 entry.2, hdata⟩, rfl, ?_,
      rfl⟩
    intro name value
    rw [cleanUp_get?_eq_some_iff, hget]
    rfl
  · rintro ⟨hfunction, hacceptable, hcall⟩
    obtain ⟨parameters, hparameters, haccepted, hother⟩ :=
      hacceptable.exists_isCallOf function
    exact ⟨hfunction, parameters, cleanUp parameters, hparameters, haccepted, hacceptable.data,
      hcall.eq hother⟩

/-- Exactly the acceptable `request` roots with the name of a function are calls. -/
theorem convertRoot_eq_ok_iff : convertRoot root = .ok call ↔
    root.localName = "request" ∧ ∃ function,
      Element.nonEmpty (root.attribute? "function") = some function ∧
        checkFunctionName function = .ok () ∧ IsAcceptable root ∧
        IsCallOf function root call := by
  rw [convertRoot]
  by_cases hname : root.localName = "request"
  · rw [if_neg (not_not_intro hname)]
    cases Element.nonEmpty (root.attribute? "function") with
    | none => simp
    | some function => simp [hname, mapError_eq_ok_iff, callOf_eq_ok_iff_isCallOf]
  · simp [hname]

end Document

end RemoteCall
