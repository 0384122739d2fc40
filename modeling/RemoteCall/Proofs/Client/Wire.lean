import RemoteCall.Proofs.Client.Call

/-!
# Pairs that keep up with their call

A call bears the pairs that it puts on the wire beside the parts that they are worked out from.
Every change touches one part and may be refused. However a call has been changed, its pairs
tell its parts as they stand, and nothing of how they came about.
-/

namespace RemoteCall.ClientCall

/-- The parts of a call are acceptable, and its pairs are told by them: the function, the standard
convention, the context if there is one, the parameters by name, and the data section as a
document. -/
structure IsMirrored (call : ClientCall) : Prop where
  function : checkFunctionName call.request.function = .ok ()
  names : ∀ name ∈ call.request.parameters.names, checkParameterName name = .ok ()
  values : ∀ name value, call.request.parameters.get? name = some value → value ≠ ""
  data : ∀ root, call.request.data = some root → root.localName = "data"
  context : call.context ≠ some ""
  ordered : call.request.parameters.names.Pairwise (· < ·)
  wire : call.wire =
    [("_function", call.request.function), ("_convention", "_xins-std")] ++
      (match call.context with
        | some context => [("_context", context)]
        | none => []) ++
      call.request.parameters.entries ++
      (match call.request.data with
        | some root => [("_data", root.toXml)]
        | none => [])

/-- A valid call is told by its pairs. -/
theorem IsValid.isMirrored {call : ClientCall} (h : call.IsValid) : call.IsMirrored where
  function := h.function
  names := by
    intro name hname
    obtain ⟨⟨_, value⟩, hentry, rfl⟩ := List.mem_map.mp hname
    exact (h.parameters _ value (Dictionary.mem_entries_iff.mp hentry)).1
  values := fun name value hget => (h.parameters name value hget).2
  data := by
    intro root hroot
    have hdata := h.data
    rw [hroot] at hdata
    exact localName_of_checkData hdata
  context := h.context
  ordered := List.pairwise_map.mpr call.request.parameters.sorted
  wire := by
    rw [h.wire, heading, dataPairs]
    cases call.context <;> cases call.request.data <;>
      simp [Standard.functionParameter, Standard.name, Standard.dataParameter,
        ConventionManager.conventionParameter, contextParameter]

/-- A change that is refused leaves the whole call as it was, its pairs included. -/
theorem eq_of_change_eq_error {call : ClientCall} {step : Change} {e : RequestError}
    (h : (call.change step).1 = .error e) : (call.change step).2 = call := by
  rcases call.change_cases step with ⟨cause, hchange⟩ | ⟨name, value, -, hchange⟩ |
    ⟨data, -, hchange⟩ | ⟨context, hchange⟩ | ⟨config, hchange⟩
  · rw [hchange]
  all_goals
    rw [hchange] at h
    cases h

/-- The pairs tell nothing but the request and the context. -/
theorem IsMirrored.wire_eq_wire {first second : ClientCall} (hfirst : first.IsMirrored)
    (hsecond : second.IsMirrored) (hrequest : first.request = second.request)
    (hcontext : first.context = second.context) : first.wire = second.wire := by
  rw [hfirst.wire, hsecond.wire, hrequest, hcontext]

/-- **The pairs on the wire always mirror the call**, whatever changes have been tried and
whichever of them have been refused. A change that is refused leaves the whole call as it was, and
two calls that have come to the same request and context by different ways put the same pairs on
the wire. -/
theorem isMirrored_after {function : String} {parameters : Parameters} {data : Option Element}
    {call : ClientCall} (hmake : make function parameters data = .ok call)
    (steps : List Change) :
    (call.after steps).IsMirrored ∧
      (∀ step e, ((call.after steps).change step).1 = .error e →
        ((call.after steps).change step).2 = call.after steps) ∧
      ∀ function' parameters' data' other, make function' parameters' data' = .ok other →
        ∀ steps', (other.after steps').request = (call.after steps).request →
          (other.after steps').context = (call.after steps).context →
            (other.after steps').wire = (call.after steps).wire := by
  have hmirrored := ((isValid_make hmake).after steps).isMirrored
  refine ⟨hmirrored, fun step e herror => eq_of_change_eq_error herror, ?_⟩
  intro function' parameters' data' other hother steps' hrequest hcontext
  have hmirrored' := ((isValid_make hother).after steps').isMirrored
  exact hmirrored'.wire_eq_wire hmirrored hrequest hcontext

/-- A call that loses its first parameter and has two changes refused, and one that comes to the
same by another way. -/
theorem isMirrored_after_greeting :
    ∃ call, make "Greet" (Dictionary.empty.insert "name" "Zoë") none = .ok call ∧
      (call.after [.setParameter "city" (some "Łódź"), .setParameter "function" (some "x"),
        .setContext (some "Ω"), .setData (some (.mk "pet" none [] [] none)),
        .setParameter "name" (some ""), .setData (some (.mk "data" none [] [] none)),
        .setConfig ⟨true, .get⟩]).wire =
          [("_function", "Greet"), ("_convention", "_xins-std"), ("_context", "Ω"),
            ("city", "Łódź"), ("_data", "<data/>")] ∧
      (call.after [.setContext (some "Ω"), .setData (some (.mk "data" none [] [] none)),
        .setParameter "name" none, .setParameter "city" (some "Łódź")]).wire =
          [("_function", "Greet"), ("_convention", "_xins-std"), ("_context", "Ω"),
            ("city", "Łódź"), ("_data", "<data/>")] := by
  let call : ClientCall :=
    rebuild ⟨⟨"Greet", Dictionary.empty.insert "name" "Zoë", none⟩, {}, none, []⟩
  have hmake : make "Greet" (Dictionary.empty.insert "name" "Zoë") none = .ok call := rfl
  have hwritten : (Element.mk "data" none [] [] none).toXml = "<data/>" := by decide +kernel
  obtain ⟨hmirrored, -, hsame⟩ := isMirrored_after hmake [.setParameter "city" (some "Łódź"),
    .setParameter "function" (some "x"), .setContext (some "Ω"),
    .setData (some (.mk "pet" none [] [] none)), .setParameter "name" (some ""),
    .setData (some (.mk "data" none [] [] none)), .setConfig ⟨true, .get⟩]
  have hwire := hmirrored.wire
  change _ = [_, _, _, _, ("_data", (Element.mk "data" none [] [] none).toXml)] at hwire
  rw [hwritten] at hwire
  refine ⟨call, hmake, hwire, ?_⟩
  exact (hsame _ _ _ call hmake _ rfl rfl).trans hwire

end RemoteCall.ClientCall
