import RemoteCall.Client.Call
import RemoteCall.Proofs.Convention.Parameters

/-!
# Changes of a call

A call changes while it is put together; a change that is refused leaves it as it was.
Whatever the changes, its names are acceptable, none of its parameters is empty, its data
section is one, and the pairs that it puts on the wire are those of the call as it stands. They
have distinct names.
-/

namespace RemoteCall

namespace ClientCall

/-- A change of a call. -/
inductive Change where
  | setParameter (name : String) (value : Option String)
  | setData (data : Option Element)
  | setContext (context : Option String)
  | setConfig (config : CallConfig)

/-- Tries a change. Gives the outcome, and the call as it is afterwards. -/
def change (call : ClientCall) : Change → Except RequestError Unit × ClientCall
  | .setParameter name value => call.setParameter name value
  | .setData data => call.setData data
  | .setContext context => (.ok (), call.setContext context)
  | .setConfig config => (.ok (), call.setConfig config)

/-- The call after a change has been tried. -/
def attempt (call : ClientCall) (step : Change) : ClientCall :=
  (call.change step).2

/-- The call after changes, one by one. -/
def after (call : ClientCall) (steps : List Change) : ClientCall :=
  steps.foldl attempt call

/-- A call can be made exactly when its function, all its parameter names and its data section pass
their checks. Empty values are dropped after the names have been checked. -/
theorem make_eq_ok_iff {function : String} {parameters : Parameters} {data : Option Element}
    {call : ClientCall} :
    make function parameters data = .ok call ↔
      checkFunctionName function = .ok () ∧ checkParameterNames parameters = .ok () ∧
        checkData data = .ok () ∧ call = rebuild
          ⟨⟨function, parameters.filter (fun _ value => value ≠ ""), data⟩, {}, none, []⟩ := by
  simp only [make]
  constructor
  · intro h
    split at h
    · cases h
    · next hfunction =>
      split at h
      · cases h
      · next hnames =>
        split at h
        · cases h
        · next hdata =>
          cases h
          exact ⟨hfunction, hnames, hdata, rfl⟩
  · rintro ⟨hfunction, hnames, hdata, rfl⟩
    rw [hfunction, hnames, hdata]

/-- A data section that passes its check is an element named data. -/
theorem localName_of_checkData {root : Element} (h : checkData (some root) = .ok ()) :
    root.localName = "data" := by
  simp only [checkData] at h
  split at h
  · assumption
  · cases h

/-- All that a change can do: it is refused and leaves the call, or it is accepted and changes
what it is about. Only a change of the configuration leaves the pairs as they are. -/
theorem change_cases (call : ClientCall) (step : Change) :
    (∃ e, call.change step = (.error e, call)) ∨
      (∃ (name : String) (value : Option String), checkParameterName name = .ok () ∧
        call.change step = (.ok (), rebuild { call with request := { call.request with
          parameters := match value.filter (· ≠ "") with
            | some value => call.request.parameters.insert name value
            | none => call.request.parameters.erase name } })) ∨
      (∃ data, checkData data = .ok () ∧ call.change step =
        (.ok (), rebuild { call with request := { call.request with data := data } })) ∨
      (∃ context, call.change step = (.ok (), call.setContext context)) ∨
      ∃ config, call.change step = (.ok (), call.setConfig config) := by
  cases step with
  | setParameter name value =>
    cases hname : checkParameterName name with
    | error e =>
      left
      exact ⟨e, by simp only [change, setParameter, hname]⟩
    | ok _ =>
      right
      left
      refine ⟨name, value, hname, ?_⟩
      cases hset : value.filter (· ≠ "") <;> simp only [change, setParameter, hname, hset]
  | setData data =>
    cases hdata : checkData data with
    | error e =>
      left
      exact ⟨e, by simp only [change, setData, hdata]⟩
    | ok _ =>
      right
      right
      left
      exact ⟨data, hdata, by simp only [change, setData, hdata]⟩
  | setContext context => exact Or.inr (Or.inr (Or.inr (Or.inl ⟨context, rfl⟩)))
  | setConfig config => exact Or.inr (Or.inr (Or.inr (Or.inr ⟨config, rfl⟩)))

/-! ## Calls that changes lead to -/

/-- The pairs of the framework that stand before the parameters. -/
def heading (call : ClientCall) : List (String × String) :=
  (Standard.functionParameter, call.request.function) ::
    (ConventionManager.conventionParameter, Standard.name) ::
    (call.context.map fun context => (contextParameter, context)).toList

/-- The pairs of the framework that stand behind the parameters. -/
def dataPairs (call : ClientCall) : List (String × String) :=
  (call.request.data.map fun data => (Standard.dataParameter, data.toXml)).toList

/-- What holds of every call: its names are acceptable, no parameter and no context is empty,
the data section is one, and the pairs are those of the call as it stands. -/
structure IsValid (call : ClientCall) : Prop where
  function : checkFunctionName call.request.function = .ok ()
  parameters : ∀ name value, call.request.parameters.get? name = some value →
    checkParameterName name = .ok () ∧ value ≠ ""
  data : checkData call.request.data = .ok ()
  context : call.context ≠ some ""
  wire : call.wire = call.heading ++ (call.request.parameters.entries ++ call.dataPairs)

/-- Pairs that have been worked out anew are those of the call, whatever stood there before. -/
theorem wire_rebuild (call : ClientCall) :
    call.rebuild.wire =
      call.rebuild.heading ++ (call.rebuild.request.parameters.entries ++
        call.rebuild.dataPairs) := by
  simp [rebuild, heading, dataPairs]

/-- Every call that can be made is valid. -/
theorem isValid_make {function : String} {parameters : Parameters} {data : Option Element}
    {call : ClientCall} (hmake : make function parameters data = .ok call) : call.IsValid := by
  obtain ⟨hfunction, hnames, hdata, rfl⟩ := make_eq_ok_iff.mp hmake
  refine ⟨hfunction, fun name value hget => ?_, hdata, by simp [rebuild], wire_rebuild _⟩
  have hkept : (parameters.filter fun _ value => value ≠ "").get? name = some value := hget
  rw [Dictionary.get?_filter, Option.filter_eq_some_iff] at hkept
  exact ⟨checkParameterNames_eq_ok_iff.mp hnames name value hkept.1, by simpa using hkept.2⟩

/-- A change keeps a call valid, whether or not it is refused. -/
theorem IsValid.attempt {call : ClientCall} (h : call.IsValid) (step : Change) :
    (call.attempt step).IsValid := by
  rw [ClientCall.attempt]
  rcases call.change_cases step with ⟨e, hchange⟩ | ⟨name, value, hname, hchange⟩ |
    ⟨data, hdata, hchange⟩ | ⟨context, hchange⟩ | ⟨config, hchange⟩
  · rw [hchange]
    exact h
  · rw [hchange]
    refine ⟨h.function, fun other found hget => ?_, h.data, h.context, wire_rebuild _⟩
    cases hvalue : value.filter (· ≠ "") with
    | none =>
      simp only [rebuild, hvalue, Dictionary.get?_erase] at hget
      split at hget
      · cases hget
      · exact h.parameters other found hget
    | some value =>
      simp only [rebuild, hvalue, Dictionary.get?_insert] at hget
      split at hget
      · next heq =>
        cases hget
        exact ⟨heq ▸ hname, by simpa using (Option.filter_eq_some_iff.mp hvalue).2⟩
      · exact h.parameters other found hget
  · rw [hchange]
    exact ⟨h.function, h.parameters, hdata, h.context, wire_rebuild _⟩
  · rw [hchange]
    refine ⟨h.function, h.parameters, h.data, fun hempty => ?_, wire_rebuild _⟩
    have hfilter : context.filter (· ≠ "") = some "" := hempty
    simpa using (Option.filter_eq_some_iff.mp hfilter).2
  · rw [hchange]
    exact ⟨h.function, h.parameters, h.data, h.context, h.wire⟩

/-- Whatever changes have been tried, a call is valid. -/
theorem IsValid.after {call : ClientCall} (h : call.IsValid) (steps : List Change) :
    (call.after steps).IsValid := by
  induction steps generalizing call with
  | nil => exact h
  | cons step steps ih => exact ih (h.attempt step)

/-! ## The pairs on the wire -/

/-- Every pair beside the parameters has a name of the framework. -/
theorem head?_of_mem_frame {call : ClientCall} {pair : String × String}
    (h : pair ∈ call.heading ++ call.dataPairs) : pair.1.toList.head? = some '_' := by
  obtain ⟨request, config, context, wire⟩ := call
  simp only [heading, dataPairs, List.cons_append, List.mem_cons, List.mem_append,
    Option.mem_toList, Option.map_eq_some_iff] at h
  have hnames : ∀ name ∈ [Standard.functionParameter, ConventionManager.conventionParameter,
      contextParameter, Standard.dataParameter], name.toList.head? = some '_' := by decide
  rcases h with rfl | rfl | ⟨context, -, rfl⟩ | ⟨data, -, rfl⟩
  · exact hnames Standard.functionParameter (by simp)
  · exact hnames ConventionManager.conventionParameter (by simp)
  · exact hnames contextParameter (by simp)
  · exact hnames Standard.dataParameter (by simp)

/-- What stands under a name that is none of the framework is a parameter. -/
theorem IsValid.lookup_wire {call : ClientCall} (h : call.IsValid) {name : String}
    (hname : name.toList.head? ≠ some '_') :
    call.wire.lookup name = call.request.parameters.get? name := by
  have hframe : ∀ pair ∈ call.heading ++ call.dataPairs, (name != pair.1) = true := by
    intro pair hpair
    rw [bne_iff_ne]
    rintro rfl
    exact hname (head?_of_mem_frame hpair)
  obtain ⟨hheading, hdata⟩ := List.forall_mem_append.mp hframe
  rw [h.wire, List.lookup_append, List.lookup_append, List.lookup_eq_none_iff.mpr hheading,
    List.lookup_eq_none_iff.mpr hdata, Dictionary.lookup_entries, Option.none_or, Option.or_none]

/-- The pairs of a valid call tell its function. -/
theorem IsValid.lookup_wire_function {call : ClientCall} (h : call.IsValid) :
    call.wire.lookup Standard.functionParameter = some call.request.function := by
  rw [h.wire]
  rfl

/-- The pairs of a valid call ask for the standard convention. -/
theorem IsValid.lookup_wire_convention {call : ClientCall} (h : call.IsValid) :
    call.wire.lookup ConventionManager.conventionParameter = some Standard.name := by
  rw [h.wire]
  rfl

/-- No parameter has a name of the framework. -/
theorem IsValid.get?_eq_none {call : ClientCall} (h : call.IsValid) {name : String}
    (hname : name.toList.head? = some '_') : call.request.parameters.get? name = none := by
  rw [Option.eq_none_iff_forall_ne_some]
  intro value hget
  exact (name_of_checkParameterName (h.parameters name value hget).1).2.2 hname

/-- The pairs of a valid call tell its data section as a document, and have none if the call has
none. -/
theorem IsValid.lookup_wire_data {call : ClientCall} (h : call.IsValid) :
    call.wire.lookup Standard.dataParameter = call.request.data.map Element.toXml := by
  have hheading : call.heading.lookup Standard.dataParameter = none := by
    rw [heading]
    cases call.context <;> rfl
  have hparameters : call.request.parameters.get? Standard.dataParameter = none :=
    h.get?_eq_none rfl
  have hdata : call.dataPairs.lookup Standard.dataParameter =
      call.request.data.map Element.toXml := by
    rw [dataPairs]
    cases call.request.data with
    | none => rfl
    | some data => simp
  rw [h.wire, List.lookup_append, List.lookup_append, hheading, Dictionary.lookup_entries,
    hparameters, Option.none_or, Option.none_or, hdata]

/-- No name stands on the wire twice. -/
theorem IsValid.nodup_wire {call : ClientCall} (h : call.IsValid) :
    (call.wire.map Prod.fst).Nodup := by
  have hheading : call.heading.Pairwise fun first second => first.1 ≠ second.1 := by
    rw [heading]
    cases call.context <;> simp [Standard.functionParameter,
      ConventionManager.conventionParameter, contextParameter]
  have hdata : call.dataPairs.Pairwise fun first second => first.1 ≠ second.1 := by
    rw [dataPairs]
    cases call.request.data <;> simp
  have hends : ∀ pair ∈ call.heading, ∀ last ∈ call.dataPairs, pair.1 ≠ last.1 := by
    rw [heading, dataPairs]
    cases call.context <;> cases call.request.data <;> simp [Standard.functionParameter,
      ConventionManager.conventionParameter, contextParameter, Standard.dataParameter]
  have hframe : ∀ pair ∈ call.heading ++ call.dataPairs,
      ∀ entry ∈ call.request.parameters.entries, pair.1 ≠ entry.1 := by
    intro pair hpair entry hentry heq
    have hget := h.get?_eq_none (head?_of_mem_frame hpair)
    rw [heq, Dictionary.mem_entries_iff.mp hentry] at hget
    cases hget
  obtain ⟨hbefore, hbehind⟩ := List.forall_mem_append.mp hframe
  rw [List.Nodup, List.pairwise_map, h.wire, List.pairwise_append, List.pairwise_append]
  refine ⟨hheading, ⟨call.request.parameters.pairwise_entries, hdata, ?_⟩, ?_⟩
  · exact fun entry hentry pair hpair heq => hbehind pair hpair entry hentry heq.symm
  · intro pair hpair other hother
    rcases List.mem_append.mp hother with hentry | hlast
    · exact hbefore pair hpair other hentry
    · exact hends pair hpair other hlast

end ClientCall

end RemoteCall
