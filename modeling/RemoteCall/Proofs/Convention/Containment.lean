import RemoteCall.Proofs.Convention.Selection

/-!
# Hooks that misbehave

A hook may end with any error, or break off, at any time. What comes out of it is judged at
once: one that looks at a request and does not say yes has said no, one that converts has a few
errors that are its own, and everything else is a fault of the convention. So whatever the hooks
do, there is an end that the rest of the server expects.
-/

namespace RemoteCall

namespace ManagedConvention

variable {managed : ManagedConvention} {request : Http.Request} {context : RequestContext}

/-! ## Verdicts on hooks -/

/-- What the end of the hook that converts a request comes to. -/
def conversionVerdict (managed : ManagedConvention) :
    HookResult FunctionRequest → Except ConventionError FunctionRequest
  | .returned call =>
    if call.function = "" then .error (.unnamedFunction managed.name) else .ok call
  | .failed e => if isExpected e then .error e else .error (.unexpected managed.name .request e)
  | .brokeOff => .error (.brokeOff managed.name .request)

/-- What the end of the hook that writes a result comes to. -/
def writingVerdict (managed : ManagedConvention) : HookResult Unit → Except ConventionError Unit
  | .returned _ => .ok ()
  | .failed e =>
    if e.kind = .convertResult then .error e else .error (.unexpected managed.name .result e)
  | .brokeOff => .error (.brokeOff managed.name .result)

/-- A call that is kept is handed on, and the hook is not asked again. -/
theorem convert_of_call {call : FunctionRequest} (husable : managed.isUsable = true)
    (hcall : context.call = some call) : managed.convert request context = (.ok call, context) := by
  simp [convert, husable, hcall]

/-- A request that has not been converted yet is converted by the hook. -/
theorem convert_of_isUsable (husable : managed.isUsable = true) (hnew : context.call = none) :
    (managed.convert request context).1 =
      managed.conversionVerdict (managed.convention.convert request context.body).1 := by
  cases hanswer : (managed.convention.convert request context.body).1 with
  | returned call =>
    by_cases hname : call.function = "" <;>
      simp [convert, husable, hnew, hanswer, conversionVerdict, hname]
  | failed e =>
    by_cases hexpected : isExpected e = true <;>
      simp [convert, husable, hnew, hanswer, conversionVerdict, hexpected]
  | brokeOff => simp [convert, husable, hnew, hanswer, conversionVerdict]

/-- A result is written by the hook, into a response that bears the name of the server. -/
theorem write_of_isUsable (husable : managed.isUsable = true) (call : FunctionRequest)
    (response : Http.Response) (result : CallResult) (spec : Option FunctionSpec) :
    managed.write request call response result spec =
      (managed.writingVerdict (managed.convention.write request call result spec
          (response.setHeader "server" serverText)).1,
        (managed.convention.write request call result spec
          (response.setHeader "server" serverText)).2) := by
  cases hanswer : (managed.convention.write request call result spec
      (response.setHeader "server" serverText)).1 with
  | returned value => simp [write, husable, hanswer, writingVerdict]
  | failed e =>
    by_cases hkind : e.kind = .convertResult <;>
      simp [write, husable, hanswer, writingVerdict, hkind]
  | brokeOff => simp [write, husable, hanswer, writingVerdict]

/-- A convention that is not usable converts nothing. -/
theorem convert_of_not_isUsable (h : managed.isUsable = false) :
    managed.convert request context = (.error (.notUsable managed.name), context) := by
  simp [convert, h]

/-- A convention that is not usable writes nothing. -/
theorem write_of_not_isUsable (h : managed.isUsable = false) (call : FunctionRequest)
    (response : Http.Response) (result : CallResult) (spec : Option FunctionSpec) :
    managed.write request call response result spec =
      (.error (.notUsable managed.name), response) := by
  simp [write, h]

/-! ## What comes out of a convention -/

/-- A hook that fails or breaks off has not understood the request. -/
theorem understands_eq_true_iff :
    (managed.understands request context).1 = true ↔
      managed.isUsable = true ∧ managed.takesMethod request = true ∧
        (managed.convention.understands request context.body).1 = .returned true := by
  by_cases hready : (managed.isUsable && managed.takesMethod request) = true
  · obtain ⟨husable, htakes⟩ := Bool.and_eq_true_iff.mp hready
    cases hanswer : (managed.convention.understands request context.body).1 <;>
      simp [understands, husable, htakes, hanswer]
  · have hno : (managed.understands request context).1 = false := by
      simp [understands, hready]
    have hnot : ¬ (managed.isUsable = true ∧ managed.takesMethod request = true) := by
      simpa using hready
    rw [hno]
    constructor
    · intro h
      cases h
    · intro h
      exact absurd ⟨h.1, h.2.1⟩ hnot

/-- Looking at a request does not convert it. -/
theorem call_understands (managed : ManagedConvention) (request : Http.Request)
    (context : RequestContext) : (managed.understands request context).2.call = context.call := by
  simp only [understands]
  split
  · split <;> rfl
  · rfl

/-- The kinds of the errors that the conversion of a request may have. -/
def requestKinds : List ConventionErrorKind :=
  [.invalidRequest, .functionNotSpecified, .convertRequest]

/-- The kinds of the errors that the writing of a result may have. -/
def resultKinds : List ConventionErrorKind := [.convertResult]

/-- The errors that are expected are those of the kinds that a conversion may have. -/
theorem isExpected_eq_true_iff {e : ConventionError} :
    isExpected e = true ↔ e.kind ∈ requestKinds := by
  simp [isExpected, requestKinds, or_assoc]

/-- What is reported of a hook that comes to no value: an error of a kind that is its own, as it
is; any other error, and that it has broken off, as a fault of the convention. -/
inductive Reports {α : Type} (convention : String) (stage : Stage)
    (own : List ConventionErrorKind) : HookResult α → ConventionError → Prop
  | own {e : ConventionError} (h : e.kind ∈ own) : Reports convention stage own (.failed e) e
  | unexpected {e : ConventionError} (h : e.kind ∉ own) :
    Reports convention stage own (.failed e) (.unexpected convention stage e)
  | brokeOff : Reports convention stage own .brokeOff (.brokeOff convention stage)

/-- What is reported is an error that the hook has had, of a kind that is its own, or a fault of
the convention. -/
theorem Reports.failed_or_programming {α : Type} {convention : String} {stage : Stage}
    {own : List ConventionErrorKind} {answer : HookResult α} {e : ConventionError}
    (h : Reports convention stage own answer e) :
    (answer = .failed e ∧ e.kind ∈ own) ∨ e.kind = .programming := by
  cases h with
  | own h => exact Or.inl ⟨rfl, h⟩
  | unexpected => exact Or.inr rfl
  | brokeOff => exact Or.inr rfl

/-- A conversion has an error exactly if the hook comes to no value, or to a call without a
name. -/
theorem conversionVerdict_eq_error_iff {answer : HookResult FunctionRequest}
    {e : ConventionError} :
    managed.conversionVerdict answer = .error e ↔
      Reports managed.name .request requestKinds answer e ∨
        ∃ call, answer = .returned call ∧ call.function = "" ∧
          e = .unnamedFunction managed.name := by
  constructor
  · intro h
    cases answer with
    | returned call =>
      simp only [conversionVerdict] at h
      split at h
      · next hname =>
        cases h
        exact Or.inr ⟨call, rfl, hname, rfl⟩
      · cases h
    | failed cause =>
      simp only [conversionVerdict] at h
      split at h
      · next hexpected =>
        cases h
        exact Or.inl (.own (isExpected_eq_true_iff.mp hexpected))
      · next hexpected =>
        cases h
        exact Or.inl (.unexpected (mt isExpected_eq_true_iff.mpr hexpected))
    | brokeOff =>
      cases h
      exact Or.inl .brokeOff
  · rintro (hreports | ⟨call, rfl, hname, rfl⟩)
    · cases hreports with
      | own h => rw [conversionVerdict, if_pos (isExpected_eq_true_iff.mpr h)]
      | unexpected h => rw [conversionVerdict, if_neg (mt isExpected_eq_true_iff.mp h)]
      | brokeOff => rfl
    · rw [conversionVerdict, if_pos hname]

/-- A conversion comes to a call exactly if the hook does, and names a function in it. -/
theorem conversionVerdict_eq_ok_iff {answer : HookResult FunctionRequest}
    {call : FunctionRequest} :
    managed.conversionVerdict answer = .ok call ↔
      answer = .returned call ∧ call.function ≠ "" := by
  cases answer with
  | returned other =>
    by_cases hname : other.function = ""
    · simp only [conversionVerdict, if_pos hname, reduceCtorEq, HookResult.returned.injEq,
        false_iff, not_and, not_not]
      rintro rfl
      exact hname
    · simp only [conversionVerdict, if_neg hname, Except.ok.injEq, HookResult.returned.injEq]
      constructor
      · rintro rfl
        exact ⟨rfl, hname⟩
      · exact And.left
  | failed cause => by_cases h : isExpected cause = true <;> simp [conversionVerdict, h]
  | brokeOff => simp [conversionVerdict]

/-- The writing of a result has an error exactly if the hook comes to no value. -/
theorem writingVerdict_eq_error_iff {answer : HookResult Unit} {e : ConventionError} :
    managed.writingVerdict answer = .error e ↔
      Reports managed.name .result resultKinds answer e := by
  have hown {e : ConventionError} : e.kind ∈ resultKinds ↔ e.kind = .convertResult :=
    List.mem_singleton
  constructor
  · intro h
    cases answer with
    | returned value => cases h
    | failed cause =>
      simp only [writingVerdict] at h
      split at h
      · next hkind =>
        cases h
        exact .own (hown.mpr hkind)
      · next hkind =>
        cases h
        exact .unexpected (mt hown.mp hkind)
    | brokeOff =>
      cases h
      exact .brokeOff
  · intro hreports
    cases hreports with
    | own h => rw [writingVerdict, if_pos (hown.mp h)]
    | unexpected h => rw [writingVerdict, if_neg (mt hown.mpr h)]
    | brokeOff => rfl

/-- The conversion of a request fails with an expected error of the hook, as it is, or for a
fault of the convention. -/
theorem convert_eq_error {e : ConventionError}
    (h : (managed.convert request context).1 = .error e) :
    ((managed.convention.convert request context.body).1 = .failed e ∧ e.kind ∈ requestKinds) ∨
      e.kind = .programming := by
  cases husable : managed.isUsable with
  | false =>
    rw [convert_of_not_isUsable husable] at h
    cases h
    exact Or.inr rfl
  | true =>
    cases hcall : context.call with
    | some call =>
      rw [convert_of_call husable hcall] at h
      cases h
    | none =>
      rw [convert_of_isUsable husable hcall, conversionVerdict_eq_error_iff] at h
      rcases h with hreports | ⟨call, -, -, rfl⟩
      · exact hreports.failed_or_programming
      · exact Or.inr rfl

/-- The writing of a result fails with an error of the hook that says so, as it is, or for a
fault of the convention. -/
theorem write_eq_error {call : FunctionRequest} {response : Http.Response} {result : CallResult}
    {spec : Option FunctionSpec} {e : ConventionError}
    (h : (managed.write request call response result spec).1 = .error e) :
    ((managed.convention.write request call result spec
        (response.setHeader "server" serverText)).1 = .failed e ∧ e.kind ∈ resultKinds) ∨
      e.kind = .programming := by
  cases husable : managed.isUsable with
  | false =>
    rw [write_of_not_isUsable husable] at h
    cases h
    exact Or.inr rfl
  | true =>
    rw [write_of_isUsable husable, writingVerdict_eq_error_iff] at h
    exact h.failed_or_programming

/-- What is known of a convention, whatever its hooks do with a request. -/
structure IsContained (managed : ManagedConvention) (request : Http.Request)
    (context : RequestContext) : Prop where
  /-- Only a hook that says so has understood the request; one that fails or breaks off has not. -/
  understands : (managed.understands request context).1 = true ↔
    managed.isUsable = true ∧ managed.takesMethod request = true ∧
      (managed.convention.understands request context.body).1 = .returned true
  /-- The request is not converted for a reason that the hook may give, or for a fault of the
  convention. -/
  convert : ∀ e, (managed.convert request context).1 = .error e →
    (managed.convention.convert request context.body).1 = .failed e ∧
        e.kind ∈ [.invalidRequest, .functionNotSpecified, .convertRequest] ∨
      e.kind = .programming
  /-- A request that is new to a convention is converted if the hook has come to a call with a
  name, and in no other case. -/
  convert_ok : managed.isUsable = true → context.call = none → ∀ call,
    (managed.convert request context).1 = .ok call ↔
      (managed.convention.convert request context.body).1 = .returned call ∧ call.function ≠ ""
  /-- A hook that fails or breaks off is always reported: the reasons that it may give as they
  are, any other error and breaking off as a fault of the convention. A call without a name is a
  fault too. -/
  convert_error : managed.isUsable = true → context.call = none → ∀ e,
    (managed.convert request context).1 = .error e ↔
      Reports managed.name .request [.invalidRequest, .functionNotSpecified, .convertRequest]
          (managed.convention.convert request context.body).1 e ∨
        ∃ call, (managed.convention.convert request context.body).1 = .returned call ∧
          call.function = "" ∧ e = .unnamedFunction managed.name
  /-- The result is not written because the hook says so, or for a fault of the convention. -/
  write : ∀ call response result spec e,
    (managed.write request call response result spec).1 = .error e →
      (managed.convention.write request call result spec
          (response.setHeader "server" serverText)).1 = .failed e ∧ e.kind = .convertResult ∨
        e.kind = .programming
  /-- A result is written as the hook has written it, if the hook has come to its end, and in no
  other case. -/
  write_ok : managed.isUsable = true → ∀ call response result spec written,
    managed.write request call response result spec = (.ok (), written) ↔
      managed.convention.write request call result spec
        (response.setHeader "server" serverText) = (.returned (), written)
  /-- A hook that fails or breaks off is always reported, whatever it has written by then: that it
  cannot write the result as it says, any other error and breaking off as a fault of the
  convention. -/
  write_error : managed.isUsable = true → ∀ call response result spec e,
    (managed.write request call response result spec).1 = .error e ↔
      Reports managed.name .result [.convertResult]
        (managed.convention.write request call result spec
          (response.setHeader "server" serverText)).1 e
  /-- A convention that is not in use does nothing. -/
  unusable : managed.isUsable = false →
    (managed.convert request context).1 = .error (.notUsable managed.name) ∧
      ∀ call response result spec, managed.write request call response result spec =
        (.error (.notUsable managed.name), response)

/-- Every convention is contained. -/
theorem isContained (managed : ManagedConvention) (request : Http.Request)
    (context : RequestContext) : managed.IsContained request context where
  understands := understands_eq_true_iff
  convert := fun _ => convert_eq_error
  convert_ok := by
    intro husable hnew call
    rw [convert_of_isUsable husable hnew, conversionVerdict_eq_ok_iff]
  convert_error := by
    intro husable hnew e
    rw [convert_of_isUsable husable hnew, conversionVerdict_eq_error_iff]
    rfl
  write := by
    intro call response result spec e h
    exact (write_eq_error h).imp_left fun ⟨hfailed, hkind⟩ =>
      ⟨hfailed, List.mem_singleton.mp hkind⟩
  write_ok := by
    intro husable call response result spec written
    rw [write_of_isUsable husable]
    rcases managed.convention.write request call result spec
      (response.setHeader "server" serverText) with ⟨answer, left⟩
    cases answer with
    | returned value => simp [writingVerdict]
    | failed e => by_cases hkind : e.kind = .convertResult <;> simp [writingVerdict, hkind]
    | brokeOff => simp [writingVerdict]
  write_error := by
    intro husable call response result spec e
    rw [write_of_isUsable husable, writingVerdict_eq_error_iff]
    rfl
  unusable := by
    intro hunusable
    refine ⟨?_, fun call response result spec => write_of_not_isUsable hunusable ..⟩
    rw [convert_of_not_isUsable hunusable]

end ManagedConvention

/-! ## The convention that is chosen -/

namespace ConventionManager

variable {manager : ConventionManager} {managed : ManagedConvention} {request : Http.Request}

/-- What the search finds is one of the conventions, and it has understood the request. -/
theorem exists_understands_of_firstMatch {conventions : List ManagedConvention}
    {before context : RequestContext}
    (h : firstMatch request conventions before = (some managed, context)) :
    managed ∈ conventions ∧ ∃ kept, managed.understands request kept = (true, context) := by
  induction conventions generalizing before with
  | nil => cases h
  | cons first rest ih =>
    rw [firstMatch] at h
    split at h
    · next hunderstands =>
      cases h
      exact ⟨List.mem_cons_self, before, hunderstands⟩
    · obtain ⟨hmem, hunderstands⟩ := ih h
      exact ⟨List.mem_cons_of_mem _ hmem, hunderstands⟩

/-- Looking at a request for a convention converts nothing. -/
theorem call_firstMatch (request : Http.Request) (conventions : List ManagedConvention)
    (context : RequestContext) :
    (firstMatch request conventions context).2.call = context.call := by
  induction conventions generalizing context with
  | nil => rfl
  | cons first rest ih =>
    have hfirst := first.call_understands request context
    rw [firstMatch]
    split
    · next hunderstands => rwa [hunderstands] at hfirst
    · next hunderstands => rw [ih, ← hfirst, hunderstands]

/-- Choosing a convention converts nothing. -/
theorem call_select (manager : ConventionManager) (request : Http.Request)
    (context : RequestContext) : (manager.select request context).2.call = context.call := by
  simp only [select]
  split
  · simp only [selectNamed]
    split
    · rfl
    · next chosen _ =>
      have hchosen := chosen.call_understands request context
      split
      · next hunderstands => rwa [hunderstands] at hchosen
      · next hunderstands => rwa [hunderstands] at hchosen
  · have hfirst := call_firstMatch request manager.candidates context
    split
    · next hmatch => rwa [hmatch] at hfirst
    · next hmatch => rwa [hmatch] at hfirst

/-- The convention that is chosen is one of those that there are, and it has understood the
request. -/
theorem exists_understands_of_select {before context : RequestContext}
    (h : manager.select request before = (.ok managed, context)) :
    managed ∈ manager.conventions ∧ ∃ kept, managed.understands request kept = (true, context) := by
  simp only [select] at h
  split at h
  · simp only [selectNamed] at h
    split at h
    · cases h
    · next hget =>
      split at h
      · next hunderstands =>
        cases h
        exact ⟨mem_of_get? hget, before, hunderstands⟩
      · cases h
  · split at h
    · next hfirst =>
      cases h
      obtain ⟨hmem, hunderstands⟩ := exists_understands_of_firstMatch hfirst
      exact ⟨mem_of_mem_candidates hmem, hunderstands⟩
    · cases h

end ConventionManager

end RemoteCall
