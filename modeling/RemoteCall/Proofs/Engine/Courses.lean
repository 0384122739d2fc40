import RemoteCall.Proofs.Convention.Containment
import RemoteCall.Proofs.Engine.Answers

/-!
# Requests and misbehaving hooks

The hooks of a convention may end in any way. A request then ends in one of five ways all the
same, and the way it ends decides the response, the convention that is named, and the outcome
that is counted. What a hook has written before it failed is in no response.
-/

namespace RemoteCall

/-! ## Plain explanations -/

/-- An error always has something to say. -/
theorem ConventionError.message_ne_empty (e : ConventionError) : e.message ≠ "" := by
  unfold message
  cases e <;> simp [toString, String.append_eq_empty_iff]

namespace Http.Response

/-- A response is a plain explanation: its one header field is its type, and its body is the
text. -/
structure IsPlain (response : Response) (status : Status) (detail : String) : Prop where
  status : response.status = status
  headers : response.headers = ⟨[(contentType, "text/plain; charset=UTF-8")]⟩
  body : response.body = detail.toUTF8
  announced : response.announced = none

/-- An explanation in some words is a plain one. -/
theorem isPlain_explained (status : Status) {detail : String} (hdetail : detail ≠ "") :
    (explained status detail).IsPlain status detail := by
  rw [explained, if_neg hdetail]
  refine ⟨rfl, rfl, ?_, rfl⟩
  simp [write, setHeader, empty]

/-- A plain explanation does not bear the name of the server. -/
theorem IsPlain.get?_server {response : Response} {status : Status} {detail : String}
    (h : response.IsPlain status detail) : response.headers.get? "server" = none := by
  rw [h.headers]
  rfl

end Http.Response

namespace Engine

variable {engine : Engine} {request : Http.Request}

/-! ## The ends of requests -/

/-- The convention that is chosen for a request fails with an error: it does not convert the
request, or it does not write the result of the call, or not to its end. -/
inductive Fails (engine : Engine) (request : Http.Request) (managed : ManagedConvention)
    (e : ConventionError) : Prop
  | converting (h : engine.Converts request managed (.error e))
  | writing {call : FunctionRequest} {result : CallResult} {response : Http.Response}
    (h : engine.Converts request managed (.ok call))
    (hresult : engine.api.invoke call = .ok result)
    (hwrite : managed.write request call .empty result (engine.api.spec? call.function) =
      (.error e, response))

/-- The convention that is chosen for a request writes the result of the call. -/
def Answers (engine : Engine) (request : Http.Request) (managed : ManagedConvention)
    (result : CallResult) (response : Http.Response) : Prop :=
  ∃ call, engine.Converts request managed (.ok call) ∧ engine.api.invoke call = .ok result ∧
    managed.write request call .empty result (engine.api.spec? call.function) = (.ok (), response)

/-- The ways in which a request ends, whatever the hooks of the conventions do. -/
inductive Course (engine : Engine) (request : Http.Request) : Handled → Prop
  /-- The methods are asked for. -/
  | options (hmethod : request.method = Http.Method.options) :
    Course engine request ⟨noConvention, .options, engine.answerOptions request⟩
  /-- No convention is chosen. -/
  | unsuitable {fault : RequestFault} {context : RequestContext}
    (hmethod : request.method ≠ Http.Method.options)
    (h : engine.conventions.select request .empty = (.error (.invalidRequest fault), context)) :
    Course engine request (failed noConvention (.invalidRequest fault))
  /-- The convention fails. -/
  | failed {managed : ManagedConvention} {e : ConventionError}
    (hmethod : request.method ≠ Http.Method.options) (h : engine.Fails request managed e) :
    Course engine request (failed managed.name e)
  /-- The function is unknown. -/
  | unknown {managed : ManagedConvention} {call : FunctionRequest}
    (hmethod : request.method ≠ Http.Method.options)
    (h : engine.Converts request managed (.ok call)) (hunknown : engine.IsUnknown call) :
    Course engine request (refused managed.name (.noSuchFunction call.function))
  /-- The result is written. -/
  | answered {managed : ManagedConvention} {result : CallResult} {response : Http.Response}
    (hmethod : request.method ≠ Http.Method.options)
    (h : engine.Answers request managed result response) :
    Course engine request
      ⟨managed.name, if result.isSuccess then .success else .errorCode, response⟩

/-- Every request takes one of the courses. -/
theorem course_dispatch (engine : Engine) (request : Http.Request) :
    engine.Course request (engine.dispatch request) := by
  unfold dispatch
  split
  · next hoptions => exact .options hoptions
  next hmethod =>
  split
  · next e context hselect =>
    obtain ⟨fault, rfl⟩ := ConventionManager.exists_fault_of_select hselect
    exact .unsuitable hmethod hselect
  next managed context hselect =>
  split
  · next e context' hconvert =>
    exact .failed hmethod (.converting ⟨context, hselect, by rw [hconvert]⟩)
  next call context' hconvert =>
  have hconverts : engine.Converts request managed (.ok call) :=
    ⟨context, hselect, by rw [hconvert]⟩
  split
  · next result hresult =>
    unfold finish
    split
    · next e response hwrite => exact .failed hmethod (.writing hconverts hresult hwrite)
    · next response hwrite => exact .answered hmethod ⟨call, hconverts, hresult, hwrite⟩
  · next e hrefused =>
    obtain ⟨hmeta, hget, rfl⟩ := Api.invoke_eq_error_iff.mp hrefused
    exact .unknown hmethod hconverts ⟨hmeta, hget⟩

/-- A request that its convention cannot convert ends with the error of the convention. -/
theorem dispatch_of_fault (hmethod : request.method ≠ Http.Method.options)
    {managed : ManagedConvention} {e : ConventionError}
    (h : engine.Converts request managed (.error e)) :
    engine.dispatch request = failed managed.name e := by
  obtain ⟨context, hselect, hconvert⟩ := h
  rcases hpair : managed.convert request context with ⟨answer, context'⟩
  obtain rfl : answer = .error e := by rw [← hconvert, hpair]
  simp only [dispatch, if_neg hmethod, hselect, hpair]

/-- A call that the API answers goes on to the writing of its result. -/
theorem dispatch_of_result (hmethod : request.method ≠ Http.Method.options)
    {managed : ManagedConvention} {call : FunctionRequest} {result : CallResult}
    (h : engine.Converts request managed (.ok call)) (hresult : engine.api.invoke call = .ok result) :
    engine.dispatch request = engine.finish managed request call result := by
  obtain ⟨context, hselect, hconvert⟩ := h
  rcases hpair : managed.convert request context with ⟨answer, context'⟩
  obtain rfl : answer = .ok call := by rw [← hconvert, hpair]
  simp only [dispatch, if_neg hmethod, hselect, hpair, hresult]

/-- A call of an unknown function ends there, refused. -/
theorem dispatch_of_isUnknown (hmethod : request.method ≠ Http.Method.options)
    {managed : ManagedConvention} {call : FunctionRequest}
    (h : engine.Converts request managed (.ok call)) (hunknown : engine.IsUnknown call) :
    engine.dispatch request = refused managed.name (.noSuchFunction call.function) := by
  obtain ⟨context, hselect, hconvert⟩ := h
  rcases hpair : managed.convert request context with ⟨answer, context'⟩
  obtain rfl : answer = .ok call := by rw [← hconvert, hpair]
  have hrefused := Api.invoke_eq_error_iff.mpr ⟨hunknown.1, hunknown.2, rfl⟩
  simp only [dispatch, if_neg hmethod, hselect, hpair, hrefused]

/-- A request takes one course only. -/
theorem Course.eq_dispatch {handled : Handled} (h : engine.Course request handled) :
    handled = engine.dispatch request := by
  cases h with
  | options hmethod => rw [dispatch, if_pos hmethod]
  | unsuitable hmethod h => simp only [dispatch, if_neg hmethod, h]
  | failed hmethod h =>
    cases h with
    | converting h => rw [dispatch_of_fault hmethod h]
    | writing h hresult hwrite => rw [dispatch_of_result hmethod h hresult, finish, hwrite]
  | unknown hmethod h hunknown => rw [dispatch_of_isUnknown hmethod h hunknown]
  | answered hmethod h =>
    obtain ⟨call, h, hresult, hwrite⟩ := h
    rw [dispatch_of_result hmethod h hresult, finish, hwrite]

/-! ## Outcomes -/

/-- The errors that are a fault of the server: a convention says that it cannot convert, or it
misbehaves. -/
def isServerFault (e : ConventionError) : Bool :=
  e.kind = .convertRequest || e.kind = .convertResult || e.kind = .programming

/-- An error is counted as a failure exactly when it is a fault of the server. -/
theorem outcomeOf_eq (e : ConventionError) :
    outcomeOf e = if isServerFault e then .failure else .invalidRequest := by
  unfold outcomeOf isServerFault ConventionError.status
  cases e.kind <;> rfl

/-- A fault of the server has the status of one. -/
theorem status_of_isServerFault {e : ConventionError} (h : isServerFault e = true) :
    e.status = Http.Status.internalServerError := by
  simp only [isServerFault, Bool.or_eq_true, decide_eq_true_eq] at h
  unfold ConventionError.status
  rcases h with (h | h) | h <;> rw [h]

/-- Any other error has the status of a bad request or of something not found. -/
theorem status_of_not_isServerFault {e : ConventionError} (h : isServerFault e = false) :
    e.status = Http.Status.badRequest ∨ e.status = Http.Status.notFound := by
  unfold isServerFault at h
  unfold ConventionError.status
  cases hkind : e.kind <;> simp_all

/-- What a request must come to for an outcome. -/
def Merits (engine : Engine) (request : Http.Request) : Outcome → Prop
  | .options => request.method = Http.Method.options
  | .success => request.method ≠ Http.Method.options ∧ ∃ managed result response,
      engine.Answers request managed result response ∧ result.isSuccess = true
  | .errorCode => request.method ≠ Http.Method.options ∧ ∃ managed result response,
      engine.Answers request managed result response ∧ result.isSuccess = false
  | .noSuchFunction => request.method ≠ Http.Method.options ∧ ∃ managed call,
      engine.Converts request managed (.ok call) ∧ engine.IsUnknown call
  | .invalidRequest => request.method ≠ Http.Method.options ∧
      ((∃ fault context,
          engine.conventions.select request .empty = (.error (.invalidRequest fault), context)) ∨
        ∃ managed e, engine.Fails request managed e ∧ isServerFault e = false)
  | .failure => request.method ≠ Http.Method.options ∧ ∃ managed e,
      engine.Fails request managed e ∧ isServerFault e = true

/-- However a request ends, it is counted under an outcome that it merits. -/
theorem Course.merits {handled : Handled} (h : engine.Course request handled) :
    engine.Merits request handled.outcome := by
  cases h with
  | options hmethod => exact hmethod
  | unsuitable hmethod h => exact ⟨hmethod, Or.inl ⟨_, _, h⟩⟩
  | @failed managed e hmethod h =>
    rw [Engine.failed, outcomeOf_eq]
    cases hfault : isServerFault e with
    | true => exact ⟨hmethod, managed, e, h, hfault⟩
    | false => exact ⟨hmethod, Or.inr ⟨managed, e, h, hfault⟩⟩
  | unknown hmethod h hunknown => exact ⟨hmethod, _, _, h, hunknown⟩
  | @answered managed result response hmethod h =>
    cases hsuccess : result.isSuccess with
    | true => exact ⟨hmethod, managed, result, response, h, hsuccess⟩
    | false => exact ⟨hmethod, managed, result, response, h, hsuccess⟩

/-- A request has the outcome that it merits. -/
theorem outcome_dispatch_eq_iff {outcome : Outcome} :
    (engine.dispatch request).outcome = outcome ↔ engine.Merits request outcome := by
  constructor
  · rintro rfl
    exact (course_dispatch engine request).merits
  intro h
  cases outcome with
  | options => rw [← (Course.options h).eq_dispatch]
  | success =>
    obtain ⟨hmethod, managed, result, response, hanswers, hsuccess⟩ := h
    rw [← (Course.answered hmethod hanswers).eq_dispatch, hsuccess]
    rfl
  | errorCode =>
    obtain ⟨hmethod, managed, result, response, hanswers, hsuccess⟩ := h
    rw [← (Course.answered hmethod hanswers).eq_dispatch, hsuccess]
    rfl
  | noSuchFunction =>
    obtain ⟨hmethod, managed, call, hconverts, hunknown⟩ := h
    rw [← (Course.unknown hmethod hconverts hunknown).eq_dispatch]
    rfl
  | invalidRequest =>
    obtain ⟨hmethod, ⟨fault, context, hselect⟩ | ⟨managed, e, hfails, hfault⟩⟩ := h
    · rw [← (Course.unsuitable hmethod hselect).eq_dispatch]
      rfl
    · rw [← (Course.failed hmethod hfails).eq_dispatch, Engine.failed, outcomeOf_eq, hfault]
      rfl
  | failure =>
    obtain ⟨hmethod, managed, e, hfails, hfault⟩ := h
    rw [← (Course.failed hmethod hfails).eq_dispatch, Engine.failed, outcomeOf_eq, hfault]
    rfl

/-! ## Plain ends -/

/-- A request that has ended under a convention with the plain explanation of an error. Nothing
that a hook has written is in the response, and the name of the server is not either. -/
structure IsExplained (handled : Handled) (convention : String) (e : ConventionError) :
    Prop where
  convention : handled.convention = convention
  outcome : handled.outcome = if isServerFault e then .failure else .invalidRequest
  response : handled.response.IsPlain e.status e.message
  server : handled.response.headers.get? "server" = none

/-- A failure is explained plainly. -/
theorem isExplained_failed (convention : String) (e : ConventionError) :
    IsExplained (failed convention e) convention e where
  convention := rfl
  outcome := outcomeOf_eq e
  response := Http.Response.isPlain_explained e.status e.message_ne_empty
  server := (Http.Response.isPlain_explained e.status e.message_ne_empty).get?_server

/-- A request that a convention fails on is explained plainly. -/
theorem isExplained_of_fails (hmethod : request.method ≠ Http.Method.options)
    {managed : ManagedConvention} {e : ConventionError} (h : engine.Fails request managed e) :
    IsExplained (engine.dispatch request) managed.name e := by
  rw [← (Course.failed hmethod h).eq_dispatch]
  exact isExplained_failed managed.name e

/-- A convention that has been chosen is in use. -/
theorem isUsable_of_select {managed : ManagedConvention} {context : RequestContext}
    (h : engine.conventions.select request .empty = (.ok managed, context)) :
    managed.isUsable = true := by
  obtain ⟨-, kept, hunderstands⟩ := ConventionManager.exists_understands_of_select h
  have hyes : (managed.understands request kept).1 = true := by rw [hunderstands]
  exact (ManagedConvention.understands_eq_true_iff.mp hyes).1

/-- A hook that fails or breaks off while it converts the request makes the convention fail. -/
theorem fails_of_reports_convert {managed : ManagedConvention} {context : RequestContext}
    {e : ConventionError}
    (hselect : engine.conventions.select request .empty = (.ok managed, context))
    (h : ManagedConvention.Reports managed.name .request ManagedConvention.requestKinds
      (managed.convention.convert request context.body).1 e) : engine.Fails request managed e := by
  have hnew := engine.conventions.call_select request .empty
  rw [hselect] at hnew
  refine .converting ⟨context, hselect, ?_⟩
  rw [ManagedConvention.convert_of_isUsable (isUsable_of_select hselect) hnew]
  exact ManagedConvention.conversionVerdict_eq_error_iff.mpr (Or.inl h)

/-- A hook that fails or breaks off while it writes the result makes the convention fail, whatever
it has written by then. -/
theorem fails_of_reports_write {managed : ManagedConvention} {call : FunctionRequest}
    {result : CallResult} {e : ConventionError}
    (hconverts : engine.Converts request managed (.ok call))
    (hresult : engine.api.invoke call = .ok result)
    (h : ManagedConvention.Reports managed.name .result ManagedConvention.resultKinds
      (managed.convention.write request call result (engine.api.spec? call.function)
        (Http.Response.empty.setHeader "server" ManagedConvention.serverText)).1 e) :
    engine.Fails request managed e := by
  have husable : managed.isUsable = true := by
    obtain ⟨context, hselect, -⟩ := hconverts
    exact isUsable_of_select hselect
  have hwrite := @ManagedConvention.write_of_isUsable managed request husable call .empty result
    (engine.api.spec? call.function)
  rw [ManagedConvention.writingVerdict_eq_error_iff.mpr h] at hwrite
  exact .writing hconverts hresult hwrite

/-- What is reported of a hook that writes is a fault of the server. -/
theorem isServerFault_of_reports {convention : String} {answer : HookResult Unit}
    {e : ConventionError}
    (h : ManagedConvention.Reports convention .result ManagedConvention.resultKinds answer e) :
    isServerFault e = true := by
  rcases h.failed_or_programming with ⟨-, hkind⟩ | hkind
  · simp [isServerFault, List.mem_singleton.mp hkind]
  · simp [isServerFault, hkind]

/-- What is known of a request, whatever the hooks of the conventions do with it. -/
structure IsContained (engine : Engine) (request : Http.Request) : Prop where
  /-- The end of every hook comes to one that is expected of it. -/
  hooks : ∀ managed ∈ engine.conventions.conventions, ∀ context,
    managed.IsContained request context
  /-- Only a convention whose hook has understood the request is chosen. -/
  chosen : ∀ managed context,
    engine.conventions.select request .empty = (.ok managed, context) →
      managed ∈ engine.conventions.conventions ∧
        ∃ kept, (managed.convention.understands request kept).1 = .returned true
  course : engine.Course request (engine.dispatch request)
  /-- If the convention fails, the answer is the plain explanation of its error, also if a hook
  has written something by then. -/
  failed : request.method ≠ Http.Method.options → ∀ managed e, engine.Fails request managed e →
    IsExplained (engine.dispatch request) managed.name e
  /-- If the hook of the chosen convention fails or breaks off while it converts the request, the
  answer is the plain explanation of what is reported of it. -/
  unconverted : request.method ≠ Http.Method.options → ∀ managed context,
    engine.conventions.select request .empty = (.ok managed, context) → ∀ e,
    ManagedConvention.Reports managed.name .request
        [.invalidRequest, .functionNotSpecified, .convertRequest]
        (managed.convention.convert request context.body).1 e →
      IsExplained (engine.dispatch request) managed.name e
  /-- If the hook fails or breaks off while it writes the result of the call, the answer is the
  plain explanation of what is reported of it, and not what it has written by then. It counts as
  a failure. -/
  unwritten : request.method ≠ Http.Method.options → ∀ managed call result,
    engine.Converts request managed (.ok call) → engine.api.invoke call = .ok result →
    ∀ answer written, managed.convention.write request call result
        (engine.api.spec? call.function)
        (Http.Response.empty.setHeader "server" ManagedConvention.serverText) =
          (answer, written) → ∀ e,
    ManagedConvention.Reports managed.name .result [.convertResult] answer e →
      IsExplained (engine.dispatch request) managed.name e ∧
        (engine.dispatch request).outcome = .failure
  outcome : ∀ outcome, (engine.dispatch request).outcome = outcome ↔ engine.Merits request outcome
  /-- A failure is told from a request at fault by the status. -/
  failure_status : (engine.dispatch request).outcome = .failure →
    (engine.dispatch request).response.status = Http.Status.internalServerError
  invalidRequest_status : (engine.dispatch request).outcome = .invalidRequest →
    (engine.dispatch request).response.status ∈ [Http.Status.badRequest, Http.Status.notFound]

/-- **A request comes to an end, whatever the hooks do with it.** -/
theorem isContained (engine : Engine) (request : Http.Request) : engine.IsContained request where
  hooks := fun managed _ context => managed.isContained request context
  chosen := by
    intro managed context hselect
    obtain ⟨hmem, kept, hunderstands⟩ :=
      ConventionManager.exists_understands_of_select hselect
    have hyes : (managed.understands request kept).1 = true := by rw [hunderstands]
    exact ⟨hmem, kept.body, (ManagedConvention.understands_eq_true_iff.mp hyes).2.2⟩
  course := course_dispatch engine request
  failed := fun hmethod _ _ => isExplained_of_fails hmethod
  unconverted := fun hmethod _ _ hselect _ hreports =>
    isExplained_of_fails hmethod (fails_of_reports_convert hselect hreports)
  unwritten := by
    intro hmethod managed call result hconverts hresult answer written hwrite e hreports
    have hfails : engine.Fails request managed e :=
      fails_of_reports_write hconverts hresult (by rwa [hwrite])
    have hexplained := isExplained_of_fails hmethod hfails
    refine ⟨hexplained, ?_⟩
    rw [hexplained.outcome, isServerFault_of_reports hreports, if_pos rfl]
  outcome := fun _ => outcome_dispatch_eq_iff
  failure_status := by
    intro houtcome
    obtain ⟨hmethod, managed, e, hfails, hfault⟩ := outcome_dispatch_eq_iff.mp houtcome
    rw [(isExplained_of_fails hmethod hfails).response.status]
    exact status_of_isServerFault hfault
  invalidRequest_status := by
    intro houtcome
    obtain ⟨hmethod, ⟨fault, context, hselect⟩ | ⟨managed, e, hfails, hfault⟩⟩ :=
      outcome_dispatch_eq_iff.mp houtcome
    · rw [← (Course.unsuitable hmethod hselect).eq_dispatch,
        (isExplained_failed _ _).response.status]
      exact List.mem_cons_self
    · rw [(isExplained_of_fails hmethod hfails).response.status]
      rcases status_of_not_isServerFault hfault with hstatus | hstatus <;> simp [hstatus]

end Engine

end RemoteCall
