import RemoteCall.Proofs.Api.Invocation
import RemoteCall.Proofs.Convention.Selection
import RemoteCall.Server

/-!
# Answers of the engine

The conventions that there are agree with themselves: what one of them understands it can
convert, but for faults of the request, and what it has converted it can write the result of. So
a request is answered, or it is at fault, or its function is unknown. The server is never at
fault, whatever its functions do, and also when its conventions have been shut down.
-/

namespace RemoteCall

/-! ## Writing results -/

namespace Http.Response

/-- Setting a header field leaves the status alone. -/
@[simp] theorem status_setHeader (response : Response) (name value : String) :
    (response.setHeader name value).status = response.status := rfl

/-- Writing a body leaves the status alone. -/
@[simp] theorem status_write (response : Response) (text : String) :
    (response.write text).status = response.status := rfl

/-- Announcing a length leaves the status alone. -/
@[simp] theorem status_announce (response : Response) (length : Nat) :
    (response.announce length).status = response.status := rfl

/-- An explanation has the status it is given. -/
@[simp] theorem status_explained (status : Status) (detail : String) :
    (explained status detail).status = status := by
  unfold explained
  split <;> simp

end Http.Response

/-- Writing or announcing a document leaves the status alone. -/
@[simp] theorem Standard.status_writeBody (request : Http.Request) (type text : String)
    (response : Http.Response) :
    (writeBody request type text response).status = response.status := by
  unfold writeBody
  split <;> simp

/-- The callback has been accepted together with the request. -/
theorem Script.exists_callback_of_convert {request : Http.Request} {call : FunctionRequest}
    (h : convert request = .ok call) : ∃ callback, callback? request = .ok callback := by
  simp only [convert] at h
  split at h
  · cases h
  · obtain ⟨-, callback, -, -, -, hcallback, -⟩ := callOf_eq_ok_iff.mp (mapError_eq_ok_iff.mp h)
    exact ⟨callback, hcallback⟩

/-- The hook of a convention writes any result of a call that it has returned, and leaves the
status alone. -/
theorem Convention.exists_write {convention : Convention} (h : convention ∈ builtIn)
    {request : Http.Request} {kept : Option Element} {call : FunctionRequest}
    (hreturned : (convention.convert request kept).1 = .returned call) (result : CallResult)
    (spec : Option FunctionSpec) (response : Http.Response) :
    ∃ written, convention.write request call result spec response = (.returned (), written) ∧
      written.status = response.status := by
  simp only [builtIn, List.mem_cons, List.not_mem_nil, or_false] at h
  rcases h with rfl | rfl | rfl
  · exact ⟨_, rfl, Standard.status_writeBody ..⟩
  · exact ⟨_, rfl, Standard.status_writeBody ..⟩
  · obtain ⟨callback, hcallback⟩ :=
      Script.exists_callback_of_convert (HookResult.ofExcept_eq_returned_iff.mp hreturned)
    simp only [Script.convention, Script.write, hcallback]
    exact ⟨_, rfl, Standard.status_writeBody ..⟩

/-- A chosen convention writes any result of a call that it has converted. -/
theorem ManagedConvention.IsChosen.exists_write {managed : ManagedConvention}
    {request : Http.Request} {context : RequestContext} (h : managed.IsChosen request context)
    {call : FunctionRequest} (hconvert : (managed.convert request context).1 = .ok call)
    (result : CallResult) (spec : Option FunctionSpec) (response : Http.Response) :
    ∃ written, managed.write request call response result spec = (.ok (), written) ∧
      written.status = response.status := by
  obtain ⟨written, hwrite, hstatus⟩ := Convention.exists_write h.builtIn
    (returned_of_convert h.fits.call hconvert) result spec
    (response.setHeader "server" serverText)
  exact ⟨written, by simp [write, h.usable, hwrite], by simpa using hstatus⟩

/-! ## How requests end -/

namespace Engine

variable {engine : Engine} {request : Http.Request}

/-- What the convention that is chosen for a request converts it to. -/
def Converts (engine : Engine) (request : Http.Request) (managed : ManagedConvention)
    (outcome : Except ConventionError FunctionRequest) : Prop :=
  ∃ context, engine.conventions.select request .empty = (.ok managed, context) ∧
    (managed.convert request context).1 = outcome

/-- The function of a call is unknown: it is neither a meta function nor registered. -/
def IsUnknown (engine : Engine) (call : FunctionRequest) : Prop :=
  isMetaFunction call.function = false ∧ engine.api.functions.get? call.function = none

/-- The ends of requests of which none is a fault of the server. -/
inductive Ends (engine : Engine) (request : Http.Request) : Handled → Prop
  /-- The methods are asked for. -/
  | options (h : request.method = Http.Method.options) :
    Ends engine request ⟨noConvention, .options, engine.answerOptions request⟩
  /-- There is no convention for the request. -/
  | unsuitable {fault : RequestFault} {context : RequestContext}
    (h : engine.conventions.select request .empty = (.error (.invalidRequest fault), context)) :
    Ends engine request (failed noConvention (.invalidRequest fault))
  /-- The request is at fault. -/
  | invalid {managed : ManagedConvention} {fault : RequestFault}
    (h : engine.Converts request managed (.error (.invalidRequest fault))) :
    Ends engine request (failed managed.name (.invalidRequest fault))
  /-- A document names no function. -/
  | unnamed {managed : ManagedConvention}
    (h : engine.Converts request managed (.error .functionNotSpecified))
    (hdocument : managed.convention = Document.convention)
    (hlacks : Document.LacksFunction request) :
    Ends engine request (failed managed.name .functionNotSpecified)
  /-- The function is unknown. -/
  | unknown {managed : ManagedConvention} {call : FunctionRequest}
    (h : engine.Converts request managed (.ok call)) (hunknown : engine.IsUnknown call) :
    Ends engine request (refused managed.name (.noSuchFunction call.function))
  /-- The function has answered, and its answer has been written. -/
  | answered {managed : ManagedConvention} {call : FunctionRequest} {result : CallResult}
    {response : Http.Response} (h : engine.Converts request managed (.ok call))
    (hresult : engine.api.invoke call = .ok result)
    (hwrite : managed.write request call .empty result (engine.api.spec? call.function) =
      (.ok (), response))
    (hstatus : response.status = Http.Status.ok) :
    Ends engine request
      ⟨managed.name, if result.isSuccess then .success else .errorCode, response⟩

/-- There is no function for a request: it is for an unknown one, or it is a document that names
none. -/
def LacksFunction (engine : Engine) (request : Http.Request) : Prop :=
  (∃ managed call, engine.Converts request managed (.ok call) ∧ engine.IsUnknown call) ∨
    ∃ managed, engine.Converts request managed (.error .functionNotSpecified) ∧
      managed.convention = Document.convention ∧ Document.LacksFunction request

/-- The convention that is chosen converts a request, or the request is at fault. -/
theorem convert_eq_error (hbuiltIn : engine.conventions.IsBuiltIn) {managed : ManagedConvention}
    {e : ConventionError} (h : engine.Converts request managed (.error e)) :
    (∃ fault, e = .invalidRequest fault) ∨ (e = .functionNotSpecified ∧
      managed.convention = Document.convention ∧ Document.LacksFunction request) := by
  obtain ⟨context, hselect, hconvert⟩ := h
  rcases (ConventionManager.isChosen_of_select hbuiltIn hselect).convert_cases with
    ⟨call, hcall, -⟩ | ⟨fault, hfault⟩ | ⟨hmissing, hdocument, hlacks⟩
  · rw [hcall] at hconvert
    cases hconvert
  · rw [hfault] at hconvert
    cases hconvert
    exact Or.inl ⟨fault, rfl⟩
  · rw [hmissing] at hconvert
    cases hconvert
    exact Or.inr ⟨rfl, hdocument, hlacks⟩

/-- The convention that is chosen writes any result of the call that it converts a request to. -/
theorem exists_write (hbuiltIn : engine.conventions.IsBuiltIn) {managed : ManagedConvention}
    {call : FunctionRequest} (h : engine.Converts request managed (.ok call))
    (result : CallResult) (spec : Option FunctionSpec) :
    ∃ response, managed.write request call .empty result spec = (.ok (), response) ∧
      response.status = Http.Status.ok := by
  obtain ⟨context, hselect, hconvert⟩ := h
  exact (ConventionManager.isChosen_of_select hbuiltIn hselect).exists_write hconvert result spec
    .empty

/-- Every step of a request leads on to the next one, or to an end without a fault of the
server. -/
theorem ends_dispatch (hbuiltIn : engine.conventions.IsBuiltIn) (request : Http.Request) :
    engine.Ends request (engine.dispatch request) := by
  unfold dispatch
  split
  · next hoptions => exact .options hoptions
  split
  · next e context hselect =>
    obtain ⟨fault, rfl⟩ := ConventionManager.exists_fault_of_select hselect
    exact .unsuitable hselect
  next managed context hselect =>
  split
  · next e context' hconvert =>
    have hconverts : engine.Converts request managed (.error e) :=
      ⟨context, hselect, by rw [hconvert]⟩
    rcases convert_eq_error hbuiltIn hconverts with ⟨fault, rfl⟩ | ⟨rfl, hdocument, hlacks⟩
    · exact .invalid hconverts
    · exact .unnamed hconverts hdocument hlacks
  next call context' hconvert =>
  have hconverts : engine.Converts request managed (.ok call) :=
    ⟨context, hselect, by rw [hconvert]⟩
  split
  · next result hresult =>
    obtain ⟨response, hwrite, hstatus⟩ :=
      exists_write hbuiltIn hconverts result (engine.api.spec? call.function)
    simp only [finish, hwrite]
    exact .answered hconverts hresult hwrite hstatus
  · next e hrefused =>
    obtain ⟨hmeta, hget, rfl⟩ := Api.invoke_eq_error_iff.mp hrefused
    exact .unknown hconverts ⟨hmeta, hget⟩

/-- A request that failed is answered with the status of its error. -/
@[simp] theorem status_failed (convention : String) (e : ConventionError) :
    (failed convention e).response.status = e.status :=
  Http.Response.status_explained ..

/-- A call of an unknown function is answered as not found. -/
@[simp] theorem status_refused (convention name : String) :
    (refused convention (.noSuchFunction name)).response.status = Http.Status.notFound :=
  Http.Response.status_explained ..

/-- The statuses of the ends: the request is answered, or at fault, or there is no function
for it. -/
theorem Ends.status_cases {handled : Handled} (h : engine.Ends request handled) :
    handled.response.status = Http.Status.ok ∨ handled.response.status = Http.Status.badRequest ∨
      handled.response.status = Http.Status.notFound ∧ engine.LacksFunction request := by
  cases h with
  | options h => exact Or.inl rfl
  | unsuitable h => exact Or.inr (Or.inl (status_failed ..))
  | invalid h => exact Or.inr (Or.inl (status_failed ..))
  | unnamed h hdocument hlacks =>
    exact Or.inr (Or.inr ⟨status_failed .., Or.inr ⟨_, h, hdocument, hlacks⟩⟩)
  | unknown h hunknown =>
    exact Or.inr (Or.inr ⟨status_refused .., Or.inl ⟨_, _, h, hunknown⟩⟩)
  | answered h hresult hwrite hstatus => exact Or.inl hstatus

/-- What is known of a request that a server handles without being at fault. -/
structure IsSettled (engine : Engine) (request : Http.Request) : Prop where
  /-- No step fails for a fault of the server. -/
  ends : engine.Ends request (engine.dispatch request)
  status : (engine.handle request).2.status ∈
    [Http.Status.ok, Http.Status.badRequest, Http.Status.notFound]
  notFound : (engine.handle request).2.status = Http.Status.notFound →
    engine.LacksFunction request
  /-- A request that is understood names a function, unless it is a document. -/
  named : ∀ managed, engine.Converts request managed (.error .functionNotSpecified) →
    managed.convention = Document.convention ∧ Document.LacksFunction request
  /-- Every result of a call can be written, whatever the function declares. -/
  written : ∀ managed call, engine.Converts request managed (.ok call) → ∀ result spec,
    ∃ response, managed.write request call .empty result spec = (.ok (), response) ∧
      response.status = Http.Status.ok

/-- An engine with no conventions but those of the library settles every request. -/
theorem isSettled_of_isBuiltIn (hbuiltIn : engine.conventions.IsBuiltIn)
    (request : Http.Request) : engine.IsSettled request where
  ends := ends_dispatch hbuiltIn request
  status := by
    rcases (ends_dispatch hbuiltIn request).status_cases with hok | hfault | ⟨hmissing, -⟩
    · simp [handle, hok]
    · simp [handle, hfault]
    · simp [handle, hmissing]
  notFound := by
    intro hstatus
    rcases (ends_dispatch hbuiltIn request).status_cases with hok | hfault | ⟨-, hlacks⟩
    · cases hok.symm.trans hstatus
    · cases hfault.symm.trans hstatus
    · exact hlacks
  named := by
    intro managed hconverts
    rcases convert_eq_error hbuiltIn hconverts with ⟨fault, hfault⟩ | ⟨-, hdocument, hlacks⟩
    · cases hfault
    · exact ⟨hdocument, hlacks⟩
  written := fun managed call hconverts => exists_write hbuiltIn hconverts

/-- **A configured server is never at fault**: it answers every request, finds the request at
fault, or does not know the function, whether or not its conventions have been shut down. -/
theorem isSettled_ofConfig (config : Config) (api : Api) (metrics : Option Metrics)
    (request : Http.Request) :
    (ofConfig config api metrics).IsSettled request ∧
      IsSettled ⟨api, (ConventionManager.ofConfig config).shutDown, metrics⟩ request := by
  have hbuiltIn := ConventionManager.isBuiltIn_ofConfig config
  exact ⟨isSettled_of_isBuiltIn hbuiltIn request,
    isSettled_of_isBuiltIn hbuiltIn.shutDown request⟩

end Engine

end RemoteCall
