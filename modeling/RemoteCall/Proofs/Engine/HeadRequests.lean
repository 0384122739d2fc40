import RemoteCall.Demo
import RemoteCall.Proofs.Convention.Containment
import RemoteCall.Proofs.Engine.Answers

/-!
# Answers without their bodies

`HEAD` asks what `GET` would answer, without the body. Both questions take the same way through
the engine, up to the writing of the result, where the one announces the length of what the
other writes. Every other answer tells the length of the body that it has.
-/

namespace RemoteCall

namespace Http

/-- The request with another method. -/
def Request.withMethod (request : Request) (method : Method) : Request :=
  { request with method := method }

/-- Only a `POST` has parameters in its body, so both questions have those of the query. -/
theorem Request.pairs_head (request : Request) :
    (request.withMethod Method.head).pairs = (request.withMethod Method.get).pairs := by
  have hhead : (request.withMethod Method.head).bodyPairs = [] := by
    simp [bodyPairs, withMethod, Method.head, Method.post]
  have hget : (request.withMethod Method.get).bodyPairs = [] := by
    simp [bodyPairs, withMethod, Method.get, Method.post]
  rw [pairs, pairs, hhead, hget]
  rfl

/-! ## Lengths -/

/-- A header field that has been set is found with its value, if all its characters may stand in
one. -/
theorem Headers.get?_insert_self {headers : Headers} {name value : String}
    (hvalue : value.toList.all isVisible = true) :
    (headers.insert name value).get? name = some value := by
  have hothers : (headers.fields.filter fun field => field.1 ≠ lowerCase name).lookup
      (lowerCase name) = none := by
    rw [List.lookup_eq_none_iff]
    intro field hfield
    have hne : field.1 ≠ lowerCase name := of_decide_eq_true (List.mem_filter.mp hfield).2
    exact bne_iff_ne.mpr hne.symm
  rw [get?, insert, List.lookup_append, hothers]
  simp [hvalue]

/-- A number may stand in a header field. -/
theorem isVisible_naturalText (value : Nat) :
    (Text.naturalText value).toList.all isVisible = true := by
  rw [Text.naturalText, String.toList_ofList, List.all_eq_true]
  intro c hc
  have hdigit : '0' ≤ c ∧ c ≤ '9' := by
    simpa [Char.isDigit, Char.le_def] using
      Nat.isDigit_of_mem_toDigits (by decide) (by decide) hc
  have hlow : ' ' ≤ c := Char.le_trans (by decide) hdigit.1
  have hhigh : c ≤ '~' := Char.le_trans hdigit.2 (by decide)
  simp [isVisible, hlow, hhigh]

namespace Response

/-- The answer tells the length of its body. -/
def IsTruthful (response : Response) : Prop :=
  response.headers.get? contentLength = some (Text.naturalText response.body.size)

/-- The answer is the other one without the body, whose length it tells. -/
structure IsHeadOf (head whole : Response) : Prop where
  status : head.status = whole.status
  headers : head.headers = whole.headers
  body : head.body = ByteArray.empty
  length : head.headers.get? contentLength = some (Text.naturalText whole.body.size)

/-- Nothing has been written or announced. -/
structure IsBlank (response : Response) : Prop where
  body : response.body = ByteArray.empty
  announced : response.announced = none

/-- What the response announces is the length of its body. -/
def IsWhole (response : Response) : Prop :=
  response.length = response.body.size

/-- One response announces the length of what the other one has written. -/
structure Measures (head whole : Response) : Prop where
  status : head.status = whole.status
  headers : head.headers = whole.headers
  length : head.length = whole.length
  whole : whole.IsWhole

/-- The empty response is blank. -/
theorem isBlank_empty : empty.IsBlank := ⟨rfl, rfl⟩

/-- Setting a header field leaves a blank response blank. -/
theorem IsBlank.setHeader {response : Response} (h : response.IsBlank) (name value : String) :
    (response.setHeader name value).IsBlank :=
  ⟨h.body, h.announced⟩

/-- Where nothing is announced, the length is that of the body. -/
theorem isWhole_of_announced {response : Response} (h : response.announced = none) :
    response.IsWhole := by
  rw [IsWhole, length, h, Option.getD_none]

/-- An explanation announces nothing, so its length is that of its text. -/
theorem isWhole_explained (status : Status) (detail : String) :
    (explained status detail).IsWhole := by
  refine isWhole_of_announced ?_
  unfold explained
  split <;> rfl

/-- A response that has been written in full has the length that it tells. -/
theorem Measures.refl {response : Response} (h : response.IsWhole) :
    response.Measures response :=
  ⟨rfl, rfl, rfl, h⟩

/-- What is sent tells the length that was written or announced. -/
theorem get?_contentLength_sent (response : Response) (method : Method) :
    (response.sent method).headers.get? contentLength =
      some (Text.naturalText response.length) :=
  Headers.get?_insert_self (isVisible_naturalText response.length)

/-- An answer with a body is sent with it. -/
theorem IsWhole.isTruthful_sent {response : Response} (h : response.IsWhole) {method : Method}
    (hmethod : method ≠ Method.head) : (response.sent method).IsTruthful := by
  have hbody : (response.sent method).body = response.body := by
    simp [sent, hmethod]
  rw [IsTruthful, hbody, get?_contentLength_sent, h]

/-- An answer that announces the length of another is the head of that one. -/
theorem Measures.isHeadOf_sent {head whole : Response} (h : head.Measures whole) :
    (head.sent Method.head).IsHeadOf (whole.sent Method.get) where
  status := h.status
  headers := by
    have hlength : head.length = whole.length := h.length
    simp only [sent, setHeader, h.headers, hlength]
  body := by simp [sent]
  length := by
    have hbody : (whole.sent Method.get).body = whole.body := by
      simp [sent, Method.get, Method.head]
    rw [hbody, get?_contentLength_sent, h.length, h.whole]

end Response

end Http

/-! ## Conventions -/

/-- The convention looks at the head of an answer as at the answer, and announces the length of
what it would write. In answers to other questions it announces nothing. -/
structure Convention.MirrorsHead (convention : Convention) : Prop where
  methods : ∀ request : Http.Request,
    (convention.methods (request.withMethod Http.Method.head)).contains Http.Method.head =
      (convention.methods (request.withMethod Http.Method.get)).contains Http.Method.get
  understands : ∀ (request : Http.Request) kept,
    convention.understands (request.withMethod Http.Method.head) kept =
      convention.understands (request.withMethod Http.Method.get) kept
  convert : ∀ (request : Http.Request) kept,
    convention.convert (request.withMethod Http.Method.head) kept =
      convention.convert (request.withMethod Http.Method.get) kept
  write : ∀ (request : Http.Request) call result spec (response : Http.Response),
    response.IsBlank → ∃ outcome head whole,
      convention.write (request.withMethod Http.Method.head) call result spec response =
        (outcome, head) ∧
      convention.write (request.withMethod Http.Method.get) call result spec response =
        (outcome, whole) ∧ head.Measures whole
  whole : ∀ (request : Http.Request) call result spec (response : Http.Response),
    response.IsBlank → request.method ≠ Http.Method.head →
      (convention.write request call result spec response).2.IsWhole

namespace Standard

/-- In answer to anything but a question for the head, a document is written in full. -/
theorem isWhole_writeBody {request : Http.Request} {response : Http.Response}
    (hblank : response.IsBlank) (hmethod : request.method ≠ Http.Method.head)
    (type text : String) : (writeBody request type text response).IsWhole := by
  refine Http.Response.isWhole_of_announced ?_
  rw [writeBody, if_neg hmethod]
  exact hblank.announced

/-- What is announced of a text is the number of bytes that it is written with. -/
theorem measures_writeBody {response : Http.Response} (hblank : response.IsBlank)
    (request : Http.Request) (type text : String) :
    (writeBody (request.withMethod Http.Method.head) type text response).Measures
      (writeBody (request.withMethod Http.Method.get) type text response) := by
  have hget : (request.withMethod Http.Method.get).method ≠ Http.Method.head := by
    simp [Http.Request.withMethod, Http.Method.get, Http.Method.head]
  have hhead : (request.withMethod Http.Method.head).method = Http.Method.head := rfl
  have hwhole := isWhole_writeBody hblank hget type text
  have hbody : (writeBody (request.withMethod Http.Method.get) type text response).body =
      text.toUTF8 := by
    rw [writeBody, if_neg hget]
    simp [Http.Response.write, Http.Response.setHeader, hblank.body]
  refine ⟨?_, ?_, ?_, hwhole⟩
  · simp [writeBody, hhead, hget]
  · simp [writeBody, hhead, hget, Http.Response.write, Http.Response.announce]
  · rw [hwhole, hbody, writeBody, if_pos hhead]
    rfl

/-- The standard convention answers a question for the head in keeping with the whole answer. -/
theorem mirrorsHead : convention.MirrorsHead where
  methods := fun _ => rfl
  understands := by
    intro request kept
    simp only [convention, understands, Http.Request.parameter?, Http.Request.pairs_head]
  convert := by
    intro request kept
    simp only [convention, convert, gatherParameters, Http.Request.pairs_head]
  write := fun request call result spec response hblank =>
    ⟨_, _, _, rfl, rfl, measures_writeBody hblank request documentType (result.toXml spec)⟩
  whole := fun request call result spec response hblank hmethod =>
    isWhole_writeBody hblank hmethod documentType (result.toXml spec)

end Standard

namespace Document

/-- The convention for documents takes no question for the head, as it takes none for the whole
answer. -/
theorem mirrorsHead : convention.MirrorsHead where
  methods := fun _ => rfl
  understands := fun _ _ => rfl
  convert := fun _ _ => rfl
  write := Standard.mirrorsHead.write
  whole := Standard.mirrorsHead.whole

end Document

namespace Script

/-- The callback is read from the query, whatever the method. -/
theorem callback?_head (request : Http.Request) :
    callback? (request.withMethod Http.Method.head) =
      callback? (request.withMethod Http.Method.get) := rfl

/-- The convention for scripts answers a question for the head in keeping with the whole answer. -/
theorem mirrorsHead : convention.MirrorsHead where
  methods := fun _ => rfl
  understands := fun request kept => rfl
  convert := by
    intro request kept
    simp only [convention, convert, callOf, gatherParameters, Http.Request.pairs_head,
      callback?_head]
    rfl
  write := by
    intro request call result spec response hblank
    simp only [convention, write, callback?_head]
    cases callback? (request.withMethod Http.Method.get) with
    | error fault =>
      exact ⟨_, _, _, rfl, rfl, .refl (Http.Response.isWhole_of_announced hblank.announced)⟩
    | ok callback =>
      exact ⟨_, _, _, rfl, rfl, Standard.measures_writeBody hblank request _ _⟩
  whole := by
    intro request call result spec response hblank hmethod
    simp only [convention, write]
    cases callback? request with
    | error fault => exact Http.Response.isWhole_of_announced hblank.announced
    | ok callback => exact Standard.isWhole_writeBody hblank hmethod _ _

end Script

/-- All conventions of the library answer questions for the head in keeping with the whole answer.
-/
theorem Convention.mirrorsHead_of_builtIn {convention : Convention} (h : convention ∈ builtIn) :
    convention.MirrorsHead := by
  simp only [builtIn, List.mem_cons, List.not_mem_nil, or_false] at h
  rcases h with rfl | rfl | rfl
  · exact Standard.mirrorsHead
  · exact Document.mirrorsHead
  · exact Script.mirrorsHead

/-! ## The way through the engine -/

namespace ManagedConvention

variable {managed : ManagedConvention}

/-- A convention in its state of life takes both questions or neither. -/
theorem takesMethod_head (h : managed.convention.MirrorsHead) (request : Http.Request) :
    managed.takesMethod (request.withMethod Http.Method.head) =
      managed.takesMethod (request.withMethod Http.Method.get) := by
  have hmethods := h.methods request
  simp only [takesMethod, methods, Http.Request.withMethod] at hmethods ⊢
  rw [hmethods]
  rfl

/-- A convention in its state of life sees no difference between both questions when it looks at
them. -/
theorem understands_head (h : managed.convention.MirrorsHead) (request : Http.Request)
    (context : RequestContext) :
    managed.understands (request.withMethod Http.Method.head) context =
      managed.understands (request.withMethod Http.Method.get) context := by
  simp only [understands, takesMethod_head h, h.understands]

/-- A convention in its state of life makes the same call of both questions. -/
theorem convert_head (h : managed.convention.MirrorsHead) (request : Http.Request)
    (context : RequestContext) :
    managed.convert (request.withMethod Http.Method.head) context =
      managed.convert (request.withMethod Http.Method.get) context := by
  simp only [convert, h.convert]

/-- The result is written for both questions or for none. -/
theorem exists_write_head (h : managed.convention.MirrorsHead) (request : Http.Request)
    (call : FunctionRequest) {response : Http.Response} (hblank : response.IsBlank)
    (result : CallResult) (spec : Option FunctionSpec) :
    ∃ outcome head whole,
      managed.write (request.withMethod Http.Method.head) call response result spec =
        (outcome, head) ∧
      managed.write (request.withMethod Http.Method.get) call response result spec =
        (outcome, whole) ∧ head.Measures whole := by
  cases husable : managed.isUsable with
  | false =>
    have hwhole := Http.Response.isWhole_of_announced hblank.announced
    exact ⟨_, _, _, write_of_not_isUsable husable .., write_of_not_isUsable husable ..,
      .refl hwhole⟩
  | true =>
    obtain ⟨answer, head, whole, hhead, hwhole, hmeasures⟩ :=
      h.write request call result spec _ (hblank.setHeader "server" serverText)
    refine ⟨managed.writingVerdict answer, head, whole, ?_, ?_, hmeasures⟩
    · rw [write_of_isUsable husable, hhead]
    · rw [write_of_isUsable husable, hwhole]

/-- A convention in its state of life writes its answers in full, unless it is asked for the head.
-/
theorem isWhole_write (h : managed.convention.MirrorsHead) {request : Http.Request}
    (hmethod : request.method ≠ Http.Method.head) (call : FunctionRequest)
    {response : Http.Response} (hblank : response.IsBlank) (result : CallResult)
    (spec : Option FunctionSpec) :
    (managed.write request call response result spec).2.IsWhole := by
  cases husable : managed.isUsable with
  | false =>
    rw [write_of_not_isUsable husable]
    exact Http.Response.isWhole_of_announced hblank.announced
  | true =>
    rw [write_of_isUsable husable]
    exact h.whole request call result spec _ (hblank.setHeader "server" serverText) hmethod

end ManagedConvention

namespace ConventionManager

variable {manager : ConventionManager} {request : Http.Request}

/-- The search finds the same convention for both questions, and leaves the same beside them. -/
theorem firstMatch_head {conventions : List ManagedConvention}
    (h : ∀ managed ∈ conventions, managed.convention.MirrorsHead) (context : RequestContext) :
    firstMatch (request.withMethod Http.Method.head) conventions context =
      firstMatch (request.withMethod Http.Method.get) conventions context := by
  induction conventions generalizing context with
  | nil => rfl
  | cons first rest ih =>
    obtain ⟨hfirst, hrest⟩ := List.forall_mem_cons.mp h
    simp only [firstMatch, ManagedConvention.understands_head hfirst, ih hrest]

/-- The same convention is chosen for both questions. -/
theorem select_head (h : ∀ managed ∈ manager.conventions, managed.convention.MirrorsHead)
    (context : RequestContext) :
    manager.select (request.withMethod Http.Method.head) context =
      manager.select (request.withMethod Http.Method.get) context := by
  have hcandidates : ∀ managed ∈ manager.candidates, managed.convention.MirrorsHead :=
    fun managed hmem => h managed (mem_of_mem_candidates hmem)
  have hnamed (name : String) :
      manager.selectNamed name (request.withMethod Http.Method.head) context =
        manager.selectNamed name (request.withMethod Http.Method.get) context := by
    simp only [selectNamed]
    split
    · rfl
    · next managed hget =>
      rw [ManagedConvention.understands_head (h managed (mem_of_get? hget))]
  simp only [select, Http.Request.parameter?, Http.Request.pairs_head, hnamed,
    firstMatch_head hcandidates]

end ConventionManager

namespace Engine

variable {engine : Engine}

/-- Both questions end in the same way, and the one tells what the other writes. -/
theorem measures_dispatch
    (h : ∀ managed ∈ engine.conventions.conventions, managed.convention.MirrorsHead)
    (request : Http.Request) :
    (engine.dispatch (request.withMethod Http.Method.head)).response.Measures
      (engine.dispatch (request.withMethod Http.Method.get)).response := by
  have hhead : (request.withMethod Http.Method.head).method ≠ Http.Method.options := by
    simp [Http.Request.withMethod, Http.Method.head, Http.Method.options]
  have hget : (request.withMethod Http.Method.get).method ≠ Http.Method.options := by
    simp [Http.Request.withMethod, Http.Method.get, Http.Method.options]
  simp only [dispatch, if_neg hhead, if_neg hget, ConventionManager.select_head h]
  rcases hselect : engine.conventions.select (request.withMethod Http.Method.get) .empty with
    ⟨e | managed, context⟩
  · exact .refl (Http.Response.isWhole_explained ..)
  have hmirrors := h managed (ConventionManager.exists_understands_of_select hselect).1
  simp only [ManagedConvention.convert_head hmirrors]
  rcases managed.convert (request.withMethod Http.Method.get) context with ⟨e | call, context'⟩
  · exact .refl (Http.Response.isWhole_explained ..)
  dsimp only
  cases hinvoke : engine.api.invoke call with
  | error e =>
    cases e with
    | _ => exact .refl (Http.Response.isWhole_explained ..)
  | ok result =>
    obtain ⟨outcome, head, whole, hwritten, hwritten', hmeasures⟩ :=
      ManagedConvention.exists_write_head hmirrors request call Http.Response.isBlank_empty result
        (engine.api.spec? call.function)
    simp only [finish, hwritten, hwritten']
    cases outcome with
    | error e => exact .refl (Http.Response.isWhole_explained ..)
    | ok value => exact hmeasures

/-- An answer to any other question announces its own length. -/
theorem isWhole_dispatch
    (h : ∀ managed ∈ engine.conventions.conventions, managed.convention.MirrorsHead)
    {request : Http.Request} (hmethod : request.method ≠ Http.Method.head) :
    (engine.dispatch request).response.IsWhole := by
  unfold dispatch
  split
  · rfl
  split
  · exact Http.Response.isWhole_explained ..
  next managed context hselect =>
  split
  · exact Http.Response.isWhole_explained ..
  next call context' hconvert =>
  split
  · next result hresult =>
    have hwhole := ManagedConvention.isWhole_write
      (h managed (ConventionManager.exists_understands_of_select hselect).1) hmethod call
      Http.Response.isBlank_empty result (engine.api.spec? call.function)
    unfold finish
    split
    · exact Http.Response.isWhole_explained ..
    · next hwritten =>
      rw [hwritten] at hwhole
      exact hwhole
  · next e hrefused =>
    cases e with
    | _ => exact Http.Response.isWhole_explained ..

/-- **`HEAD` is answered as `GET` is, without the body**, by any of the conventions that there
are, usable or not, and over any functions: with the same status, the same header fields, and
the length of the body that is left out. Every other answer tells its own length. -/
theorem isHeadOf_handle (hbuiltIn : engine.conventions.IsBuiltIn) (request : Http.Request) :
    ((engine.handle (request.withMethod Http.Method.head)).2.sent Http.Method.head).IsHeadOf
      ((engine.handle (request.withMethod Http.Method.get)).2.sent Http.Method.get) ∧
    ∀ method, method ≠ Http.Method.head →
      ((engine.handle (request.withMethod method)).2.sent method).IsTruthful := by
  have hmirrors : ∀ managed ∈ engine.conventions.conventions, managed.convention.MirrorsHead :=
    fun managed hmem => Convention.mirrorsHead_of_builtIn (hbuiltIn managed hmem)
  refine ⟨(measures_dispatch hmirrors request).isHeadOf_sent, fun method hmethod => ?_⟩
  have hmethod' : (request.withMethod method).method ≠ Http.Method.head := hmethod
  exact (isWhole_dispatch hmirrors hmethod').isTruthful_sent hmethod

/-- An engine with all conventions, and one function that repeats a text. -/
def echoing : Engine :=
  ⟨(Api.ofName "echo").after [.register Demo.echo],
    .ofConventions Convention.builtIn Standard.name, none⟩

/-- A request that it answers. -/
def echoRequest : Http.Request :=
  Http.Request.ofTarget Http.Method.get "/?_function=Echo&text=hi"

/-- Asked for the head of an echo, the engine tells the 84 bytes that it does not send. -/
theorem isHeadOf_handle_echo :
    ((echoing.handle (echoRequest.withMethod Http.Method.head)).2.sent
        Http.Method.head).IsHeadOf
      ((echoing.handle (echoRequest.withMethod Http.Method.get)).2.sent Http.Method.get) ∧
    ((echoing.handle (echoRequest.withMethod Http.Method.get)).2.sent
      Http.Method.get).body.size = 84 := by
  have hbuiltIn : echoing.conventions.IsBuiltIn := by
    intro managed hmem
    obtain ⟨convention, hbuiltIn, rfl⟩ := List.mem_map.mp hmem
    exact hbuiltIn
  refine ⟨(isHeadOf_handle hbuiltIn echoRequest).1, ?_⟩
  decide +kernel

end Engine

end RemoteCall
