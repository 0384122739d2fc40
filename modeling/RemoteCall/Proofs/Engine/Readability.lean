import RemoteCall.Config.Reader
import RemoteCall.Proofs.Convention.Legality
import RemoteCall.Proofs.Engine.HeadRequests

/-!
# Answers that can be read

The standard and the document convention answer with a document. Its names are those that the
API declares, and its values come from the request. What a document of the sender holds, a
document of the server can hold as well. But a character that is percent-encoded is written as
it is, whether or not a document may hold it, and then what is written is not a document.
-/

namespace RemoteCall

open Xml (isXmlText)

/-! ## The demonstration -/

namespace Xml

/-- A text put together of two is legal when both are. -/
theorem isXmlText_append (first second : String) :
    isXmlText (first ++ second) = (isXmlText first && isXmlText second) := by
  rw [isXmlText, String.toList_append, List.all_append]
  rfl

/-- What may stand in a header field may stand in a document. -/
theorem isXmlChar_of_isVisible {c : Char} (h : Http.isVisible c = true) : isXmlChar c = true := by
  rcases Bool.or_eq_true_iff.mp h with htab | hvisible
  · simp_all [isXmlChar]
  · obtain ⟨hlow, hhigh⟩ := Bool.and_eq_true_iff.mp hvisible
    have hbound : c.toNat ≤ 126 := of_decide_eq_true hhigh
    have hprintable : ¬ c < ' ' := Char.not_lt.mpr (of_decide_eq_true hlow)
    rw [isXmlChar, if_neg hprintable, Bool.and_eq_true, bne_iff_ne, bne_iff_ne]
    omega

/-- A natural number is written in legal characters. -/
theorem isXmlText_naturalText (value : Nat) : isXmlText (Text.naturalText value) = true := by
  rw [isXmlText, List.all_eq_true]
  intro c hc
  exact isXmlChar_of_isVisible (List.all_eq_true.mp (Http.isVisible_naturalText value) c hc)

/-- An integer is written in legal characters, with its sign. -/
theorem isXmlText_integerText (value : Int) : isXmlText (Text.integerText value) = true := by
  unfold Text.integerText
  split
  · rw [isXmlText_append, isXmlText_naturalText]
    rfl
  · exact isXmlText_naturalText _

end Xml

namespace Demo

/-- The echo hands on what it is given. -/
theorem isTame_echo : echo.IsTame where
  name := by decide
  input := by decide
  combos := by decide
  output := by decide
  run := by
    intro call
    have hescaped : ∀ name, CallResult.isRaw (some echo.spec) name = false :=
      CallResult.isRaw_of_output (by decide)
    refine ⟨_, rfl, (CallResult.isShaped_success hescaped).setParameter (by decide) _, fun h => ?_⟩
    refine CallResult.holdsLegal_success.setParameter _ ?_
    cases htext : call.parameters.get? "text" with
    | none => rfl
    | some text => exact h "text" text htext

/-- The addition answers with numbers and fixed codes. -/
theorem isTame_add : add.IsTame where
  name := by decide
  input := by decide
  combos := by decide
  output := by decide
  run := by
    intro call
    have hescaped : ∀ name, CallResult.isRaw (some add.spec) name = false :=
      CallResult.isRaw_of_output (by decide)
    by_cases hfits : fits (operand call "a" + operand call "b") = true
    · refine ⟨_, if_pos hfits, (CallResult.isShaped_success hescaped).setParameter (by decide) _,
        fun _ => ?_⟩
      exact CallResult.holdsLegal_success.setParameter _ (Xml.isXmlText_integerText _)
    · exact ⟨_, if_neg hfits, CallResult.isShaped_error hescaped (by decide),
        fun _ => CallResult.holdsLegal_error _⟩

/-- The greeting puts what it is given between fixed words. -/
theorem isTame_greet : greet.IsTame where
  name := by decide
  input := by decide
  combos := by decide
  output := by decide
  run := by
    intro call
    have hescaped : ∀ name, CallResult.isRaw (some greet.spec) name = false :=
      CallResult.isRaw_of_output (by decide)
    refine ⟨_, rfl, (CallResult.isShaped_success hescaped).setParameter (by decide) _, fun h => ?_⟩
    have hwho : isXmlText (((call.parameters.get? "name").or
        (call.parameters.get? "nickname")).getD "stranger") = true := by
      cases hname : (call.parameters.get? "name").or (call.parameters.get? "nickname") with
      | none => decide
      | some who =>
        rcases Option.or_eq_some_iff.mp hname with hget | ⟨-, hget⟩
        · exact h "name" who hget
        · exact h "nickname" who hget
    refine CallResult.holdsLegal_success.setParameter _ ?_
    simp only [toString, Xml.isXmlText_append, hwho]
    decide

/-- The demo API is tame under every name. -/
theorem isTame_of_api {name : String} {demo : Api} (h : api name = .ok demo) :
    demo.IsTame ∧ demo.name = name := by
  refine (Api.isTame_ofName name).registerAll (fun function hmem => ?_) h
  simp only [List.mem_cons, List.not_mem_nil, or_false] at hmem
  rcases hmem with rfl | rfl | rfl
  · exact isTame_echo
  · exact isTame_add
  · exact isTame_greet

/-- A configuration with nothing but what must be there. -/
def config : Config where
  listenAddresses := ["127.0.0.1:8080"]
  apiName := "demo"
  timeouts := ⟨30, 60⟩
  metrics := ⟨false, "127.0.0.1:9090"⟩
  defaultConvention := none
  conventions := none
  maxBodySize := none
  shutdownTimeout := none

/-- What the configuration is written as. -/
def configText : String :=
  "listen_addrs: [\"127.0.0.1:8080\"]\napi_name: demo\n" ++
    "timeouts:\n  request_read: 30\n  idle: 60\n" ++
    "metrics:\n  enabled: false\n  address: \"127.0.0.1:9090\"\n"

/-- The configuration that is used here is one that can be read. -/
theorem parse_configText : Config.parse configText = .ok config := by
  have h : (Config.parse configText).toOption = some config := by decide +kernel
  cases hparse : Config.parse configText with
  | error e =>
    rw [hparse] at h
    cases h
  | ok parsed =>
    rw [hparse] at h
    cases h
    rfl

/-- The demonstration as it is configured. -/
def configured : Api :=
  (Api.ofName config.apiName).after [.register echo, .register add, .register greet]

/-- The demo API can be built under the configured name. -/
theorem api_configured : api config.apiName = .ok configured := rfl

end Demo

/-! ## Documents -/

/-- The conventions that answer with documents, by their names. -/
theorem Convention.document_cases {convention : Convention} (h : convention ∈ builtIn)
    (hname : convention.name = Standard.name ∨ convention.name = Document.name) :
    convention = Standard.convention ∨ convention = Document.convention := by
  simp only [builtIn, List.mem_cons, List.not_mem_nil, or_false] at h
  rcases h with rfl | rfl | rfl
  · exact Or.inl rfl
  · exact Or.inr rfl
  · exact absurd hname (by decide)

/-- What such a convention writes is the document, or nothing at all. -/
theorem ManagedConvention.body_of_write {managed : ManagedConvention}
    (hdocument : managed.convention = Standard.convention ∨
      managed.convention = Document.convention) {request : Http.Request} {call : FunctionRequest}
    {result : CallResult} {spec : Option FunctionSpec} {response : Http.Response}
    (hwrite : managed.write request call .empty result spec = (.ok (), response))
    (hbody : response.body ≠ ByteArray.empty) : response.body = (result.toXml spec).toUTF8 := by
  have hhook : ∀ blank, managed.convention.write request call result spec blank =
      (.returned (), Standard.writeDocument request result spec blank) := by
    rcases hdocument with h | h <;>
    · rw [h]
      exact fun _ => rfl
  cases husable : managed.isUsable with
  | false =>
    rw [write_of_not_isUsable husable] at hwrite
    cases hwrite
  | true =>
    rw [write_of_isUsable husable, hhook] at hwrite
    cases hwrite
    unfold Standard.writeDocument Standard.writeBody at hbody ⊢
    split at hbody
    · exact absurd rfl hbody
    · next hmethod =>
      rw [if_neg hmethod]
      simp [Http.Response.write, Http.Response.setHeader, Http.Response.empty]

/-- The body can be read as a result. -/
def Http.Response.IsReadable (response : Response) : Prop :=
  ∃ parsed, CallResult.parse response.body = .ok parsed

namespace Engine

variable {engine : Engine} {request : Http.Request}

/-- A request is answered with a document: the standard or the document convention has handled
it, and there is something in the body. -/
structure AnswersDocument (engine : Engine) (request : Http.Request) : Prop where
  convention : (engine.dispatch request).convention = Standard.name ∨
    (engine.dispatch request).convention = Document.name
  status : (engine.handle request).2.status = Http.Status.ok
  body : (engine.handle request).2.body ≠ ByteArray.empty

/-- The document is what is written of the result of a call. -/
theorem AnswersDocument.exists_result (h : engine.AnswersDocument request)
    (hbuiltIn : engine.conventions.IsBuiltIn) :
    ∃ managed call result, engine.Converts request managed (.ok call) ∧
      engine.api.invoke call = .ok result ∧
      (engine.dispatch request).convention = managed.name ∧
      (engine.handle request).2.body =
        (result.toXml (engine.api.spec? call.function)).toUTF8 := by
  obtain ⟨hconvention, hstatus, hbody⟩ := h
  have hends := ends_dispatch hbuiltIn request
  simp only [handle] at hstatus hbody ⊢
  generalize engine.dispatch request = handled at *
  cases hends with
  | options | unsuitable =>
    have hnone : ¬ (noConvention = Standard.name ∨ noConvention = Document.name) := by decide
    exact absurd hconvention hnone
  | invalid | unnamed =>
    rw [status_failed] at hstatus
    cases hstatus
  | unknown =>
    rw [status_refused] at hstatus
    cases hstatus
  | @answered managed call result response h hresult hwrite =>
    refine ⟨managed, call, result, h, hresult, rfl, ?_⟩
    obtain ⟨context, hselect, -⟩ := h
    have hchosen := ConventionManager.isChosen_of_select hbuiltIn hselect
    exact managed.body_of_write (Convention.document_cases hchosen.builtIn hconvention) hwrite hbody

/-- A call has legal values if a document brings it, or if the pairs of the request have. -/
theorem holdsLegal_of_converts (hbuiltIn : engine.conventions.IsBuiltIn)
    {managed : ManagedConvention} {call : FunctionRequest}
    (h : engine.Converts request managed (.ok call))
    (hname : managed.name = Standard.name ∨ managed.name = Document.name)
    (hlegal : managed.name = Document.name ∨ ∀ pair ∈ request.pairs, isXmlText pair.2 = true) :
    call.HoldsLegal := by
  obtain ⟨context, hselect, hconvert⟩ := h
  have hchosen := ConventionManager.isChosen_of_select hbuiltIn hselect
  have hreturned := ManagedConvention.returned_of_convert hchosen.fits.call hconvert
  rcases Convention.document_cases hchosen.builtIn hname with hstandard | hdocument
  · have hother : managed.name ≠ Document.name := by
      rw [ManagedConvention.name, hstandard]
      decide
    rw [hstandard] at hreturned
    exact Standard.holdsLegal_of_convert (hlegal.resolve_left hother)
      (HookResult.ofExcept_eq_returned_iff.mp hreturned)
  · rw [hdocument] at hreturned
    exact Document.holdsLegal_of_convert hchosen.fits.body hreturned

/-- **What the demonstration answers can be read exactly if it holds legal characters only**,
under any configuration and for any request that is answered with a document. It does if its name
and the parameters of the request do, and whatever a document brings. -/
theorem isReadable_handle {name : String} {api : Api} (hapi : Demo.api name = .ok api)
    (config : Config) (metrics : Option Metrics) (request : Http.Request)
    (h : (ofConfig config api metrics).AnswersDocument request) :
    (∃ text : String, ((ofConfig config api metrics).handle request).2.body = text.toUTF8 ∧
      (((ofConfig config api metrics).handle request).2.IsReadable ↔ isXmlText text = true)) ∧
    (isXmlText name = true →
      (((ofConfig config api metrics).dispatch request).convention = Document.name ∨
        ∀ pair ∈ request.pairs, isXmlText pair.2 = true) →
      ((ofConfig config api metrics).handle request).2.IsReadable) := by
  obtain ⟨htame, hname⟩ := Demo.isTame_of_api hapi
  have hbuiltIn : (ofConfig config api metrics).conventions.IsBuiltIn :=
    ConventionManager.isBuiltIn_ofConfig config
  obtain ⟨managed, call, result, hconverts, hresult, hmanaged, hwritten⟩ :=
    h.exists_result hbuiltIn
  obtain ⟨hshaped, hlegal⟩ := htame.isShaped_invoke hresult
  rw [Http.Response.IsReadable, hwritten]
  refine ⟨⟨_, rfl, hshaped.exists_parse_iff⟩, fun hnamed hsent => ?_⟩
  have hconvention := h.convention
  rw [hmanaged] at hconvention hsent
  have hcall := holdsLegal_of_converts hbuiltIn hconverts hconvention hsent
  exact hshaped.exists_parse (hlegal (hname ▸ hnamed) hcall)

/-- A text is repeated. -/
theorem isReadable_handle_echo :
    (ofConfig Demo.config Demo.configured none).AnswersDocument echoRequest ∧
      ((ofConfig Demo.config Demo.configured none).handle echoRequest).2.IsReadable := by
  have h : (ofConfig Demo.config Demo.configured none).AnswersDocument echoRequest :=
    ⟨Or.inl (by decide +kernel), by decide +kernel, by decide +kernel⟩
  obtain ⟨-, hreadable⟩ :=
    isReadable_handle Demo.api_configured Demo.config none echoRequest h
  exact ⟨h, hreadable (by decide) (Or.inr (by decide +kernel))⟩

/-- A character that no document holds is repeated, and the answer is no document. -/
theorem not_isReadable_handle_null :
    ¬ ∀ (text : String) (config : Config) (api : Api) (metrics : Option Metrics)
        (request : Http.Request), Config.parse text = .ok config →
      Demo.api config.apiName = .ok api →
      (ofConfig config api metrics).AnswersDocument request →
      ((ofConfig config api metrics).handle request).2.IsReadable := by
  intro h
  obtain ⟨parsed, hparsed⟩ := h Demo.configText Demo.config Demo.configured none
    (Http.Request.ofTarget Http.Method.get "/?_function=Echo&text=%00") Demo.parse_configText
    Demo.api_configured ⟨Or.inl (by decide +kernel), by decide +kernel, by decide +kernel⟩
  have hfails : (CallResult.parse ((ofConfig Demo.config Demo.configured none).handle
      (Http.Request.ofTarget Http.Method.get "/?_function=Echo&text=%00")).2.body).toOption =
        none := by decide +kernel
  rw [hparsed] at hfails
  cases hfails

end Engine

end RemoteCall
