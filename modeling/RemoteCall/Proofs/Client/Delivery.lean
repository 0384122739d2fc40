import RemoteCall.Proofs.Client.Call
import RemoteCall.Proofs.Client.Request
import RemoteCall.Proofs.Convention.Selection
import RemoteCall.Proofs.Element.Root

/-!
# Calls that arrive

A call names the standard convention, so a server that has it picks it, whatever else it has.
The function gets the name and the parameters of the call as they were. The data section
travels as a document: what the function gets is what that is read as.
-/

namespace RemoteCall

/-- The call with its data section read from the document that it is written as. -/
def FunctionRequest.reread (call : FunctionRequest) : Except ConventionError FunctionRequest :=
  match call.data with
  | none => .ok call
  | some data =>
    match Element.parse data.toXml with
    | .ok root => .ok { call with data := some root }
    | .error _ => .error (.invalidRequest .malformedData)

/-- Reading the data section of a call anew leaves its function alone. -/
theorem FunctionRequest.function_reread {call received : FunctionRequest}
    (h : call.reread = .ok received) : received.function = call.function := by
  simp only [reread] at h
  split at h
  · cases h
    rfl
  · split at h
    · cases h
      rfl
    · cases h

/-- The data section of a call is the one part of it that may turn out unreadable. -/
theorem FunctionRequest.reread_eq_error {call : FunctionRequest} {e : ConventionError}
    (h : call.reread = .error e) : e = .invalidRequest .malformedData := by
  simp only [reread] at h
  split at h
  · cases h
  · split at h
    · cases h
    · cases h
      rfl

/-- The standard convention in use. -/
def Standard.managed : ManagedConvention :=
  (ManagedConvention.ofConvention Standard.convention).start

/-- A data section that can be read at all is read as one. -/
theorem parseDataSection_toXml {data : Element}
    (hdata : ClientCall.checkData (some data) = .ok ()) :
    parseDataSection data.toXml = match Element.parse data.toXml with
      | .ok root => .ok root
      | .error _ => .error .malformedData := by
  have hname : data.localName = "data" := ClientCall.localName_of_checkData hdata
  have hpart : Xml.isNamePart data.localName.toList = true := by
    rw [hname]
    decide
  rw [parseDataSection]
  cases hparse : Element.parse data.toXml with
  | error e => rfl
  | ok root =>
    have hroot : root.localName = "data" :=
      (Element.localName_of_parse_toXml hpart hparse).trans hname
    simp only [if_pos hroot]

namespace ClientCall

variable {call : ClientCall} {request : Http.Request}

/-- The parameter of the data section holds a data section, or there is none. -/
theorem IsValid.dataSection_eq (h : call.IsValid) {parameters : Parameters}
    (hget : parameters.get? Standard.dataParameter = call.request.data.map Element.toXml) :
    Standard.dataSection parameters = match call.request.data with
      | none => .ok none
      | some data =>
        match Element.parse data.toXml with
        | .ok root => .ok (some root)
        | .error _ => .error .malformedData := by
  have hdata := h.data
  rw [Standard.dataSection, Standard.sectionOf, hget]
  cases hsection : call.request.data with
  | none => rfl
  | some data =>
    rw [hsection] at hdata
    have hfilter : (some data.toXml).filter (· ≠ "") = some data.toXml :=
      Option.filter_some_pos (by simpa using data.toXml_ne_empty)
    simp only [Option.map_some, hfilter, parseDataSection_toXml hdata]
    cases Element.parse data.toXml <;> rfl

/-- The standard convention reads the pairs of a call as that call. -/
theorem IsValid.convert_eq (h : call.IsValid) (hpairs : request.pairs = call.wire) :
    Standard.convert request = call.request.reread := by
  obtain ⟨gathered, hgathered, hlookup⟩ :=
    gatherPairs_of_nodup h.nodup_wire fun pair _ => Dictionary.get?_empty pair.1
  have hget (name : String) : gathered.get? name = call.wire.lookup name := by
    rw [hlookup, Dictionary.get?_empty, Option.or_none]
  have hfunction : (gathered.get? Standard.functionParameter).filter (· ≠ "") =
      some call.request.function := by
    rw [hget, h.lookup_wire_function]
    exact Option.filter_some_pos (by simpa using checkFunctionName_ne_empty h.function)
  have hdata := h.dataSection_eq ((hget Standard.dataParameter).trans h.lookup_wire_data)
  have hparameters : functionParameters gathered = .ok call.request.parameters :=
    functionParameters_eq_ok h.parameters fun name hname =>
      (hget name).trans (h.lookup_wire hname)
  rw [Standard.convert, gatherParameters, hpairs, hgathered]
  simp only [hfunction, Standard.callOf, h.function, hdata, hparameters, FunctionRequest.reread]
  obtain ⟨⟨function, accepted, data⟩, config, context, wire⟩ := call
  cases data with
  | none => rfl
  | some data =>
    simp only
    cases Element.parse data.toXml <;> rfl

/-- What a call is sent as is understood by the standard convention. -/
theorem IsValid.understands_eq (h : call.IsValid) (hpairs : request.pairs = call.wire)
    (hmethod : request.method = call.config.method.method) :
    Standard.managed.understands request .empty = (true, .empty) := by
  have hnamed : Standard.understands request = true := by
    rw [Standard.understands, Http.Request.parameter?, hpairs, h.lookup_wire_function]
    simpa using checkFunctionName_ne_empty h.function
  have htakes : Standard.managed.takesMethod request = true := by
    rw [ManagedConvention.takesMethod, hmethod]
    cases call.config.method <;> rfl
  have hanswer : Standard.managed.convention.understands request none = (.returned true, none) :=
    congrArg (fun understood => (HookResult.returned understood, none)) hnamed
  have husable : Standard.managed.isUsable = true := rfl
  simp only [ManagedConvention.understands, husable, htakes, Bool.and_self, if_true,
    RequestContext.empty, hanswer]
  rfl

/-- A server picks the standard convention for a call, whatever other conventions it has and
whichever of them is the default one. -/
theorem IsValid.select_eq (h : call.IsValid) (hpairs : request.pairs = call.wire)
    (hmethod : request.method = call.config.method.method) {manager : ConventionManager}
    (hmem : Standard.managed ∈ manager.conventions)
    (honly : ∀ managed ∈ manager.conventions, managed.name = Standard.name →
      managed = Standard.managed) :
    manager.select request .empty = (.ok Standard.managed, .empty) := by
  have hnamed : (request.parameter? ConventionManager.conventionParameter).filter (· ≠ "") =
      some Standard.name := by
    rw [Http.Request.parameter?, hpairs, h.lookup_wire_convention]
    rfl
  have hget : manager.get? Standard.name = some Standard.managed :=
    ConventionManager.get?_eq_some hmem honly
  simp only [ConventionManager.select, hnamed, ConventionManager.selectNamed, hget,
    h.understands_eq hpairs hmethod]

/-- The convention in use converts a call as the standard convention does. -/
theorem IsValid.convert_managed_eq (h : call.IsValid) (hpairs : request.pairs = call.wire) :
    (Standard.managed.convert request .empty).1 = call.request.reread := by
  have husable : Standard.managed.isUsable = true := rfl
  have hanswer : Standard.managed.convention.convert request none =
      (.ofExcept call.request.reread, none) :=
    congrArg (fun converted => (HookResult.ofExcept converted, none)) (h.convert_eq hpairs)
  simp only [ManagedConvention.convert, husable, Bool.not_true, Bool.false_eq_true, if_false,
    RequestContext.empty, hanswer]
  cases hreread : call.request.reread with
  | ok received =>
    have hnamed : received.function ≠ "" := by
      rw [FunctionRequest.function_reread hreread]
      exact checkFunctionName_ne_empty h.function
    simp only [HookResult.ofExcept, if_neg hnamed]
  | error e =>
    obtain rfl := FunctionRequest.reread_eq_error hreread
    rfl

/-- However a call has been put together, if its request can be formed for an address without
query and fragment, every server with the standard convention picks that for it and gets the
call: its function, its parameters, and its data section as its document is read. Only a data
section that does not make a document is refused. -/
theorem arrives {function url : String} {parameters : Parameters} {data : Option Element}
    {call : ClientCall} (hmake : make function parameters data = .ok call) (steps : List Change)
    {target : HttpTarget} (htarget : HttpTarget.ofUrl url = .ok target)
    (hquestion : '?' ∉ url.toList) (hhash : '#' ∉ url.toList) {wire : WireRequest}
    (hwire : target.wireRequest (call.after steps) = .ok wire) {manager : ConventionManager}
    (hmem : Standard.managed ∈ manager.conventions)
    (honly : ∀ managed ∈ manager.conventions, managed.name = Standard.name →
      managed = Standard.managed) :
    manager.select wire.received .empty = (.ok Standard.managed, .empty) ∧
      (Standard.managed.convert wire.received .empty).1 = (call.after steps).request.reread := by
  have hvalid := (isValid_make hmake).after steps
  obtain ⟨hpairs, hmethod⟩ := HttpTarget.received_spec htarget hquestion hhash hwire
  exact ⟨hvalid.select_eq hpairs hmethod hmem honly, hvalid.convert_managed_eq hpairs⟩

/-- A call by `GET` with separators and letters beyond ASCII in its values, after a change that
is refused. -/
theorem arrives_greeting :
    ∃ call target wire, make "Greet" (Dictionary.empty.insert "name" "Zoë") none = .ok call ∧
      HttpTarget.ofUrl "http://localhost:8080/greetings" = .ok target ∧
      target.wireRequest (call.after [.setParameter "city" (some "a=b & c+d"),
        .setParameter "function" (some "x"), .setContext (some "Ω"),
        .setData (some (.mk "data" none [] [] (some "ß < 1"))), .setConfig ⟨false, .get⟩]) =
          .ok wire ∧
      (ConventionManager.ofConventions [Standard.convention] "_other").select wire.received .empty =
        (.ok Standard.managed, .empty) ∧
      (Standard.managed.convert wire.received .empty).1 =
        .ok ⟨"Greet", (Dictionary.empty.insert "name" "Zoë").insert "city" "a=b & c+d",
          some (.mk "data" none [] [] (some "ß < 1"))⟩ := by
  let call : ClientCall :=
    rebuild ⟨⟨"Greet", Dictionary.empty.insert "name" "Zoë", none⟩, {}, none, []⟩
  let steps : List Change := [.setParameter "city" (some "a=b & c+d"),
    .setParameter "function" (some "x"), .setContext (some "Ω"),
    .setData (some (.mk "data" none [] [] (some "ß < 1"))), .setConfig ⟨false, .get⟩]
  have hmake : make "Greet" (Dictionary.empty.insert "name" "Zoë") none = .ok call := rfl
  have hsome : (Url.parse? "http://localhost:8080/greetings").isSome = true := by decide +kernel
  have htarget := HttpTarget.ofUrl_eq_ok_iff.mpr ⟨hsome, rfl⟩
  have hsent : ((HttpTarget.mk "http://localhost:8080/greetings"
      HttpTarget.defaultTimeout).wireRequest (call.after steps)).toOption.isSome = true := by
    decide +kernel
  have hwritten : (Element.mk "data" none [] [] (some "ß < 1")).toXml =
      "<data>ß &lt; 1</data>" := by decide +kernel
  have hread : Element.parse "<data>ß &lt; 1</data>" =
      .ok (.mk "data" none [] [] (some "ß < 1")) := by
    have hparts : (match Element.parse "<data>ß &lt; 1</data>" with
        | .ok (.mk name uri attributes children text) => name = "data" && uri = none &&
          attributes.isEmpty && children.isEmpty && text = some "ß < 1"
        | .error _ => false) = true := by decide +kernel
    split at hparts
    · next hparse =>
      simp only [Bool.and_eq_true, decide_eq_true_eq, List.isEmpty_iff] at hparts
      obtain ⟨⟨⟨⟨rfl, rfl⟩, rfl⟩, rfl⟩, rfl⟩ := hparts
      exact hparse
    · cases hparts
  have hreread : (call.after steps).request.reread =
      .ok ⟨"Greet", (Dictionary.empty.insert "name" "Zoë").insert "city" "a=b & c+d",
        some (.mk "data" none [] [] (some "ß < 1"))⟩ := by
    change FunctionRequest.reread ⟨"Greet", (Dictionary.empty.insert "name" "Zoë").insert "city"
      "a=b & c+d", some (.mk "data" none [] [] (some "ß < 1"))⟩ = _
    simp only [FunctionRequest.reread, hwritten, hread]
  cases hwire : (HttpTarget.mk "http://localhost:8080/greetings"
      HttpTarget.defaultTimeout).wireRequest (call.after steps) with
  | error e =>
    rw [hwire] at hsent
    cases hsent
  | ok wire =>
    have hmem : Standard.managed ∈
        (ConventionManager.ofConventions [Standard.convention] "_other").conventions :=
      List.mem_singleton.mpr rfl
    obtain ⟨hselect, hconvert⟩ := arrives hmake steps htarget (by decide) (by decide) hwire hmem
      fun managed hmanaged _ => List.mem_singleton.mp hmanaged
    exact ⟨call, _, wire, hmake, htarget, hwire, hselect, hconvert.trans hreread⟩

end ClientCall

end RemoteCall
