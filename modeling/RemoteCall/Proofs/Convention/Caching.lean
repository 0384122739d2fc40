import RemoteCall.Proofs.Convention.Containment

/-!
# What is kept beside a request

A request is looked at again and again: its body is read, conventions say whether they understand
it, and conventions convert it. What one look keeps, the next ones use. The root of the body that
is kept is the one that reading it would give, so nobody can tell from an answer whether it has
been kept; and what has been kept once is never replaced.
-/

namespace RemoteCall

/-- A convention that there is, wherever it is in its life. -/
abbrev BuiltInConvention := { managed : ManagedConvention // managed.convention ∈ Convention.builtIn }

/-- A way of looking at a request. -/
inductive Look where
  | readBody (checkType : Bool)
  | understands (convention : BuiltInConvention)
  | convert (convention : BuiltInConvention)

/-- What is kept beside a request after one more look at it. -/
def Look.leave (request : Http.Request) (context : RequestContext) : Look → RequestContext
  | .readBody checkType => context.keepBody (RemoteCall.readBody checkType request context.body).2
  | .understands convention => (convention.val.understands request context).2
  | .convert convention => (convention.val.convert request context).2

/-- What is kept beside a request after looks at it, one after the other. -/
def RequestContext.after (request : Http.Request) (context : RequestContext) (looks : List Look) :
    RequestContext :=
  looks.foldl (Look.leave request) context

variable {request : Http.Request} {context : RequestContext}

/-! ## Answers -/

/-- A body whose root has been kept is read as though it had not. -/
theorem readBody_fst_eq {kept : Option Element} (h : IsRoot request kept) (checkType : Bool) :
    (readBody checkType request kept).1 = (readBody checkType request none).1 := by
  unfold readBody
  split
  · rfl
  · cases kept with
    | none => rfl
    | some root =>
      have hparse : parseBody request = .ok root := h root rfl
      simp [hparse]

/-- A body that is refused for its type leaves what is kept. -/
theorem readBody_of_checkDocumentType {fault : RequestFault}
    (h : checkDocumentType request = .error fault) (kept : Option Element) :
    readBody true request kept = (.error fault, kept) := by
  simp [readBody, h]

/-- What the document convention understands is told by the root of the body. -/
theorem Document.understands_eq (request : Http.Request) (kept : Option Element) :
    understands request kept =
      (.ofExcept (((readBody true request kept).1.mapError .invalidRequest).map
        fun root => root.localName = "request" && root.namespaceUri.isNone),
        (readBody true request kept).2) := by
  unfold understands
  rcases readBody true request kept with ⟨fault | root, more⟩ <;> rfl

/-- What the document convention converts is the root of the body. -/
theorem Document.convert_eq (request : Http.Request) (kept : Option Element) :
    convert request kept =
      (.ofExcept (((readBody true request kept).1.mapError .invalidRequest).bind convertRoot),
        (readBody true request kept).2) := by
  unfold convert
  rcases readBody true request kept with ⟨fault | root, more⟩ <;> rfl

/-- The hooks answer as though nothing had been kept. -/
theorem Convention.hooks_fst_eq {convention : Convention} (hbuiltIn : convention ∈ builtIn)
    {kept : Option Element} (h : IsRoot request kept) :
    (convention.understands request kept).1 = (convention.understands request none).1 ∧
      (convention.convert request kept).1 = (convention.convert request none).1 := by
  simp only [builtIn, List.mem_cons, List.not_mem_nil, or_false] at hbuiltIn
  rcases hbuiltIn with rfl | rfl | rfl
  · exact ⟨rfl, rfl⟩
  · have hread := readBody_fst_eq h true
    simp only [Document.convention, Document.understands_eq, Document.convert_eq, hread, and_self]
  · exact ⟨rfl, rfl⟩

/-- What the hooks keep is what reading the body keeps, or nothing new. -/
theorem Convention.hooks_snd {convention : Convention} (hbuiltIn : convention ∈ builtIn)
    (request : Http.Request) (kept : Option Element) :
    ((convention.understands request kept).2 = kept ∨
        (convention.understands request kept).2 = (readBody true request kept).2) ∧
      ((convention.convert request kept).2 = kept ∨
        (convention.convert request kept).2 = (readBody true request kept).2) := by
  simp only [builtIn, List.mem_cons, List.not_mem_nil, or_false] at hbuiltIn
  rcases hbuiltIn with rfl | rfl | rfl
  · exact ⟨Or.inl rfl, Or.inl rfl⟩
  · simp [Document.convention, Document.understands_eq, Document.convert_eq]
  · exact ⟨Or.inl rfl, Or.inl rfl⟩

namespace ManagedConvention

/-- Whether a convention understands a request does not depend on what is kept. -/
theorem understands_fst_eq (convention : BuiltInConvention) (h : IsRoot request context.body) :
    (convention.val.understands request context).1 =
      (convention.val.understands request .empty).1 := by
  have hhook := (Convention.hooks_fst_eq convention.property h).1
  rw [Bool.eq_iff_iff, understands_eq_true_iff, understands_eq_true_iff, hhook]
  rfl

/-- What a request is converted to does not depend on the body that is kept. -/
theorem convert_fst_eq (convention : BuiltInConvention) (h : IsRoot request context.body)
    (hnew : context.call = none) :
    (convention.val.convert request context).1 = (convention.val.convert request .empty).1 := by
  have hhook := (Convention.hooks_fst_eq convention.property h).2
  cases husable : convention.val.isUsable with
  | false => rw [convert_of_not_isUsable husable, convert_of_not_isUsable husable]
  | true =>
    rw [convert_of_isUsable husable hnew, convert_of_isUsable husable rfl, hhook]
    rfl

/-- The document convention does not understand a request of another type. -/
theorem understands_of_checkDocumentType {convention : BuiltInConvention} {fault : RequestFault}
    (hdocument : convention.val.convention = Document.convention)
    (h : checkDocumentType request = .error fault) (context : RequestContext) :
    (convention.val.understands request context).1 = false := by
  rw [Bool.eq_false_iff]
  intro hunderstands
  obtain ⟨-, -, hanswer⟩ := understands_eq_true_iff.mp hunderstands
  have hrefused : (Document.understands request context.body).1 =
      .failed (.invalidRequest fault) := by
    rw [Document.understands_eq, readBody_of_checkDocumentType h]
    rfl
  rw [hdocument] at hanswer
  cases hrefused.symm.trans hanswer

end ManagedConvention

/-! ## What one look keeps -/

namespace ManagedConvention

variable {managed : ManagedConvention}

/-- Looking at a request keeps what the hook keeps, or nothing. -/
theorem understands_snd (managed : ManagedConvention) (request : Http.Request)
    (context : RequestContext) :
    (managed.understands request context).2 = context ∨
      (managed.understands request context).2 =
        context.keepBody (managed.convention.understands request context.body).2 := by
  simp only [understands]
  split
  · split <;> exact Or.inr rfl
  · exact Or.inl rfl

/-- A conversion fails, gives the call that is kept, or keeps the call that it gives. -/
theorem convert_cases (managed : ManagedConvention) (request : Http.Request)
    (context : RequestContext) :
    (∃ e, managed.convert request context = (.error e, context)) ∨
      (∃ e, managed.convert request context = (.error e,
        context.keepBody (managed.convention.convert request context.body).2)) ∨
      (∃ call, context.call = some call ∧ managed.convert request context = (.ok call, context)) ∨
      ∃ call, context.call = none ∧ managed.convert request context = (.ok call,
        (context.keepBody (managed.convention.convert request context.body).2).keepCall call) := by
  simp only [convert]
  split
  · exact Or.inl ⟨_, rfl⟩
  · split
    · next call hkept => exact Or.inr (Or.inr (Or.inl ⟨call, hkept, rfl⟩))
    · next hnew =>
      split
      · next call _ =>
        split
        · exact Or.inr (Or.inl ⟨_, rfl⟩)
        · exact Or.inr (Or.inr (Or.inr ⟨call, hnew, rfl⟩))
      · split <;> exact Or.inr (Or.inl ⟨_, rfl⟩)
      · exact Or.inr (Or.inl ⟨_, rfl⟩)

/-- Converting a request keeps of the body what the hook keeps, or nothing. -/
theorem convert_snd_body (managed : ManagedConvention) (request : Http.Request)
    (context : RequestContext) :
    (managed.convert request context).2.body = context.body ∨
      (managed.convert request context).2.body =
        context.body.or (managed.convention.convert request context.body).2 := by
  rcases managed.convert_cases request context with
    ⟨e, h⟩ | ⟨e, h⟩ | ⟨call, hkept, h⟩ | ⟨call, hnew, h⟩ <;> rw [h]
  · exact Or.inl rfl
  · exact Or.inr rfl
  · exact Or.inl rfl
  · exact Or.inr rfl

/-- A call that a conversion gives is kept from then on. -/
theorem call_of_convert_eq_ok {call : FunctionRequest}
    (h : (managed.convert request context).1 = .ok call) :
    (managed.convert request context).2.call = some call := by
  rcases managed.convert_cases request context with
    ⟨e, heq⟩ | ⟨e, heq⟩ | ⟨call', hkept, heq⟩ | ⟨call', hnew, heq⟩ <;>
    rw [heq] at h ⊢ <;> cases h
  · exact hkept
  · simp [RequestContext.keepCall, RequestContext.keepBody, hnew]

end ManagedConvention

/-- A look keeps of the body what reading it keeps, or nothing; only one may pass over its type. -/
theorem Look.leave_body (request : Http.Request) (context : RequestContext) (look : Look) :
    (look.leave request context).body = context.body ∨
      ∃ checkType, (look = .readBody checkType ∨ checkType = true) ∧
        (look.leave request context).body =
          context.body.or (RemoteCall.readBody checkType request context.body).2 := by
  -- A convention that keeps something keeps what its hook does: what there was, or the body read.
  have hhook {more : Option Element} (hmore : more = context.body ∨
      more = (RemoteCall.readBody true request context.body).2) :
      context.body.or more = context.body ∨
        context.body.or more =
          context.body.or (RemoteCall.readBody true request context.body).2 := by
    rcases hmore with rfl | rfl
    · exact Or.inl Option.or_self
    · exact Or.inr rfl
  cases look with
  | readBody checkType => exact Or.inr ⟨checkType, Or.inl rfl, rfl⟩
  | understands convention =>
    have hkeeps := (Convention.hooks_snd convention.property request context.body).1
    rcases convention.val.understands_snd request context with h | h
    · exact Or.inl (congrArg RequestContext.body h)
    · rw [Look.leave, h]
      exact (hhook hkeeps).imp_right fun heq => ⟨true, Or.inr rfl, heq⟩
  | convert convention =>
    have hkeeps := (Convention.hooks_snd convention.property request context.body).2
    rcases convention.val.convert_snd_body request context with h | h
    · exact Or.inl h
    · rw [Look.leave, h]
      exact (hhook hkeeps).imp_right fun heq => ⟨true, Or.inr rfl, heq⟩

/-- A look keeps the call that a conversion gives, if none is kept yet. -/
theorem Look.leave_call (request : Http.Request) (context : RequestContext) (look : Look) :
    (look.leave request context).call = context.call ∨
      ∃ convention call, look = .convert convention ∧ context.call = none ∧
        (convention.val.convert request context).1 = .ok call ∧
        (look.leave request context).call = some call := by
  cases look with
  | readBody checkType => exact Or.inl rfl
  | understands convention =>
    left
    rcases convention.val.understands_snd request context with h | h <;> rw [Look.leave, h]
    rfl
  | convert convention =>
    rcases convention.val.convert_cases request context with
      ⟨e, h⟩ | ⟨e, h⟩ | ⟨call, hkept, h⟩ | ⟨call, hnew, h⟩
    · exact Or.inl (by rw [Look.leave, h])
    · exact Or.inl (by rw [Look.leave, h]; rfl)
    · exact Or.inl (by rw [Look.leave, h])
    · have hanswer : (convention.val.convert request context).1 = .ok call := by rw [h]
      have hcall := ManagedConvention.call_of_convert_eq_ok hanswer
      exact Or.inr ⟨convention, call, rfl, hnew, hanswer, hcall⟩

/-- What is kept of a body stays its root, however the request is looked at. -/
theorem Look.isRoot_leave (h : IsRoot request context.body) (look : Look) :
    IsRoot request (look.leave request context).body := by
  rcases look.leave_body request context with hsame | ⟨checkType, -, hread⟩
  · rw [hsame]
    exact h
  · rw [hread]
    exact h.or (readBody_spec checkType h).1

/-- A root that is kept stays. -/
theorem Look.body_leave {root : Element} (h : context.body = some root) (look : Look) :
    (look.leave request context).body = some root := by
  rcases look.leave_body request context with hsame | ⟨checkType, -, hread⟩
  · rw [hsame, h]
  · rw [hread, h, Option.some_or]

/-- A call that is kept stays. -/
theorem Look.call_leave {call : FunctionRequest} (h : context.call = some call) (look : Look) :
    (look.leave request context).call = some call := by
  rcases look.leave_call request context with hsame | ⟨_, _, -, hnew, -⟩
  · rw [hsame, h]
  · rw [h] at hnew
    cases hnew

/-- A look that has the type of the body checked leaves what is kept if the type is wrong. -/
theorem Look.body_leave_of_checkDocumentType {fault : RequestFault}
    (h : checkDocumentType request = .error fault) {look : Look} (hlook : look ≠ .readBody false) :
    (look.leave request context).body = context.body := by
  rcases look.leave_body request context with hsame | ⟨checkType, hcause, hread⟩
  · exact hsame
  · have hchecked : checkType = true := by
      rcases hcause with rfl | rfl
      · cases checkType with
        | false => exact absurd rfl hlook
        | true => rfl
      · rfl
    rw [hread, hchecked, readBody_of_checkDocumentType h, Option.or_self]

/-! ## One look after another -/

/-- What every look preserves holds after all of them. -/
theorem RequestContext.after_of_leave (holds : RequestContext → Prop)
    (hleave : ∀ {context}, holds context → ∀ look : Look, holds (look.leave request context))
    (h : holds context) (looks : List Look) : holds (context.after request looks) := by
  induction looks generalizing context with
  | nil => exact h
  | cons look looks ih =>
    have hnext := hleave h look
    exact ih hnext

/-- What is kept of the body is its root, whatever looks there have been. -/
theorem RequestContext.isRoot_after (h : IsRoot request context.body) (looks : List Look) :
    IsRoot request (context.after request looks).body :=
  after_of_leave (fun context => IsRoot request context.body) Look.isRoot_leave h looks

/-- A root that is kept stays. -/
theorem RequestContext.body_after {root : Element} (h : context.body = some root)
    (looks : List Look) : (context.after request looks).body = some root :=
  after_of_leave (fun context => context.body = some root) Look.body_leave h looks

/-- A call that is kept stays. -/
theorem RequestContext.call_after {call : FunctionRequest} (h : context.call = some call)
    (looks : List Look) : (context.after request looks).call = some call :=
  after_of_leave (fun context => context.call = some call) Look.call_leave h looks

/-- A root that is kept has been parsed from the text of the body. -/
theorem exists_parse_of_parseBody {root : Element} (h : parseBody request = .ok root) :
    ∃ text, String.fromUTF8? request.body = some text ∧ Element.parse text = .ok root := by
  simp only [parseBody] at h
  split at h
  · cases h
  · next text htext =>
    split at h
    · cases h
    · split at h
      · next hparse =>
        cases h
        exact ⟨text, htext, hparse⟩
      · cases h

/-- What is kept beside a request that has been looked at. -/
structure RequestContext.IsCache (context : RequestContext) (request : Http.Request) : Prop where
  /-- The body is read as though nothing were kept. -/
  read : ∀ checkType, (readBody checkType request context.body).1 =
    (readBody checkType request none).1
  /-- Conventions understand the request as though nothing were kept. -/
  understood : ∀ convention : BuiltInConvention, (convention.val.understands request context).1 =
    (convention.val.understands request .empty).1
  /-- The first conversion comes out as though nothing were kept. -/
  converted : context.call = none → ∀ convention : BuiltInConvention,
    (convention.val.convert request context).1 = (convention.val.convert request .empty).1
  /-- A request of another type is no document, though its body may have been read. -/
  refused : ∀ fault, checkDocumentType request = .error fault →
    (readBody true request context.body).1 = .error fault ∧
      ∀ convention : BuiltInConvention, convention.val.convention = Document.convention →
        (convention.val.understands request context).1 = false
  /-- What is kept of the body is the document that its text is. -/
  body : ∀ root, context.body = some root →
    ∃ text, String.fromUTF8? request.body = some text ∧ Element.parse text = .ok root
  body_kept : ∀ root, context.body = some root →
    ∀ looks, (context.after request looks).body = some root
  /-- A look that refuses the type of the body keeps nothing of it. -/
  body_refused : ∀ fault, checkDocumentType request = .error fault →
    ∀ look : Look, look ≠ .readBody false → (look.leave request context).body = context.body
  /-- Only a conversion that succeeds keeps a call: the one that it gives. -/
  call : ∀ look : Look, (look.leave request context).call ≠ context.call →
    ∃ convention call, look = .convert convention ∧
      (convention.val.convert request context).1 = .ok call ∧
      (look.leave request context).call = some call
  call_kept : ∀ call, context.call = some call →
    ∀ looks, (context.after request looks).call = some call
  /-- Whatever convention converts the request later on gives the call that is kept. -/
  call_given : ∀ call, context.call = some call →
    ∀ looks (convention : BuiltInConvention), convention.val.isUsable = true →
      (convention.val.convert request (context.after request looks)).1 = .ok call
  /-- A conversion that succeeds keeps its call. -/
  call_new : ∀ (convention : BuiltInConvention) call,
    (convention.val.convert request context).1 = .ok call →
      (convention.val.convert request context).2.call = some call

/-- **Nobody can tell what is kept beside a request**, but that it is converted once: whatever
looks there have been, in whatever order, the body is read and conventions understand the request
as though they were the first, and what is kept stays. -/
theorem RequestContext.isCache_after (request : Http.Request) (looks : List Look) :
    (RequestContext.empty.after request looks).IsCache request := by
  have hroot : IsRoot request (RequestContext.empty.after request looks).body :=
    isRoot_after (isRoot_none request) looks
  constructor
  case read => exact readBody_fst_eq hroot
  case understood => exact fun convention => ManagedConvention.understands_fst_eq convention hroot
  case converted =>
    exact fun hnew convention => ManagedConvention.convert_fst_eq convention hroot hnew
  case refused =>
    intro fault hrefused
    constructor
    · rw [readBody_of_checkDocumentType hrefused]
    · intro convention hdocument
      exact ManagedConvention.understands_of_checkDocumentType hdocument hrefused _
  case body => exact fun root hkept => exists_parse_of_parseBody (hroot root hkept)
  case body_kept => exact fun root hkept => body_after hkept
  case body_refused => exact fun fault hrefused look => Look.body_leave_of_checkDocumentType hrefused
  case call =>
    intro look hchanged
    rcases look.leave_call request (RequestContext.empty.after request looks) with
      hsame | ⟨convention, call, hlook, -, hanswer, hkeeps⟩
    · exact absurd hsame hchanged
    · exact ⟨convention, call, hlook, hanswer, hkeeps⟩
  case call_kept => exact fun call hkept => call_after hkept
  case call_given =>
    intro call hkept later convention husable
    rw [ManagedConvention.convert_of_call husable (call_after hkept later)]
  case call_new => exact fun convention call => ManagedConvention.call_of_convert_eq_ok

end RemoteCall
