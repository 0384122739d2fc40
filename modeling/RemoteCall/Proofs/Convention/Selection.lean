import RemoteCall.Proofs.Convention.CleanCalls

/-!
# Conventions that are chosen

A convention is chosen for a request that it has understood, and converts that request later on.
While one is being chosen, nothing is kept beside the request but the root of its body, so the
conversion looks at what has been understood: it does not miss a function that has been seen,
and whatever is wrong with the request otherwise is a fault of the request.
-/

namespace RemoteCall

/-! ## Requests that are understood -/

/-- An error after renaming is one from before, renamed. -/
theorem mapError_eq_error_iff {ε δ α : Type} {f : ε → δ} {outcome : Except ε α} {error : δ} :
    outcome.mapError f = .error error ↔ ∃ cause, outcome = .error cause ∧ f cause = error := by
  constructor
  · intro h
    cases outcome with
    | ok value => cases h
    | error cause =>
      cases h
      exact ⟨cause, rfl, rfl⟩
  · rintro ⟨cause, rfl, rfl⟩
    rfl

/-- The function that the standard convention has seen is the one that it converts: either the
first value of its name is the only one, or the request is at fault. -/
theorem Standard.exists_fault_of_convert {request : Http.Request} {e : ConventionError}
    (hunderstood : understands request = true) (h : convert request = .error e) :
    ∃ fault, e = .invalidRequest fault := by
  simp only [convert] at h
  split at h
  · next fault _ =>
    cases h
    exact ⟨fault, rfl⟩
  · next parameters hgathered =>
    have hget : parameters.get? functionParameter = request.parameter? functionParameter := by
      rw [get?_of_gatherPairs hgathered]
      rfl
    rw [understands] at hunderstood
    cases hfunction : request.parameter? functionParameter with
    | none =>
      rw [hfunction] at hunderstood
      cases hunderstood
    | some function =>
      rw [hfunction, Option.any_some] at hunderstood
      have hset : (some function).filter (· ≠ "") = some function :=
        Option.filter_some_pos hunderstood
      rw [hget, hfunction, hset] at h
      obtain ⟨fault, -, rfl⟩ := mapError_eq_error_iff.mp h
      exact ⟨fault, rfl⟩

/-- The script convention reads the function off the path both times. -/
theorem Script.exists_fault_of_convert {request : Http.Request} {e : ConventionError}
    (hunderstood : understands request = true) (h : convert request = .error e) :
    ∃ fault, e = .invalidRequest fault := by
  obtain ⟨-, hnamed⟩ := Bool.and_eq_true_iff.mp hunderstood
  obtain ⟨function, hfunction⟩ := Option.isSome_iff_exists.mp hnamed
  rw [convert, hfunction] at h
  obtain ⟨fault, -, rfl⟩ := mapError_eq_error_iff.mp h
  exact ⟨fault, rfl⟩

/-- The body is a request that names no function, which the document convention understands all
the same. -/
def Document.LacksFunction (request : Http.Request) : Prop :=
  ∃ root, parseBody request = .ok root ∧ root.localName = "request" ∧
    Element.nonEmpty (root.attribute? "function") = none

/-- A root that makes no call is at fault, or is a request that names no function. -/
theorem Document.convertRoot_eq_error {root : Element} {e : ConventionError}
    (h : convertRoot root = .error e) :
    (∃ fault, e = .invalidRequest fault) ∨ (e = .functionNotSpecified ∧
      root.localName = "request" ∧ Element.nonEmpty (root.attribute? "function") = none) := by
  simp only [convertRoot] at h
  split at h
  · cases h
    exact Or.inl ⟨_, rfl⟩
  · next hroot =>
    split at h
    · next hnone =>
      cases h
      exact Or.inr ⟨rfl, Decidable.not_not.mp hroot, hnone⟩
    · obtain ⟨fault, -, rfl⟩ := mapError_eq_error_iff.mp h
      exact Or.inl ⟨fault, rfl⟩

/-! ## What is kept beside a request -/

/-- What is kept of a body is its root. -/
def IsRoot (request : Http.Request) (kept : Option Element) : Prop :=
  ∀ root, kept = some root → parseBody request = .ok root

/-- Where nothing is kept, nothing wrong is kept. -/
theorem isRoot_none (request : Http.Request) : IsRoot request none := by
  intro root h
  cases h

/-- What is kept first, or else what is kept after it, is a root of the request if both are. -/
theorem IsRoot.or {request : Http.Request} {kept more : Option Element} (h : IsRoot request kept)
    (hmore : IsRoot request more) : IsRoot request (kept.or more) := by
  cases kept with
  | none => exact hmore
  | some root => exact h

/-- Reading the body gives its root, whether or not it has been read before, and keeps nothing
else. -/
theorem readBody_spec (checkType : Bool) {request : Http.Request} {kept : Option Element}
    (h : IsRoot request kept) :
    IsRoot request (readBody checkType request kept).2 ∧
      ∀ root, (readBody checkType request kept).1 = .ok root → parseBody request = .ok root := by
  unfold readBody
  split
  · exact ⟨h, fun root heq => by cases heq⟩
  · split
    · next root =>
      refine ⟨h, fun root' heq => ?_⟩
      cases heq
      exact h root rfl
    · split
      · next root hparse =>
        refine ⟨fun root' heq => ?_, fun root' heq => ?_⟩ <;>
        · cases heq
          exact hparse
      · exact ⟨isRoot_none request, fun root heq => by cases heq⟩

/-- Looking whether a document is a request keeps its root. -/
theorem Document.isRoot_of_understands {request : Http.Request} {kept : Option Element}
    (h : IsRoot request kept) : IsRoot request (understands request kept).2 := by
  have hread := (readBody_spec true h).1
  unfold understands
  split <;>
  · next heq =>
    rw [heq] at hread
    exact hread

/-- The document convention may miss a function, as it has looked at the name of the root only. -/
theorem Document.convert_cases {request : Http.Request} {kept : Option Element}
    (h : IsRoot request kept) :
    (∃ call, (convert request kept).1 = .returned call) ∨
      (∃ fault, (convert request kept).1 = .failed (.invalidRequest fault)) ∨
      ((convert request kept).1 = .failed .functionNotSpecified ∧ LacksFunction request) := by
  have hread := (readBody_spec true h).2
  unfold convert
  split
  · next root more heq =>
    rw [heq] at hread
    cases hconvert : convertRoot root with
    | ok call => exact Or.inl ⟨call, rfl⟩
    | error e =>
      rcases convertRoot_eq_error hconvert with ⟨fault, rfl⟩ | ⟨rfl, hroot, hnone⟩
      · exact Or.inr (Or.inl ⟨fault, rfl⟩)
      · exact Or.inr (Or.inr ⟨rfl, root, hread root rfl, hroot, hnone⟩)
  · next fault more heq => exact Or.inr (Or.inl ⟨fault, rfl⟩)

/-- No convention keeps anything but the root of the body when it looks at a request. -/
theorem Convention.isRoot_of_understands {convention : Convention} (h : convention ∈ builtIn)
    {request : Http.Request} {kept : Option Element} (hkept : IsRoot request kept) :
    IsRoot request (convention.understands request kept).2 := by
  simp only [builtIn, List.mem_cons, List.not_mem_nil, or_false] at h
  rcases h with rfl | rfl | rfl
  · exact hkept
  · exact Document.isRoot_of_understands hkept
  · exact hkept

/-- A computation that fails with nothing but faults of the request makes a hook that returns or
reports such a fault. -/
theorem HookResult.ofExcept_cases {α : Type} {outcome : Except ConventionError α}
    (h : ∀ e, outcome = .error e → ∃ fault, e = .invalidRequest fault) :
    (∃ value, ofExcept outcome = .returned value) ∨
      ∃ fault, ofExcept outcome = .failed (.invalidRequest fault) := by
  cases outcome with
  | ok value => exact Or.inl ⟨value, rfl⟩
  | error e =>
    obtain ⟨fault, rfl⟩ := h e rfl
    exact Or.inr ⟨fault, rfl⟩

/-- What the hook of a convention makes of a request that it has understood: a call, or a fault
of the request. Only the document convention may miss a function. -/
theorem Convention.convert_cases {convention : Convention} (h : convention ∈ builtIn)
    {request : Http.Request} {seen kept : Option Element}
    (hunderstood : (convention.understands request seen).1 = .returned true)
    (hkept : IsRoot request kept) :
    (∃ call, (convention.convert request kept).1 = .returned call) ∨
      (∃ fault, (convention.convert request kept).1 = .failed (.invalidRequest fault)) ∨
      ((convention.convert request kept).1 = .failed .functionNotSpecified ∧
        convention = Document.convention ∧ Document.LacksFunction request) := by
  simp only [builtIn, List.mem_cons, List.not_mem_nil, or_false] at h
  rcases h with rfl | rfl | rfl
  · have hseen : Standard.understands request = true := by
      simpa only [Standard.convention, HookResult.returned.injEq] using hunderstood
    rcases HookResult.ofExcept_cases fun e => Standard.exists_fault_of_convert hseen with
      hcall | hfault
    · exact Or.inl hcall
    · exact Or.inr (Or.inl hfault)
  · rcases Document.convert_cases hkept with hcall | hfault | ⟨hmissing, hlacks⟩
    · exact Or.inl hcall
    · exact Or.inr (Or.inl hfault)
    · exact Or.inr (Or.inr ⟨hmissing, rfl, hlacks⟩)
  · have hseen : Script.understands request = true := by
      simpa only [Script.convention, HookResult.returned.injEq] using hunderstood
    rcases HookResult.ofExcept_cases fun e => Script.exists_fault_of_convert hseen with
      hcall | hfault
    · exact Or.inl hcall
    · exact Or.inr (Or.inl hfault)

/-! ## The choice -/

/-- What is kept beside a request that has not been converted: the root of its body at most. -/
structure RequestContext.Fits (context : RequestContext) (request : Http.Request) : Prop where
  body : IsRoot request context.body
  call : context.call = none

/-- Nothing kept fits every request. -/
theorem RequestContext.fits_empty (request : Http.Request) : empty.Fits request :=
  ⟨isRoot_none request, rfl⟩

namespace ManagedConvention

variable {managed : ManagedConvention} {request : Http.Request} {context context' : RequestContext}

/-- What holds of a convention that has been chosen, and of what is kept by then. -/
structure IsChosen (managed : ManagedConvention) (request : Http.Request)
    (context : RequestContext) : Prop where
  usable : managed.isUsable = true
  builtIn : managed.convention ∈ Convention.builtIn
  understood : ∃ seen, (managed.convention.understands request seen).1 = .returned true
  fits : context.Fits request

/-- Looking at a request keeps nothing but the root of its body. -/
theorem fits_of_understands (hbuiltIn : managed.convention ∈ Convention.builtIn)
    (h : context.Fits request) : (managed.understands request context).2.Fits request := by
  have hbody : (context.keepBody (managed.convention.understands request context.body).2).Fits
      request :=
    ⟨h.body.or (Convention.isRoot_of_understands hbuiltIn h.body), h.call⟩
  simp only [understands]
  split
  · split
    · exact hbody
    · exact hbody
  · exact h

/-- A convention that understands a request can be chosen for it. -/
theorem isChosen_of_understands (hbuiltIn : managed.convention ∈ Convention.builtIn)
    (h : context.Fits request)
    (hunderstands : managed.understands request context = (true, context')) :
    managed.IsChosen request context' := by
  have hfits := fits_of_understands hbuiltIn h
  rw [hunderstands] at hfits
  simp only [understands] at hunderstands
  split at hunderstands
  · next husable =>
    split at hunderstands
    · next hreturned =>
      cases hunderstands
      exact ⟨(Bool.and_eq_true_iff.mp husable).1, hbuiltIn, ⟨context.body, hreturned⟩, hfits⟩
    · cases hunderstands
  · cases hunderstands

/-- A chosen convention converts the request to a call with the name of a function, or the
request is at fault. Only the document convention may miss a function. -/
theorem IsChosen.convert_cases (h : managed.IsChosen request context) :
    (∃ call, (managed.convert request context).1 = .ok call ∧
        (managed.convention.convert request context.body).1 = .returned call) ∨
      (∃ fault, (managed.convert request context).1 = .error (.invalidRequest fault)) ∨
      ((managed.convert request context).1 = .error .functionNotSpecified ∧
        managed.convention = Document.convention ∧ Document.LacksFunction request) := by
  obtain ⟨seen, hunderstood⟩ := h.understood
  simp only [convert, h.usable, h.fits.call]
  rcases Convention.convert_cases h.builtIn hunderstood h.fits.body with
    ⟨call, hcall⟩ | ⟨fault, hfault⟩ | ⟨hmissing, hdocument, hlacks⟩
  · have hnamed : call.function ≠ "" :=
      checkFunctionName_ne_empty (Convention.isClean_of_returned h.builtIn hcall).function
    left
    exact ⟨call, by simp [hcall, hnamed], hcall⟩
  · right
    left
    exact ⟨fault, by simp [hfault, isExpected, ConventionError.kind]⟩
  · right
    right
    exact ⟨by simp [hmissing, isExpected, ConventionError.kind], hdocument, hlacks⟩

end ManagedConvention

namespace ConventionManager

variable {manager : ConventionManager} {request : Http.Request} {managed : ManagedConvention}

/-- All conventions are among those that there are. -/
def IsBuiltIn (manager : ConventionManager) : Prop :=
  ∀ managed ∈ manager.conventions, managed.convention ∈ Convention.builtIn

/-- A configuration enables no conventions but those of the library. -/
theorem isBuiltIn_ofConfig (config : Config) : (ofConfig config).IsBuiltIn := by
  intro managed hmem
  obtain ⟨convention, hoffered, rfl⟩ := List.mem_map.mp hmem
  exact (List.mem_filter.mp hoffered).1

/-- The shutdown brings no other conventions. -/
theorem IsBuiltIn.shutDown (h : manager.IsBuiltIn) : manager.shutDown.IsBuiltIn := by
  intro managed hmem
  obtain ⟨open', hopen, rfl⟩ := List.mem_map.mp hmem
  exact h open' hopen

/-- One convention after another looks at the request, and what they keep goes with it. -/
theorem isChosen_of_firstMatch {conventions : List ManagedConvention}
    (hbuiltIn : ∀ managed ∈ conventions, managed.convention ∈ Convention.builtIn)
    {before context : RequestContext} (hbefore : before.Fits request)
    (h : firstMatch request conventions before = (some managed, context)) :
    managed.IsChosen request context := by
  induction conventions generalizing before with
  | nil => cases h
  | cons first rest ih =>
    obtain ⟨hfirst, hrest⟩ := List.forall_mem_cons.mp hbuiltIn
    rw [firstMatch] at h
    split at h
    · next hunderstands =>
      cases h
      exact ManagedConvention.isChosen_of_understands hfirst hbefore hunderstands
    · next context' hunderstands =>
      have hfits := ManagedConvention.fits_of_understands hfirst hbefore
      rw [hunderstands] at hfits
      exact ih hrest hfits h

/-- What is found by name is one of the conventions. -/
theorem mem_of_get? {name : String} (h : manager.get? name = some managed) :
    managed ∈ manager.conventions :=
  List.mem_of_find?_eq_some h

/-- A convention is found by its name if it is the only one of that name. -/
theorem get?_eq_some (hmem : managed ∈ manager.conventions)
    (honly : ∀ other ∈ manager.conventions, other.name = managed.name → other = managed) :
    manager.get? managed.name = some managed := by
  cases hfind : manager.get? managed.name with
  | none =>
    have hne := List.find?_eq_none.mp hfind managed hmem
    simp at hne
  | some found =>
    have hname : found.name = managed.name := by
      simpa using List.find?_some hfind
    rw [honly found (List.mem_of_find?_eq_some hfind) hname]

/-- What is tried is one of the conventions. -/
theorem mem_of_mem_candidates (h : managed ∈ manager.candidates) :
    managed ∈ manager.conventions := by
  rcases List.mem_append.mp h with hdefault | hother
  · exact mem_of_get? (Option.mem_toList.mp hdefault)
  · exact (List.mem_filter.mp hother).1

/-- **The convention that is chosen has understood the request**, by whichever way it has been
chosen. -/
theorem isChosen_of_select (hbuiltIn : manager.IsBuiltIn) {context : RequestContext}
    (h : manager.select request .empty = (.ok managed, context)) :
    managed.IsChosen request context := by
  simp only [select] at h
  split at h
  · simp only [selectNamed] at h
    split at h
    · cases h
    · next hget =>
      split at h
      · next hunderstands =>
        cases h
        exact ManagedConvention.isChosen_of_understands (hbuiltIn managed (mem_of_get? hget))
          (RequestContext.fits_empty request) hunderstands
      · cases h
  · split at h
    · next hfirst =>
      cases h
      refine isChosen_of_firstMatch (fun candidate hmem => ?_)
        (RequestContext.fits_empty request) hfirst
      exact hbuiltIn candidate (mem_of_mem_candidates hmem)
    · cases h

/-- If no convention is chosen, the request is at fault. -/
theorem exists_fault_of_select {context before : RequestContext} {e : ConventionError}
    (h : manager.select request before = (.error e, context)) :
    ∃ fault, e = .invalidRequest fault := by
  simp only [select] at h
  split at h
  · next name _ =>
    simp only [selectNamed] at h
    split at h
    · cases h
      exact ⟨.unknownConvention name, rfl⟩
    · split at h
      · cases h
      · cases h
        exact ⟨.unsuitableConvention name, rfl⟩
  · split at h
    · cases h
    · cases h
      exact ⟨.noConvention, rfl⟩

end ConventionManager

end RemoteCall
