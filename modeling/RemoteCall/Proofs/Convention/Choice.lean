import Mathlib.Data.List.Find
import Mathlib.Data.List.Nodup
import RemoteCall.Proofs.Convention.Containment

/-!
# The order in which conventions are chosen

The conventions of a server keep their places from the first day on; what happens to them later
moves each of them between being usable and not. For a request that names a convention that one
is asked, and no other. For any other request the default convention is asked first, then the
others where they stand, and the first that matches is chosen. The methods that are announced are
collected on their own, and the method of a request that gets a convention is among them.
-/

namespace RemoteCall

/-- A convention matches a request: it is usable, takes the method, and its hook says yes to the
request and to what has been read of the body. -/
structure ManagedConvention.Matches (managed : ManagedConvention) (request : Http.Request)
    (context : RequestContext) : Prop where
  usable : managed.isUsable = true
  method : request.method ∈ managed.methods request
  understood : (managed.convention.understands request context.body).1 = .returned true

/-- The request names no convention, or the empty name. -/
def Http.Request.IsOpen (request : Http.Request) : Prop :=
  ∀ name, request.parameter? ConventionManager.conventionParameter = some name → name = ""

/-- A convention understands a request exactly when it matches: it is usable, takes the method and
its hook says yes. -/
theorem ManagedConvention.understands_iff_matches {managed : ManagedConvention}
    {request : Http.Request} {context : RequestContext}
    (hmethod : request.method ≠ Http.Method.options) :
    (managed.understands request context).1 = true ↔ managed.Matches request context := by
  have htakes : managed.takesMethod request = true ↔ request.method ∈ managed.methods request := by
    simp [takesMethod, hmethod]
  rw [understands_eq_true_iff, htakes]
  constructor
  · rintro ⟨husable, htaken, hyes⟩
    exact ⟨husable, htaken, hyes⟩
  · intro h
    exact ⟨h.usable, h.method, h.understood⟩

namespace ConventionManager

/-! ## The life of the conventions -/

/-- A step in the life of the conventions: one of them is started or closed, or all are closed. -/
inductive Step where
  | start (name : String)
  | close (name : String)
  | shutDown

/-- The conventions after a step. -/
def take (manager : ConventionManager) : Step → ConventionManager
  | .start name => manager.modify name ManagedConvention.start
  | .close name => manager.modify name ManagedConvention.close
  | .shutDown => manager.shutDown

/-- The conventions after some steps. -/
def after (manager : ConventionManager) (steps : List Step) : ConventionManager :=
  steps.foldl take manager

/-- Where a step puts the convention of a name, if it is about that one. -/
def Step.state? (name : String) : Step → Option Lifecycle
  | .start other => if other = name then some .usable else none
  | .close other => if other = name then some .closed else none
  | .shutDown => some .closed

/-- Where the last of the steps that are about a convention puts it. -/
def lastState (steps : List Step) (name : String) (first : Lifecycle) : Lifecycle :=
  (steps.filterMap (Step.state? name)).getLast?.getD first

/-- Conventions that are where their names tell. -/
def ofStates (conventions : List Convention) (defaultName : String)
    (state : String → Lifecycle) : ConventionManager :=
  ⟨conventions.map fun convention => ⟨convention, state convention.name⟩, defaultName⟩

variable {conventions : List Convention} {defaultName : String} {state : String → Lifecycle}

/-- A change of one convention moves its name to the new state and no other name. -/
theorem modify_ofStates (hnames : (conventions.map Convention.name).Nodup) (name : String)
    {change : ManagedConvention → ManagedConvention} {new : Lifecycle}
    (hchange : ∀ managed, change managed = ⟨managed.convention, new⟩) :
    (ofStates conventions defaultName state).modify name change =
      ofStates conventions defaultName fun other => if name = other then new else state other := by
  simp only [modify, ofStates, ConventionManager.mk.injEq, and_true]
  induction conventions with
  | nil => rfl
  | cons convention rest ih =>
    obtain ⟨hfirst, hrest⟩ := List.nodup_cons.mp hnames
    rw [List.map_cons, modify.modifyFirst, ManagedConvention.name]
    split
    · next hname =>
      subst hname
      -- Those behind it have other names, so they stay where they are.
      have hothers : ∀ other ∈ rest, convention.name ≠ other.name := by
        intro other hother heq
        exact hfirst (List.mem_map.mpr ⟨other, hother, heq.symm⟩)
      rw [List.map_cons, hchange, if_pos rfl, List.cons.injEq]
      refine ⟨rfl, List.map_congr_left fun other hother => ?_⟩
      rw [if_neg (hothers other hother)]
    · next hname => rw [ih hrest, List.map_cons, if_neg (Ne.symm hname)]

/-- A step moves the convention that it is about, and leaves the others where they are. -/
theorem take_ofStates (hnames : (conventions.map Convention.name).Nodup) (step : Step) :
    (ofStates conventions defaultName state).take step =
      ofStates conventions defaultName fun name => (step.state? name).getD (state name) := by
  cases step with
  | start name =>
    have hstart : ∀ managed : ManagedConvention,
        managed.start = ⟨managed.convention, .usable⟩ := fun managed => rfl
    rw [take, modify_ofStates hnames name hstart]
    congr 1
    funext other
    by_cases hname : name = other <;> simp [Step.state?, hname]
  | close name =>
    have hclose : ∀ managed : ManagedConvention,
        managed.close = ⟨managed.convention, .closed⟩ := fun managed => rfl
    rw [take, modify_ofStates hnames name hclose]
    congr 1
    funext other
    by_cases hname : name = other <;> simp [Step.state?, hname]
  | shutDown => simp [take, shutDown, ofStates, ManagedConvention.close, Step.state?]

/-- A step puts its convention where it does, until a later one moves it. -/
theorem lastState_cons (step : Step) (steps : List Step) (name : String) (first : Lifecycle) :
    lastState (step :: steps) name first =
      lastState steps name ((step.state? name).getD first) := by
  cases hstate : step.state? name with
  | none => simp [lastState, hstate]
  | some state => simp [lastState, hstate, List.getLast?_cons]

/-- The conventions after some steps are those of the first day in the same order, each where the
last step about it has put it. -/
theorem after_ofStates (hnames : (conventions.map Convention.name).Nodup) (steps : List Step) :
    (ofStates conventions defaultName state).after steps =
      ofStates conventions defaultName fun name => lastState steps name (state name) := by
  induction steps generalizing state with
  | nil => rfl
  | cons step steps ih =>
    have hstep : (ofStates conventions defaultName state).after (step :: steps) =
        ((ofStates conventions defaultName state).take step).after steps := rfl
    rw [hstep, take_ofStates hnames, ih]
    congr 1
    funext name
    rw [lastState_cons]

/-- At first all conventions are usable. -/
theorem ofConventions_eq_ofStates (conventions : List Convention) (defaultName : String) :
    ofConventions conventions defaultName =
      ofStates conventions defaultName fun _ => .usable := rfl

/-- The states of conventions have no part in their names. -/
theorem names_ofStates :
    (ofStates conventions defaultName state).names = conventions.map Convention.name := by
  simp [names, ofStates, ManagedConvention.name, Function.comp_def]

/-! ## Turns -/

variable {manager : ConventionManager} {request : Http.Request} {context : RequestContext}
  {managed : ManagedConvention}

/-- What is kept beside a request when some conventions have looked at it. -/
def contextAfter (request : Http.Request) (tried : List ManagedConvention)
    (context : RequestContext) : RequestContext :=
  tried.foldl (fun context managed => (managed.understands request context).2) context

/-- What is kept beside a request when it is the turn of a convention: those that are tried before
it have looked at the request. -/
def turn (request : Http.Request) (candidates : List ManagedConvention)
    (context : RequestContext) (name : String) : RequestContext :=
  contextAfter request (candidates.takeWhile fun tried => tried.name ≠ name) context

/-- A convention matches a request when it is its turn. -/
def MatchesInTurn (manager : ConventionManager) (request : Http.Request)
    (context : RequestContext) (managed : ManagedConvention) : Prop :=
  managed.Matches request (turn request manager.candidates context managed.name)

/-- The first convention that is tried is the first to look. -/
theorem turn_self (rest : List ManagedConvention) :
    turn request (managed :: rest) context managed.name = context := by
  simp [turn, contextAfter]

/-- Every other convention looks after the first one has looked. -/
theorem turn_cons {other : ManagedConvention} (hne : managed.name ≠ other.name)
    (rest : List ManagedConvention) :
    turn request (managed :: rest) context other.name =
      turn request rest (managed.understands request context).2 other.name := by
  simp [turn, contextAfter, hne]

/-- Trying one convention after another finds the first that understands the request in its
turn. -/
theorem firstMatch_eq_find? {candidates : List ManagedConvention}
    (hnames : (candidates.map ManagedConvention.name).Nodup) :
    (firstMatch request candidates context).1 = candidates.find? fun managed =>
      (managed.understands request (turn request candidates context managed.name)).1 := by
  induction candidates generalizing context with
  | nil => rfl
  | cons first rest ih =>
    obtain ⟨hfirst, hrest⟩ := List.nodup_cons.mp hnames
    rw [firstMatch, List.find?_cons, turn_self]
    split
    · next hyes => rw [hyes]
    · next context' hno =>
      rw [hno, ih hrest]
      have hturn : ∀ other ∈ rest, turn request (first :: rest) context other.name =
          turn request rest context' other.name := by
        intro other hother
        have hne : first.name ≠ other.name := fun heq =>
          hfirst (List.mem_map.mpr ⟨other, hother, heq.symm⟩)
        rw [turn_cons hne, hno]
      exact List.find?_congr fun other hother => by rw [hturn other hother]

/-! ## The choice -/

/-- Where names are told apart, a name belongs to one convention. -/
theorem eq_of_name_eq (hnames : manager.names.Nodup) {other : ManagedConvention}
    (hmem : managed ∈ manager.conventions) (hother : other ∈ manager.conventions)
    (heq : other.name = managed.name) : other = managed :=
  List.inj_on_of_nodup_map hnames hother hmem heq

/-- With distinct names, a convention is found by its name. -/
theorem get?_eq_some_iff (hnames : manager.names.Nodup) {name : String} :
    manager.get? name = some managed ↔ managed ∈ manager.conventions ∧ managed.name = name := by
  constructor
  · intro h
    exact ⟨mem_of_get? h, by simpa using List.find?_some h⟩
  · rintro ⟨hmem, rfl⟩
    exact get?_eq_some hmem fun other hother heq => eq_of_name_eq hnames hmem hother heq

/-- Where names are told apart, no convention is tried twice. -/
theorem nodup_candidates (hnames : manager.names.Nodup) :
    (manager.candidates.map ManagedConvention.name).Nodup := by
  rw [candidates, List.map_append, List.nodup_append]
  refine ⟨?_, hnames.sublist (List.filter_sublist.map ManagedConvention.name), ?_⟩
  · cases manager.get? manager.defaultName <;> simp
  · rintro name hdefault other hother rfl
    obtain ⟨found, hfound, rfl⟩ := List.mem_map.mp hdefault
    obtain ⟨managed, hmanaged, hname⟩ := List.mem_map.mp hother
    have hfoundName := ((get?_eq_some_iff hnames).mp (Option.mem_toList.mp hfound)).2
    simp [hname, hfoundName] at hmanaged

/-- The conventions that are tried are all of them. -/
theorem mem_candidates_iff (hnames : manager.names.Nodup) :
    managed ∈ manager.candidates ↔ managed ∈ manager.conventions := by
  refine ⟨mem_of_mem_candidates, fun hmem => List.mem_append.mpr ?_⟩
  by_cases hname : managed.name = manager.defaultName
  · exact Or.inl (Option.mem_toList.mpr ((get?_eq_some_iff hnames).mpr ⟨hmem, hname⟩))
  · exact Or.inr (List.mem_filter.mpr ⟨hmem, by simpa using hname⟩)

/-- The default convention has the first turn. -/
theorem turn_defaultName (hnames : manager.names.Nodup) (hmem : managed ∈ manager.conventions)
    (hname : managed.name = manager.defaultName) :
    turn request manager.candidates context managed.name = context := by
  have hget : manager.get? manager.defaultName = some managed :=
    (get?_eq_some_iff hnames).mpr ⟨hmem, hname⟩
  rw [candidates, hget, Option.toList_some, List.singleton_append, turn_self]

/-- A named convention is chosen exactly when there is one and it understands the request. -/
theorem selectNamed_eq_ok_iff {name : String} :
    (manager.selectNamed name request context).1 = .ok managed ↔
      manager.get? name = some managed ∧ (managed.understands request context).1 = true := by
  rw [selectNamed]
  cases hget : manager.get? name with
  | none => simp
  | some found =>
    rw [Option.some.injEq]
    split
    · next hno => cases hno
    · next other hother =>
      cases hother
      split
      · next hyes =>
        constructor
        · intro h
          cases h
          exact ⟨rfl, congrArg Prod.fst hyes⟩
        · rintro ⟨rfl, -⟩
          rfl
      · next hno =>
        constructor
        · intro h
          cases h
        · rintro ⟨rfl, h⟩
          rw [hno] at h
          cases h

/-- A request that names a convention gets that one, if it matches. -/
theorem select_eq_ok_iff_of_named (hnames : manager.names.Nodup)
    (hmethod : request.method ≠ Http.Method.options) {name : String}
    (hnamed : request.parameter? conventionParameter = some name) (hne : name ≠ "") :
    (manager.select request context).1 = .ok managed ↔
      managed ∈ manager.conventions ∧ managed.name = name ∧ managed.Matches request context := by
  have hset : (some name).filter (· ≠ "") = some name :=
    Option.filter_some_pos (by simpa using hne)
  rw [select, hnamed, hset, selectNamed_eq_ok_iff, get?_eq_some_iff hnames,
    ManagedConvention.understands_iff_matches hmethod, and_assoc]

/-- Any other request gets the first candidate that matches in its turn. -/
theorem select_eq_ok_iff_of_isOpen (hnames : manager.names.Nodup) (hopen : request.IsOpen) :
    (manager.select request context).1 = .ok managed ↔
      manager.candidates.find? (fun managed => (managed.understands request
        (turn request manager.candidates context managed.name)).1) = some managed := by
  have hnone : (request.parameter? conventionParameter).filter (· ≠ "") = none := by
    cases hnamed : request.parameter? conventionParameter with
    | none => rfl
    | some name => simp [hopen name hnamed]
  rw [← firstMatch_eq_find? (nodup_candidates hnames), select, hnone]
  cases hfirst : firstMatch request manager.candidates context with
  | mk found more => cases found <;> simp

/-- The first candidate that fits is the default convention, if that fits, and otherwise the
first one that fits where they stand. -/
theorem find?_candidates_eq_some_iff (hnames : manager.names.Nodup)
    (fits : ManagedConvention → Bool) :
    manager.candidates.find? fits = some managed ↔
      managed ∈ manager.conventions ∧ fits managed = true ∧
        (managed.name = manager.defaultName ∨
          (∀ other ∈ manager.conventions, other.name = manager.defaultName →
              fits other = false) ∧
            ∃ before after, manager.conventions = before ++ managed :: after ∧
              ∀ other ∈ before, fits other = false) := by
  have hpreferred : (manager.get? manager.defaultName).toList.find? fits = some managed ↔
      managed ∈ manager.conventions ∧ managed.name = manager.defaultName ∧
        fits managed = true := by
    rw [← and_assoc, ← get?_eq_some_iff hnames]
    cases manager.get? manager.defaultName with
    | none => simp
    | some found =>
      rw [Option.toList_some, List.find?_singleton]
      grind
  have hnone : (manager.get? manager.defaultName).toList.find? fits = none ↔
      ∀ other ∈ manager.conventions, other.name = manager.defaultName → fits other = false := by
    simp only [List.find?_eq_none, Option.mem_toList, get?_eq_some_iff hnames,
      Bool.not_eq_true, and_imp]
  rw [candidates, List.find?_append, Option.or_eq_some_iff, hpreferred, hnone, List.find?_filter,
    List.find?_eq_some_iff_append]
  constructor
  · rintro (⟨hmem, hname, hfits⟩ | ⟨hdefault, hfits, before, after, heq, hbefore⟩)
    · exact ⟨hmem, hfits, Or.inl hname⟩
    · have hmem : managed ∈ manager.conventions := by simp [heq]
      refine ⟨hmem, by simp_all, Or.inr ⟨hdefault, before, after, heq, fun other hother => ?_⟩⟩
      -- Those in front that were passed over as having the name of the default do not fit either.
      have hotherMem : other ∈ manager.conventions := by simp [heq, hother]
      by_cases hname : other.name = manager.defaultName
      · exact hdefault other hotherMem hname
      · simpa [hname] using hbefore other hother
  · rintro ⟨hmem, hfits, hname | ⟨hdefault, before, after, heq, hbefore⟩⟩
    · exact Or.inl ⟨hmem, hname, hfits⟩
    · have hne : managed.name ≠ manager.defaultName := fun hname => by
        rw [hdefault managed hmem hname] at hfits
        cases hfits
      refine Or.inr ⟨hdefault, by simp [hne, hfits], before, after, heq, fun other hother => ?_⟩
      simp [hbefore other hother]

/-! ## The methods that are announced -/

/-- Methods are added one by one, each unless it is there. -/
theorem addMethods_cons (methods : List Http.Method) (first : Http.Method)
    (more : List Http.Method) : addMethods methods (first :: more) =
      addMethods (if methods.contains first then methods else methods ++ [first]) more := rfl

/-- Adding methods brings these methods and keeps the others. -/
theorem mem_addMethods_iff {methods more : List Http.Method} {method : Http.Method} :
    method ∈ addMethods methods more ↔ method ∈ methods ∨ method ∈ more := by
  induction more generalizing methods with
  | nil => simp [addMethods]
  | cons first more ih =>
    rw [addMethods_cons, ih]
    split
    · next hseen =>
      have hmem : first ∈ methods := by simpa using hseen
      grind
    · grind

/-- No method is added twice. -/
theorem nodup_addMethods {methods : List Http.Method} (h : methods.Nodup)
    (more : List Http.Method) : (addMethods methods more).Nodup := by
  induction more generalizing methods with
  | nil => exact h
  | cons first more ih =>
    rw [addMethods_cons]
    apply ih
    split
    · exact h
    · next hnew => exact List.nodup_append.mpr ⟨h, List.pairwise_singleton _ _, by grind⟩

/-- Methods are added behind those that are there. -/
theorem prefix_addMethods (methods more : List Http.Method) :
    methods <+: addMethods methods more := by
  induction more generalizing methods with
  | nil => exact List.prefix_rfl
  | cons first more ih =>
    rw [addMethods_cons]
    refine List.IsPrefix.trans ?_ (ih _)
    split
    · exact List.prefix_rfl
    · exact List.prefix_append methods [first]

/-- The methods are collected into one list. -/
theorem allowedMethods_eq (manager : ConventionManager) (request : Http.Request) :
    manager.allowedMethods request = addMethods [Http.Method.options]
      ((manager.conventions.filter ManagedConvention.isUsable).flatMap fun managed =>
        managed.methods request) := by
  rw [allowedMethods, addMethods, List.foldl_flatMap]
  rfl

/-- Announced are `OPTIONS` and the methods that some usable convention takes. -/
theorem mem_allowedMethods_iff {method : Http.Method} :
    method ∈ manager.allowedMethods request ↔ method = Http.Method.options ∨
      ∃ managed ∈ manager.conventions, managed.isUsable = true ∧
        method ∈ managed.methods request := by
  simp [allowedMethods_eq, mem_addMethods_iff, and_assoc]

/-! ## What clients can rely on -/

/-- What holds of the choice of a convention for a request, and of the methods that are
announced beside it. -/
structure ChoosesFor (manager : ConventionManager) (request : Http.Request) : Prop where
  named : ∀ {name}, request.parameter? conventionParameter = some name → name ≠ "" →
    ∀ context managed, (manager.select request context).1 = .ok managed ↔
      managed ∈ manager.conventions ∧ managed.name = name ∧ managed.Matches request context
  found : request.IsOpen → ∀ context,
    (∃ managed, (manager.select request context).1 = .ok managed) ↔
      ∃ managed ∈ manager.conventions, manager.MatchesInTurn request context managed
  preferred : request.IsOpen → ∀ context managed, managed.name = manager.defaultName →
    ((manager.select request context).1 = .ok managed ↔
      managed ∈ manager.conventions ∧ managed.Matches request context)
  ordered : request.IsOpen → ∀ context managed, managed.name ≠ manager.defaultName →
    ((manager.select request context).1 = .ok managed ↔
      manager.MatchesInTurn request context managed ∧
        (∀ other ∈ manager.conventions, other.name = manager.defaultName →
          ¬ other.Matches request context) ∧
        ∃ before after, manager.conventions = before ++ managed :: after ∧
          ∀ other ∈ before, ¬ manager.MatchesInTurn request context other)
  steady : ∀ context managed, (∀ kept, (managed.convention.understands request kept).1 =
    (managed.convention.understands request context.body).1) →
      (manager.MatchesInTurn request context managed ↔ managed.Matches request context)
  refused : ∀ context e, (manager.select request context).1 = .error e →
    ∃ fault, e = .invalidRequest fault
  allowed : ∀ context managed, (manager.select request context).1 = .ok managed →
    request.method ∈ manager.allowedMethods request
  options : (manager.allowedMethods request).head? = some Http.Method.options
  nodup : (manager.allowedMethods request).Nodup
  announced : ∀ method, method ∈ manager.allowedMethods request ↔
    method = Http.Method.options ∨ ∃ managed ∈ manager.conventions, managed.isUsable = true ∧
      method ∈ managed.methods request
  closed : ∀ context, ∃ fault,
    (manager.shutDown.select request context).1 = .error (.invalidRequest fault)
  closedMethods : manager.shutDown.allowedMethods request = [Http.Method.options]

/-- The choice for a request that names no convention, told by the turns. -/
theorem select_eq_ok_iff_matchesInTurn (hnames : manager.names.Nodup)
    (hmethod : request.method ≠ Http.Method.options) (hopen : request.IsOpen) :
    (manager.select request context).1 = .ok managed ↔
      managed ∈ manager.conventions ∧ manager.MatchesInTurn request context managed ∧
        (managed.name = manager.defaultName ∨
          (∀ other ∈ manager.conventions, other.name = manager.defaultName →
              ¬ manager.MatchesInTurn request context other) ∧
            ∃ before after, manager.conventions = before ++ managed :: after ∧
              ∀ other ∈ before, ¬ manager.MatchesInTurn request context other) := by
  rw [select_eq_ok_iff_of_isOpen hnames hopen, find?_candidates_eq_some_iff hnames]
  simp only [MatchesInTurn, ← ManagedConvention.understands_iff_matches hmethod,
    Bool.not_eq_true]

/-- A default convention has the first turn, so it matches in its turn if it matches at once. -/
theorem matchesInTurn_iff_of_default (hnames : manager.names.Nodup)
    (hmem : managed ∈ manager.conventions) (hname : managed.name = manager.defaultName) :
    manager.MatchesInTurn request context managed ↔ managed.Matches request context := by
  rw [MatchesInTurn, turn_defaultName hnames hmem hname]

/-- What has been read of the body meanwhile matters only to a hook that asks for it. -/
theorem matchesInTurn_iff_of_steady
    (hsteady : ∀ kept, (managed.convention.understands request kept).1 =
      (managed.convention.understands request context.body).1) :
    manager.MatchesInTurn request context managed ↔ managed.Matches request context := by
  constructor
  · intro h
    exact ⟨h.usable, h.method, (hsteady _).symm.trans h.understood⟩
  · intro h
    exact ⟨h.usable, h.method, (hsteady _).trans h.understood⟩

/-- Whatever convention is chosen matches the request, as it is when that one is asked. -/
theorem exists_matches_of_select (hnames : manager.names.Nodup)
    (hmethod : request.method ≠ Http.Method.options)
    (h : (manager.select request context).1 = .ok managed) :
    managed ∈ manager.conventions ∧ ∃ context', managed.Matches request context' := by
  by_cases hopen : request.IsOpen
  · obtain ⟨hmem, hmatches, -⟩ := (select_eq_ok_iff_matchesInTurn hnames hmethod hopen).mp h
    exact ⟨hmem, _, hmatches⟩
  · simp only [Http.Request.IsOpen, Classical.not_forall] at hopen
    obtain ⟨name, hnamed, hne⟩ := hopen
    obtain ⟨hmem, -, hmatches⟩ := (select_eq_ok_iff_of_named hnames hmethod hnamed hne).mp h
    exact ⟨hmem, _, hmatches⟩

/-- Some convention is chosen as soon as one matches in its turn. -/
theorem exists_select_iff (hnames : manager.names.Nodup)
    (hmethod : request.method ≠ Http.Method.options) (hopen : request.IsOpen) :
    (∃ managed, (manager.select request context).1 = .ok managed) ↔
      ∃ managed ∈ manager.conventions, manager.MatchesInTurn request context managed := by
  simp only [select_eq_ok_iff_of_isOpen hnames hopen, MatchesInTurn,
    ← ManagedConvention.understands_iff_matches hmethod, ← mem_candidates_iff hnames]
  rw [← Option.isSome_iff_exists, List.find?_isSome]

/-- After the shutdown no convention is usable. -/
theorem not_isUsable_of_mem_shutDown (h : managed ∈ manager.shutDown.conventions) :
    managed.isUsable = false := by
  obtain ⟨other, -, rfl⟩ := List.mem_map.mp h
  rfl

/-- Nothing is chosen any more after the end. -/
theorem exists_fault_of_shutDown (hnames : manager.names.Nodup)
    (hmethod : request.method ≠ Http.Method.options) (context : RequestContext) :
    ∃ fault, (manager.shutDown.select request context).1 = .error (.invalidRequest fault) := by
  have hsame : manager.shutDown.names = manager.names := List.map_map
  have hnames' : manager.shutDown.names.Nodup := hsame ▸ hnames
  rcases hselect : manager.shutDown.select request context with ⟨e | managed, context'⟩
  · obtain ⟨fault, rfl⟩ := exists_fault_of_select hselect
    exact ⟨fault, rfl⟩
  · obtain ⟨hmem, _, hmatches⟩ :=
      exists_matches_of_select hnames' hmethod (congrArg Prod.fst hselect)
    have husable := hmatches.usable
    rw [not_isUsable_of_mem_shutDown hmem] at husable
    cases husable

/-- Where names are told apart, the choice is as it should be, in any states. -/
theorem choosesFor_of_nodup (hnames : manager.names.Nodup)
    (hmethod : request.method ≠ Http.Method.options) : manager.ChoosesFor request where
  named hnamed hne context managed := select_eq_ok_iff_of_named hnames hmethod hnamed hne
  found hopen context := exists_select_iff hnames hmethod hopen
  preferred hopen context managed hname := by
    rw [select_eq_ok_iff_matchesInTurn hnames hmethod hopen]
    constructor
    · rintro ⟨hmem, hmatches, -⟩
      exact ⟨hmem, (matchesInTurn_iff_of_default hnames hmem hname).mp hmatches⟩
    · rintro ⟨hmem, hmatches⟩
      exact ⟨hmem, (matchesInTurn_iff_of_default hnames hmem hname).mpr hmatches, Or.inl hname⟩
  ordered hopen context managed hname := by
    rw [select_eq_ok_iff_matchesInTurn hnames hmethod hopen]
    constructor
    · rintro ⟨hmem, hmatches, hdefault | ⟨hdefault, hfirst⟩⟩
      · exact absurd hdefault hname
      · refine ⟨hmatches, fun other hother heq => ?_, hfirst⟩
        rw [← matchesInTurn_iff_of_default hnames hother heq]
        exact hdefault other hother heq
    · rintro ⟨hmatches, hdefault, hfirst⟩
      have hmem : managed ∈ manager.conventions := by
        obtain ⟨before, after, heq, -⟩ := hfirst
        simp [heq]
      refine ⟨hmem, hmatches, Or.inr ⟨fun other hother heq => ?_, hfirst⟩⟩
      rw [matchesInTurn_iff_of_default hnames hother heq]
      exact hdefault other hother heq
  steady context managed := matchesInTurn_iff_of_steady
  refused context e h :=
    exists_fault_of_select (Prod.ext h rfl : manager.select request context = (.error e, _))
  allowed context managed h := by
    obtain ⟨hmem, _, hmatches⟩ := exists_matches_of_select hnames hmethod h
    exact mem_allowedMethods_iff.mpr (Or.inr ⟨managed, hmem, hmatches.usable, hmatches.method⟩)
  options := by
    rw [allowedMethods_eq]
    obtain ⟨more, heq⟩ := prefix_addMethods [Http.Method.options]
      ((manager.conventions.filter ManagedConvention.isUsable).flatMap (·.methods request))
    rw [← heq]
    rfl
  nodup := by
    rw [allowedMethods_eq]
    exact nodup_addMethods (List.pairwise_singleton _ _) _
  announced method := mem_allowedMethods_iff
  closed := exists_fault_of_shutDown hnames hmethod
  closedMethods := by
    have hnone : manager.shutDown.conventions.filter ManagedConvention.isUsable = [] :=
      List.filter_eq_nil_iff.mpr fun managed hmem => by
        simp [not_isUsable_of_mem_shutDown hmem]
    rw [allowedMethods_eq, hnone]
    rfl

/-- **The choice of a convention is sound, complete and ordered.** Whatever happens to the
conventions of a server, they stay the same and in the same order, each where the last step about
it has put it, and a request gets the one that it names, or the default one, or the first of all
that matches, or a fault; its method is announced if it gets one. -/
theorem choosesFor_after (conventions : List Convention) (defaultName : String)
    (hnames : (conventions.map Convention.name).Nodup) (steps : List Step)
    (request : Http.Request) (hmethod : request.method ≠ Http.Method.options) :
    (ofConventions conventions defaultName).after steps =
        ofStates conventions defaultName (fun name => lastState steps name .usable) ∧
      ((ofConventions conventions defaultName).after steps).ChoosesFor request := by
  have hstates : (ofConventions conventions defaultName).after steps =
      ofStates conventions defaultName (fun name => lastState steps name .usable) := by
    rw [ofConventions_eq_ofStates, after_ofStates hnames]
  refine ⟨hstates, choosesFor_of_nodup ?_ hmethod⟩
  rw [hstates, names_ofStates]
  exact hnames

/-- The choice is as it should be for three conventions of which one is started again after the
shutdown. -/
theorem choosesFor_after_shutDown_start :
    let steps := [Step.close Standard.name, .shutDown, .start Script.name, .start "other"]
    let request := Http.Request.ofTarget Http.Method.get "/call?output=json"
    (Convention.builtIn.map Convention.name).Nodup ∧ request.method ≠ Http.Method.options ∧
      lastState steps Standard.name .usable = .closed ∧
      lastState steps Script.name .usable = .usable ∧
      (ofConventions Convention.builtIn Standard.name).after steps =
        ofStates Convention.builtIn Standard.name (fun name => lastState steps name .usable) ∧
      ((ofConventions Convention.builtIn Standard.name).after steps).ChoosesFor request :=
  ⟨by decide, by decide, by decide, by decide,
    choosesFor_after Convention.builtIn Standard.name (by decide) _ _ (by decide)⟩

end ConventionManager

end RemoteCall
