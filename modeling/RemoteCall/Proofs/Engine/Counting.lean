import Mathlib.Algebra.GroupWithZero.Nat
import RemoteCall.Proofs.Dictionary
import RemoteCall.Proofs.Engine.Courses

/-!
# Every request is counted once

Whatever becomes of a request, one counter goes up by one: the one of the convention and the
outcome that the request has ended with. So the counters of a run add up to the number of its
requests. Hooks need not do the same thing twice, so in a run every request comes with what the
functions and the hooks do while it is handled. Two engines never share their counters: on a
registry there is one engine that counts.
-/

namespace RemoteCall

/-! ## Sums over dictionaries -/

namespace Dictionary

variable {α : Type}

/-- The sum of what the values weigh. -/
def sumOf (weight : α → Nat) (dictionary : Dictionary α) : Nat :=
  (dictionary.entries.map fun entry => weight entry.2).sum

/-- Putting in a value adds what it weighs and takes away what its predecessor weighs. -/
theorem sumOf_insert (weight : α → Nat) (dictionary : Dictionary α) (name : String) (value : α) :
    (dictionary.insert name value).sumOf weight + ((dictionary.get? name).map weight).getD 0 =
      dictionary.sumOf weight + weight value :=
  Entries.sum_insert weight dictionary.sorted

end Dictionary

/-- Outcomes have labels of their own, so none is counted under another one's. -/
theorem Outcome.label_injective {outcome other : Outcome} (h : outcome.label = other.label) :
    outcome = other := by
  cases outcome <;> cases other <;> first | rfl | exact absurd h (by decide)

/-! ## Counting a request -/

namespace Metrics

/-- The number of requests that have been counted. -/
def total (metrics : Metrics) : Nat :=
  metrics.counters.sumOf observed

/-- What has been observed is the sum of all counters. -/
theorem observed_eq_sumOf (counters : Dictionary Nat) : observed counters = counters.sumOf id := by
  rw [observed, Dictionary.sumOf, List.sum_eq_foldl]
  rfl

/-- One counter goes up by one, and no other changes. -/
theorem count_record (metrics : Metrics) (convention other : String) (outcome outcome' : Outcome) :
    (metrics.record convention outcome).count other outcome' =
      metrics.count other outcome' +
        if convention = other ∧ outcome = outcome' then 1 else 0 := by
  by_cases hconvention : convention = other
  · subst hconvention
    by_cases houtcome : outcome = outcome'
    · subst houtcome
      simp [count, record]
    · have hlabel : outcome.label ≠ outcome'.label := fun h => houtcome (Outcome.label_injective h)
      simp [count, record, houtcome, hlabel]
  · simp [count, record, hconvention]

/-- The counters add up to one more. -/
theorem total_record (metrics : Metrics) (convention : String) (outcome : Outcome) :
    (metrics.record convention outcome).total = metrics.total + 1 := by
  have hinner := Dictionary.sumOf_insert id
    ((metrics.counters.get? convention).getD Dictionary.empty) outcome.label
    (metrics.count convention outcome + 1)
  have houter := Dictionary.sumOf_insert observed metrics.counters convention
    (((metrics.counters.get? convention).getD Dictionary.empty).insert outcome.label
      (metrics.count convention outcome + 1))
  rw [← observed_eq_sumOf, ← observed_eq_sumOf, Option.map_id, id, id, ← count] at hinner
  have hbefore : ((metrics.counters.get? convention).map observed).getD 0 =
      observed ((metrics.counters.get? convention).getD Dictionary.empty) := by
    cases metrics.counters.get? convention <;> rfl
  rw [hbefore] at houter
  simp only [total, record]
  omega

end Metrics

/-! ## Registering -/

namespace MetricsRegistry

/-- A name is registered once it has been tried, and those before it stay registered. -/
theorem mem_names_register {registry : MetricsRegistry} {name other : String} :
    other ∈ (registry.register name).2.names ↔ other = name ∨ other ∈ registry.names := by
  unfold register
  split
  · next hmem =>
    refine ⟨.inr, ?_⟩
    rintro (rfl | hother)
    · exact hmem
    · exact hother
  · exact List.mem_cons

/-- A name that is registered is refused, and the refusal changes nothing. -/
theorem register_of_mem {registry : MetricsRegistry} {name : String} (h : name ∈ registry.names) :
    registry.register name = (.error .alreadyRegistered, registry) :=
  if_pos h

/-- A name that is free in the registry can be taken, and is taken from then on. -/
theorem register_of_not_mem {registry : MetricsRegistry} {name : String}
    (h : name ∉ registry.names) : registry.register name = (.ok (), ⟨name :: registry.names⟩) :=
  if_neg h

end MetricsRegistry

namespace Metrics

variable {registry : MetricsRegistry}

/-- New counters can be registered where neither of their names is. -/
theorem register_eq_ok_iff {metrics : Metrics} :
    (register registry).1 = .ok metrics ↔
      metrics = empty ∧ requestsTotal ∉ registry.names ∧ requestDuration ∉ registry.names := by
  have hne : requestDuration ≠ requestsTotal := by decide
  by_cases htotal : requestsTotal ∈ registry.names
  · simp [register, MetricsRegistry.register_of_mem htotal, htotal]
  · by_cases hduration : requestDuration ∈ registry.names
    · have hduration' : requestDuration ∈ requestsTotal :: registry.names :=
        List.mem_cons_of_mem _ hduration
      simp [register, MetricsRegistry.register_of_not_mem htotal,
        MetricsRegistry.register_of_mem hduration', hduration]
    · have hduration' : requestDuration ∉ requestsTotal :: registry.names := by
        simp [hne, hduration]
      simp [register, MetricsRegistry.register_of_not_mem htotal,
        MetricsRegistry.register_of_not_mem hduration', htotal, hduration, eq_comm]

/-- However an attempt ends, the counters of requests are registered afterwards. -/
theorem mem_names_register : requestsTotal ∈ (register registry).2.names := by
  by_cases htotal : requestsTotal ∈ registry.names
  · simpa [register, MetricsRegistry.register_of_mem htotal] using htotal
  · rw [register, MetricsRegistry.register_of_not_mem htotal]
    -- what the durations come to does not matter: no name is ever taken out
    have hkept : requestsTotal ∈
        ((⟨requestsTotal :: registry.names⟩ : MetricsRegistry).register requestDuration).2.names :=
      MetricsRegistry.mem_names_register.mpr (.inr List.mem_cons_self)
    dsimp only
    split <;> next hregister => simpa [hregister] using hkept

end Metrics

namespace Engine

variable {conventions conventions' : ConventionManager} {api api' : Api}

/-- An engine can be put together unless it is to count where a name of its counters is
registered, and it has counted nothing. -/
theorem create_eq_ok_iff {registry : Option MetricsRegistry} {engine : Engine} :
    (create conventions api registry).1 = .ok engine ↔
      engine = ⟨api, conventions, registry.map fun _ => Metrics.empty⟩ ∧
        ∀ found ∈ registry, Metrics.requestsTotal ∉ found.names ∧
          Metrics.requestDuration ∉ found.names := by
  cases registry with
  | none => simp [create, eq_comm]
  | some registry =>
    have hregister := @Metrics.register_eq_ok_iff registry Metrics.empty
    rw [create]
    cases houtcome : Metrics.register registry with
    | mk outcome later =>
      rw [houtcome] at hregister
      cases outcome with
      | error e =>
        have hnames := mt (fun hnames => hregister.mpr ⟨rfl, hnames⟩) (by simp)
        simpa using fun _ => hnames
      | ok metrics =>
        obtain ⟨rfl, hnames⟩ := Metrics.register_eq_ok_iff.mp (congrArg Prod.fst houtcome)
        simp [hnames, eq_comm]

/-- Whatever has become of an engine on a registry, no other can count there. -/
theorem create_create (registry : MetricsRegistry) :
    create conventions' api' (create conventions api (some registry)).2 =
      (.error .alreadyRegistered, (create conventions api (some registry)).2) := by
  have hlater : (create conventions api (some registry)).2 =
      some (Metrics.register registry).2 := by
    rw [create]
    split <;> next hregister => rw [hregister]
  rw [hlater, create, Metrics.register, MetricsRegistry.register_of_mem Metrics.mem_names_register]

end Engine

/-! ## Counting a run -/

/-- A request, and what the functions and the hooks do while it is handled. -/
structure Turn where
  api : Api
  conventions : ConventionManager
  request : Http.Request

namespace Turn

/-- An engine for the turn alone, which does not count. -/
def engine (turn : Turn) : Engine :=
  ⟨turn.api, turn.conventions, none⟩

/-- How the request of the turn ends. -/
def ending (turn : Turn) : Engine.Handled :=
  turn.engine.dispatch turn.request

/-- Whether the request ends under a convention with an outcome. -/
def endsIn (convention : String) (outcome : Outcome) (turn : Turn) : Bool :=
  turn.ending.convention = convention && turn.ending.outcome = outcome

end Turn

namespace Engine

/-- The engine when it is the turn of a request. -/
def adopt (engine : Engine) (turn : Turn) : Engine :=
  { engine with api := turn.api, conventions := turn.conventions }

/-- Handles the requests of a run one by one. -/
def serve (engine : Engine) : List Turn → Engine × List Http.Response
  | [] => (engine, [])
  | turn :: rest =>
    let (engine, response) := (engine.adopt turn).handle turn.request
    let (engine, responses) := engine.serve rest
    (engine, response :: responses)

/-- Handles requests one by one, by functions and hooks that always do the same. -/
def handleAll (engine : Engine) : List Http.Request → Engine × List Http.Response
  | [] => (engine, [])
  | request :: rest =>
    let (engine, response) := engine.handle request
    let (engine, responses) := engine.handleAll rest
    (engine, response :: responses)

/-- Requests to one API and one set of conventions are a run in which neither changes. -/
theorem handleAll_eq_serve (engine : Engine) (requests : List Http.Request) :
    engine.handleAll requests =
      engine.serve (requests.map (Turn.mk engine.api engine.conventions)) := by
  induction requests generalizing engine with
  | nil => rfl
  | cons request rest ih =>
    have hrest := ih (engine.handle request).1
    exact congrArg (fun run : Engine × List Http.Response =>
      (run.1, (engine.handle request).2 :: run.2)) hrest

/-- What a run does to the counters: they add up to as many more as there are requests, and each
goes up by the requests that have ended so. -/
structure IsCounted (metrics : Metrics) (turns : List Turn) (later : Metrics) : Prop where
  total : later.total = metrics.total + turns.length
  count : ∀ convention outcome, later.count convention outcome =
    metrics.count convention outcome + turns.countP (Turn.endsIn convention outcome)

/-- A run without turns leaves the counters as they are. -/
theorem isCounted_nil (metrics : Metrics) : IsCounted metrics [] metrics := ⟨rfl, fun _ _ => rfl⟩

/-- A turn counts its request once, and leaves all other counters as they are. -/
theorem isCounted_record (metrics : Metrics) (turn : Turn) :
    IsCounted metrics [turn]
      (metrics.record turn.ending.convention turn.ending.outcome) where
  total := Metrics.total_record ..
  count := by
    intro convention outcome
    simp only [Metrics.count_record, List.countP_singleton, Turn.endsIn, Bool.and_eq_true,
      decide_eq_true_eq]

/-- What two runs count one after the other is what they count as one run. -/
theorem IsCounted.append {metrics later last : Metrics} {turns rest : List Turn}
    (h : IsCounted metrics turns later) (hrest : IsCounted later rest last) :
    IsCounted metrics (turns ++ rest) last where
  total := by
    rw [hrest.total, h.total, List.length_append]
    omega
  count := by
    intro convention outcome
    rw [hrest.count, h.count, List.countP_append]
    omega

/-- A turn counts how its own request ends, whatever has been served before. -/
theorem metrics_handle_adopt {engine : Engine} {metrics : Metrics}
    (hmetrics : engine.metrics = some metrics) (turn : Turn) :
    ((engine.adopt turn).handle turn.request).1.metrics =
      some (metrics.record turn.ending.convention turn.ending.outcome) := by
  simp only [handle, adopt, hmetrics, Option.map_some]
  rfl

/-- Each turn is answered as if it were served alone: what is counted has no part in the answers. -/
theorem responses_serve (engine : Engine) (turns : List Turn) :
    (engine.serve turns).2 = turns.map fun turn => turn.ending.response := by
  induction turns generalizing engine with
  | nil => rfl
  | cons turn rest ih => exact congrArg (_ :: ·) (ih _)

/-- An engine that counts keeps counting through every run, and counts each turn. -/
theorem exists_isCounted_serve {engine : Engine} {metrics : Metrics}
    (hmetrics : engine.metrics = some metrics) (turns : List Turn) :
    ∃ later, (engine.serve turns).1.metrics = some later ∧ IsCounted metrics turns later := by
  induction turns generalizing engine metrics with
  | nil => exact ⟨metrics, hmetrics, isCounted_nil metrics⟩
  | cons turn rest ih =>
    obtain ⟨last, hlast, hcounted⟩ := ih (metrics_handle_adopt hmetrics turn)
    exact ⟨last, hlast, (isCounted_record metrics turn).append hcounted⟩

/-- **Whatever the hooks do, every request of a run is answered and counted once.** The end of
every hook comes to one that is expected of it, the answers are those that the ends call for, and
the counters tell how the requests have ended. This also holds if the hooks always do the same. -/
theorem isContained_and_isCounted_serve (api : Api) (conventions : ConventionManager)
    (metrics : Metrics) (turns : List Turn) :
    (∀ turn ∈ turns, turn.engine.IsContained turn.request) ∧
      (serve ⟨api, conventions, some metrics⟩ turns).2 =
        turns.map (fun turn => turn.ending.response) ∧
      (∃ later, (serve ⟨api, conventions, some metrics⟩ turns).1.metrics = some later ∧
        IsCounted metrics turns later) ∧
      ∀ requests, handleAll ⟨api, conventions, some metrics⟩ requests =
        serve ⟨api, conventions, some metrics⟩ (requests.map (Turn.mk api conventions)) :=
  ⟨fun turn _ => isContained turn.engine turn.request, responses_serve _ turns,
    exists_isCounted_serve rfl turns, handleAll_eq_serve _⟩

end Engine

end RemoteCall
