import Mathlib.Data.List.Count
import Mathlib.Data.List.Forall2
import Mathlib.Logic.Relation
import RemoteCall.Proofs.Api.Report

/-!
# Validation is exact

What a declaration asks for can be said without a check: which values must be there, of what type
they are, and which of the listed entries are set. The check finds nothing if all that holds, and
otherwise tells, in the order of the declarations, of each one that is broken and of nothing else.
It does not see empty values, nor parameters that are not mentioned.
-/

namespace RemoteCall

/-! ## Parameters that are set -/

/-- A parameter is set: it has a value, which is not empty. -/
def Dictionary.IsSet (parameters : Parameters) (name : String) : Prop :=
  ∃ value, parameters.get? name = some value ∧ value ≠ ""

section SetValues

variable {parameters : Parameters} {name value : String}

/-- The lookup of the checks is the plain lookup, with an empty value taken for none. -/
theorem Dictionary.setValue?_eq_some_iff :
    parameters.setValue? name = some value ↔ parameters.get? name = some value ∧ value ≠ "" := by
  rw [setValue?, Option.filter_eq_some_iff, decide_eq_true_eq]

/-- The lookup of the checks finds a value exactly for the names that count as set. -/
theorem Dictionary.isSome_setValue?_iff :
    (parameters.setValue? name).isSome = true ↔ parameters.IsSet name := by
  simp only [Option.isSome_iff_exists, setValue?_eq_some_iff, IsSet]

/-- The lookup of the checks finds nothing exactly for the names that do not count as set. -/
theorem Dictionary.setValue?_eq_none_iff :
    parameters.setValue? name = none ↔ ¬ parameters.IsSet name := by
  rw [← isSome_setValue?_iff, Option.not_isSome_iff_eq_none]

end SetValues

/-! ## What declarations ask for -/

/-- A declared parameter is as declared: it is set if it must be, and its value is of its type if
it is set. -/
structure ParamSpec.SatisfiedBy (declaration : ParamSpec) (parameters : Parameters) : Prop where
  present : declaration.required = true → parameters.IsSet declaration.name
  valid : ∀ value, parameters.get? declaration.name = some value → value ≠ "" →
    declaration.type.accepts value = true

/-- As many of the listed entries are set as the kind of the combination asks for: exactly one, at
least one, none or all, not all. -/
def ParamCombo.SatisfiedBy (combo : ParamCombo) (parameters : Parameters) : Prop :=
  match combo.kind with
  | .exclusiveOr => ∃ before name after, combo.params = before ++ name :: after ∧
      parameters.IsSet name ∧ ∀ other ∈ before ++ after, ¬ parameters.IsSet other
  | .inclusiveOr => ∃ name ∈ combo.params, parameters.IsSet name
  | .allOrNone => (∀ name ∈ combo.params, ¬ parameters.IsSet name) ∨
      ∀ name ∈ combo.params, parameters.IsSet name
  | .notAll => ∃ name ∈ combo.params, ¬ parameters.IsSet name

/-- The element that tells how a declared parameter is not as declared. -/
inductive ParamSpec.BrokenAs (declaration : ParamSpec) (parameters : Parameters) : Element → Prop
  | missing (hrequired : declaration.required = true)
      (hunset : ¬ parameters.IsSet declaration.name) :
      BrokenAs declaration parameters
        (.mk "missing-param" none [⟨none, "param", declaration.name⟩] [] none)
  | invalid {value : String} (hget : parameters.get? declaration.name = some value)
      (hset : value ≠ "") (hinvalid : declaration.type.accepts value = false) :
      BrokenAs declaration parameters
        (.mk "invalid-value-for-type" none [⟨none, "param", declaration.name⟩,
          ⟨none, "type", declaration.type.name⟩, ⟨none, "value", value⟩] [] none)

/-- The element that tells of a combination that is not satisfied. -/
inductive ParamCombo.BrokenAs (combo : ParamCombo) (parameters : Parameters) : Element → Prop
  | unsatisfied (h : ¬ combo.SatisfiedBy parameters) :
      BrokenAs combo parameters
        (.mk "param-combo" none [⟨none, "type", combo.kind.name⟩]
          (combo.params.map fun name => .mk "param" none [⟨none, "name", name⟩] [] none) none)

/-! ## One declaration -/

section Declarations

variable {parameters : Parameters}

/-- The check of one declaration passes exactly on the dictionaries that satisfy it. -/
theorem ParamSpec.violation?_eq_none_iff {declaration : ParamSpec} :
    declaration.violation? parameters = none ↔ declaration.SatisfiedBy parameters := by
  unfold violation?
  cases hset : parameters.setValue? declaration.name with
  | none =>
    have hunset := Dictionary.setValue?_eq_none_iff.mp hset
    constructor
    · intro h
      have hoptional : declaration.required = false := by simpa using h
      exact ⟨fun hrequired => by simp [hoptional] at hrequired,
        fun value hget hne => absurd ⟨value, hget, hne⟩ hunset⟩
    · intro h
      have hoptional : ¬ declaration.required = true :=
        fun hrequired => hunset (h.present hrequired)
      exact if_neg hoptional
  | some value =>
    have hvalue := Dictionary.setValue?_eq_some_iff.mp hset
    constructor
    · intro h
      have haccepts : declaration.type.accepts value = true := by simpa using h
      refine ⟨fun _ => ⟨value, hvalue⟩, fun other hother _ => ?_⟩
      obtain rfl : value = other := Option.some.inj (hvalue.1.symm.trans hother)
      exact haccepts
    · intro h
      exact if_pos (h.valid value hvalue.1 hvalue.2)

/-- What the check of one declaration reports is how the declaration is broken. -/
theorem ParamSpec.brokenAs_of_violation? {declaration : ParamSpec} {violation : Violation}
    (h : declaration.violation? parameters = some violation) :
    declaration.BrokenAs parameters violation.element := by
  unfold violation? at h
  cases hset : parameters.setValue? declaration.name with
  | none =>
    simp only [hset] at h
    split at h
    · next hrequired =>
      cases h
      exact .missing hrequired (Dictionary.setValue?_eq_none_iff.mp hset)
    · cases h
  | some value =>
    obtain ⟨hget, hne⟩ := Dictionary.setValue?_eq_some_iff.mp hset
    simp only [hset] at h
    split at h
    · cases h
    · next hinvalid =>
      cases h
      exact .invalid hget hne (by simpa using hinvalid)

instance (declaration : ParamSpec) (parameters : Parameters) :
    Decidable (declaration.SatisfiedBy parameters) :=
  decidable_of_iff _ ParamSpec.violation?_eq_none_iff

/-- Exactly one entry passes a test if the others, before it and after it, do not. -/
theorem countP_eq_one_iff {α : Type} {test : α → Bool} {entries : List α} :
    entries.countP test = 1 ↔ ∃ before entry after, entries = before ++ entry :: after ∧
      test entry = true ∧ ∀ other ∈ before ++ after, ¬ test other = true := by
  constructor
  · intro h
    have hpos : 0 < entries.countP test := by omega
    obtain ⟨entry, hmem, hentry⟩ := List.countP_pos_iff.mp hpos
    obtain ⟨before, after, rfl⟩ := List.append_of_mem hmem
    rw [List.countP_append, List.countP_cons_of_pos hentry] at h
    have hothers : (before ++ after).countP test = 0 := by
      rw [List.countP_append]
      omega
    exact ⟨before, entry, after, rfl, hentry, List.countP_eq_zero.mp hothers⟩
  · rintro ⟨before, entry, after, rfl, hentry, hothers⟩
    have hzero := List.countP_eq_zero.mpr hothers
    rw [List.countP_append] at hzero
    rw [List.countP_append, List.countP_cons_of_pos hentry]
    omega

/-- The counts of the check are what the kinds ask for. -/
theorem ParamCombo.violation?_eq_none_iff {combo : ParamCombo} :
    combo.violation? parameters = none ↔ combo.SatisfiedBy parameters := by
  have hadmits : combo.violation? parameters = none ↔ combo.kind.admits
      (combo.params.countP fun name => (parameters.setValue? name).isSome) combo.params.length =
        true := by
    simp [violation?]
  rw [hadmits, SatisfiedBy]
  cases combo.kind with
  | exclusiveOr =>
    simp only [ComboKind.admits, decide_eq_true_eq, countP_eq_one_iff,
      Dictionary.isSome_setValue?_iff]
  | inclusiveOr =>
    simp only [ComboKind.admits, decide_eq_true_eq, Nat.succ_le_iff, List.countP_pos_iff,
      Dictionary.isSome_setValue?_iff]
  | allOrNone =>
    simp only [ComboKind.admits, Bool.or_eq_true, decide_eq_true_eq, List.countP_eq_zero,
      List.countP_eq_length, Dictionary.isSome_setValue?_iff]
  | notAll =>
    simp only [ComboKind.admits, decide_eq_true_eq, List.countP_lt_length_iff,
      ← Bool.not_eq_true, Dictionary.isSome_setValue?_iff]

/-- What the check of one combination reports is how the combination is broken. -/
theorem ParamCombo.brokenAs_of_violation? {combo : ParamCombo} {violation : Violation}
    (h : combo.violation? parameters = some violation) :
    combo.BrokenAs parameters violation.element := by
  have hbroken : ¬ combo.SatisfiedBy parameters := by
    rw [← violation?_eq_none_iff, h]
    simp
  unfold violation? at h
  dsimp only at h
  split at h
  · cases h
  · cases h
    rw [Violation.element_combination]
    exact .unsatisfied hbroken

instance (combo : ParamCombo) (parameters : Parameters) :
    Decidable (combo.SatisfiedBy parameters) :=
  decidable_of_iff _ ParamCombo.violation?_eq_none_iff

-- An entry that is listed twice counts twice, so two may be set where one name is.
example : ¬ ParamCombo.SatisfiedBy ⟨.exclusiveOr, ["first", "first"]⟩
    (Dictionary.ofList [("first", "1")]) := by
  decide

end Declarations

/-! ## Changes that are not seen -/

/-- The name of a declared parameter, or one that a combination lists. -/
def Mentions (declarations : List ParamSpec) (combos : List ParamCombo) (name : String) : Prop :=
  (∃ declaration ∈ declarations, declaration.name = name) ∨ ∃ combo ∈ combos, name ∈ combo.params

/-- A change that is not seen where only some names are mentioned: an empty value is removed, or
put under a name that is not there, or something happens under a name that is not mentioned. -/
inductive Unseen (mentions : String → Prop) (parameters : Parameters) : Parameters → Prop
  | removeEmpty {name : String} (hempty : parameters.get? name = some "") :
      Unseen mentions parameters (parameters.erase name)
  | addEmpty {name : String} (hnone : parameters.get? name = none) :
      Unseen mentions parameters (parameters.insert name "")
  | put {name : String} (hname : ¬ mentions name) (value : String) :
      Unseen mentions parameters (parameters.insert name value)
  | remove {name : String} (hname : ¬ mentions name) :
      Unseen mentions parameters (parameters.erase name)

section Changes

variable {mentions : String → Prop} {parameters other : Parameters}

/-- The parameters that are mentioned are set to the same values afterwards. -/
theorem Unseen.setValue?_eq (h : Unseen mentions parameters other) {name : String}
    (hname : mentions name) : other.setValue? name = parameters.setValue? name := by
  cases h with
  | @removeEmpty removed hempty =>
    rw [Dictionary.setValue?, Dictionary.setValue?, Dictionary.get?_erase]
    split
    · next heq =>
      rw [← heq, hempty]
      rfl
    · rfl
  | @addEmpty added hnone =>
    rw [Dictionary.setValue?, Dictionary.setValue?, Dictionary.get?_insert]
    split
    · next heq =>
      rw [← heq, hnone]
      rfl
    · rfl
  | @put changed hunmentioned value =>
    have hne : changed ≠ name := fun heq => hunmentioned (heq ▸ hname)
    rw [Dictionary.setValue?, Dictionary.get?_insert, if_neg hne, Dictionary.setValue?]
  | @remove changed hunmentioned =>
    have hne : changed ≠ name := fun heq => hunmentioned (heq ▸ hname)
    rw [Dictionary.setValue?, Dictionary.get?_erase, if_neg hne, Dictionary.setValue?]

/-- Any number of such changes are not seen either. -/
theorem setValue?_eq_of_unseen (h : Relation.ReflTransGen (Unseen mentions) parameters other)
    {name : String} (hname : mentions name) :
    other.setValue? name = parameters.setValue? name := by
  induction h with
  | refl => rfl
  | tail _ hstep ih => rw [hstep.setValue?_eq hname, ih]

/-- The check of a declaration reads the value of its own name and nothing else. -/
theorem ParamSpec.violation?_congr {declaration : ParamSpec}
    (h : other.setValue? declaration.name = parameters.setValue? declaration.name) :
    declaration.violation? other = declaration.violation? parameters := by
  rw [violation?, violation?, h]

/-- The check of a combination reads the values of the names it lists and nothing else. -/
theorem ParamCombo.violation?_congr {combo : ParamCombo}
    (h : ∀ name ∈ combo.params, other.setValue? name = parameters.setValue? name) :
    combo.violation? other = combo.violation? parameters := by
  have hcount : combo.params.countP (fun name => (other.setValue? name).isSome) =
      combo.params.countP fun name => (parameters.setValue? name).isSome :=
    List.countP_congr fun name hname => by rw [h name hname]
  simp only [violation?, hcount]

end Changes

/-! ## The check -/

/-- What the check finds wrong with parameters, declarations before combinations. -/
def allViolations (declarations : List ParamSpec) (combos : List ParamCombo)
    (parameters : Parameters) : List Violation :=
  declarations.filterMap (·.violation? parameters) ++ combos.filterMap (·.violation? parameters)

/-- The check sees which values the mentioned parameters are set to, and nothing else. -/
theorem allViolations_congr {declarations : List ParamSpec} {combos : List ParamCombo}
    {parameters other : Parameters}
    (h : ∀ name, Mentions declarations combos name →
      other.setValue? name = parameters.setValue? name) :
    allViolations declarations combos other = allViolations declarations combos parameters := by
  have hparams : declarations.filterMap (·.violation? other) =
      declarations.filterMap (·.violation? parameters) :=
    List.filterMap_congr fun declaration hmem =>
      ParamSpec.violation?_congr (h _ (Or.inl ⟨declaration, hmem, rfl⟩))
  have hcombos : combos.filterMap (·.violation? other) =
      combos.filterMap (·.violation? parameters) :=
    List.filterMap_congr fun combo hmem =>
      ParamCombo.violation?_congr fun name hname => h name (Or.inr ⟨combo, hmem, hname⟩)
  rw [allViolations, allViolations, hparams, hcombos]

/-- A report tells of each declaration that is broken, in order, and of nothing else. -/
def IsReport (declarations : List ParamSpec) (combos : List ParamCombo)
    (parameters : Parameters) (data : Element) : Prop :=
  ∃ onParams onCombos : List Element,
    data = .mk "data" none [] (onParams ++ onCombos) none ∧
    List.Forall₂ (fun declaration child => declaration.BrokenAs parameters child)
      (declarations.filter fun declaration => ¬ declaration.SatisfiedBy parameters) onParams ∧
    List.Forall₂ (fun combo child => combo.BrokenAs parameters child)
      (combos.filter fun combo => ¬ combo.SatisfiedBy parameters) onCombos

/-- What makes a check exact: it finds nothing exactly if all declarations are satisfied, tells
otherwise which are not, and does not see what does not matter. -/
structure IsExact (declarations : List ParamSpec) (combos : List ParamCombo)
    (check : Parameters → Option Element) : Prop where
  accepted : ∀ parameters, check parameters = none ↔
    (∀ declaration ∈ declarations, declaration.SatisfiedBy parameters) ∧
      ∀ combo ∈ combos, combo.SatisfiedBy parameters
  reported : ∀ parameters data, check parameters = some data →
    IsReport declarations combos parameters data
  unmoved : ∀ parameters other,
    Relation.ReflTransGen (Unseen (Mentions declarations combos)) parameters other →
      check other = check parameters

/-- One element for each item that something is wrong with. -/
theorem forall₂_filterMap {α : Type} {violation? : α → Option Violation} {fine : α → Prop}
    [DecidablePred fine] {broken : α → Element → Prop}
    (hfine : ∀ item, violation? item = none ↔ fine item)
    (hbroken : ∀ item violation, violation? item = some violation →
      broken item violation.element) (items : List α) :
    List.Forall₂ broken (items.filter fun item => ¬ fine item)
      ((items.filterMap violation?).map Violation.element) := by
  induction items with
  | nil => exact .nil
  | cons item items ih =>
    cases hviolation : violation? item with
    | none =>
      have hkept := (hfine item).mp hviolation
      rw [List.filter_cons_of_neg (by simpa using hkept), List.filterMap_cons_none hviolation]
      exact ih
    | some violation =>
      have hnot : ¬ fine item := by
        rw [← hfine item, hviolation]
        simp
      rw [List.filter_cons_of_pos (by simpa using hnot), List.filterMap_cons_some hviolation,
        List.map_cons]
      exact .cons (hbroken item violation hviolation) ih

/-- There is a report as soon as there is one violation. -/
theorem report_eq_none_iff {violations : List Violation} :
    Violation.report violations = none ↔ violations = [] := by
  simp [Violation.report]

/-- The report on the violations is exact. -/
theorem isExact_report (declarations : List ParamSpec) (combos : List ParamCombo) :
    IsExact declarations combos fun parameters =>
      Violation.report (allViolations declarations combos parameters) where
  accepted parameters := by
    simp only [report_eq_none_iff, allViolations, List.append_eq_nil_iff,
      List.filterMap_eq_nil_iff, ParamSpec.violation?_eq_none_iff,
      ParamCombo.violation?_eq_none_iff]
  reported parameters data h := by
    refine ⟨_, _, (Violation.report_eq_some h).trans ?_,
      forall₂_filterMap (fun _ => ParamSpec.violation?_eq_none_iff)
        (fun _ _ => ParamSpec.brokenAs_of_violation?) declarations,
      forall₂_filterMap (fun _ => ParamCombo.violation?_eq_none_iff)
        (fun _ _ => ParamCombo.brokenAs_of_violation?) combos⟩
    rw [allViolations, List.map_append]
  unmoved parameters other h := by
    rw [allViolations_congr fun name hname => setValue?_eq_of_unseen h hname]

/-- **Validation is exact.** The check of the input obeys the declarations of the input and the
combinations, that of the output the declarations of the output alone. -/
theorem FunctionSpec.isExact_checkInput_checkOutput (spec : FunctionSpec) :
    IsExact spec.input spec.combos spec.checkInput ∧ IsExact spec.output [] spec.checkOutput := by
  have houtput : spec.checkOutput =
      fun parameters => Violation.report (allViolations spec.output [] parameters) := by
    funext parameters
    simp [checkOutput, outputViolations, allViolations]
  refine ⟨isExact_report spec.input spec.combos, ?_⟩
  rw [houtput]
  exact isExact_report spec.output []

end RemoteCall
