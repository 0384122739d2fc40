import RemoteCall.Proofs.Demo.Functions
import RemoteCall.Proofs.Spec.Validation
import RemoteCall.Proofs.Text.Numeral

/-!
# Addition is exact

The operands are checked by the declaration, and read a second time by the implementation, which
takes zero where it cannot read. Both find the same integers, so that zero is never used, and the
answer is the exact sum, or that it does not fit.
-/

namespace RemoteCall.Demo

open Text (Denotes IsCanonical)

/-! ## Operands -/

/-- The integers of 64 bits, sign included. -/
def IsInt64 (value : Int) : Prop :=
  -2 ^ 63 ≤ value ∧ value ≤ 2 ^ 63 - 1

/-- The overflow check is the range of a signed integer of 64 bits. -/
theorem fits_iff {value : Int} : fits value = true ↔ IsInt64 value := by
  simp only [fits, IsInt64, Bool.and_eq_true, decide_eq_true_eq]
  omega

/-- A parameter is a numeral of an integer of 64 bits. -/
def IsOperand (parameters : Parameters) (name : String) (value : Int) : Prop :=
  ∃ text, parameters.get? name = some text ∧ Denotes text.toList value ∧ IsInt64 value

/-- The values of the type are the numerals of the integers of 64 bits. -/
theorem accepts_int64_iff {text : String} :
    ParamType.int64.accepts text = true ↔ ∃ value, Denotes text.toList value ∧ IsInt64 value := by
  have hbounds {value : Int} : (value < Int.ofNat (Nat.pow 2 63) ∧
      -Int.ofNat (Nat.pow 2 63) ≤ value) ↔ IsInt64 value := by
    have hpow : Int.ofNat (Nat.pow 2 63) = 2 ^ 63 := rfl
    rw [hpow, IsInt64]
    omega
  rw [ParamType.accepts, ParamType.isInteger]
  cases hread : Text.integer? text.toList with
  | none =>
    simp only [Bool.false_eq_true, false_iff, not_exists, not_and]
    intro value hdenotes
    rw [Text.integer?_eq_some_iff.mpr hdenotes] at hread
    cases hread
  | some value =>
    have hdenotes := Text.integer?_eq_some_iff.mp hread
    simp only [Bool.and_eq_true, decide_eq_true_eq, hbounds]
    constructor
    · intro hfits
      exact ⟨value, hdenotes, hfits⟩
    · rintro ⟨other, hother, hfits⟩
      rwa [hdenotes.unique hother]

/-- What a required integer asks for is an operand. -/
theorem satisfiedBy_iff {parameters : Parameters} {name : String} :
    (ParamSpec.mk name .int64 true).SatisfiedBy parameters ↔
      ∃ value, IsOperand parameters name value := by
  constructor
  · rintro ⟨hpresent, hvalid⟩
    obtain ⟨text, hget, hne⟩ := hpresent rfl
    obtain ⟨value, hdenotes, hfits⟩ := accepts_int64_iff.mp (hvalid text hget hne)
    exact ⟨value, text, hget, hdenotes, hfits⟩
  · rintro ⟨value, text, hget, hdenotes, hfits⟩
    have hne : text ≠ "" := fun hempty => hdenotes.ne_nil (congrArg String.toList hempty)
    refine ⟨fun _ => ⟨text, hget, hne⟩, fun other hother _ => ?_⟩
    obtain rfl := Option.some.inj (hget.symm.trans hother)
    exact accepts_int64_iff.mpr ⟨value, hdenotes, hfits⟩

/-- The parameters of the addition are accepted exactly when both operands are given and are
integers in the declared sense. -/
theorem checkInput_add_eq_none_iff {parameters : Parameters} :
    add.spec.checkInput parameters = none ↔
      (∃ a, IsOperand parameters "a" a) ∧ ∃ b, IsOperand parameters "b" b := by
  rw [(FunctionSpec.isExact_checkInput_checkOutput add.spec).1.accepted]
  simp [add, satisfiedBy_iff]

/-! ## Adding -/

/-- The integer that a parameter spells, or another one if it spells none. -/
def operandOr (fallback : Int) (request : FunctionRequest) (name : String) : Int :=
  let value := (request.parameters.get? name).bind fun text => Text.integer? text.toList
  (value.filter fits).getD fallback

/-- Adding, with another integer than zero where an operand cannot be read. -/
def addOr (fallback : Int) : ApiFunction where
  spec := add.spec
  run request :=
    let sum := operandOr fallback request "a" + operandOr fallback request "b"
    if fits sum then .result (CallResult.success.setParameter "sum" (Text.integerText sum))
    else .result (CallResult.error "Overflow")

/-- The demo falls back on zero. -/
theorem addOr_zero : addOr 0 = add := rfl

section Runs

variable {request : FunctionRequest} {a b : Int}

/-- An operand is read as the integer that it denotes. -/
theorem operandOr_eq {name : String} (h : IsOperand request.parameters name a) (fallback : Int) :
    operandOr fallback request name = a := by
  obtain ⟨text, hget, hdenotes, hfits⟩ := h
  have hread := Text.integer?_eq_some_iff.mpr hdenotes
  simp [operandOr, hget, hread, Option.filter, fits_iff.mpr hfits]

/-- The sum is written as a value of the declared type. -/
theorem checkOutput_sum (h : IsInt64 (a + b)) : add.spec.checkOutput
    (CallResult.success.setParameter "sum" (Text.integerText (a + b))).parameters = none := by
  have hdenotes := (Text.isCanonical_integerText (a + b)).denotes
  have hsum : IsOperand (CallResult.success.setParameter "sum"
      (Text.integerText (a + b))).parameters "sum" (a + b) :=
    ⟨_, by simp [CallResult.setParameter, Text.integerText_ne_empty], hdenotes, h⟩
  rw [(FunctionSpec.isExact_checkInput_checkOutput add.spec).2.accepted]
  simpa [add, satisfiedBy_iff] using ⟨_, hsum⟩

/-- With operands, the answer is their sum, or that it does not fit, whatever stands in for
operands that cannot be read. -/
theorem run_addOr (ha : IsOperand request.parameters "a" a)
    (hb : IsOperand request.parameters "b" b) (fallback : Int) :
    Api.run (addOr fallback) request =
      if fits (a + b) then CallResult.success.setParameter "sum" (Text.integerText (a + b))
      else CallResult.error "Overflow" := by
  have hinput : (addOr fallback).spec.checkInput request.parameters = none :=
    checkInput_add_eq_none_iff.mpr ⟨⟨a, ha⟩, ⟨b, hb⟩⟩
  rw [Api.run_of_accepted hinput]
  cases hfits : fits (a + b) with
  | true =>
    simp only [addOr, operandOr_eq ha, operandOr_eq hb, hfits, if_true]
    exact Api.checked_of_accepted (checkOutput_sum (fits_iff.mp hfits))
  | false =>
    simp only [addOr, operandOr_eq ha, operandOr_eq hb, hfits, Bool.false_eq_true, if_false]
    rfl

end Runs

/-- What adding comes to: the exact sum, or an error if it does not fit, or a report if an operand
is missing or is no numeral of an integer of 64 bits. -/
inductive IsSum (parameters : Parameters) : CallResult → Prop
  | exact {a b : Int} {text : String} (ha : IsOperand parameters "a" a)
      (hb : IsOperand parameters "b" b) (hfits : IsInt64 (a + b))
      (htext : IsCanonical text.toList (a + b)) :
      IsSum parameters ⟨none, Dictionary.empty.insert "sum" text, none⟩
  | overflow {a b : Int} (ha : IsOperand parameters "a" a) (hb : IsOperand parameters "b" b)
      (hfits : ¬ IsInt64 (a + b)) : IsSum parameters ⟨some "Overflow", Dictionary.empty, none⟩
  | refused {report : Element}
      (h : ¬ ((∃ a, IsOperand parameters "a" a) ∧ ∃ b, IsOperand parameters "b" b)) :
      IsSum parameters ⟨some "_InvalidRequest", Dictionary.empty, some report⟩

/-- A run with operands or without comes to the sum of the operands, and nothing that stands in
for operands makes a difference. -/
theorem isSum_run_add (request : FunctionRequest) :
    IsSum request.parameters (Api.run add request) ∧
      ∀ fallback, Api.run (addOr fallback) request = Api.run add request := by
  by_cases h : (∃ a, IsOperand request.parameters "a" a) ∧ ∃ b, IsOperand request.parameters "b" b
  · obtain ⟨⟨a, ha⟩, b, hb⟩ := h
    have hrun := run_addOr ha hb
    have hadd := hrun 0
    rw [addOr_zero] at hadd
    refine ⟨?_, fun fallback => (hrun fallback).trans hadd.symm⟩
    rw [hadd]
    split
    · next hfits =>
      have hset : CallResult.success.setParameter "sum" (Text.integerText (a + b)) =
          ⟨none, Dictionary.empty.insert "sum" (Text.integerText (a + b)), none⟩ := by
        simp [CallResult.setParameter, CallResult.success, Text.integerText_ne_empty]
      rw [hset]
      exact .exact ha hb (fits_iff.mp hfits) (Text.isCanonical_integerText (a + b))
    · next hfits => exact .overflow ha hb (mt fits_iff.mpr hfits)
  · obtain ⟨report, hreport⟩ :=
      Option.ne_none_iff_exists'.mp (mt checkInput_add_eq_none_iff.mp h)
    refine ⟨?_, fun fallback => ?_⟩
    · rw [Api.run_of_report hreport]
      exact .refused h
    · rw [Api.run_of_report hreport]
      exact Api.run_of_report hreport

/-- **Addition is exact.** Every call is answered: with the canonical numeral of the exact sum if
both operands are numerals and the sum fits 64 bits, with an error if it does not fit, and with a
report on the request in every other case. The zero in place of an operand is never used. -/
theorem invoke_add_isSum (name : String) :
    ∃ demo, api name = .ok demo ∧ ∀ parameters data, ∃ result,
      demo.invoke ⟨"Add", parameters, data⟩ = .ok result ∧ IsSum parameters result ∧
        result.code ≠ some invalidResponseCode ∧ result.code ≠ some internalErrorCode ∧
        ∀ fallback, Api.run (addOr fallback) ⟨"Add", parameters, data⟩ = result := by
  refine ⟨named name, api_eq_ok name, fun parameters data => ?_⟩
  obtain ⟨hsum, hfallback⟩ := isSum_run_add ⟨"Add", parameters, data⟩
  have hcodes : ∀ result, IsSum parameters result →
      result.code ≠ some invalidResponseCode ∧ result.code ≠ some internalErrorCode := by
    intro result hresult
    cases hresult <;> simp [invalidResponseCode, internalErrorCode]
  have hmeta : isMetaFunction "Add" = false := by decide
  exact ⟨_, invoke_named hmeta rfl, hsum, (hcodes _ hsum).1, (hcodes _ hsum).2, hfallback⟩

end RemoteCall.Demo
