import RemoteCall.Proofs.Api.Invocation
import RemoteCall.Proofs.Client.FailOver

/-!
# What results come to

The error code of a result decides which error it is, if it is one at all: the four standard codes
have errors of their own, and any other code is told by the declaration, if there is one. Each
error holds what is its own of the result, as it was. A function that keeps to its declaration is
never told that its code is not acceptable: what an API answers in its place has standard codes.
-/

namespace RemoteCall

/-- There are four codes that every function may answer with. -/
theorem isStandardErrorCode_iff {code : String} :
    isStandardErrorCode code = true ↔ code = invalidRequestCode ∨ code = invalidResponseCode ∨
      code = disabledFunctionCode ∨ code = internalErrorCode := by
  simp [isStandardErrorCode]

/-- A result, and what it comes to with or without a declaration. -/
inductive Verdict (result : CallResult) (spec : Option FunctionSpec) :
    Except CallError CallResult → Prop
  | success (h : result.code = none) : Verdict result spec (.ok result)
  | invalidRequest (h : result.code = some invalidRequestCode) :
      Verdict result spec (.error (.invalidRequest (describeViolations result.data) result.data))
  | invalidResponse (h : result.code = some invalidResponseCode) :
      Verdict result spec (.error (.invalidResponse (describeViolations result.data) result.data))
  | disabledFunction (h : result.code = some disabledFunctionCode) :
      Verdict result spec (.error .disabledFunction)
  | internalError (h : result.code = some internalErrorCode) :
      Verdict result spec
        (.error (.internalError (result.parameters.get? Api.exceptionParameter)))
  | unacceptable {code : String} {declared : FunctionSpec} (h : result.code = some code)
      (hstandard : isStandardErrorCode code = false) (hspec : spec = some declared)
      (hcode : code ∉ declared.errorCodes) :
      Verdict result spec (.error (.unacceptableCode code))
  | unsuccessful {code : String} (h : result.code = some code)
      (hstandard : isStandardErrorCode code = false)
      (hcode : ∀ declared, spec = some declared → code ∈ declared.errorCodes) :
      Verdict result spec (.error (.unsuccessful code result.parameters result.data))

/-- A code that is not standard is none of the four. -/
theorem ne_of_not_isStandardErrorCode {code : String} (h : isStandardErrorCode code = false) :
    code ≠ invalidRequestCode ∧ code ≠ invalidResponseCode ∧ code ≠ disabledFunctionCode ∧
      code ≠ internalErrorCode := by
  have hother := mt isStandardErrorCode_iff.mpr (Bool.eq_false_iff.mp h)
  simpa only [not_or] using hother

variable {result : CallResult} {spec : Option FunctionSpec}

/-- A code that is not standard is acceptable unless the declaration, if there is one, lacks it. -/
theorem classify_of_not_standard {code : String} (hcode : result.code = some code)
    (hstandard : isStandardErrorCode code = false) :
    classify result spec =
      if ∃ declared, spec = some declared ∧ code ∉ declared.errorCodes then
        .error (.unacceptableCode code)
      else .error (.unsuccessful code result.parameters result.data) := by
  obtain ⟨hrequest, hresponse, hdisabled, hinternal⟩ := ne_of_not_isStandardErrorCode hstandard
  have hany : spec.any (fun declared => !declared.acceptsErrorCode code) = true ↔
      ∃ declared, spec = some declared ∧ code ∉ declared.errorCodes := by
    cases spec <;> simp [FunctionSpec.acceptsErrorCode, hstandard]
  simp only [classify, hcode, if_neg hrequest, if_neg hresponse, if_neg hdisabled,
    if_neg hinternal, hany]

/-- What the classification gives is a verdict on the result. -/
theorem verdict_classify (result : CallResult) (spec : Option FunctionSpec) :
    Verdict result spec (classify result spec) := by
  cases hcode : result.code with
  | none =>
    simp only [classify, hcode]
    exact .success hcode
  | some code =>
    cases hstandard : isStandardErrorCode code with
    | true =>
      rcases isStandardErrorCode_iff.mp hstandard with rfl | rfl | rfl | rfl
      · simp only [classify, hcode]
        exact .invalidRequest hcode
      · simp only [classify, hcode]
        exact .invalidResponse hcode
      · simp only [classify, hcode]
        exact .disabledFunction hcode
      · simp only [classify, hcode]
        exact .internalError hcode
    | false =>
      rw [classify_of_not_standard hcode hstandard]
      split
      · next hlacks =>
        obtain ⟨declared, hspec, hmem⟩ := hlacks
        exact .unacceptable hcode hstandard hspec hmem
      · next hlacks =>
        refine .unsuccessful hcode hstandard fun declared hspec => ?_
        exact Decidable.byContradiction fun hmem => hlacks ⟨declared, hspec, hmem⟩

/-- A result comes to one thing only. -/
theorem classify_eq_iff {outcome : Except CallError CallResult} :
    classify result spec = outcome ↔ Verdict result spec outcome := by
  constructor
  · rintro rfl
    exact verdict_classify result spec
  · intro h
    cases h with
    | success h | invalidRequest h => simp only [classify, h, if_true]
    | invalidResponse h | disabledFunction h | internalError h =>
      simp only [classify, h]
      rfl
    | unacceptable h hstandard hspec hcode =>
      rw [classify_of_not_standard h hstandard, if_pos ⟨_, hspec, hcode⟩]
    | unsuccessful h hstandard hcode =>
      rw [classify_of_not_standard h hstandard, if_neg]
      rintro ⟨declared, hspec, hmem⟩
      exact hmem (hcode declared hspec)

/-- What a result comes to is told by its code, and holds all that is to be known of it. -/
structure IsClassified (result : CallResult) (spec : Option FunctionSpec) : Prop where
  /-- A success has no code, and is handed on as it is. -/
  success : ∀ accepted, classify result spec = .ok accepted ↔
    result.code = none ∧ accepted = result
  /-- Every code makes an error that has this code, and is final. -/
  failure : ∀ code, result.code = some code → ∃ e, classify result spec = .error e ∧
    e.code = some code ∧ e.shouldFailOver = false
  invalidRequest : ∀ detail data,
    classify result spec = .error (.invalidRequest detail data) ↔
      result.code = some invalidRequestCode ∧ detail = describeViolations result.data ∧
        data = result.data
  invalidResponse : ∀ detail data,
    classify result spec = .error (.invalidResponse detail data) ↔
      result.code = some invalidResponseCode ∧ detail = describeViolations result.data ∧
        data = result.data
  disabledFunction : classify result spec = .error .disabledFunction ↔
    result.code = some disabledFunctionCode
  internalError : ∀ message, classify result spec = .error (.internalError message) ↔
    result.code = some internalErrorCode ∧ message = result.parameter? "_exception.message"
  /-- Not acceptable are the codes that are neither standard nor declared. -/
  unacceptable : ∀ code, classify result spec = .error (.unacceptableCode code) ↔
    result.code = some code ∧ isStandardErrorCode code = false ∧
      ∃ declared, spec = some declared ∧ code ∉ declared.errorCodes
  /-- The others are handed on with all that comes with them. -/
  unsuccessful : ∀ code parameters data,
    classify result spec = .error (.unsuccessful code parameters data) ↔
      result.code = some code ∧ isStandardErrorCode code = false ∧
        (∀ declared, spec = some declared → code ∈ declared.errorCodes) ∧
        parameters = result.parameters ∧ data = result.data

/-- Every result is classified as it should be, with any declaration or without one. -/
theorem isClassified (result : CallResult) (spec : Option FunctionSpec) :
    IsClassified result spec where
  success accepted := by
    rw [classify_eq_iff]
    constructor
    · intro h
      cases h with
      | success h => exact ⟨h, rfl⟩
    · rintro ⟨h, rfl⟩
      exact .success h
  failure code hcode := by
    cases hclassify : classify result spec with
    | ok accepted =>
      rw [classify_eq_iff] at hclassify
      cases hclassify with
      | success h =>
        rw [hcode] at h
        cases h
    | error e =>
      obtain ⟨code', hcode', he⟩ := CallError.code_of_classify hclassify
      obtain rfl : code = code' := Option.some.inj (hcode.symm.trans hcode')
      exact ⟨e, rfl, he, CallError.shouldFailOver_of_code he⟩
  invalidRequest detail data := by
    rw [classify_eq_iff]
    constructor
    · intro h
      cases h with
      | invalidRequest h => exact ⟨h, rfl, rfl⟩
    · rintro ⟨h, rfl, rfl⟩
      exact .invalidRequest h
  invalidResponse detail data := by
    rw [classify_eq_iff]
    constructor
    · intro h
      cases h with
      | invalidResponse h => exact ⟨h, rfl, rfl⟩
    · rintro ⟨h, rfl, rfl⟩
      exact .invalidResponse h
  disabledFunction := by
    rw [classify_eq_iff]
    constructor
    · intro h
      cases h with
      | disabledFunction h => exact h
    · exact .disabledFunction
  internalError message := by
    rw [classify_eq_iff]
    constructor
    · intro h
      cases h with
      | internalError h => exact ⟨h, rfl⟩
    · rintro ⟨h, rfl⟩
      exact .internalError h
  unacceptable code := by
    rw [classify_eq_iff]
    constructor
    · intro h
      cases h with
      | unacceptable h hstandard hspec hcode => exact ⟨h, hstandard, _, hspec, hcode⟩
    · rintro ⟨h, hstandard, declared, hspec, hcode⟩
      exact .unacceptable h hstandard hspec hcode
  unsuccessful code parameters data := by
    rw [classify_eq_iff]
    constructor
    · intro h
      cases h with
      | unsuccessful h hstandard hcode => exact ⟨h, hstandard, hcode, rfl, rfl⟩
    · rintro ⟨h, hstandard, hcode, rfl, rfl⟩
      exact .unsuccessful h hstandard hcode

/-! ## From the function to its caller -/

namespace Api

/-- A code that is answered in the place of an implementation is standard. -/
theorem code_run {function : ApiFunction} {request : FunctionRequest} {code : String}
    (h : (run function request).code = some code) : isStandardErrorCode code = true ∨
      ∃ result, function.run request = .result result ∧ result.code = some code := by
  cases hinput : function.spec.checkInput request.parameters with
  | some report =>
    rw [run_of_report hinput] at h
    cases h
    exact Or.inl rfl
  | none =>
    rw [run_of_accepted hinput] at h
    cases hreply : function.run request with
    | brokeOff message =>
      rw [hreply] at h
      cases (code_internalError message).symm.trans h
      exact Or.inl rfl
    | result result =>
      rw [hreply] at h
      simp only [checked] at h
      split at h
      · split at h
        · exact Or.inr ⟨result, rfl, h⟩
        · cases h
          exact Or.inl rfl
      · exact Or.inr ⟨result, rfl, h⟩

/-- A code in the answer of an API is a standard one, or the one that the implementation gave. -/
theorem code_invoke {api : Api} {request : FunctionRequest} {function : ApiFunction}
    {answer : CallResult} {code : String}
    (hget : api.functions.get? request.function = some function)
    (hinvoke : api.invoke request = .ok answer) (hcode : answer.code = some code) :
    isStandardErrorCode code = true ∨
      ∃ result, function.run request = .result result ∧ result.code = some code := by
  cases hmeta : isMetaFunction request.function with
  | true =>
    -- a meta function answers with a success, whatever is registered under its name
    simp only [invoke, hmeta, if_true] at hinvoke
    cases hinvoke
    simp only [invokeMeta] at hcode
    repeat' split at hcode
    all_goals cases hcode
  | false =>
    rw [invoke_of_get? hmeta hget, Except.ok.injEq] at hinvoke
    subst hinvoke
    split at hcode
    · cases hcode
      exact Or.inl rfl
    · exact code_run hcode

end Api

/-- The implementation returns no codes but those that are declared. It may still break off, and
its output need not be valid. -/
def ApiFunction.KeepsToCodes (function : ApiFunction) : Prop :=
  ∀ request result code, function.run request = .result result → result.code = some code →
    code ∈ function.spec.errorCodes

/-- **Classification is total, lossless and final**, with any declaration or none. Whatever a
function is asked that keeps to its declared codes, the answer is acceptable to those who know
its declaration. -/
theorem isClassified_and_acceptable :
    (∀ result spec, IsClassified result spec) ∧
      ∀ (api : Api) (request : FunctionRequest) (function : ApiFunction) (answer : CallResult),
        api.functions.get? request.function = some function →
        function.KeepsToCodes → api.invoke request = .ok answer →
          ∀ code, classify answer (some function.spec) ≠
            .error (.unacceptableCode code) := by
  refine ⟨isClassified, ?_⟩
  intro api request function answer hget hdeclared hinvoke code hclassify
  obtain ⟨hcode, hstandard, declared, hspec, hmem⟩ :=
    ((isClassified answer _).unacceptable code).mp hclassify
  cases hspec
  rcases Api.code_invoke hget hinvoke hcode with hcode | ⟨returned, hreturned, hcode⟩
  · rw [hstandard] at hcode
    cases hcode
  · exact hmem (hdeclared request returned code hreturned hcode)

/-- A function that declares a standard code beside one of its own, and returns its own. -/
def missingItem : ApiFunction where
  spec := ⟨"Find", [], [], [], [internalErrorCode, "NotFound"]⟩
  run _ := .result ((CallResult.error "NotFound").setParameter "id" "7")

/-- A function that keeps to its declared codes answers with one of them, and the client takes it
for a declared error. -/
theorem isClassified_and_acceptable_missingItem :
    missingItem.KeepsToCodes ∧
      (∃ answer, ((Api.ofName "shop").after [.register missingItem]).invoke
          ⟨"Find", Dictionary.empty, none⟩ = .ok answer ∧
        classify answer (some missingItem.spec) =
          .error (.unsuccessful "NotFound" (Dictionary.empty.insert "id" "7") none) ∧
        classify answer (some missingItem.spec) ≠ .error (.unacceptableCode "NotFound")) := by
  have hkeeps : missingItem.KeepsToCodes := by
    rintro request result code hresult hcode
    cases hresult
    cases hcode
    decide
  obtain ⟨hclassified, hacceptable⟩ := isClassified_and_acceptable
  have hinvoke : ((Api.ofName "shop").after [.register missingItem]).invoke
      ⟨"Find", Dictionary.empty, none⟩ =
        .ok ((CallResult.error "NotFound").setParameter "id" "7") := rfl
  refine ⟨hkeeps, _, hinvoke, ?_, hacceptable _ _ missingItem _ rfl hkeeps hinvoke _⟩
  refine ((hclassified _ _).unsuccessful _ _ _).mpr ⟨rfl, by decide, ?_, rfl, rfl⟩
  rintro declared hspec
  cases hspec
  decide

end RemoteCall
