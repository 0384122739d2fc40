import RemoteCall.Proofs.Demo.Addition

/-!
# Empty values

A parameter with an empty value is not set, and no check tells it from one that is absent. The
implementations of the demonstration do not either, but for one: an empty name is a name to greet,
and then a nickname beside it, which passes the check, is not looked at.
-/

namespace RemoteCall

/-! ## Checks -/

/-- The parameters without those that have an empty value. -/
def Dictionary.withoutEmpty (parameters : Parameters) : Parameters :=
  parameters.filter fun _ value => value ≠ ""

/-- The request without the parameters that have an empty value. -/
def FunctionRequest.withoutEmpty (request : FunctionRequest) : FunctionRequest :=
  { request with parameters := request.parameters.withoutEmpty }

section Checks

variable {parameters : Parameters} {name : String}

/-- What is left are the parameters that are set. -/
theorem Dictionary.get?_withoutEmpty (parameters : Parameters) (name : String) :
    parameters.withoutEmpty.get? name = parameters.setValue? name := by
  rw [withoutEmpty, get?_filter, setValue?]

/-- Dropping the empty values leaves a set name with its value. -/
theorem Dictionary.IsSet.get?_withoutEmpty (h : parameters.IsSet name) :
    parameters.withoutEmpty.get? name = parameters.get? name := by
  obtain ⟨value, hget, hne⟩ := h
  rw [Dictionary.get?_withoutEmpty, hget, setValue?_eq_some_iff]
  exact ⟨hget, hne⟩

/-- Without its empty values a dictionary is silent on exactly the names that do not count as set.
-/
theorem Dictionary.get?_withoutEmpty_eq_none_iff :
    parameters.withoutEmpty.get? name = none ↔ ¬ parameters.IsSet name := by
  rw [get?_withoutEmpty, setValue?_eq_none_iff]

/-- The lookup of the checks does not see whether the empty values have been dropped. -/
theorem Dictionary.setValue?_withoutEmpty (parameters : Parameters) (name : String) :
    parameters.withoutEmpty.setValue? name = parameters.setValue? name := by
  rw [setValue?, get?_withoutEmpty, setValue?, Option.filter_filter]
  simp

/-- Neither check sees a parameter with an empty value. -/
theorem FunctionSpec.check_withoutEmpty (spec : FunctionSpec) (parameters : Parameters) :
    spec.checkInput parameters.withoutEmpty = spec.checkInput parameters ∧
      spec.checkOutput parameters.withoutEmpty = spec.checkOutput parameters := by
  have hsame (declarations : List ParamSpec) (combos : List ParamCombo) :
      allViolations declarations combos parameters.withoutEmpty =
        allViolations declarations combos parameters :=
    allViolations_congr fun name _ => Dictionary.setValue?_withoutEmpty parameters name
  have hinput := hsame spec.input spec.combos
  have houtput := hsame spec.output []
  simp only [allViolations, List.filterMap_nil, List.append_nil] at hinput houtput
  exact ⟨congrArg Violation.report hinput, congrArg Violation.report houtput⟩

/-- Input that passes the check has a value in every parameter that must be set. -/
theorem FunctionSpec.isSet_of_checkInput {spec : FunctionSpec} {declaration : ParamSpec}
    (h : spec.checkInput parameters = none) (hmem : declaration ∈ spec.input)
    (hrequired : declaration.required = true) : parameters.IsSet declaration.name :=
  (((isExact_checkInput_checkOutput spec).1.accepted parameters).mp h).1 declaration hmem
    |>.present hrequired

end Checks

namespace Demo

variable {request : FunctionRequest}

/-! ## Implementations -/

/-- A text that is repeated is set. -/
theorem run_echo_withoutEmpty (request : FunctionRequest) :
    Api.run echo request.withoutEmpty = Api.run echo request := by
  refine Api.run_congr (echo.spec.check_withoutEmpty request.parameters).1 fun hinput => ?_
  have htext : request.parameters.IsSet "text" :=
    FunctionSpec.isSet_of_checkInput hinput (List.mem_singleton_self _) rfl
  simp only [echo, FunctionRequest.withoutEmpty, htext.get?_withoutEmpty]

/-- An operand that is set is read alike with and without the empty values. -/
theorem operand_withoutEmpty {name : String} (h : request.parameters.IsSet name) :
    operand request.withoutEmpty name = operand request name := by
  rw [operand, operand, FunctionRequest.withoutEmpty, h.get?_withoutEmpty]

/-- Operands are set. -/
theorem run_add_withoutEmpty (request : FunctionRequest) :
    Api.run add request.withoutEmpty = Api.run add request := by
  refine Api.run_congr (add.spec.check_withoutEmpty request.parameters).1 fun hinput => ?_
  have ha : request.parameters.IsSet "a" :=
    FunctionSpec.isSet_of_checkInput hinput List.mem_cons_self rfl
  have hb : request.parameters.IsSet "b" :=
    FunctionSpec.isSet_of_checkInput hinput (List.mem_cons_of_mem _ (List.mem_singleton_self _)) rfl
  simp only [add, operand_withoutEmpty ha, operand_withoutEmpty hb]

/-! ## Greetings -/

/-- Either the name or the nickname must be set, and not both. -/
theorem checkInput_greet_eq_none_iff {parameters : Parameters} :
    greet.spec.checkInput parameters = none ↔
      (parameters.IsSet "name" ↔ ¬ parameters.IsSet "nickname") := by
  have hoptional (name : String) : (ParamSpec.mk name .text false).SatisfiedBy parameters :=
    ⟨fun hrequired => Bool.noConfusion hrequired, fun _ _ _ => rfl⟩
  have hcombo : ParamCombo.SatisfiedBy ⟨.exclusiveOr, ["name", "nickname"]⟩ parameters ↔
      (parameters.IsSet "name" ↔ ¬ parameters.IsSet "nickname") := by
    rw [← ParamCombo.violation?_eq_none_iff, ← Dictionary.isSome_setValue?_iff,
      ← Dictionary.isSome_setValue?_iff]
    cases hname : (parameters.setValue? "name").isSome <;>
      cases hnickname : (parameters.setValue? "nickname").isSome <;>
        simp [ParamCombo.violation?, ComboKind.admits, hname, hnickname]
  rw [(FunctionSpec.isExact_checkInput_checkOutput greet.spec).1.accepted]
  simp [greet, hoptional, hcombo]

/-- Whoever is greeted: by name if there is one, else by nickname. -/
def addressee (parameters : Parameters) : String :=
  ((parameters.get? "name").or (parameters.get? "nickname")).getD "stranger"

/-- The answer that greets. -/
def greeting (who : String) : CallResult :=
  ⟨none, Dictionary.empty.insert "greeting" s!"Hello, {who}!", none⟩

/-- Greetings of different addressees differ. -/
theorem greeting_inj {who other : String} (h : greeting who = greeting other) : who = other := by
  have hget := congrArg (fun result => result.parameter? "greeting") h
  simp only [greeting, CallResult.parameter?, Dictionary.get?_insert, if_true,
    Option.some.injEq, toString] at hget
  have hchars := congrArg String.toList hget
  simpa [String.toList_append, String.toList_inj] using hchars

/-- On accepted parameters the greeting is addressed to whom the parameters name. -/
theorem run_greet (hinput : greet.spec.checkInput request.parameters = none) :
    Api.run greet request = greeting (addressee request.parameters) := by
  have hne : s!"Hello, {addressee request.parameters}!" ≠ "" := by
    intro hempty
    have hchars := congrArg String.toList hempty
    simp [toString] at hchars
  have hset : CallResult.success.setParameter "greeting"
      s!"Hello, {addressee request.parameters}!" = greeting (addressee request.parameters) := by
    simp [CallResult.setParameter, CallResult.success, greeting, hne]
  have houtput : greet.spec.checkOutput (greeting (addressee request.parameters)).parameters =
      none := by
    rw [(FunctionSpec.isExact_checkInput_checkOutput greet.spec).2.accepted]
    refine ⟨?_, by simp⟩
    intro declaration hmem
    obtain rfl := List.mem_singleton.mp hmem
    exact ⟨fun _ => ⟨_, by simp [greeting], hne⟩, fun _ _ _ => rfl⟩
  rw [Api.run_of_accepted hinput]
  exact (congrArg (Api.checked greet.spec) hset).trans (Api.checked_of_accepted houtput)

/-- An empty name is greeted although there is a nickname. -/
def IsOverlooked (parameters : Parameters) : Prop :=
  parameters.get? "name" = some "" ∧ parameters.IsSet "nickname"

/-- Where one of the two names is set, dropping the empty values changes the addressee exactly when
an empty name hides a nickname. -/
theorem addressee_withoutEmpty_iff {parameters : Parameters}
    (h : parameters.IsSet "name" ↔ ¬ parameters.IsSet "nickname") :
    addressee parameters.withoutEmpty = addressee parameters ↔ ¬ IsOverlooked parameters := by
  by_cases hname : parameters.IsSet "name"
  · obtain ⟨value, hget, hne⟩ := hname
    have hkept := Dictionary.IsSet.get?_withoutEmpty ⟨value, hget, hne⟩
    simp [addressee, IsOverlooked, hkept, hget, hne]
  · have hnickname : parameters.IsSet "nickname" := not_not.mp (mt h.mpr hname)
    have hnone := Dictionary.get?_withoutEmpty_eq_none_iff.mpr hname
    have hkept := hnickname.get?_withoutEmpty
    obtain ⟨nickname, hget, hne⟩ := hnickname
    cases hempty : parameters.get? "name" with
    | none => simp [addressee, IsOverlooked, hnone, hkept, hempty]
    | some value =>
      obtain rfl : value = "" :=
        Decidable.byContradiction fun hvalue => hname ⟨value, hempty, hvalue⟩
      have hset : parameters.IsSet "nickname" := ⟨nickname, hget, hne⟩
      simp [addressee, IsOverlooked, hnone, hkept, hempty, hget, hne, hset]

/-- A nickname counts beside an empty name once the empty name is removed. -/
theorem run_greet_withoutEmpty_iff : Api.run greet request.withoutEmpty = Api.run greet request ↔
    ¬ IsOverlooked request.parameters := by
  have hsame := (greet.spec.check_withoutEmpty request.parameters).1
  by_cases hinput : greet.spec.checkInput request.parameters = none
  · have hother : greet.spec.checkInput request.withoutEmpty.parameters = none := hsame.trans hinput
    rw [run_greet hinput, run_greet hother,
      ← addressee_withoutEmpty_iff (checkInput_greet_eq_none_iff.mp hinput)]
    exact ⟨greeting_inj, congrArg greeting⟩
  · refine iff_of_true (Api.run_congr hsame fun hnone => absurd hnone hinput) ?_
    rintro ⟨hempty, hnickname⟩
    have hunset : ¬ request.parameters.IsSet "name" := by
      rintro ⟨value, hget, hne⟩
      exact hne (Option.some.inj (hget.symm.trans hempty))
    exact hinput (checkInput_greet_eq_none_iff.mpr
      ⟨fun hset => absurd hset hunset, fun hnot => absurd hnickname hnot⟩)

/-! ## Calls -/

/-- **An empty value means the same as none**, in every check of any function, and in every call of
the demonstration but one: an empty name is greeted, and a nickname beside it overlooked. -/
theorem invoke_withoutEmpty_iff (name : String) :
    ∃ demo, api name = .ok demo ∧
      (∀ request, demo.invoke request.withoutEmpty = demo.invoke request ↔
        ¬ (request.function = "Greet" ∧ IsOverlooked request.parameters)) ∧
      ∀ (spec : FunctionSpec) (parameters : Parameters),
        spec.checkInput parameters.withoutEmpty = spec.checkInput parameters ∧
          spec.checkOutput parameters.withoutEmpty = spec.checkOutput parameters := by
  refine ⟨named name, api_eq_ok name, fun request => ?_, FunctionSpec.check_withoutEmpty⟩
  cases hmeta : isMetaFunction request.function with
  | true =>
    refine iff_of_true (by simp [Api.invoke, FunctionRequest.withoutEmpty, hmeta]) ?_
    rintro ⟨hfunction, -⟩
    rw [hfunction] at hmeta
    cases hmeta
  | false =>
    cases hget : functions.get? request.function with
    | none =>
      refine iff_of_true
        (by simp [Api.invoke, FunctionRequest.withoutEmpty, hmeta, named, hget]) ?_
      rintro ⟨hfunction, -⟩
      rw [hfunction] at hget
      cases hget
    | some registered =>
      have hrun {function : ApiFunction} (h : registered = function) :
          (named name).invoke request.withoutEmpty = (named name).invoke request ↔
            Api.run function request.withoutEmpty = Api.run function request := by
        rw [h] at hget
        have hmeta' : isMetaFunction request.withoutEmpty.function = false := hmeta
        have hget' : functions.get? request.withoutEmpty.function = some function := hget
        rw [invoke_named hmeta hget, invoke_named hmeta' hget', Except.ok.injEq]
      rcases get?_functions_eq_some hget with ⟨hname, h⟩ | ⟨hname, h⟩ | ⟨hname, h⟩
      · rw [hrun h]
        exact iff_of_true (run_echo_withoutEmpty request) (by simp [hname])
      · rw [hrun h]
        exact iff_of_true (run_add_withoutEmpty request) (by simp [hname])
      · rw [hrun h, run_greet_withoutEmpty_iff]
        simp [hname]

/-- An empty name hides the nickname. -/
theorem not_invoke_withoutEmpty :
    ¬ ∀ name demo request, api name = .ok demo →
      demo.invoke request.withoutEmpty = demo.invoke request := by
  intro h
  have hinvoke := h "demo" (named "demo")
    ⟨"Greet", Dictionary.ofList [("name", ""), ("nickname", "Bo")], none⟩ rfl
  have hgreeting := congrArg (fun answer => answer.toOption.map fun result =>
    result.parameter? "greeting") hinvoke
  revert hgreeting
  decide +kernel

end Demo

end RemoteCall
