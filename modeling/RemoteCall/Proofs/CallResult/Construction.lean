import RemoteCall.Proofs.CallResult.Grammar
import RemoteCall.Proofs.CallResult.RoundTrip
import RemoteCall.Proofs.Element.Obtained

/-!
# Results that are put together

A result is made of its parts or read from a document, and then changed: parameters are set, a
data section is put in. However it was come by, its error code is not empty, and its parameters
have the values that were set last. A data section that is read is called `data`, but one that is
put in is not looked at. If it is called otherwise, or is in a namespace, it is written all the
same and left out when the document is read.
-/

namespace RemoteCall.CallResult

open Xml Element

/-- The results that can be come by, if the data sections that are put in are `given`. -/
inductive Obtained (given : Element → Prop) : CallResult → Prop
  | make (code : Option String) (parameters : Parameters) {data : Option Element}
      (h : ∀ root ∈ data, given root) : Obtained given (make code parameters data)
  | success : Obtained given success
  | error (code : String) : Obtained given (error code)
  | setParameter {result : CallResult} (name value : String) (h : Obtained given result) :
      Obtained given (result.setParameter name value)
  | withData {result : CallResult} {root : Element} (hroot : given root)
      (h : Obtained given result) : Obtained given (result.withData root)
  | parsed {bytes : ByteArray} {result : CallResult} (h : parse bytes = .ok result) :
      Obtained given result

variable {given : Element → Prop} {result : CallResult} {spec : Option FunctionSpec}

/-! ## Codes and data sections -/

/-- A data section that is read is one: it is called `data` and is in no namespace. -/
theorem isDataSection_of_parse {bytes : ByteArray} (h : parse bytes = .ok result) :
    ∀ root ∈ result.data, isDataSection root = true := by
  intro root hroot
  obtain ⟨_, children, -, -, hdescribed⟩ := parse_eq_ok_iff.mp h
  rw [hdescribed.data] at hroot
  obtain ⟨node, -, hnode⟩ := List.mem_filterMap.mp (List.mem_of_mem_head? hroot)
  obtain ⟨_, _, _, _, rfl, helement⟩ := dataOf?_eq_some_iff.mp hnode
  cases helement
  rfl

/-- A code that is read is not empty. -/
theorem code_ne_of_parse {bytes : ByteArray} (h : parse bytes = .ok result) :
    result.code ≠ some "" := by
  obtain ⟨_, _, -, -, hdescribed⟩ := parse_eq_ok_iff.mp h
  rw [hdescribed.code, ne_eq, Option.or_eq_some_iff, not_or]
  exact ⟨nonEmpty_ne_some_empty _, fun h => nonEmpty_ne_some_empty _ h.2⟩

/-- The empty error code is none, however a result was come by. -/
theorem Obtained.code_ne (h : Obtained given result) : result.code ≠ some "" := by
  induction h with
  | make code => exact nonEmpty_ne_some_empty code
  | success => simp [CallResult.success]
  | error code => exact nonEmpty_ne_some_empty (some code)
  | setParameter _ _ _ ih => exact ih
  | withData _ _ ih => exact ih
  | parsed h => exact code_ne_of_parse h

/-- A data section has been read, or it is one of those that are put in. -/
theorem Obtained.data (h : Obtained given result) :
    ∀ root ∈ result.data, isDataSection root = true ∨ given root := by
  induction h with
  | make _ _ h => exact fun root hroot => .inr (h root hroot)
  | success => simp [CallResult.success]
  | error => simp [CallResult.error, CallResult.make]
  | setParameter _ _ _ ih => exact ih
  | withData hroot =>
    intro root hmem
    obtain rfl := Option.some.inj hmem
    exact .inr hroot
  | parsed h => exact fun root hroot => .inl (isDataSection_of_parse h root hroot)

/-- All data sections are called `data` exactly if all those are that are put in. -/
theorem forall_obtained_localName_iff :
    (∀ result, Obtained given result → ∀ root ∈ result.data, root.localName = "data") ↔
      ∀ root, given root → root.localName = "data" := by
  constructor
  · intro h root hroot
    exact h (success.withData root) (.withData hroot .success) root rfl
  · intro h result hresult root hroot
    rcases hresult.data root hroot with hsection | hgiven
    · exact (isDataSection_iff.mp hsection).1
    · exact h root hgiven

/-! ## Parameters -/

/-- The result with parameters set one by one. -/
def withSettings (settings : List (String × String)) (result : CallResult) : CallResult :=
  settings.foldl (fun result setting => result.setParameter setting.1 setting.2) result

/-- Setting a parameter changes the answer for its own name, and for no other. An empty value is no
value. -/
theorem parameter?_setParameter (result : CallResult) (name value other : String) :
    (result.setParameter name value).parameter? other =
      if name = other then (if name = "" ∨ value = "" then none else some value)
      else result.parameter? other := by
  simp only [setParameter, parameter?]
  split <;> simp

/-- A parameter has the value that was set for its name last, unless that is empty. -/
theorem parameter?_withSettings (settings : List (String × String)) (result : CallResult)
    (name : String) : (result.withSettings settings).parameter? name =
      match settings.reverse.lookup name with
      | some value => if name = "" ∨ value = "" then none else some value
      | none => result.parameter? name := by
  -- from the end, where the setting stands that decides
  induction settings using List.reverseRecOn with
  | nil => rfl
  | append_singleton settings last ih =>
    obtain ⟨other, value⟩ := last
    have hstep : result.withSettings (settings ++ [(other, value)]) =
        (result.withSettings settings).setParameter other value := by
      simp [withSettings]
    rw [hstep, parameter?_setParameter, ih, List.reverse_append, List.reverse_singleton,
      List.singleton_append]
    by_cases heq : other = name
    · subst heq
      simp
    · have hne : (name == other) = false := beq_false_of_ne (Ne.symm heq)
      simp only [if_neg heq, List.lookup_cons, hne]

/-! ## What arrives -/

/-- What a document can carry of a result, whatever its data section is called. -/
structure IsCarried (spec : Option FunctionSpec) (result : CallResult) : Prop where
  code : ∀ code ∈ result.code, isXmlText code = true ∧ isOneLine code = true
  parameters : ArePortable spec result.parameters.entries
  data : ∀ root ∈ result.data, Portable none root

/-- No data section is taken for a parameter. -/
def HasNoParameterData (result : CallResult) : Prop :=
  ∀ root ∈ result.data, root.namespaceUri = none → root.localName ≠ "param"

/-- What the result is written as is read with its data section. -/
def Delivers (spec : Option FunctionSpec) (result : CallResult) : Prop :=
  ∃ parsed, parse (result.toXml spec).toUTF8 = .ok parsed ∧ parsed.data = result.data

/-- Nothing but a data section that is one arrives. -/
theorem IsCarried.exists_parse_eq (h : result.IsCarried spec) (hcode : result.code ≠ some "")
    (hparam : result.HasNoParameterData) : ∃ parsed,
      parse (result.toXml spec).toUTF8 = .ok parsed ∧
        parsed.data = result.data.filter isDataSection := by
  obtain ⟨_, _, _, hreads, hdata⟩ := exists_readsAs_carried h.data hparam
  obtain ⟨_, -, hparse⟩ := exists_parse_eq_of_readsAs h.code hcode h.parameters hreads hdata
  exact ⟨_, hparse, rfl⟩

/-- What a document can carry arrives just if the data section, if there is one, can be told by its
name and namespace. -/
theorem IsCarried.delivers_iff (h : result.IsCarried spec) (hcode : result.code ≠ some "") :
    result.Delivers spec ↔ ∀ root ∈ result.data, isDataSection root = true := by
  constructor
  · rintro ⟨parsed, hparse, hdata⟩
    rw [← hdata]
    exact isDataSection_of_parse hparse
  · intro hsection
    have hparam : result.HasNoParameterData := ne_param_of_isDataSection hsection
    obtain ⟨parsed, hparse, hdata⟩ := h.exists_parse_eq hcode hparam
    exact ⟨parsed, hparse, hdata.trans (filter_isDataSection hsection)⟩

/-- **A data section that is put into a result is kept, whatever it is called**, so all results
have data sections called `data` exactly if all that are put in are called so. One that is called
otherwise, or is in a namespace, does not arrive, and without any failure unless it is taken for a
parameter. The error code is never empty, and parameters have the values that were set last. -/
theorem obtained_data (given : Element → Prop) :
    (∀ result, Obtained given result → result.code ≠ some "") ∧
      ((∀ result, Obtained given result → ∀ root ∈ result.data, root.localName = "data") ↔
        ∀ root, given root → root.localName = "data") ∧
      (∀ spec result, Obtained given result → result.IsCarried spec →
        (result.Delivers spec ↔
          ∀ root ∈ result.data, root.localName = "data" ∧ root.namespaceUri = none) ∧
        (result.HasNoParameterData →
          ∃ parsed, parse (result.toXml spec).toUTF8 = .ok parsed ∧
            parsed.data = result.data.filter isDataSection)) ∧
      ∀ result, Obtained given result → ∀ settings name,
        (result.withSettings settings).parameter? name =
          match settings.reverse.lookup name with
          | some value => if name = "" ∨ value = "" then none else some value
          | none => result.parameter? name := by
  refine ⟨fun _ h => h.code_ne, forall_obtained_localName_iff, ?_, ?_⟩
  · intro spec result h hcarried
    refine ⟨?_, hcarried.exists_parse_eq h.code_ne⟩
    simp only [← isDataSection_iff]
    exact hcarried.delivers_iff h.code_ne
  · exact fun result _ settings name => parameter?_withSettings settings result name

/-- A result with nothing but an empty data section. -/
def sectionResult (name : String) : CallResult := success.withData (named name)

/-- Whatever the section is called, a document can carry it. -/
theorem isCarried_sectionResult {name : String} (hname : isNamePart name.toList = true) :
    (sectionResult name).IsCarried none where
  code := by simp [sectionResult, withData, success]
  parameters := by
    have hnone : (sectionResult name).parameters.entries = [] := rfl
    rw [hnone]
    exact ⟨by simp, by simp, by simp⟩
  data := by
    intro root hroot
    obtain rfl := Option.some.inj hroot
    refine .node ⟨hname, .inl rfl, ?_, .nil, ?_, rfl⟩ ?_
    · simp [named, attributes]
    · simp [named, text]
    · simp [named, children]

/-- Whatever the section is called, the result can be come by. -/
theorem obtained_sectionResult {name : String} (hname : name ≠ "") :
    Obtained Element.Obtained (sectionResult name) := by
  have hmake : Element.make name none = .ok (named name) := if_neg hname
  exact .withData (.make hmake) .success

/-- Of two data sections, the one that is called `data` arrives. A parameter is set twice. -/
theorem obtained_data_sections :
    (sectionResult "data").Delivers none ∧ ¬ (sectionResult "pets").Delivers none ∧
      ((sectionResult "data").withSettings [("a", "1"), ("b", "2"), ("a", "")]).parameter? "a" =
        none ∧
      ((sectionResult "data").withSettings [("a", "1"), ("b", "2"), ("a", "")]).parameter? "b" =
        some "2" := by
  obtain ⟨-, -, hdelivers, hsettings⟩ := obtained_data Element.Obtained
  have hdata : Obtained Element.Obtained (sectionResult "data") :=
    obtained_sectionResult (by decide)
  have hpets : Obtained Element.Obtained (sectionResult "pets") :=
    obtained_sectionResult (by decide)
  refine ⟨?_, ?_, hsettings _ hdata _ _, hsettings _ hdata _ _⟩
  · refine (hdelivers none _ hdata (isCarried_sectionResult (by decide))).1.mpr fun root hroot => ?_
    obtain rfl := Option.some.inj hroot
    exact ⟨rfl, rfl⟩
  · intro h
    have hsection := (hdelivers none _ hpets (isCarried_sectionResult (by decide))).1.mp h
    exact absurd (hsection (named "pets") rfl).1 (by decide)

/-- A section that is called otherwise is kept, and left out without any failure when the result
is read. -/
theorem not_forall_obtained_data :
    ¬ (∀ result, Obtained Element.Obtained result →
        ∀ root ∈ result.data, root.localName = "data") ∧
      Obtained Element.Obtained (sectionResult "pets") ∧
      (sectionResult "pets").data = some (named "pets") ∧
      ∃ parsed, parse ((sectionResult "pets").toXml none).toUTF8 = .ok parsed ∧
        parsed.data = none := by
  have hpets : Obtained Element.Obtained (sectionResult "pets") :=
    obtained_sectionResult (by decide)
  refine ⟨fun h => ?_, hpets, rfl, ?_⟩
  · exact absurd (h (sectionResult "pets") hpets (named "pets") rfl) (by decide)
  · refine (isCarried_sectionResult (by decide)).exists_parse_eq hpets.code_ne ?_
    intro root hroot _
    obtain rfl := Option.some.inj hroot
    decide

end RemoteCall.CallResult
