import RemoteCall.CallResult.Reader
import RemoteCall.Proofs.Element.Built
import RemoteCall.Proofs.Text.Utf8
import RemoteCall.Proofs.Xml.Declarations

/-!
# The grammar of results

What makes a document a result, and what result it is, can be told without regard to the order
in which its parts are read. Reading accepts exactly the documents that keep to this grammar.
Attributes are found by their local names, whatever their namespaces, so a grammar that speaks of
attributes without namespace is kept only where the others are called differently.
-/

namespace RemoteCall.CallResult

open Xml Element

/-! ## Parts of a document -/

/-- The root of the document that the bytes spell, after one byte order mark. -/
def documentRoot? (bytes : ByteArray) : Option Node :=
  (String.fromUTF8? bytes).bind fun text => Xml.parse? (dropByteOrderMark text)

/-- The bytes spell a document whose root is a `result` element without namespace. -/
def IsResultDocument (bytes : ByteArray) (attributes : List Attribute) (children : List Node) :
    Prop :=
  ∃ opening closing, documentRoot? bytes =
    some (.element none "result" attributes children opening closing)

/-- The value of the attribute that has the name and no namespace. -/
def unqualified? (name : String) (attributes : List Attribute) : Option String :=
  (attributes.find? (hasKey none name)).map Attribute.value

/-- The name of a parameter, unless it has none or the empty one, and its value. -/
def parameterOf? (value? : String → List Attribute → Option String) :
    Node → Option (Option String × String)
  | .element uri name attributes content _ _ =>
    if uri = none ∧ name = "param" then
      some (nonEmpty (value? "name" attributes), parameterValue content)
    else none
  | _ => none

/-- The element that a data section is. -/
def dataOf? : Node → Option Element
  | .element uri name attributes content opening closing =>
    if uri = none ∧ name = "data" then
      ofNode? (.element uri name attributes content opening closing)
    else none
  | _ => none

/-- No text but blanks stands among the nodes. -/
def HasBlankText (nodes : List Node) : Prop :=
  ∀ content first later, .text content first later ∈ nodes → content.all Text.isBlank = true

/-- The root keeps to the grammar, if `value?` finds the values of its attributes and of those of
its parameters. -/
structure IsGrammatical (value? : String → List Attribute → Option String)
    (attributes : List Attribute) (children : List Node) : Prop where
  text : HasBlankText children
  codes : ∀ first second, nonEmpty (value? "errorcode" attributes) = some first →
    nonEmpty (value? "code" attributes) = some second → first = second
  named : ∀ entry ∈ children.filterMap (parameterOf? value?), entry.1 ≠ none
  values : ∀ name first second, (some name, first) ∈ children.filterMap (parameterOf? value?) →
    (some name, second) ∈ children.filterMap (parameterOf? value?) →
    first ≠ "" → second ≠ "" → first = second
  data : (children.filterMap dataOf?).length ≤ 1

/-- The result is the one that the root describes. -/
structure IsDescribed (value? : String → List Attribute → Option String)
    (attributes : List Attribute) (children : List Node) (result : CallResult) : Prop where
  code : result.code =
    (nonEmpty (value? "errorcode" attributes)).or (nonEmpty (value? "code" attributes))
  parameters : ∀ name value, result.parameters.get? name = some value ↔
    value ≠ "" ∧ (some name, value) ∈ children.filterMap (parameterOf? value?)
  data : result.data = (children.filterMap dataOf?).head?

/-! ## The root -/

/-- The code is read where the two attributes that may hold it do not contradict each other. -/
theorem readCode_eq_ok_iff {attributes : List Attribute} {code : Option String} :
    readCode attributes = .ok code ↔
      (∀ first second, nonEmpty (attributeNamed? "errorcode" attributes) = some first →
        nonEmpty (attributeNamed? "code" attributes) = some second → first = second) ∧
      code = (nonEmpty (attributeNamed? "errorcode" attributes)).or
        (nonEmpty (attributeNamed? "code" attributes)) := by
  rw [readCode]
  cases nonEmpty (attributeNamed? "errorcode" attributes) with
  | none => simp [eq_comm]
  | some first =>
    cases nonEmpty (attributeNamed? "code" attributes) with
    | none => simp [eq_comm]
    | some second =>
      by_cases hagree : first = second
      · simp [hagree, eq_comm]
      · simp [hagree]

/-- Nothing is left of a text once it is trimmed just if it is blank. -/
theorem trim_eq_empty_iff {chars : List Char} :
    Text.trim (String.ofList chars) = "" ↔ chars.all Text.isBlank = true := by
  have hdropped : chars.all Text.isBlank = (chars.dropWhile Text.isBlank).all Text.isBlank := by
    rw [← List.takeWhile_append_dropWhile (p := Text.isBlank) (l := chars), List.all_append,
      List.all_takeWhile, Bool.true_and, List.takeWhile_append_dropWhile]
  rw [Text.trim, String.toList_ofList, ← String.toList_inj, String.toList_ofList,
    String.toList_empty, Text.trimEnd_eq_nil_iff, hdropped]

/-- No stray text is found just if all text is blank. -/
theorem strayText?_eq_none_iff {nodes : List Node} :
    strayText? nodes = none ↔ HasBlankText nodes := by
  rw [strayText?, List.findSome?_eq_none_iff]
  constructor
  · intro hnone content first later hmem
    have htext := hnone _ hmem
    dsimp only at htext
    split at htext
    · next hblank => exact trim_eq_empty_iff.mp hblank
    · cases htext
  · intro hblank node hnode
    cases node with
    | text content first later =>
      exact if_pos (trim_eq_empty_iff.mpr (hblank content first later hnode))
    | element | aside => rfl

/-! ## The children -/

/-- A parameter is a `param` element without namespace, with the name and the value that are found.
-/
theorem parameterOf?_eq_some_iff {value? : String → List Attribute → Option String} {node : Node}
    {entry : Option String × String} :
    parameterOf? value? node = some entry ↔ ∃ attributes content opening closing,
      node = .element none "param" attributes content opening closing ∧
        entry = (nonEmpty (value? "name" attributes), parameterValue content) := by
  constructor
  · intro h
    cases node with
    | element uri name attributes content opening closing =>
      simp only [parameterOf?, Option.ite_none_right_eq_some, Option.some.injEq] at h
      obtain ⟨⟨rfl, rfl⟩, rfl⟩ := h
      exact ⟨attributes, content, opening, closing, rfl, rfl⟩
    | text | aside => cases h
  · rintro ⟨attributes, content, opening, closing, rfl, rfl⟩
    simp [parameterOf?]

/-- A data section is a `data` element without namespace, read as an element. -/
theorem dataOf?_eq_some_iff {node : Node} {root : Element} :
    dataOf? node = some root ↔ ∃ attributes content opening closing,
      node = .element none "data" attributes content opening closing ∧
        ofNode? node = some root := by
  constructor
  · intro h
    cases node with
    | element uri name attributes content opening closing =>
      simp only [dataOf?, Option.ite_none_right_eq_some] at h
      obtain ⟨⟨rfl, rfl⟩, h⟩ := h
      exact ⟨attributes, content, opening, closing, rfl, h⟩
    | text | aside => cases h
  · rintro ⟨attributes, content, opening, closing, rfl, h⟩
    simpa [dataOf?] using h

/-- The value is given to the name: beforehand, or by one of the entries, where the empty value
counts for nothing. -/
def IsGiven (before : Parameters) (entries : List (Option String × String)) (name value : String) :
    Prop :=
  before.get? name = some value ∨ value ≠ "" ∧ (some name, value) ∈ entries

/-- A parameter without a name is refused, and so is one that contradicts an earlier one. Any
other is added. -/
theorem readParameter_cases (attributes : List Attribute) (content : List Node)
    (before : Parameters) :
    (nonEmpty (attributeNamed? "name" attributes) = none ∧
      readParameter attributes content before = .error .unnamedParameter) ∨
    ∃ name, nonEmpty (attributeNamed? "name" attributes) = some name ∧
      ((∃ after, readParameter attributes content before = .ok after ∧
        ∀ other value, after.get? other = some value ↔
          IsGiven before [(some name, parameterValue content)] other value) ∨
      ∃ existing, before.get? name = some existing ∧ existing ≠ parameterValue content ∧
        parameterValue content ≠ "" ∧ readParameter attributes content before =
          .error (.conflictingValues name existing (parameterValue content))) := by
  simp only [readParameter, IsGiven, List.mem_singleton, Prod.mk.injEq, Option.some.injEq]
  cases nonEmpty (attributeNamed? "name" attributes) with
  | none => exact .inl ⟨rfl, rfl⟩
  | some name =>
    refine .inr ⟨name, rfl, ?_⟩
    by_cases hempty : parameterValue content = ""
    · refine .inl ⟨before, by simp [hempty], fun other value => ?_⟩
      rw [hempty]
      grind
    · cases hget : before.get? name with
      | none =>
        refine .inl ⟨before.insert name (parameterValue content), by simp [hempty, hget], ?_⟩
        intro other value
        rw [Dictionary.get?_insert]
        grind
      | some existing =>
        by_cases hagree : existing = parameterValue content
        · refine .inl ⟨before, by simp [hempty, hget, hagree], fun other value => ?_⟩
          grind
        · exact .inr ⟨existing, rfl, hagree, hempty, by simp [hempty, hget, hagree]⟩

/-- A value is given by the first entry or by one of the others, which are read after it. -/
theorem isGiven_cons {before after : Parameters} {entry : Option String × String}
    {rest : List (Option String × String)}
    (h : ∀ name value, after.get? name = some value ↔ IsGiven before [entry] name value)
    (name value : String) :
    IsGiven after rest name value ↔ IsGiven before (entry :: rest) name value := by
  simp only [IsGiven, h]
  grind

/-- A child that is neither a parameter nor a data section is passed over. -/
theorem readChildren_cons_of_none {node : Node}
    (hparameter : parameterOf? attributeNamed? node = none) (hdata : dataOf? node = none)
    (before : Parameters) (data : Option Element) (rest : List Node) :
    readChildren before data (node :: rest) = readChildren before data rest := by
  cases node with
  | element uri name attributes content opening closing =>
    have hnoParameter : ¬ (uri = none ∧ name = "param") := by simpa [parameterOf?] using hparameter
    have hnoData : ¬ (uri = none ∧ name = "data") := by simpa [dataOf?, ofNode?] using hdata
    cases uri with
    | some uri => simp [readChildren]
    | none =>
      have hne : name ≠ "param" ∧ name ≠ "data" := by simp_all
      simp [readChildren, hne]
  | text | aside => rfl

/-- Children are read where every parameter has a name, no name is given two values and there is
at most one data section, those read before counted in. -/
theorem readChildren_eq_ok_iff {before after : Parameters} {data data' : Option Element}
    {nodes : List Node} :
    readChildren before data nodes = .ok (after, data') ↔
      (∀ entry ∈ nodes.filterMap (parameterOf? attributeNamed?), entry.1 ≠ none) ∧
      (∀ name value, after.get? name = some value ↔
        IsGiven before (nodes.filterMap (parameterOf? attributeNamed?)) name value) ∧
      data'.toList = data.toList ++ nodes.filterMap dataOf? := by
  induction nodes generalizing before data with
  | nil =>
    simp only [readChildren, Except.ok.injEq, Prod.mk.injEq, List.filterMap_nil, IsGiven,
      List.not_mem_nil, and_false, or_false, List.append_nil, false_imp_iff, implies_true,
      true_and]
    constructor
    · rintro ⟨rfl, rfl⟩
      exact ⟨fun _ _ => Iff.rfl, rfl⟩
    · rintro ⟨hafter, hdata⟩
      refine ⟨Dictionary.ext_get? fun name => ?_, ?_⟩
      · exact (Option.ext fun value => hafter name value).symm
      · cases data <;> cases data' <;> simp_all
  | cons node rest ih =>
    cases hparameter : parameterOf? attributeNamed? node with
    | some entry =>
      obtain ⟨attributes, content, opening, closing, rfl, rfl⟩ :=
        parameterOf?_eq_some_iff.mp hparameter
      have hdata : dataOf? (.element none "param" attributes content opening closing) = none := by
        simp [dataOf?]
      rw [List.filterMap_cons_some hparameter, List.filterMap_cons_none hdata,
        List.forall_mem_cons]
      rcases readParameter_cases attributes content before with ⟨hunnamed, hread⟩ |
        ⟨name, hname, ⟨next, hread, hgiven⟩ | ⟨existing, hget, hne, hvalue, hread⟩⟩
      · simp [readChildren, hread, hunnamed]
      · have hlater (rest : List (Option String × String)) := @isGiven_cons _ _ _ rest hgiven
        simp [readChildren, hread, ih, hname, hlater]
      · -- the name has another value already
        simp only [readChildren, hread]
        refine iff_of_false (by simp) fun ⟨_, hafter, _⟩ => hne ?_
        have hfirst := (hafter name existing).mpr (.inl hget)
        have hsecond := (hafter name (parameterValue content)).mpr
          (.inr ⟨hvalue, by rw [hname]; exact List.mem_cons_self⟩)
        rw [hfirst] at hsecond
        exact Option.some.inj hsecond
    | none =>
      cases hdata : dataOf? node with
      | none =>
        rw [readChildren_cons_of_none hparameter hdata, List.filterMap_cons_none hparameter,
          List.filterMap_cons_none hdata, ih]
      | some root =>
        rw [List.filterMap_cons_none hparameter, List.filterMap_cons_some hdata]
        obtain ⟨attributes, content, opening, closing, rfl, hroot⟩ := dataOf?_eq_some_iff.mp hdata
        cases data with
        | none => simp [readChildren, ih, hroot]
        | some first =>
          -- a second data section
          have hlength : data'.toList.length ≤ 1 := by cases data' <;> simp
          refine iff_of_false (by simp [readChildren]) fun ⟨_, _, hsections⟩ => ?_
          rw [hsections] at hlength
          simp at hlength

/-! ## Documents -/

/-- The code that is read is not empty. -/
theorem nonEmpty_of_readCode {attributes : List Attribute} {code : Option String}
    (h : readCode attributes = .ok code) : nonEmpty code = code := by
  refine nonEmpty_eq_self fun hempty => ?_
  have hcode := (readCode_eq_ok_iff.mp h).2
  rw [hempty, eq_comm, Option.or_eq_some_iff] at hcode
  rcases hcode with hcode | ⟨-, hcode⟩
  · exact nonEmpty_ne_some_empty _ hcode
  · exact nonEmpty_ne_some_empty _ hcode

/-- The root is read where its name, its text, its code and its children are. -/
theorem ofRoot_eq_ok_iff {uri : Option String} {name : String} {attributes : List Attribute}
    {children : List Node} {opening closing : List Char} {result : CallResult} :
    ofRoot (.element uri name attributes children opening closing) = .ok result ↔
      uri = none ∧ name = "result" ∧ HasBlankText children ∧
        readCode attributes = .ok result.code ∧
        readChildren Dictionary.empty none children = .ok (result.parameters, result.data) := by
  simp only [ofRoot, ← strayText?_eq_none_iff]
  by_cases hname : name = "result"
  · cases uri with
    | some uri => simp [hname]
    | none =>
      cases hstray : strayText? children with
      | some text => simp [hname]
      | none =>
        cases hcode : readCode attributes with
        | error => simp [hname, bind, Except.bind]
        | ok code =>
          have hkept := nonEmpty_of_readCode hcode
          cases hchildren : readChildren Dictionary.empty none children with
          | error => simp [hname, bind, Except.bind]
          | ok found =>
            obtain ⟨parameters, data⟩ := found
            obtain ⟨code', parameters', data'⟩ := result
            simp [hname, bind, Except.bind, make, hkept]
  · simp [hname]

/-- An optional value is the only one of the values, and there is none if there are none. -/
theorem toList_eq_iff {α : Type} {value : Option α} {values : List α} :
    value.toList = values ↔ values.length ≤ 1 ∧ value = values.head? := by
  cases values with
  | nil => cases value <;> simp
  | cons first rest => cases rest <;> cases value <;> simp

/-- A root that is a `result` element without namespace is read exactly if it keeps to the
grammar, and then as the result that it describes. -/
theorem ofRoot_result_eq_ok_iff {attributes : List Attribute} {children : List Node}
    {opening closing : List Char} {result : CallResult} :
    ofRoot (.element none "result" attributes children opening closing) = .ok result ↔
      IsGrammatical attributeNamed? attributes children ∧
        IsDescribed attributeNamed? attributes children result := by
  rw [ofRoot_eq_ok_iff, readCode_eq_ok_iff, readChildren_eq_ok_iff, Option.toList_none,
    List.nil_append, toList_eq_iff]
  have hgiven (name value : String) : IsGiven Dictionary.empty
      (children.filterMap (parameterOf? attributeNamed?)) name value ↔
        value ≠ "" ∧ (some name, value) ∈ children.filterMap (parameterOf? attributeNamed?) := by
    simp [IsGiven]
  simp only [hgiven, true_and]
  constructor
  · rintro ⟨htext, ⟨hcodes, hcode⟩, hnamed, hparameters, hsections, hdata⟩
    refine ⟨⟨htext, hcodes, hnamed, ?_, hsections⟩, ⟨hcode, hparameters, hdata⟩⟩
    -- a name has one value in the result
    intro name first second hfirst hsecond hfirstNe hsecondNe
    have hgetFirst := (hparameters name first).mpr ⟨hfirstNe, hfirst⟩
    have hgetSecond := (hparameters name second).mpr ⟨hsecondNe, hsecond⟩
    rw [hgetFirst] at hgetSecond
    exact Option.some.inj hgetSecond
  · rintro ⟨hgrammatical, hdescribed⟩
    exact ⟨hgrammatical.text, ⟨hgrammatical.codes, hdescribed.code⟩,
      hgrammatical.named, hdescribed.parameters, hgrammatical.data, hdescribed.data⟩

/-- What is read of the bytes of a text is the document behind its byte order mark. -/
theorem documentRoot?_toUTF8 (text : String) :
    documentRoot? text.toUTF8 = Xml.parse? (dropByteOrderMark text) := by
  rw [documentRoot?, Text.Utf8.fromUTF8?_toUTF8, Option.bind_some]

/-- Where the bytes spell a document, its root decides. -/
theorem parse_of_documentRoot? {bytes : ByteArray} {root : Node}
    (h : documentRoot? bytes = some root) : parse bytes = ofRoot root := by
  obtain ⟨text, htext, hroot⟩ := Option.bind_eq_some_iff.mp h
  simp only [parse, htext, parseText, hroot]

/-- Where the bytes spell no document, reading fails, and the failure behind it is reported. -/
theorem exists_error_of_documentRoot? {bytes : ByteArray} (h : documentRoot? bytes = none) :
    ∃ error, parse bytes = .error error ∧ error.hasSource = true := by
  unfold parse
  cases htext : String.fromUTF8? bytes with
  | none => exact ⟨.notUtf8, rfl, rfl⟩
  | some text =>
    rw [documentRoot?, htext, Option.bind_some] at h
    exact ⟨.malformed, by simp only [parseText, h], rfl⟩

/-- The root of a document is an element. -/
theorem exists_element_of_documentRoot? {bytes : ByteArray} {root : Node}
    (h : documentRoot? bytes = some root) : ∃ uri name attributes children opening closing,
      root = .element uri name attributes children opening closing := by
  obtain ⟨text, -, hroot⟩ := Option.bind_eq_some_iff.mp h
  simp only [Xml.parse?, Option.bind_eq_bind, Option.bind_eq_some_iff] at hroot
  obtain ⟨tree, htree, hroot⟩ := hroot
  obtain ⟨-, trees, -, -, -, hsingle⟩ := readTree_eq_some_iff.mp htree
  obtain ⟨-, -, tag, opening, content, closing, rfl, -⟩ := rootOf?_eq_some_iff.mp hsingle
  obtain ⟨_, _, uri, attributes, children, -, -, -, -, -, rfl⟩ :=
    resolve_element_eq_some_iff.mp hroot
  exact ⟨uri, _, attributes, _, opening, closing, rfl⟩

/-- The bytes are read exactly if they are a document that keeps to the grammar, and then as the
result that it describes. -/
theorem parse_eq_ok_iff {bytes : ByteArray} {result : CallResult} :
    parse bytes = .ok result ↔ ∃ attributes children, IsResultDocument bytes attributes children ∧
      IsGrammatical attributeNamed? attributes children ∧
        IsDescribed attributeNamed? attributes children result := by
  constructor
  · intro h
    cases hroot : documentRoot? bytes with
    | none =>
      obtain ⟨error, herror, -⟩ := exists_error_of_documentRoot? hroot
      rw [herror] at h
      cases h
    | some root =>
      obtain ⟨uri, name, attributes, children, opening, closing, rfl⟩ :=
        exists_element_of_documentRoot? hroot
      rw [parse_of_documentRoot? hroot] at h
      obtain ⟨rfl, rfl, -⟩ := ofRoot_eq_ok_iff.mp h
      exact ⟨attributes, children, ⟨opening, closing, hroot⟩, ofRoot_result_eq_ok_iff.mp h⟩
  · rintro ⟨attributes, children, ⟨opening, closing, hroot⟩, hread⟩
    rw [parse_of_documentRoot? hroot]
    exact ofRoot_result_eq_ok_iff.mpr hread

/-! ## Failures -/

/-- Contradicting codes are refused without any other failure behind it. -/
theorem hasSource_of_readCode {attributes : List Attribute} {error : ParseError}
    (h : readCode attributes = .error error) : error.hasSource = false := by
  unfold readCode at h
  dsimp only at h
  split at h
  · split at h <;> cases h
    rfl
  · cases h
  · cases h

/-- A parameter is refused without any other failure behind it. -/
theorem hasSource_of_readParameter {attributes : List Attribute} {content : List Node}
    {before : Parameters} {error : ParseError}
    (h : readParameter attributes content before = .error error) : error.hasSource = false := by
  rcases readParameter_cases attributes content before with ⟨-, hread⟩ |
    ⟨name, -, ⟨after, hread, -⟩ | ⟨existing, -, -, -, hread⟩⟩
  · rw [hread] at h
    cases h
    rfl
  · rw [hread] at h
    cases h
  · rw [hread] at h
    cases h
    rfl

/-- Children are refused without any other failure behind it. -/
theorem hasSource_of_readChildren {nodes : List Node} {before : Parameters}
    {data : Option Element} {error : ParseError}
    (h : readChildren before data nodes = .error error) : error.hasSource = false := by
  fun_induction readChildren before data nodes with
  | case1 => cases h
  | case4 _ _ _ _ _ _ _ _ _ _ hparameter =>
    cases h
    exact hasSource_of_readParameter hparameter
  | case5 =>
    cases h
    rfl
  | case2 _ _ _ _ _ _ _ _ _ _ ih => exact ih h
  | case3 _ _ _ _ _ _ _ _ _ _ _ ih => exact ih h
  | case6 _ _ _ _ _ _ _ _ _ _ _ ih => exact ih h
  | case7 _ _ _ _ _ _ _ _ _ _ _ _ ih => exact ih h
  | case8 _ _ _ _ _ ih => exact ih h

/-- No other failure lies behind a refusal of what is a document. -/
theorem hasSource_of_ofRoot {uri : Option String} {name : String} {attributes : List Attribute}
    {children : List Node} {opening closing : List Char} {error : ParseError}
    (h : ofRoot (.element uri name attributes children opening closing) = .error error) :
    error.hasSource = false := by
  simp only [ofRoot] at h
  split at h
  · cases h
    rfl
  · split at h
    · cases h
      rfl
    · cases h
      rfl
    · cases hcode : readCode attributes with
      | error failure =>
        rw [hcode] at h
        cases h
        exact hasSource_of_readCode hcode
      | ok code =>
        cases hchildren : readChildren Dictionary.empty none children with
        | error failure =>
          rw [hcode, hchildren] at h
          cases h
          exact hasSource_of_readChildren hchildren
        | ok found =>
          rw [hcode, hchildren] at h
          cases h

/-! ## What every document that keeps to the grammar describes -/

/-- Entries that give no name two values are the entries of a dictionary, the empty values left
out. -/
theorem exists_dictionary {entries : List (Option String × String)}
    (h : ∀ name first second, (some name, first) ∈ entries → (some name, second) ∈ entries →
      first ≠ "" → second ≠ "" → first = second) :
    ∃ parameters : Parameters, ∀ name value, parameters.get? name = some value ↔
      value ≠ "" ∧ (some name, value) ∈ entries := by
  induction entries with
  | nil => exact ⟨Dictionary.empty, by simp⟩
  | cons entry rest ih =>
    obtain ⟨parameters, hparameters⟩ := ih fun name first second hfirst hsecond =>
      h name first second (List.mem_cons_of_mem _ hfirst) (List.mem_cons_of_mem _ hsecond)
    obtain ⟨name | name, value⟩ := entry
    · exact ⟨parameters, by simpa using hparameters⟩
    · by_cases hempty : value = ""
      · refine ⟨parameters, fun other value' => ?_⟩
        rw [hparameters]
        grind
      · refine ⟨parameters.insert name value, fun other value' => ?_⟩
        rw [Dictionary.get?_insert]
        have hagree := h name value
        by_cases hname : name = other
        · grind
        · rw [if_neg hname, hparameters]
          grind

/-- Every root that keeps to the grammar describes a result. -/
theorem IsGrammatical.exists_isDescribed {value? : String → List Attribute → Option String}
    {attributes : List Attribute} {children : List Node}
    (h : IsGrammatical value? attributes children) :
    ∃ result, IsDescribed value? attributes children result := by
  obtain ⟨parameters, hparameters⟩ := exists_dictionary h.values
  exact ⟨⟨_, parameters, _⟩, rfl, hparameters, rfl⟩

/-! ## Exact reading -/

/-- The bytes are read if they are a document that keeps to the grammar, and not otherwise. What
is read is what the document describes, and another failure is reported where there is no
document at all, and nowhere else. -/
structure IsReadExactly (value? : String → List Attribute → Option String) (bytes : ByteArray) :
    Prop where
  accepted : (∃ result, parse bytes = .ok result) ↔ ∃ attributes children,
    IsResultDocument bytes attributes children ∧ IsGrammatical value? attributes children
  described : ∀ result, parse bytes = .ok result → ∃ attributes children,
    IsResultDocument bytes attributes children ∧ IsDescribed value? attributes children result
  source : ∀ error, parse bytes = .error error →
    (error.hasSource = true ↔ documentRoot? bytes = none)

/-- With attributes by their local names, the grammar is exactly that of what is read. -/
theorem isReadExactly_attributeNamed? (bytes : ByteArray) :
    IsReadExactly attributeNamed? bytes where
  accepted := by
    constructor
    · rintro ⟨result, hparse⟩
      obtain ⟨attributes, children, hdocument, hgrammatical, -⟩ := parse_eq_ok_iff.mp hparse
      exact ⟨attributes, children, hdocument, hgrammatical⟩
    · rintro ⟨attributes, children, hdocument, hgrammatical⟩
      obtain ⟨result, hdescribed⟩ := hgrammatical.exists_isDescribed
      exact ⟨result, parse_eq_ok_iff.mpr ⟨_, _, hdocument, hgrammatical, hdescribed⟩⟩
  described := by
    intro result hparse
    obtain ⟨attributes, children, hdocument, -, hdescribed⟩ := parse_eq_ok_iff.mp hparse
    exact ⟨attributes, children, hdocument, hdescribed⟩
  source := by
    intro error hparse
    cases hroot : documentRoot? bytes with
    | none =>
      obtain ⟨failure, hfailure, hsource⟩ := exists_error_of_documentRoot? hroot
      rw [hparse, Except.error.injEq] at hfailure
      simp [hfailure, hsource]
    | some root =>
      obtain ⟨uri, name, attributes, children, opening, closing, rfl⟩ :=
        exists_element_of_documentRoot? hroot
      rw [parse_of_documentRoot? hroot] at hparse
      simp [hasSource_of_ofRoot hparse]

/-! ## Attributes in namespaces -/

/-- None of the attributes that are looked at is in a namespace. -/
structure IsUnqualified (attributes : List Attribute) (children : List Node) : Prop where
  code : ∀ candidate ∈ attributes, candidate.localName ∈ ["errorcode", "code"] →
    candidate.namespaceUri = none
  name : ∀ own content opening closing, .element none "param" own content opening closing ∈ children →
    ∀ candidate ∈ own, candidate.localName = "name" → candidate.namespaceUri = none

/-- Where no attribute of the name is in a namespace, the local name finds the same one. -/
theorem unqualified?_eq_attributeNamed? {name : String} {attributes : List Attribute}
    (h : ∀ candidate ∈ attributes, candidate.localName = name → candidate.namespaceUri = none) :
    unqualified? name attributes = attributeNamed? name attributes := by
  induction attributes with
  | nil => rfl
  | cons first rest ih =>
    obtain ⟨hfirst, hrest⟩ := List.forall_mem_cons.mp h
    have hlater := ih hrest
    simp only [unqualified?, attributeNamed?] at hlater ⊢
    by_cases hname : first.localName = name
    · simp [hasKey, hname, hfirst hname]
    · simp [hasKey, hname, hlater]

/-- The entry of a parameter depends on how its name is found, and on nothing else. -/
theorem parameterOf?_congr {value? value?' : String → List Attribute → Option String} {node : Node}
    (h : ∀ own content opening closing, node = .element none "param" own content opening closing →
      value? "name" own = value?' "name" own) :
    parameterOf? value? node = parameterOf? value?' node := by
  cases node with
  | element uri name own content opening closing =>
    by_cases hparameter : uri = none ∧ name = "param"
    · obtain ⟨rfl, rfl⟩ := hparameter
      simp [parameterOf?, h own content opening closing rfl]
    · simp [parameterOf?, hparameter]
  | text | aside => rfl

/-- Two ways to find the values of attributes find the same ones where the root is read. -/
structure AgreeOn (value? value?' : String → List Attribute → Option String)
    (attributes : List Attribute) (children : List Node) : Prop where
  errorcode : value? "errorcode" attributes = value?' "errorcode" attributes
  code : value? "code" attributes = value?' "code" attributes
  parameters : children.filterMap (parameterOf? value?) = children.filterMap (parameterOf? value?')

namespace AgreeOn

variable {value? value?' : String → List Attribute → Option String}
  {attributes : List Attribute} {children : List Node}

/-- Agreeing goes both ways. -/
theorem symm (h : AgreeOn value? value?' attributes children) :
    AgreeOn value?' value? attributes children :=
  ⟨h.errorcode.symm, h.code.symm, h.parameters.symm⟩

/-- A root keeps to the grammar with one way to find values if it does with the other. -/
theorem isGrammatical (h : AgreeOn value? value?' attributes children)
    (hgrammatical : IsGrammatical value? attributes children) :
    IsGrammatical value?' attributes children := by
  obtain ⟨htext, hcodes, hnamed, hvalues, hdata⟩ := hgrammatical
  rw [h.errorcode, h.code] at hcodes
  rw [h.parameters] at hnamed hvalues
  exact ⟨htext, hcodes, hnamed, hvalues, hdata⟩

/-- A root describes the same result with either way to find values. -/
theorem isDescribed (h : AgreeOn value? value?' attributes children) {result : CallResult}
    (hdescribed : IsDescribed value? attributes children result) :
    IsDescribed value?' attributes children result := by
  obtain ⟨hcode, hparameters, hdata⟩ := hdescribed
  rw [h.errorcode, h.code] at hcode
  rw [h.parameters] at hparameters
  exact ⟨hcode, hparameters, hdata⟩

/-- A grammar is that of what is read if another one is that agrees with it on every document. -/
theorem isReadExactly {bytes : ByteArray}
    (h : ∀ attributes children, IsResultDocument bytes attributes children →
      AgreeOn value? value?' attributes children) (hexactly : IsReadExactly value?' bytes) :
    IsReadExactly value? bytes where
  accepted := by
    rw [hexactly.accepted]
    constructor
    · rintro ⟨attributes, children, hdocument, hgrammatical⟩
      exact ⟨attributes, children, hdocument, (h _ _ hdocument).symm.isGrammatical hgrammatical⟩
    · rintro ⟨attributes, children, hdocument, hgrammatical⟩
      exact ⟨attributes, children, hdocument, (h _ _ hdocument).isGrammatical hgrammatical⟩
  described := by
    intro result hparse
    obtain ⟨attributes, children, hdocument, hdescribed⟩ := hexactly.described result hparse
    exact ⟨attributes, children, hdocument, (h _ _ hdocument).symm.isDescribed hdescribed⟩
  source := hexactly.source

end AgreeOn

/-- With no attribute in a namespace, local names find what names without namespace do. -/
theorem IsUnqualified.agreeOn {attributes : List Attribute} {children : List Node}
    (h : IsUnqualified attributes children) :
    AgreeOn unqualified? attributeNamed? attributes children where
  errorcode := unqualified?_eq_attributeNamed? fun candidate hcandidate hname =>
    h.code candidate hcandidate (by simp [hname])
  code := unqualified?_eq_attributeNamed? fun candidate hcandidate hname =>
    h.code candidate hcandidate (by simp [hname])
  parameters := by
    have hname := h.name
    clear h
    induction children with
    | nil => rfl
    | cons node rest ih =>
      have hlater := ih fun own content opening closing hmem =>
        hname own content opening closing (List.mem_cons_of_mem _ hmem)
      have hfirst : parameterOf? unqualified? node = parameterOf? attributeNamed? node := by
        refine parameterOf?_congr fun own content opening closing heq => ?_
        exact unqualified?_eq_attributeNamed?
          (hname own content opening closing (heq ▸ List.mem_cons_self))
      rw [List.filterMap_cons, List.filterMap_cons, hfirst, hlater]

/-- **The grammar of results.** All that is read, and nothing else, is a document whose root is a
`result` without namespace, text, contradicting codes, nameless parameters, contradicting values
or a second data section; and it is read as the code, the parameters and the data section that
stand there. Attributes count by their local names, so this is the grammar of attributes without
namespace wherever those in a namespace have other names. -/
theorem isReadExactly_parse (bytes : ByteArray) :
    IsReadExactly attributeNamed? bytes ∧
      ((∀ attributes children, IsResultDocument bytes attributes children →
        IsUnqualified attributes children) → IsReadExactly unqualified? bytes) := by
  have hexactly := isReadExactly_attributeNamed? bytes
  refine ⟨hexactly, fun h => ?_⟩
  exact AgreeOn.isReadExactly (fun _ _ hdocument => (h _ _ hdocument).agreeOn) hexactly

/-- A result with an attribute in a namespace, under a name that is not looked at. -/
def extendedResult : String :=
  "<result xmlns:x='u' x:id='7' code='A'><param name='a'>1</param></result>"

/-- The attribute in a namespace is one beside the code. -/
theorem documentRoot?_extendedResult : documentRoot? extendedResult.toUTF8 =
    some (.element none "result" [⟨some "u", "id", "7"⟩, ⟨none, "code", "A"⟩]
      [.element none "param" [⟨none, "name", "a"⟩] [.text ['1'] ['1'] []]
        "<param name='a'>".toList "</param>".toList]
      "<result xmlns:x='u' x:id='7' code='A'>".toList "</result>".toList) := by
  rw [documentRoot?_toUTF8]
  decide +kernel

/-- The attribute in a namespace is passed over, so the result is read as the grammar says. -/
theorem isReadExactly_extendedResult : IsReadExactly unqualified? extendedResult.toUTF8 := by
  refine (isReadExactly_parse extendedResult.toUTF8).2 ?_
  rintro attributes children ⟨opening, closing, hroot⟩
  rw [documentRoot?_extendedResult] at hroot
  obtain ⟨-, -, rfl, rfl, -⟩ := Node.element.inj (Option.some.inj hroot)
  constructor
  · simp
  · rintro own content opening closing hmem
    obtain ⟨-, -, rfl, -⟩ := Node.element.inj (List.mem_singleton.mp hmem)
    simp

/-- A result whose parameter has its name in a namespace. -/
def qualifiedResult : String := "<result><param xmlns:x='u' x:name='a'>1</param></result>"

/-- The name of the parameter is in a namespace. -/
theorem documentRoot?_qualifiedResult : documentRoot? qualifiedResult.toUTF8 =
    some (.element none "result" []
      [.element none "param" [⟨some "u", "name", "a"⟩] [.text ['1'] ['1'] []]
        "<param xmlns:x='u' x:name='a'>".toList "</param>".toList]
      "<result>".toList "</result>".toList) := by
  rw [documentRoot?_toUTF8]
  decide +kernel

/-- The name in a namespace is taken for the name of the parameter. -/
theorem not_isReadExactly_qualifiedResult :
    ¬ IsReadExactly unqualified? qualifiedResult.toUTF8 := by
  intro hexactly
  have hparse : parse qualifiedResult.toUTF8 =
      .ok ⟨none, Dictionary.empty.insert "a" "1", none⟩ := by
    rw [parse_of_documentRoot? documentRoot?_qualifiedResult]
    rfl
  obtain ⟨attributes, children, ⟨opening, closing, hroot⟩, hgrammatical⟩ :=
    hexactly.accepted.mp ⟨_, hparse⟩
  rw [documentRoot?_qualifiedResult] at hroot
  obtain ⟨-, -, rfl, rfl, -⟩ := Node.element.inj (Option.some.inj hroot)
  exact hgrammatical.named (none, "1") (by decide +kernel) rfl

end RemoteCall.CallResult
