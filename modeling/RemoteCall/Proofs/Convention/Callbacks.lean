import RemoteCall.Proofs.Convention.Containment
import RemoteCall.Proofs.Convention.Forms
import RemoteCall.Proofs.Convention.Gathering

/-!
# Callbacks

The script convention wraps its answer into a call of the function that the request names, and
that name stands in the answer as it is. A path of identifiers with dots between them is always
accepted. But only the first part of a name is looked at as an identifier: in what follows a dot,
it is enough that an identifier may hold the characters, so a part may be missing or begin with a
digit. Any other name makes the request invalid, whatever else it asks for.
-/

namespace RemoteCall

namespace Script

/-! ## Names of functions -/

/-- Whether an identifier may hold the character. -/
def isIdentifierChar (c : Char) : Bool :=
  isCallbackStart c || Text.isDigit c

/-- A letter, an underscore or a dollar sign, and after it more of these and digits. -/
def IsIdentifier (part : List Char) : Prop :=
  ∃ first rest, part = first :: rest ∧ isCallbackStart first = true ∧
    ∀ c ∈ rest, isIdentifierChar c = true

/-- The parts of a name, which stand between its dots. -/
def partsOf (text : String) : List (List Char) :=
  text.toList.splitOn '.'

/-- The name is made of identifiers with dots between them. -/
def IsPath (text : String) : Prop :=
  ∀ part ∈ partsOf text, IsIdentifier part

/-- The name begins with an identifier, and its other parts hold no character that an identifier
may not hold. -/
def IsLoosePath (text : String) : Prop :=
  ∃ first rest, partsOf text = first :: rest ∧ IsIdentifier first ∧
    ∀ part ∈ rest, ∀ c ∈ part, isIdentifierChar c = true

/-- A dot at the front leaves an empty part before it. -/
theorem splitOn_dot_self (rest : List Char) :
    ('.' :: rest).splitOn '.' = [] :: rest.splitOn '.' := by
  simp [List.splitOn, List.splitOnP_cons_eq_if_modifyHead]

/-- There is always a first part. -/
theorem exists_splitOn_dot (chars : List Char) :
    ∃ first rest, chars.splitOn '.' = first :: rest :=
  List.exists_cons_of_ne_nil (List.splitOnP_ne_nil _ chars)

/-- A character that is no dot is the first of its part. -/
theorem splitOn_dot_cons {c : Char} (hc : c ≠ '.') {chars first : List Char}
    {rest : List (List Char)} (h : chars.splitOn '.' = first :: rest) :
    (c :: chars).splitOn '.' = (c :: first) :: rest := by
  have hsplit : (c :: chars).splitOn '.' = (chars.splitOn '.').modifyHead (List.cons c) := by
    simp [List.splitOn, List.splitOnP_cons_eq_if_modifyHead, hc]
  rw [hsplit, h]
  rfl

/-- The parts hold all characters but the dots. -/
theorem forall_mem_splitOn_iff {P : Char → Prop} (chars : List Char) :
    (∀ part ∈ chars.splitOn '.', ∀ c ∈ part, P c) ↔ ∀ c ∈ chars, c ≠ '.' → P c := by
  induction chars with
  | nil => simp
  | cons c chars ih =>
    obtain ⟨first, rest, hsplit⟩ := exists_splitOn_dot chars
    by_cases hdot : c = '.'
    · subst hdot
      rw [splitOn_dot_self, List.forall_mem_cons, List.forall_mem_cons, ih]
      simp
    · rw [hsplit, List.forall_mem_cons] at ih
      rw [splitOn_dot_cons hdot hsplit, List.forall_mem_cons, List.forall_mem_cons,
        List.forall_mem_cons, ← ih, and_assoc]
      simp [hdot]

/-- Behind the first character, dots may stand between the characters of identifiers. -/
theorem isCallbackChar_iff {c : Char} :
    isCallbackChar c = true ↔ c ≠ '.' → isIdentifierChar c = true := by
  by_cases hdot : c = '.' <;> simp [isCallbackChar, isIdentifierChar, hdot]

/-- A callback is checked at its first character and at each of the others, one by one. -/
theorem isCallback_iff {text : String} :
    isCallback text = true ↔ ∃ first rest, text.toList = first :: rest ∧
      isCallbackStart first = true ∧ ∀ c ∈ rest, isCallbackChar c = true := by
  unfold isCallback
  cases text.toList with
  | nil => simp
  | cons first rest => simp

/-- No callback starts with a dot. -/
theorem ne_dot_of_isCallbackStart {c : Char} (h : isCallbackStart c = true) : c ≠ '.' := by
  rintro rfl
  cases h

/-- The names that are accepted, told by their parts. -/
theorem isCallback_iff_isLoosePath {text : String} :
    isCallback text = true ↔ IsLoosePath text := by
  rw [isCallback_iff, IsLoosePath, partsOf]
  constructor
  · rintro ⟨c, chars, htext, hstart, hchars⟩
    obtain ⟨first, rest, hsplit⟩ := exists_splitOn_dot chars
    have hparts := (forall_mem_splitOn_iff chars).mpr fun c hc =>
      isCallbackChar_iff.mp (hchars c hc)
    rw [hsplit, List.forall_mem_cons] at hparts
    refine ⟨c :: first, rest, ?_, ⟨c, first, rfl, hstart, hparts.1⟩, hparts.2⟩
    rw [htext, splitOn_dot_cons (ne_dot_of_isCallbackStart hstart) hsplit]
  · rintro ⟨part, rest, hsplit, ⟨c, first, rfl, hstart, hfirst⟩, hrest⟩
    have hdot := ne_dot_of_isCallbackStart hstart
    cases hchars : text.toList with
    | nil =>
      rw [hchars] at hsplit
      cases hsplit
    | cons d chars =>
      obtain ⟨first', rest', hsplit'⟩ := exists_splitOn_dot chars
      by_cases hd : d = '.'
      · -- then the first part would be empty
        rw [hchars, hd, splitOn_dot_self] at hsplit
        cases hsplit
      · rw [hchars, splitOn_dot_cons hd hsplit'] at hsplit
        cases hsplit
        refine ⟨c, chars, rfl, hstart, fun d hd => isCallbackChar_iff.mpr ?_⟩
        have hparts : ∀ part ∈ chars.splitOn '.', ∀ c ∈ part, isIdentifierChar c = true := by
          rw [hsplit']
          exact List.forall_mem_cons.mpr ⟨hfirst, hrest⟩
        exact (forall_mem_splitOn_iff chars).mp hparts d hd

/-- No callback starts with a digit. -/
theorem isDigit_eq_false_of_isCallbackStart {c : Char} (h : isCallbackStart c = true) :
    Text.isDigit c = false := by
  have hle (a b : Char) : a ≤ b ↔ a.toNat ≤ b.toNat := Iff.rfl
  simp only [isCallbackStart, isLetter, Bool.or_eq_true, Bool.and_eq_true, decide_eq_true_eq,
    beq_iff_eq, hle, ← Char.toNat_inj, Char.reduceToNat] at h
  rw [Bool.eq_false_iff]
  intro hdigit
  simp only [Text.isDigit, Bool.and_eq_true, decide_eq_true_eq, hle, Char.reduceToNat] at hdigit
  omega

/-- Among the parts that hold no other characters, those are no identifiers that are empty or begin
with a digit. -/
theorem isIdentifier_iff {part : List Char} :
    IsIdentifier part ↔ (∀ c ∈ part, isIdentifierChar c = true) ∧ part ≠ [] ∧
      ∀ c ∈ part.head?, Text.isDigit c = false := by
  cases part with
  | nil => simp [IsIdentifier]
  | cons c rest =>
    have hcons : IsIdentifier (c :: rest) ↔
        isCallbackStart c = true ∧ ∀ d ∈ rest, isIdentifierChar d = true := by
      simp [IsIdentifier]
    have hstart : isCallbackStart c = true ↔
        isIdentifierChar c = true ∧ Text.isDigit c = false := by
      constructor
      · intro h
        exact ⟨by simp [isIdentifierChar, h], isDigit_eq_false_of_isCallbackStart h⟩
      · rintro ⟨hchar, hdigit⟩
        simpa [isIdentifierChar, hdigit] using hchar
    rw [hcons, hstart, List.forall_mem_cons, List.head?_cons]
    constructor
    · rintro ⟨⟨hchar, hdigit⟩, hrest⟩
      exact ⟨⟨hchar, hrest⟩, by simp, by simpa using hdigit⟩
    · rintro ⟨⟨hchar, hrest⟩, -, hdigit⟩
      exact ⟨⟨hchar, hdigit c rfl⟩, hrest⟩

/-- What is accepted and is no path has a part behind a dot that is empty or begins with a
digit. -/
theorem isPath_iff {text : String} :
    IsPath text ↔ IsLoosePath text ∧ ∀ part ∈ (partsOf text).tail,
      part ≠ [] ∧ ∀ c ∈ part.head?, Text.isDigit c = false := by
  obtain ⟨first, rest, hparts⟩ := exists_splitOn_dot text.toList
  have hpath : IsPath text ↔ IsIdentifier first ∧ ∀ part ∈ rest, IsIdentifier part := by
    rw [IsPath, partsOf, hparts, List.forall_mem_cons]
  have hloose : IsLoosePath text ↔
      IsIdentifier first ∧ ∀ part ∈ rest, ∀ c ∈ part, isIdentifierChar c = true := by
    simp [IsLoosePath, partsOf, hparts]
  rw [hpath, hloose, partsOf, hparts, List.tail_cons, and_assoc]
  refine and_congr_right fun _ => ?_
  simp only [isIdentifier_iff, forall_and]

end Script

/-! ## Requests with and without a parameter -/

namespace Http.Request

open Text.FormEncoding (parse_serialize mem_serialize)

/-- The request with a query of all its pairs but those of one name. -/
def withoutQueryParameter (name : String) (request : Request) : Request :=
  { request with
    query := request.query.map fun _ =>
      formText (request.queryPairs.filter fun pair => pair.1 ≠ name) }

variable {request : Request} {name : String}

/-- The pairs of the shorter query are the others, in order. -/
theorem queryPairs_withoutQueryParameter :
    (request.withoutQueryParameter name).queryPairs =
      request.queryPairs.filter fun pair => pair.1 ≠ name := by
  cases hquery : request.query with
  | none => simp [queryPairs, withoutQueryParameter, hquery]
  | some query =>
    have hbytes (pairs : List (String × String)) : bytesOf (formText pairs).toUTF8 =
        Text.FormEncoding.serialize pairs := bytesOf_ascii fun b hb => (mem_serialize hb).2
    have hnew : (request.withoutQueryParameter name).query =
        some (formText (request.queryPairs.filter fun pair => pair.1 ≠ name)) := by
      simp [withoutQueryParameter, hquery]
    rw [queryPairs, hnew]
    simp only [hbytes, parse_serialize]

/-- All pairs of other names are still there. -/
theorem mem_pairs_withoutQueryParameter {other value : String} (h : other ≠ name) :
    (other, value) ∈ (request.withoutQueryParameter name).pairs ↔
      (other, value) ∈ request.pairs := by
  have hbody : (request.withoutQueryParameter name).bodyPairs = request.bodyPairs := rfl
  rw [pairs, pairs, queryPairs_withoutQueryParameter, hbody, List.mem_append, List.mem_append,
    List.mem_filter]
  simp [h]

end Http.Request

/-- Requests that have the same pairs but for one name are gathered to the same but for that name,
if that name comes with one value. -/
theorem exists_gatherParameters_of_mem_iff {request other : Http.Request} {name value : String}
    {parameters : Parameters}
    (hmem : ∀ key held, key ≠ name → ((key, held) ∈ other.pairs ↔ (key, held) ∈ request.pairs))
    (honce : ∀ held, (name, held) ∈ request.pairs → held = value)
    (h : gatherParameters other = .ok parameters) :
    ∃ gathered, gatherParameters request = .ok gathered ∧
      ∀ key, key ≠ name → gathered.get? key = parameters.get? key := by
  have hother : IsConsistent other.pairs := (exists_gatherParameters_iff other).mp ⟨_, h⟩
  have hconsistent : IsConsistent request.pairs := by
    intro key first second hfirst hsecond
    by_cases hkey : key = name
    · subst hkey
      rw [honce first hfirst, honce second hsecond]
    · exact hother key first second ((hmem key first hkey).mpr hfirst)
        ((hmem key second hkey).mpr hsecond)
  obtain ⟨gathered, hgathered⟩ := (exists_gatherParameters_iff request).mpr hconsistent
  refine ⟨gathered, hgathered, fun key hkey => Option.ext fun held => ?_⟩
  rw [get?_of_gatherParameters hgathered, get?_of_gatherParameters h, Http.Request.parameter?,
    Http.Request.parameter?, hconsistent.lookup_eq_some_iff, hother.lookup_eq_some_iff,
    hmem key held hkey]

/-! ## Requests with a callback -/

namespace Script

/-- The request names a callback in its query, and no other one anywhere. -/
structure Asks (request : Http.Request) (callback : String) : Prop where
  ne_empty : callback ≠ ""
  query : (callbackParameter, callback) ∈ request.queryPairs
  once : ∀ value, (callbackParameter, value) ∈ request.pairs → value = callback

variable {request : Http.Request} {callback : String}

/-- The callback that is asked for is checked, and refused by name if it fails. -/
theorem Asks.callback?_eq (h : Asks request callback) :
    callback? request =
      if isCallback callback then .ok (some callback) else .error (.callbackName callback) := by
  have hquery : request.queryParameter? callbackParameter = some callback := by
    cases hfound : request.queryParameter? callbackParameter with
    | none =>
      have hnone := List.lookup_eq_none_iff.mp hfound _ h.query
      simp at hnone
    | some found =>
      obtain ⟨before, after, hpairs, -⟩ := List.lookup_eq_some_iff.mp hfound
      have hmem : (callbackParameter, found) ∈ request.pairs := by
        simp [Http.Request.pairs, hpairs]
      rw [h.once found hmem]
  rw [callback?, hquery, Option.filter_some_pos (by simpa using h.ne_empty)]

/-- A request with no pairs but those of its query, of which one is the callback. -/
theorem asks_of_pairs (before after : List (String × String)) (hne : callback ≠ "")
    (hquery : request.queryPairs = before ++ (callbackParameter, callback) :: after)
    (hbody : request.bodyPairs = [])
    (hothers : ∀ pair ∈ before ++ after, pair.1 ≠ callbackParameter) : Asks request callback where
  ne_empty := hne
  query := by simp [hquery]
  once := by
    intro value hmem
    rw [Http.Request.pairs, hbody, List.append_nil, hquery, List.mem_append, List.mem_cons] at hmem
    rcases hmem with hmem | heq | hmem
    · exact absurd rfl (hothers _ (List.mem_append_left _ hmem))
    · exact (Prod.mk.inj heq).2
    · exact absurd rfl (hothers _ (List.mem_append_right _ hmem))

/-- What is not the callback is read as if there were none. -/
theorem Asks.callOf_eq (h : Asks request callback) {function : String} {call : FunctionRequest}
    (hplain : callOf function (request.withoutQueryParameter callbackParameter) = .ok call) :
    callOf function request =
      if isCallback callback then .ok call else .error (.callbackName callback) := by
  obtain ⟨hfunction, -, parameters, data, accepted, -, hparameters, hdata, haccepted, rfl⟩ :=
    callOf_eq_ok_iff.mp hplain
  obtain ⟨gathered, hgathered, hget⟩ := exists_gatherParameters_of_mem_iff
    (fun key held hkey => Http.Request.mem_pairs_withoutQueryParameter hkey) h.once hparameters
  have hdata' : dataSection gathered = dataSection parameters := by
    have hne : Standard.dataParameter ≠ callbackParameter := by decide
    rw [dataSection, dataSection, Standard.sectionOf, Standard.sectionOf, hget _ hne]
  have hown : withoutOwn gathered = withoutOwn parameters := by
    apply Dictionary.ext_get?
    intro key
    simp only [withoutOwn, Dictionary.get?_erase]
    split
    · rfl
    · next hkey => rw [hget key (Ne.symm hkey)]
  cases hvalid : isCallback callback with
  | true =>
    simp [callOf, hfunction, h.callback?_eq, hvalid, hgathered, hdata', hdata, hown, haccepted]
  | false => simp [callOf, hfunction, h.callback?_eq, hvalid]

/-- A request with a callback is converted as it is without one, unless the callback fails its
check. -/
theorem Asks.convert_eq (h : Asks request callback) {call : FunctionRequest}
    (hplain : convert (request.withoutQueryParameter callbackParameter) = .ok call) :
    convert request = if isCallback callback then .ok call
      else .error (.invalidRequest (.callbackName callback)) := by
  have hfunction : function? (request.withoutQueryParameter callbackParameter) =
      function? request := rfl
  rw [convert, hfunction] at hplain
  rw [convert]
  cases hsegment : function? request with
  | none =>
    rw [hsegment] at hplain
    cases hplain
  | some function =>
    rw [hsegment] at hplain
    simp only [h.callOf_eq (mapError_eq_ok_iff.mp hplain)]
    split <;> rfl

/-- The answer to a callback is the call of it with the result as its argument. -/
theorem exists_write_of_callback {found : String} (h : callback? request = .ok (some found))
    (hmethod : request.method ≠ Http.Method.head) (result : CallResult)
    (response : Http.Response) :
    ∃ written, write request result response = (.returned (), written) ∧
      written.body =
        response.body ++ (found ++ "(" ++ (Json.ofResult result).text ++ ")").toUTF8 := by
  refine ⟨_, by simp only [write, h]; rfl, ?_⟩
  simp [bodyOf, Standard.writeBody, hmethod, Http.Response.write, Http.Response.setHeader]

end Script

namespace ManagedConvention

variable {managed : ManagedConvention} {request : Http.Request} {callback : String}
  {context : RequestContext} {call : FunctionRequest}

/-- A request that would be converted without its callback is converted with it, or it is refused
for the callback. -/
theorem convert_of_asks (hscript : managed.convention = Script.convention)
    (h : Script.Asks request callback) (hnew : context.call = none)
    (hplain : (managed.convert
      (request.withoutQueryParameter Script.callbackParameter) context).1 = .ok call) :
    managed.isUsable = true ∧ (managed.convert request context).1 =
      if Script.isCallback callback then .ok call
      else .error (.invalidRequest (.callbackName callback)) := by
  have husable : managed.isUsable = true := by
    by_contra hnot
    rw [convert_of_not_isUsable (Bool.eq_false_iff.mpr hnot)] at hplain
    cases hplain
  have hreturned := returned_of_convert hnew hplain
  rw [hscript] at hreturned
  have hconvert : Script.convert (request.withoutQueryParameter Script.callbackParameter) =
      .ok call := HookResult.ofExcept_eq_returned_iff.mp hreturned
  have hne : call.function ≠ "" :=
    checkFunctionName_ne_empty (Script.isClean_of_convert hconvert).function
  refine ⟨husable, ?_⟩
  rw [convert_of_isUsable husable hnew, hscript]
  simp only [Script.convention, h.convert_eq hconvert]
  split
  · simp [HookResult.ofExcept, conversionVerdict, hne]
  · rfl

/-- **Exactly the loose paths are accepted as callbacks.** A request that would be converted without
its callback is converted with it if that is a path of identifiers, or differs from one only in that
parts behind a dot are empty or begin with a digit. With any other callback the request is invalid.
A result that is not asked for by `HEAD` is then written as a call of the function with the object
in parentheses. -/
theorem convert_iff_isLoosePath (hscript : managed.convention = Script.convention)
    (h : Script.Asks request callback) (hnew : context.call = none)
    (hplain : (managed.convert
      (request.withoutQueryParameter Script.callbackParameter) context).1 = .ok call) :
    ((managed.convert request context).1 = .ok call ↔ Script.IsLoosePath callback) ∧
    (¬ Script.IsLoosePath callback → (managed.convert request context).1 =
      .error (.invalidRequest (.callbackName callback))) ∧
    (Script.IsPath callback ↔ Script.IsLoosePath callback ∧
      ∀ part ∈ (Script.partsOf callback).tail, part ≠ [] ∧
        ∀ c ∈ part.head?, Text.isDigit c = false) ∧
    (Script.IsLoosePath callback → request.method ≠ Http.Method.head →
      ∀ result spec response, ∃ written,
        managed.write request call response result spec = (.ok (), written) ∧
        written.body = response.body ++
          (callback ++ "(" ++ (Json.ofResult result).text ++ ")").toUTF8) := by
  obtain ⟨husable, hconvert⟩ := convert_of_asks hscript h hnew hplain
  rw [hconvert, ← Script.isCallback_iff_isLoosePath]
  refine ⟨?_, ?_, ?_, ?_⟩
  · cases Script.isCallback callback <;> simp
  · intro hnot
    rw [if_neg hnot]
  · rw [Script.isCallback_iff_isLoosePath]
    exact Script.isPath_iff
  · intro hvalid hmethod result spec response
    have hcallback : Script.callback? request = .ok (some callback) := by
      rw [h.callback?_eq, if_pos hvalid]
    obtain ⟨written, hwrite, hbody⟩ := Script.exists_write_of_callback hcallback hmethod result
      (response.setHeader "server" serverText)
    refine ⟨written, ?_, hbody⟩
    rw [write_of_isUsable husable, hscript]
    simp only [Script.convention, hwrite, writingVerdict]

/-- A convention that converts a request can be asked for its call. -/
theorem exists_convert_of_isSome
    (h : ((managed.convert request context).1.toOption).isSome = true) :
    ∃ call, (managed.convert request context).1 = .ok call := by
  cases hconvert : (managed.convert request context).1 with
  | ok call => exact ⟨call, rfl⟩
  | error e =>
    rw [hconvert] at h
    cases h

/-- A request with a callback of two parts, between other parameters. -/
theorem convert_iff_isLoosePath_done :
    ∃ call, ((ofConvention Script.convention).start.convert (.ofTarget Http.Method.get
        "/api/Echo?output=json&callback=app.done&text=hi") .empty).1 = .ok call ∧
      Script.IsPath "app.done" ∧
      ∃ written, (ofConvention Script.convention).start.write (.ofTarget Http.Method.get
          "/api/Echo?output=json&callback=app.done&text=hi") call .empty
          (CallResult.success.setParameter "a" "1") none = (.ok (), written) ∧
        written.body = "app.done(\x7b\"a\":\"1\"\x7d)".toUTF8 := by
  let managed := (ofConvention Script.convention).start
  let request := Http.Request.ofTarget Http.Method.get
    "/api/Echo?output=json&callback=app.done&text=hi"
  have hasks : Script.Asks request "app.done" :=
    Script.asks_of_pairs [("output", "json")] [("text", "hi")] (by decide) (by decide +kernel)
      (by decide +kernel) (by decide)
  obtain ⟨call, hplain⟩ : ∃ call, (managed.convert
      (request.withoutQueryParameter Script.callbackParameter) .empty).1 = .ok call :=
    exists_convert_of_isSome (by decide +kernel)
  obtain ⟨haccepted, -, hpath, hwritten⟩ := convert_iff_isLoosePath rfl hasks rfl hplain
  have hloose : Script.IsLoosePath "app.done" :=
    Script.isCallback_iff_isLoosePath.mp (by decide +kernel)
  obtain ⟨written, hwrite, hbody⟩ := hwritten hloose (by decide)
    (CallResult.success.setParameter "a" "1") none .empty
  have hparts : (Script.partsOf "app.done").tail = [['d', 'o', 'n', 'e']] := by decide +kernel
  have hnamed : ∀ part ∈ (Script.partsOf "app.done").tail, part ≠ [] ∧
      ∀ c ∈ part.head?, Text.isDigit c = false := by
    rw [hparts]
    simp [Text.isDigit]
  refine ⟨call, haccepted.mpr hloose, hpath.mpr ⟨hloose, hnamed⟩, written, hwrite, ?_⟩
  have hobject : "" ++ ("app.done" ++ "(" ++
      (Json.ofResult (CallResult.success.setParameter "a" "1")).text ++ ")") =
        "app.done(\x7b\"a\":\"1\"\x7d)" := by decide +kernel
  rw [hbody, ← hobject]
  rfl

/-- A name with an empty part between two dots is accepted, though it is no path. -/
theorem convert_doubled_dot :
    Script.Asks (.ofTarget Http.Method.get "/api/Echo?output=json&callback=a..b") "a..b" ∧
      ¬ Script.IsPath "a..b" ∧
      ∃ call, ((ofConvention Script.convention).start.convert
          ((Http.Request.ofTarget Http.Method.get
            "/api/Echo?output=json&callback=a..b").withoutQueryParameter
              Script.callbackParameter) .empty).1 = .ok call ∧
        ((ofConvention Script.convention).start.convert (.ofTarget Http.Method.get
          "/api/Echo?output=json&callback=a..b") .empty).1 = .ok call := by
  have hasks : Script.Asks
      (.ofTarget Http.Method.get "/api/Echo?output=json&callback=a..b") "a..b" :=
    Script.asks_of_pairs [("output", "json")] [] (by decide) (by decide +kernel)
      (by decide +kernel) (by decide)
  obtain ⟨call, hplain⟩ : ∃ call, ((ofConvention Script.convention).start.convert
      ((Http.Request.ofTarget Http.Method.get
        "/api/Echo?output=json&callback=a..b").withoutQueryParameter
          Script.callbackParameter) .empty).1 = .ok call :=
    exists_convert_of_isSome (by decide +kernel)
  refine ⟨hasks, fun hpath => ?_, call, hplain, ?_⟩
  · have hparts := (Script.isPath_iff.mp hpath).2 [] (by decide +kernel)
    exact hparts.1 rfl
  · rw [(convert_of_asks rfl hasks rfl hplain).2, if_pos (by decide +kernel)]

end ManagedConvention

end RemoteCall
