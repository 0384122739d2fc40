import RemoteCall.Proofs.CallResult.Parameter
import RemoteCall.Proofs.Convention.Caching
import RemoteCall.Proofs.Convention.Forms
import RemoteCall.Proofs.Element.RoundTrip

/-!
# One call in three formats

The same call can be asked for by a query, by a path with a query, and by a document. The three
conventions read these formats in ways of their own. As long as no parameter has a name that one
of them needs for itself, they all come to the same call.
-/

namespace RemoteCall

open Xml (isXmlText isXmlChar)

/-- The convention in use. -/
def Convention.inUse (convention : Convention) : ManagedConvention :=
  (ManagedConvention.ofConvention convention).start

/-- The convention understands the request, and converts it to the call, whether it has been
asked before or not. -/
structure Convention.Decodes (convention : Convention) (request : Http.Request)
    (call : FunctionRequest) : Prop where
  understood : (convention.inUse.understands request .empty).1 = true
  converted : (convention.inUse.convert request .empty).1 = .ok call
  chosen : (convention.inUse.convert request
    (convention.inUse.understands request .empty).2).1 = .ok call

/-- A convention decodes a request if its hooks do, on a request of which nothing is kept. -/
theorem Convention.decodes_of_hooks {convention : Convention} (hbuiltIn : convention ∈ builtIn)
    {request : Http.Request} {call : FunctionRequest}
    (hmethod : convention.inUse.takesMethod request = true)
    (hunderstood : (convention.understands request none).1 = .returned true)
    (hconverted : (convention.convert request none).1 = .returned call) :
    convention.Decodes request call := by
  have husable : convention.inUse.isUsable = true := rfl
  have hnamed : call.function ≠ "" :=
    checkFunctionName_ne_empty (isClean_of_returned hbuiltIn hconverted).function
  have hcall : (convention.inUse.convert request .empty).1 = .ok call := by
    rw [ManagedConvention.convert_of_isUsable husable rfl]
    have hanswer : (convention.inUse.convention.convert request none).1 = .returned call :=
      hconverted
    simp only [RequestContext.empty, hanswer, ManagedConvention.conversionVerdict, if_neg hnamed]
  have hfits : (convention.inUse.understands request .empty).2.Fits request :=
    ManagedConvention.fits_of_understands hbuiltIn (RequestContext.fits_empty request)
  constructor
  · exact ManagedConvention.understands_eq_true_iff.mpr ⟨husable, hmethod, hunderstood⟩
  · exact hcall
  · rw [ManagedConvention.convert_fst_eq ⟨convention.inUse, hbuiltIn⟩ hfits.body hfits.call]
    exact hcall

/-- A request by `GET` is one that the conventions for queries take. -/
theorem takesMethod_of_get {convention : Convention} {request : Http.Request}
    (hmethods : convention.inUse.methods request = Convention.usualMethods)
    (hget : request.method = Http.Method.get) :
    convention.inUse.takesMethod request = true := by
  rw [ManagedConvention.takesMethod, hmethods, hget]
  rfl

variable {function : String} {parameters : Parameters} {pairs : List (String × String)}

/-! ## By a query -/

namespace Standard

/-- The request by a query for a call, with the parameters in some order. -/
def requestFor (function : String) (pairs : List (String × String)) : Http.Request :=
  .ofTarget Http.Method.get ("/?_function=" ++ function ++ "&" ++ formText pairs)

/-- The pairs of the query are the function and then the parameters. -/
theorem pairs_requestFor (hfunction : checkFunctionName function = .ok ())
    (pairs : List (String × String)) :
    (requestFor function pairs).pairs = (functionParameter, function) :: pairs := by
  have hpath : '?' ∉ "/".toList := by decide
  have hname : ∀ c ∈ functionParameter.toList, isNameCharacter c = true :=
    List.all_eq_true.mp (by decide)
  have htarget : ("/?_function=" ++ function ++ "&" ++ formText pairs).toList = "/".toList ++
      '?' :: (functionParameter.toList ++ '=' :: function.toList ++
        '&' :: (formText pairs).toList) := by
    simp [functionParameter]
  exact (pairs_ofTarget hpath hname (forall_of_checkFunctionName hfunction) htarget).2

/-- Without its parameter there is no data section, whatever notation it would be in. -/
theorem sectionOf_eq_none {read : String → Except RequestFault Element}
    (h : parameters.get? dataParameter = none) : sectionOf read parameters = .ok none := by
  rw [sectionOf, h]
  rfl

/-- The function is the first of the parameters that are gathered, and no other is in its way. -/
theorem convert_requestFor (hfunction : checkFunctionName function = .ok ())
    (haccepted : ∀ name value, parameters.get? name = some value →
      checkParameterName name = .ok () ∧ value ≠ "")
    (hpairs : pairs.Perm parameters.entries) :
    convert (requestFor function pairs) = .ok ⟨function, parameters, none⟩ := by
  have hgathered := gatherParameters_eq_insert (pairs_requestFor hfunction pairs) hpairs
    (get?_eq_none_of_head? haccepted (by decide))
  have hnamed : ((parameters.insert functionParameter function).get? functionParameter).filter
      (· ≠ "") = some function := by
    rw [Dictionary.get?_insert, if_pos rfl]
    exact Option.filter_some_pos (by simpa using checkFunctionName_ne_empty hfunction)
  have hdata : dataSection (parameters.insert functionParameter function) = .ok none := by
    apply sectionOf_eq_none
    rw [Dictionary.get?_insert, if_neg (by decide)]
    exact get?_eq_none_of_head? haccepted (by decide)
  have hparameters : functionParameters (parameters.insert functionParameter function) =
      .ok parameters := by
    refine functionParameters_eq_ok haccepted fun name hname => ?_
    have hother : functionParameter ≠ name := by
      rintro rfl
      exact hname (by decide)
    rw [Dictionary.get?_insert, if_neg hother]
  have hcall : callOf function (parameters.insert functionParameter function) =
      .ok ⟨function, parameters, none⟩ :=
    callOf_eq_ok_iff.mpr ⟨hfunction, none, parameters, hdata, hparameters, rfl⟩
  simp only [convert, hgathered, hnamed, hcall]
  rfl

/-- The standard convention reads the call out of the query. -/
theorem decodes_requestFor (hfunction : checkFunctionName function = .ok ())
    (haccepted : ∀ name value, parameters.get? name = some value →
      checkParameterName name = .ok () ∧ value ≠ "")
    (hpairs : pairs.Perm parameters.entries) :
    convention.Decodes (requestFor function pairs) ⟨function, parameters, none⟩ := by
  have hunderstood : understands (requestFor function pairs) = true := by
    simp [understands, Http.Request.parameter?, pairs_requestFor hfunction,
      checkFunctionName_ne_empty hfunction]
  have hconverted := convert_requestFor hfunction haccepted hpairs
  have hget : (requestFor function pairs).method = Http.Method.get := by
    rw [requestFor, Http.Request.method_ofTarget]
  apply Convention.decodes_of_hooks
  · simp [Convention.builtIn]
  · exact takesMethod_of_get rfl hget
  · simp only [convention, hunderstood]
  · simp only [convention, hconverted, HookResult.ofExcept]

end Standard

/-! ## By a path -/

namespace Script

/-- The request by a path for a call, with the parameters in some order. -/
def requestFor (function : String) (pairs : List (String × String)) : Http.Request :=
  .ofTarget Http.Method.get ("/" ++ function ++ "?output=json&" ++ formText pairs)

/-- The last segment of a path with one segment is that segment. -/
theorem lastSegment_cons_slash {segment : List Char} (h : '/' ∉ segment) :
    lastSegment ('/' :: segment) = segment := by
  have hreverse : '/' ∉ segment.reverse := by simpa using h
  rw [lastSegment, List.reverse_cons, List.takeWhile_append_of_pos (forall_bne hreverse)]
  simp

/-- The name of a function holds no mark that names are not made of. -/
theorem not_mem_of_isNameCharacter_eq_false {mark : Char} (h : isNameCharacter mark = false)
    (hfunction : checkFunctionName function = .ok ()) : mark ∉ function.toList := by
  intro hmem
  rw [forall_of_checkFunctionName hfunction mark hmem] at h
  cases h

/-- The target is the path, a question mark and the query. -/
theorem toList_target (function : String) (pairs : List (String × String)) :
    ("/" ++ function ++ "?output=json&" ++ formText pairs).toList =
      ("/" ++ function).toList ++ '?' :: (outputParameter.toList ++ '=' :: "json".toList ++
        '&' :: (formText pairs).toList) := by
  simp [outputParameter]

/-- The path of a function holds no question mark. -/
theorem question_not_mem_path (hfunction : checkFunctionName function = .ok ()) :
    '?' ∉ ("/" ++ function).toList := by
  have hname : '?' ∉ function.toList :=
    not_mem_of_isNameCharacter_eq_false (by decide) hfunction
  simpa using hname

/-- The pairs of the query are the form of the output and then the parameters. -/
theorem pairs_requestFor (hfunction : checkFunctionName function = .ok ())
    (pairs : List (String × String)) :
    (requestFor function pairs).queryPairs = (outputParameter, "json") :: pairs ∧
      (requestFor function pairs).pairs = (outputParameter, "json") :: pairs := by
  have hname : ∀ c ∈ outputParameter.toList, isNameCharacter c = true :=
    List.all_eq_true.mp (by decide)
  have hvalue : ∀ c ∈ "json".toList, isNameCharacter c = true :=
    List.all_eq_true.mp (by decide)
  exact pairs_ofTarget (question_not_mem_path hfunction) hname hvalue
    (toList_target function pairs)

/-- The function is read from the path. -/
theorem function?_requestFor (hfunction : checkFunctionName function = .ok ()) :
    function? (requestFor function pairs) = some function := by
  have hpath : (requestFor function pairs).path = String.ofList ("/" ++ function).toList :=
    path_ofTarget _ (question_not_mem_path hfunction) (toList_target function pairs)
  have hsegment : lastSegment ('/' :: function.toList) = function.toList :=
    lastSegment_cons_slash (not_mem_of_isNameCharacter_eq_false (by decide) hfunction)
  have hchars : ("/" ++ function).toList = '/' :: function.toList := by simp
  rw [function?, hpath, String.toList_ofList, hchars, hsegment]
  simp [checkFunctionName_ne_empty hfunction]

/-- The parameter that selects the convention is taken out again, and nothing else is. -/
theorem withoutOwn_insert (houtput : parameters.get? outputParameter = none)
    (hcallback : parameters.get? callbackParameter = none) (value : String) :
    withoutOwn (parameters.insert outputParameter value) = parameters := by
  apply Dictionary.ext_get?
  intro name
  rw [withoutOwn, Dictionary.get?_erase, Dictionary.get?_erase, Dictionary.get?_insert]
  by_cases hcase : callbackParameter = name
  · rw [if_pos hcase, ← hcase, hcallback]
  · rw [if_neg hcase]
    by_cases hcase' : outputParameter = name
    · rw [if_pos hcase', ← hcase', houtput]
    · rw [if_neg hcase', if_neg hcase']

/-- The hook for scripts makes the call of the request: the pairs that are its own are not
parameters. -/
theorem convert_requestFor (hfunction : checkFunctionName function = .ok ())
    (haccepted : ∀ name value, parameters.get? name = some value →
      checkParameterName name = .ok () ∧ value ≠ "")
    (houtput : parameters.get? outputParameter = none)
    (hcallback : parameters.get? callbackParameter = none)
    (hpairs : pairs.Perm parameters.entries) :
    convert (requestFor function pairs) = .ok ⟨function, parameters, none⟩ := by
  obtain ⟨hquery, hread⟩ := pairs_requestFor hfunction pairs
  have hgathered := gatherParameters_eq_insert hread hpairs houtput
  have hnone : callback? (requestFor function pairs) = .ok none := by
    have hlookup : (requestFor function pairs).queryParameter? callbackParameter = none := by
      have hother : (callbackParameter == outputParameter) = false := by decide
      rw [Http.Request.queryParameter?, hquery, List.lookup_cons, hother, lookup_of_perm hpairs]
      exact hcallback
    rw [callback?, hlookup]
    rfl
  have hdata : dataSection (parameters.insert outputParameter "json") = .ok none := by
    apply Standard.sectionOf_eq_none
    rw [Dictionary.get?_insert, if_neg (by decide)]
    exact get?_eq_none_of_head? haccepted (by decide)
  have hparameters : functionParameters (withoutOwn (parameters.insert outputParameter "json")) =
      .ok parameters := by
    rw [withoutOwn_insert houtput hcallback]
    exact functionParameters_eq_ok haccepted fun _ _ => rfl
  have hcall : callOf function (requestFor function pairs) = .ok ⟨function, parameters, none⟩ :=
    callOf_eq_ok_iff.mpr
      ⟨hfunction, none, _, none, parameters, hnone, hgathered, hdata, hparameters, rfl⟩
  simp only [convert, function?_requestFor hfunction, hcall]
  rfl

/-- The convention for scripts reads the call out of the path and the query. -/
theorem decodes_requestFor (hfunction : checkFunctionName function = .ok ())
    (haccepted : ∀ name value, parameters.get? name = some value →
      checkParameterName name = .ok () ∧ value ≠ "")
    (houtput : parameters.get? outputParameter = none)
    (hcallback : parameters.get? callbackParameter = none)
    (hpairs : pairs.Perm parameters.entries) :
    convention.Decodes (requestFor function pairs) ⟨function, parameters, none⟩ := by
  have hunderstood : understands (requestFor function pairs) = true := by
    have hquery := (pairs_requestFor hfunction pairs).1
    simp [understands, function?_requestFor hfunction, Http.Request.queryParameter?, hquery]
  have hconverted := convert_requestFor hfunction haccepted houtput hcallback hpairs
  have hget : (requestFor function pairs).method = Http.Method.get := by
    rw [requestFor, Http.Request.method_ofTarget]
  apply Convention.decodes_of_hooks
  · simp [Convention.builtIn]
  · exact takesMethod_of_get rfl hget
  · simp only [convention, hunderstood]
  · simp only [convention, hconverted, HookResult.ofExcept]

end Script

/-! ## By a document -/

/-- A name is text that a document may hold. -/
theorem isXmlText_of_forall {text : String} (h : ∀ c ∈ text.toList, isNameCharacter c = true) :
    isXmlText text = true := by
  have hlegal : ∀ c, isNameCharacter c = true → isXmlChar c = true :=
    forall_nameCharacter (by decide +kernel)
  exact List.all_eq_true.mpr fun c hc => hlegal c (h c hc)

namespace Document

/-- The element for a parameter: the same as in the document for a result. -/
def paramElement (pair : String × String) : Element :=
  CallResult.parameterElement pair.1 pair.2

/-- The root of the document for a call, with the parameters in some order. -/
def requestElement (function : String) (pairs : List (String × String)) : Element :=
  .mk "request" none [⟨none, "function", function⟩] (pairs.map paramElement) none

/-- The document for a call is read as it was written if the names and the values are legal. -/
theorem parse_toXml_requestElement (hfunction : isXmlText function = true)
    (hpairs : ∀ pair ∈ pairs, isXmlText pair.1 = true ∧ pair.2 ≠ "" ∧ isXmlText pair.2 = true) :
    Element.parse (requestElement function pairs).toXml = .ok (requestElement function pairs) := by
  apply Element.parse_toXml
  have hroot : Element.IsPortableIn none (requestElement function pairs) :=
    Element.isPortableIn_mk (by decide) (by decide) (by decide) hfunction (by simp) rfl
  refine .node hroot fun child hchild => ?_
  obtain ⟨pair, hpair, rfl⟩ := List.mem_map.mp hchild
  obtain ⟨hname, hne, hvalue⟩ := hpairs pair hpair
  refine .node (CallResult.isPortableIn_parameterElement hname hvalue hne) fun child hchild => ?_
  cases hchild

/-- Parameters with names are collected from their elements as they are gathered from pairs. -/
theorem collectParameters_map {pairs : List (String × String)}
    (h : ∀ pair ∈ pairs, pair.1 ≠ "") (parameters : Parameters) :
    collectParameters parameters (pairs.map paramElement) = gatherPairs parameters pairs := by
  induction pairs generalizing parameters with
  | nil => rfl
  | cons pair pairs ih =>
    obtain ⟨name, value⟩ := pair
    obtain ⟨hname, hrest⟩ := List.forall_mem_cons.mp h
    have hattribute : (paramElement (name, value)).attribute? "name" = some name := by
      simp [paramElement, CallResult.parameterElement, Element.attribute?, Element.attributeNs?,
        Element.attributes, Element.hasKey]
    have htext : (paramElement (name, value)).text = some value := rfl
    have hname : name ≠ "" := hname
    cases hget : parameters.get? name <;>
      simp only [List.map_cons, collectParameters, gatherPairs, hattribute, htext,
        Option.getD_some, if_neg hname, hget, ih hrest]

/-- The root has one child for each parameter, and no data section. -/
theorem childrenNamed_requestElement (function : String) (pairs : List (String × String)) :
    (requestElement function pairs).childrenNamed "param" = pairs.map paramElement ∧
      (requestElement function pairs).childrenNamed "data" = [] := by
  have hnamed : ∀ child ∈ pairs.map paramElement, child.localName = "param" := by
    intro child hchild
    obtain ⟨pair, -, rfl⟩ := List.mem_map.mp hchild
    rfl
  constructor
  · exact List.filter_eq_self.mpr fun child hchild => by simp [hnamed child hchild]
  · exact List.filter_eq_nil_iff.mpr fun child hchild => by simp [hnamed child hchild]

/-- The root of the document is converted to the call. -/
theorem convertRoot_requestElement (hfunction : checkFunctionName function = .ok ())
    (haccepted : ∀ name value, parameters.get? name = some value →
      checkParameterName name = .ok () ∧ value ≠ "")
    (hpairs : pairs.Perm parameters.entries) :
    convertRoot (requestElement function pairs) = .ok ⟨function, parameters, none⟩ := by
  obtain ⟨hparam, hnone⟩ := childrenNamed_requestElement function pairs
  have hnamed : Element.nonEmpty ((requestElement function pairs).attribute? "function") =
      some function := by
    have hattribute : (requestElement function pairs).attribute? "function" = some function := by
      simp [requestElement, Element.attribute?, Element.attributeNs?, Element.attributes,
        Element.hasKey]
    rw [hattribute]
    exact Option.filter_some_pos (by simpa using checkFunctionName_ne_empty hfunction)
  have hnames : ∀ pair ∈ pairs, pair.1 ≠ "" := by
    rintro ⟨name, value⟩ hpair
    have hget := Dictionary.mem_entries_iff.mp (hpairs.mem_iff.mp hpair)
    exact (name_of_checkParameterName (haccepted name value hget).1).1
  have hcollected : collectParameters Dictionary.empty
      ((requestElement function pairs).childrenNamed "param") = .ok parameters := by
    rw [hparam, collectParameters_map hnames]
    exact gatherPairs_eq_ok (nodup_of_perm hpairs) (lookup_of_perm hpairs)
  have hparameters : functionParameters parameters = .ok parameters :=
    functionParameters_eq_ok haccepted fun _ _ => rfl
  have hcall : callOf (requestElement function pairs) function =
      .ok ⟨function, parameters, none⟩ :=
    callOf_eq_ok_iff.mpr
      ⟨hfunction, parameters, parameters, hcollected, hparameters, by simp [hnone], by simp [hnone]⟩
  have hroot : (requestElement function pairs).localName = "request" := rfl
  simp only [convertRoot, hroot, hnamed, hcall, ne_eq, not_true_eq_false, if_false]
  rfl

/-- A body that is declared as a document, with any charset, passes the check of its type. -/
theorem checkDocumentType_eq_ok {request : Http.Request}
    (h : (request.header? Http.contentType).map (fun type => Http.lowerCase (Http.mediaType type)) =
      some "text/xml") : checkDocumentType request = .ok () := by
  obtain ⟨type, hheader, htype⟩ := Option.map_eq_some_iff.mp h
  simp only [checkDocumentType, hheader, if_pos htype]

/-- A document that is read back from its text is read from a body with that text. -/
theorem parseBody_of_toXml {request : Http.Request} {root : Element}
    (hbody : request.body = root.toXml.toUTF8) (hparse : Element.parse root.toXml = .ok root) :
    parseBody request = .ok root := by
  simp only [parseBody, hbody, Text.Utf8.fromUTF8?_toUTF8, root.isBlankText_toXml, hparse,
    Bool.false_eq_true, if_false]

/-- The convention for documents reads the call out of a posted document. -/
theorem decodes_of_body (hfunction : checkFunctionName function = .ok ())
    (haccepted : ∀ name value, parameters.get? name = some value →
      checkParameterName name = .ok () ∧ value ≠ "")
    (hlegal : ∀ name value, parameters.get? name = some value → isXmlText value = true)
    (hpairs : pairs.Perm parameters.entries) {request : Http.Request}
    (hpost : request.method = Http.Method.post)
    (htype : (request.header? Http.contentType).map
      (fun type => Http.lowerCase (Http.mediaType type)) = some "text/xml")
    (hbody : request.body = (requestElement function pairs).toXml.toUTF8) :
    convention.Decodes request ⟨function, parameters, none⟩ := by
  have hwritten : ∀ pair ∈ pairs,
      isXmlText pair.1 = true ∧ pair.2 ≠ "" ∧ isXmlText pair.2 = true := by
    rintro ⟨name, value⟩ hpair
    have hget := Dictionary.mem_entries_iff.mp (hpairs.mem_iff.mp hpair)
    obtain ⟨hname, hne⟩ := haccepted name value hget
    have hname : isXmlText name = true :=
      isXmlText_of_forall (forall_of_isName (isName_of_checkParameterName hname))
    exact ⟨hname, hne, hlegal name value hget⟩
  have hparse := parse_toXml_requestElement
    (isXmlText_of_forall (forall_of_checkFunctionName hfunction)) hwritten
  have hread : readBody true request none =
      (.ok (requestElement function pairs), some (requestElement function pairs)) := by
    simp [readBody, checkDocumentType_eq_ok htype, parseBody_of_toXml hbody hparse]
  have hconverted := convertRoot_requestElement hfunction haccepted hpairs
  apply Convention.decodes_of_hooks
  · simp [Convention.builtIn]
  · rw [ManagedConvention.takesMethod, hpost]
    rfl
  · have hroot : (requestElement function pairs).localName = "request" := rfl
    have huri : (requestElement function pairs).namespaceUri = none := rfl
    simp only [convention, understands, hread, hroot, huri]
    rfl
  · simp only [convention, convert, hread, hconverted, HookResult.ofExcept]

end Document

/-! ## In any of the formats -/

/-- **The three formats of a call come to the same call**: asked for by a query, by a path with a
query, or by a document that is posted anywhere, with the parameters in any order, a call is
understood by the convention of the format, and converted to its function and its parameters. -/
theorem Convention.decodes_formats (hfunction : checkFunctionName function = .ok ())
    (haccepted : ∀ name value, parameters.get? name = some value →
      checkParameterName name = .ok () ∧ value ≠ "")
    (hlegal : ∀ name value, parameters.get? name = some value → isXmlText value = true)
    (houtput : parameters.get? "output" = none) (hcallback : parameters.get? "callback" = none)
    (hpairs : pairs.Perm parameters.entries) :
    Standard.convention.Decodes (Standard.requestFor function pairs)
        ⟨function, parameters, none⟩ ∧
      Script.convention.Decodes (Script.requestFor function pairs) ⟨function, parameters, none⟩ ∧
      ∀ request : Http.Request, request.method = Http.Method.post →
        (request.header? Http.contentType).map
          (fun type => Http.lowerCase (Http.mediaType type)) = some "text/xml" →
        request.body = (Document.requestElement function pairs).toXml.toUTF8 →
          Document.convention.Decodes request ⟨function, parameters, none⟩ := by
  constructor
  · exact Standard.decodes_requestFor hfunction haccepted hpairs
  constructor
  · exact Script.decodes_requestFor hfunction haccepted houtput hcallback hpairs
  · intro request hpost htype hbody
    exact Document.decodes_of_body hfunction haccepted hlegal hpairs hpost htype hbody

/-- A call with line ends, blanks, markup and the separators of forms in its values. -/
theorem Convention.decodes_formats_note :
    Standard.convention.Decodes
        (Standard.requestFor "Greet" [("note", "a+b & 100%\r\n<b>\"x\"</b>"), ("blank", " \t ")])
        ⟨"Greet", (Dictionary.empty.insert "note" "a+b & 100%\r\n<b>\"x\"</b>").insert
          "blank" " \t ", none⟩ ∧
      Script.convention.Decodes
        (Script.requestFor "Greet" [("note", "a+b & 100%\r\n<b>\"x\"</b>"), ("blank", " \t ")])
        ⟨"Greet", (Dictionary.empty.insert "note" "a+b & 100%\r\n<b>\"x\"</b>").insert
          "blank" " \t ", none⟩ ∧
      Document.convention.Decodes
        { Http.Request.ofTarget Http.Method.post "/greetings?x=1" with
          headers := Http.Headers.empty.append "Content-Type" "text/xml; charset=UTF-8"
          body := (Document.requestElement "Greet"
            [("note", "a+b & 100%\r\n<b>\"x\"</b>"), ("blank", " \t ")]).toXml.toUTF8 }
        ⟨"Greet", (Dictionary.empty.insert "note" "a+b & 100%\r\n<b>\"x\"</b>").insert
          "blank" " \t ", none⟩ := by
  let parameters : Parameters :=
    (Dictionary.empty.insert "note" "a+b & 100%\r\n<b>\"x\"</b>").insert "blank" " \t "
  have hentries : parameters.entries =
      [("blank", " \t "), ("note", "a+b & 100%\r\n<b>\"x\"</b>")] := by decide
  have hall : ∀ name value, parameters.get? name = some value →
      (checkParameterName name = .ok () ∧ value ≠ "") ∧ isXmlText value = true := by
    intro name value hget
    have hmem := Dictionary.mem_entries_iff.mpr hget
    simp only [hentries, List.mem_cons, Prod.mk.injEq, List.not_mem_nil, or_false] at hmem
    rcases hmem with ⟨rfl, rfl⟩ | ⟨rfl, rfl⟩
    · exact ⟨⟨rfl, by decide⟩, by decide⟩
    · exact ⟨⟨rfl, by decide⟩, by decide⟩
  have hpairs : [("note", "a+b & 100%\r\n<b>\"x\"</b>"), ("blank", " \t ")].Perm
      parameters.entries := by
    rw [hentries]
    exact List.Perm.swap ..
  have hfunction : checkFunctionName "Greet" = .ok () := rfl
  obtain ⟨hstandard, hscript, hdocument⟩ := Convention.decodes_formats hfunction
    (fun name value hget => (hall name value hget).1)
    (fun name value hget => (hall name value hget).2) rfl rfl hpairs
  refine ⟨hstandard, hscript, ?_⟩
  apply hdocument
  · exact Http.Request.method_ofTarget ..
  · decide +kernel
  · simp only

end RemoteCall
