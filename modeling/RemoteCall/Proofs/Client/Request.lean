import Mathlib.Data.List.TakeWhile
import RemoteCall.Client.Exchange
import RemoteCall.Proofs.Text.FormEncoding

/-!
# What a server receives of a call

A posted call arrives in the body, any other in the query. The query that the address of the
target has of its own is read before the pairs of the call. What is added to an address behind a
fragment is never sent.
-/

namespace RemoteCall

open Text.FormEncoding (serialize parse parse_serialize parse_join parse_nil mem_serialize
  forall_byte)
open Text.Utf8 (encode bytesOf_ofList)

/-- The character that an ASCII byte is written as is one byte, the same, and no other mark. -/
theorem utf8EncodeChar_ascii (b : UInt8) :
    b < 0x80 → String.utf8EncodeChar (Char.ofNat b.toNat) = [b] ∧
      (Char.ofNat b.toNat = '#' → b = 0x23) := by
  revert b
  exact forall_byte (by decide +kernel)

/-- ASCII bytes that have been taken for characters are written as they were. -/
theorem encode_ascii {bytes : List UInt8} (h : ∀ b ∈ bytes, b < 0x80) :
    encode (bytes.map fun b => Char.ofNat b.toNat) = bytes := by
  induction bytes with
  | nil => rfl
  | cons b bytes ih =>
    obtain ⟨hb, hbytes⟩ := List.forall_mem_cons.mp h
    rw [encode, List.map_cons, List.flatMap_cons, (utf8EncodeChar_ascii b hb).1, ← encode,
      ih hbytes, List.singleton_append]

/-- ASCII bytes that have been taken for characters are the bytes of the text. -/
theorem bytesOf_ascii {bytes : List UInt8} (h : ∀ b ∈ bytes, b < 0x80) :
    Http.bytesOf (String.ofList (bytes.map fun b => Char.ofNat b.toNat)).toUTF8 = bytes := by
  rw [bytesOf_ofList, encode_ascii h]

/-- Characters are taken as long as the mark is not met. -/
theorem forall_bne {mark : Char} {chars : List Char} (h : mark ∉ chars) :
    ∀ c ∈ chars, (c != mark) = true := by
  intro c hc
  rw [bne_iff_ne]
  rintro rfl
  exact h hc

/-- Cutting at a mark that does not occur cuts nothing off. -/
theorem takeWhile_bne_eq_self {mark : Char} {chars : List Char} (h : mark ∉ chars) :
    chars.takeWhile (· != mark) = chars :=
  List.takeWhile_eq_self_iff.mpr (forall_bne h)

namespace Url

/-- The query of an address: what follows the first question mark, up to the fragment. -/
def queryOf (address : List Char) : List Char :=
  ((address.takeWhile (· != '#')).dropWhile (· != '?')).drop 1

/-- In an address that can be read, neither mark stands before the path; what is asked for is
all that follows, up to a fragment. -/
theorem exists_eq_append_of_parse? {text : String} {url : Url} (h : parse? text = some url) :
    ∃ front rest, text.toList = front ++ rest ∧ '?' ∉ front ∧ '#' ∉ front ∧
      url.pathAndQuery = rest.takeWhile (· != '#') := by
  simp only [parse?] at h
  split at h
  · cases h
  next hstart =>
  split at h
  case isFalse => cases h
  obtain ⟨sent, hsent, rfl⟩ := Option.map_eq_some_iff.mp h
  simp only [Bool.or_eq_true, decide_eq_true_eq, not_or, ne_eq, Decidable.not_not] at hstart
  have hscheme (mark : Char) (hmark : mark.toLower ∉ "http://".toList) :
      mark ∉ text.toList.take 7 := by
    intro hmem
    rw [← hstart.2] at hmark
    exact hmark (List.mem_map_of_mem hmem)
  have hauthority (mark : Char) (hmark : endsAuthority mark = true) :
      mark ∉ (text.toList.drop 7).takeWhile (fun c => !endsAuthority c) := by
    intro hmem
    have hnot := List.all_eq_true.mp List.all_takeWhile _ hmem
    simp [hmark] at hnot
  refine ⟨text.toList.take 7 ++ (text.toList.drop 7).takeWhile (fun c => !endsAuthority c),
    (text.toList.drop 7).dropWhile (fun c => !endsAuthority c), ?_, ?_, ?_, ?_⟩
  · rw [List.append_assoc, List.takeWhile_append_dropWhile, List.take_append_drop]
  · rw [List.mem_append, not_or]
    exact ⟨hscheme '?' (by decide), hauthority '?' rfl⟩
  · rw [List.mem_append, not_or]
    exact ⟨hscheme '#' (by decide), hauthority '#' rfl⟩
  · simp only [pathAndQuery?] at hsent
    split at hsent
    · exact (Option.some.inj hsent).symm
    · cases hsent

/-- A request line asks for the path and query, after a slash if they have none. -/
theorem toList_requestTarget (url : Url) : ∃ slash : List Char,
    '?' ∉ slash ∧ url.requestTarget.toList = slash ++ url.pathAndQuery := by
  simp only [requestTarget]
  split
  · next rest hrest => exact ⟨[], by simp, by simp [hrest]⟩
  · exact ⟨['/'], by simp, by simp⟩

/-- A request line asks for the query of the address. -/
theorem query_requestTarget {text : String} {url : Url} (h : parse? text = some url) :
    (url.requestTarget.toList.dropWhile (· != '?')).drop 1 = queryOf text.toList := by
  obtain ⟨slash, hslash, htarget⟩ := url.toList_requestTarget
  obtain ⟨front, rest, htext, hquestion, hhash, hsent⟩ := exists_eq_append_of_parse? h
  rw [htarget, List.dropWhile_append_of_pos (forall_bne hslash), hsent, queryOf, htext,
    List.takeWhile_append_of_pos (forall_bne hhash),
    List.dropWhile_append_of_pos (forall_bne hquestion)]

/-- Behind a fragment, nothing belongs to the query. -/
theorem queryOf_append_of_mem {address : List Char} (hhash : '#' ∈ address) (added : List Char) :
    queryOf (address ++ added) = queryOf address := by
  obtain ⟨sent, fragment, rfl, hsent⟩ := List.eq_append_cons_of_mem hhash
  have htake (rest : List Char) : (sent ++ '#' :: rest).takeWhile (· != '#') = sent := by
    rw [List.takeWhile_append_of_pos (forall_bne hsent)]
    simp
  rw [queryOf, List.append_assoc, List.cons_append, htake, queryOf, htake]

/-- To an address with a query but without a fragment, more can be added to the query. -/
theorem queryOf_append {address added : List Char} (hhash : '#' ∉ address ++ added)
    (hquestion : '?' ∈ address) : queryOf (address ++ added) = queryOf address ++ added := by
  have hstart : (address.dropWhile (· != '?')).isEmpty = false := by
    rw [List.isEmpty_eq_false_iff, ne_eq, List.dropWhile_eq_nil_iff]
    exact fun hall => absurd (hall '?' hquestion) (by decide)
  have hhash' : '#' ∉ address := fun hmem => hhash (List.mem_append_left _ hmem)
  have hne : address.dropWhile (· != '?') ≠ [] := List.isEmpty_eq_false_iff.mp hstart
  rw [queryOf, takeWhile_bne_eq_self hhash, queryOf, takeWhile_bne_eq_self hhash',
    List.dropWhile_append, hstart, if_neg Bool.false_ne_true,
    List.drop_append_of_le_length (List.length_pos_iff.mpr hne)]

/-- An address without a query gets one. -/
theorem queryOf_append_question {address added : List Char} (hhash : '#' ∉ address ++ added)
    (hquestion : '?' ∉ address) : queryOf (address ++ '?' :: added) = added := by
  have hhash' : '#' ∉ address ++ '?' :: added := by
    simpa using hhash
  rw [queryOf, takeWhile_bne_eq_self hhash', List.dropWhile_append_of_pos (forall_bne hquestion)]
  rfl

/-- An address without a question mark has no query. -/
theorem queryOf_of_not_mem {address : List Char} (hquestion : '?' ∉ address) :
    queryOf address = [] := by
  have hnone : '?' ∉ address.takeWhile (· != '#') := fun hmem =>
    hquestion ((List.takeWhile_sublist _).subset hmem)
  rw [queryOf, List.dropWhile_eq_nil_iff.mpr (forall_bne hnone)]
  rfl

end Url

namespace Http.Request

/-- The query of a request begins behind the first question mark of what it asks for. -/
theorem queryPairs_ofTarget (method : Method) (target : String) :
    (ofTarget method target).queryPairs =
      parse (encode ((target.toList.dropWhile (· != '?')).drop 1)) := by
  simp only [queryPairs, ofTarget]
  cases target.toList.dropWhile (· != '?') with
  | nil => exact parse_nil.symm
  | cons mark query => exact congrArg parse (bytesOf_ofList query)

/-- The query of a target is all that follows its first question mark. -/
theorem query_ofTarget_append {target : String} {path query : List Char} (method : Method)
    (hpath : '?' ∉ path) (htarget : target.toList = path ++ '?' :: query) :
    (ofTarget method target).query = some (String.ofList query) := by
  have hdrop : target.toList.dropWhile (· != '?') = '?' :: query := by
    rw [htarget, List.dropWhile_append_of_pos (forall_bne hpath)]
    simp
  simp only [ofTarget, hdrop]

/-- A request for a target has the method that it is made with. -/
theorem method_ofTarget (method : Method) (target : String) :
    (ofTarget method target).method = method := by
  simp only [ofTarget]
  split <;> rfl

end Http.Request

namespace HttpTarget

/-- A target can be made of every address that can be read; it keeps the address as it is written.
-/
theorem ofUrl_eq_ok_iff {url : String} {target : HttpTarget} :
    ofUrl url = .ok target ↔ (Url.parse? url).isSome = true ∧ target = ⟨url, defaultTimeout⟩ := by
  simp only [ofUrl]
  split
  · next hsome => simp [hsome, eq_comm]
  · next hnone => simp [hnone]

/-- A server takes the type that is sent with a posted call for the type of a form. -/
theorem isForm_of_headers {request : Http.Request}
    (h : request.headers = Http.Headers.empty.append Http.contentType formContentType) :
    request.isForm = true := by
  have hheader : request.header? Http.contentType = some formContentType := by
    rw [Http.Request.header?, h]
    decide
  have htype : Http.lowerCase (Http.mediaType formContentType) = Http.formMediaType := by
    decide +kernel
  simp only [Http.Request.isForm, hheader, Option.any_some, htype, decide_true]

/-- The pairs of the query that an address has of its own. -/
def ownPairs (url : String) : List (String × String) :=
  parse (encode (Url.queryOf url.toList))

/-- The pairs of a posted call are those of the address and then those of the form in its
body. -/
theorem pairs_received_post {url : String} {read : Url} (hread : Url.parse? url = some read)
    (form : List UInt8) :
    (WireRequest.mk Http.Method.post read.requestTarget (some formContentType)
      form).received.pairs = ownPairs url ++ parse form := by
  have hform : (WireRequest.mk Http.Method.post read.requestTarget (some formContentType)
      form).received.isForm = true := isForm_of_headers rfl
  have hmethod := Http.Request.method_ofTarget Http.Method.post read.requestTarget
  have hquery := Http.Request.queryPairs_ofTarget Http.Method.post read.requestTarget
  rw [Url.query_requestTarget hread] at hquery
  rw [Http.Request.pairs, Http.Request.bodyPairs, hform]
  simp only [WireRequest.received, hmethod, decide_true, Bool.and_self, if_true, Http.bytesOf]
  exact congrArg (· ++ parse form) hquery

/-- The pairs of any other call are those of the address. -/
theorem pairs_received_get {url : String} {read : Url} (hread : Url.parse? url = some read) :
    (WireRequest.mk Http.Method.get read.requestTarget none []).received.pairs = ownPairs url := by
  have hmethod := Http.Request.method_ofTarget Http.Method.get read.requestTarget
  have hquery := Http.Request.queryPairs_ofTarget Http.Method.get read.requestTarget
  rw [Url.query_requestTarget hread] at hquery
  have hbody : (WireRequest.mk Http.Method.get read.requestTarget none []).received.bodyPairs =
      [] := by
    simp only [Http.Request.bodyPairs, WireRequest.received, hmethod]
    rfl
  rw [Http.Request.pairs, hbody, List.append_nil]
  exact hquery

/-- A form that is added to an address is read after the pairs of the address, unless there is a
fragment, which it then belongs to. -/
theorem ownPairs_getUrl (url : String) {form : List UInt8}
    (hform : ∀ b ∈ form, b ≠ 0x23 ∧ b < 0x80) :
    ownPairs (getUrl url form) =
      if '#' ∈ url.toList then ownPairs url else ownPairs url ++ parse form := by
  let added := form.map fun b => Char.ofNat b.toNat
  have hbytes : encode added = form := encode_ascii fun b hb => (hform b hb).2
  have hadded : '#' ∉ added := by
    intro hmem
    obtain ⟨b, hb, heq⟩ := List.mem_map.mp hmem
    exact (hform b hb).1 ((utf8EncodeChar_ascii b (hform b hb).2).2 heq)
  have hchars : (getUrl url form).toList =
      url.toList ++ (if '?' ∈ url.toList then '&' else '?') :: added := by
    by_cases hquestion : '?' ∈ url.toList <;> simp [getUrl, hquestion, added]
  by_cases hhash : '#' ∈ url.toList
  · rw [if_pos hhash, ownPairs, hchars, Url.queryOf_append_of_mem hhash, ownPairs]
  rw [if_neg hhash, ownPairs, hchars, ownPairs]
  by_cases hquestion : '?' ∈ url.toList
  · have hfree : '#' ∉ url.toList ++ '&' :: added := by simp [hhash, hadded]
    rw [if_pos hquestion, Url.queryOf_append hfree hquestion, encode, List.flatMap_append,
      List.flatMap_cons, ← encode, ← encode, hbytes]
    exact parse_join _ _
  · have hfree : '#' ∉ url.toList ++ added := by simp [hhash, hadded]
    rw [if_neg hquestion, Url.queryOf_append_question hfree hquestion,
      Url.queryOf_of_not_mem hquestion, hbytes]
    exact (congrArg (· ++ parse form) parse_nil).symm

/-- A call arrives with the pairs of the address and those that it puts on the wire, unless it
is added to an address with a fragment. -/
theorem received_eq {url : String} {target : HttpTarget} {call : ClientCall} {wire : WireRequest}
    (htarget : ofUrl url = .ok target) (hwire : target.wireRequest call = .ok wire) :
    wire.received.method = call.config.method.method ∧ wire.received.pairs =
      if call.config.method = .get ∧ '#' ∈ url.toList then ownPairs url
      else ownPairs url ++ call.wire := by
  obtain ⟨hsome, rfl⟩ := ofUrl_eq_ok_iff.mp htarget
  obtain ⟨read, hread⟩ := Option.isSome_iff_exists.mp hsome
  simp only [wireRequest] at hwire
  cases hmethod : call.config.method with
  | post =>
    simp only [hmethod, hread, Option.map_some] at hwire
    cases hwire
    refine ⟨Http.Request.method_ofTarget _ _, ?_⟩
    rw [pairs_received_post hread, parse_serialize]
    simp
  | get =>
    simp only [hmethod] at hwire
    split at hwire
    · next request hrequest =>
      cases hwire
      obtain ⟨sent, hsent, rfl⟩ := Option.map_eq_some_iff.mp hrequest
      refine ⟨Http.Request.method_ofTarget _ _, ?_⟩
      rw [pairs_received_get hsent, ownPairs_getUrl url fun b hb => mem_serialize hb,
        parse_serialize]
      simp
    · cases hwire

/-- Where the address of a target has neither a query nor a fragment, a call arrives with the
method of its configuration and exactly the pairs that it puts on the wire. -/
theorem received_spec {url : String} {target : HttpTarget} {call : ClientCall}
    {wire : WireRequest} (htarget : ofUrl url = .ok target) (hquestion : '?' ∉ url.toList)
    (hhash : '#' ∉ url.toList) (hwire : target.wireRequest call = .ok wire) :
    wire.received.pairs = call.wire ∧ wire.received.method = call.config.method.method := by
  obtain ⟨hmethod, hpairs⟩ := received_eq htarget hwire
  have hown : ownPairs url = [] := by
    rw [ownPairs, Url.queryOf_of_not_mem hquestion]
    exact parse_nil
  refine ⟨?_, hmethod⟩
  rw [hpairs, if_neg fun h => hhash h.2, hown, List.nil_append]

end HttpTarget

end RemoteCall
