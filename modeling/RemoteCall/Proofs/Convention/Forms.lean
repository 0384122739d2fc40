import RemoteCall.Proofs.Client.Request
import RemoteCall.Proofs.Convention.CleanCalls
import RemoteCall.Proofs.Convention.Parameters

/-!
# Requests with a form behind a parameter

A call can be asked for by an address: the query begins with a parameter that is spelled out, and
the rest is a form. The server reads that parameter first and then the pairs of the form. Where
those are parameters of a function, in any order, they are gathered to these parameters.
-/

namespace RemoteCall

open Text.FormEncoding (serialize parse parse_serialize escapeByte writeText writePair
  parse_writePair_append mem_serialize ascii_of_mem_writePair)

/-! ## Names in queries -/

/-- A name is made of the characters of names. -/
theorem forall_of_isName {name : String} (h : isName name = true) :
    ∀ c ∈ name.toList, isNameCharacter c = true := by
  unfold isName at h
  split at h
  · cases h
  · next first rest heq =>
    obtain ⟨hfirst, hrest⟩ := Bool.and_eq_true_iff.mp h
    rw [heq]
    refine List.forall_mem_cons.mpr ⟨?_, List.all_eq_true.mp hrest⟩
    simp [isNameCharacter, hfirst]

/-- The name of a function is made of the characters of names. -/
theorem forall_of_checkFunctionName {name : String} (h : checkFunctionName name = .ok ()) :
    ∀ c ∈ name.toList, isNameCharacter c = true := by
  simp only [checkFunctionName] at h
  split at h
  · cases h
  · split at h
    · next hname =>
      rcases Bool.or_eq_true_iff.mp hname with hmeta | hordinary
      · simp only [isMetaFunction, Bool.or_eq_true, decide_eq_true_eq] at hmeta
        rcases hmeta with (rfl | rfl) | rfl <;> exact List.all_eq_true.mp (by decide)
      · exact forall_of_isName hordinary
    · cases h

/-- What holds of every character below 128 that a name may hold holds of all that it may hold. -/
theorem forall_nameCharacter {P : Char → Prop}
    (hall : ∀ n < 128, isNameCharacter (Char.ofNat n) = true → P (Char.ofNat n)) (c : Char)
    (h : isNameCharacter c = true) : P c := by
  have hle (a b : Char) : a ≤ b ↔ a.toNat ≤ b.toNat := Iff.rfl
  have hascii : c.toNat < 128 := by
    simp only [isNameCharacter, isLetter, Text.isDigit, Bool.or_eq_true, Bool.and_eq_true,
      decide_eq_true_eq, beq_iff_eq, hle, ← Char.toNat_inj, Char.reduceToNat] at h
    omega
  have hself := hall c.toNat hascii
  rw [Char.ofNat_toNat] at hself
  exact hself h

/-- A character of a name is written in a form as itself. -/
theorem chars_escape_utf8EncodeChar : ∀ c, isNameCharacter c = true →
    ((String.utf8EncodeChar c).flatMap escapeByte).map (fun b => Char.ofNat b.toNat) = [c] :=
  forall_nameCharacter (by decide +kernel)

/-- What is made of the characters of names is written as it is. -/
theorem chars_writeText {text : String} (h : ∀ c ∈ text.toList, isNameCharacter c = true) :
    (writeText text).map (fun b => Char.ofNat b.toNat) = text.toList := by
  rw [writeText, Text.FormEncoding.escape, Text.Utf8.encode]
  generalize text.toList = chars at h
  induction chars with
  | nil => rfl
  | cons c chars ih =>
    obtain ⟨hc, hchars⟩ := List.forall_mem_cons.mp h
    rw [List.flatMap_cons, List.flatMap_append, List.map_append, chars_escape_utf8EncodeChar c hc,
      ih hchars, List.singleton_append]

/-! ## Queries -/

/-- The text of a form. -/
def formText (pairs : List (String × String)) : String :=
  String.ofList ((serialize pairs).map fun b => Char.ofNat b.toNat)

variable {path name value : String} {pairs : List (String × String)}

/-- A pair of names in front of a form makes a longer form. -/
theorem bytesOf_query (hname : ∀ c ∈ name.toList, isNameCharacter c = true)
    (hvalue : ∀ c ∈ value.toList, isNameCharacter c = true) (pairs : List (String × String)) :
    Http.bytesOf (String.ofList
      (name.toList ++ '=' :: value.toList ++ '&' :: (formText pairs).toList)).toUTF8 =
        writePair (name, value) ++ 0x26 :: serialize pairs := by
  have hchars : name.toList ++ '=' :: value.toList ++ '&' :: (formText pairs).toList =
      (writePair (name, value) ++ 0x26 :: serialize pairs).map fun b => Char.ofNat b.toNat := by
    rw [← chars_writeText hname, ← chars_writeText hvalue, formText, String.toList_ofList,
      writePair, List.map_append, List.map_append, List.map_cons, List.map_cons]
    rfl
  rw [hchars, bytesOf_ascii]
  intro b hb
  rcases List.mem_append.mp hb with hpair | hform
  · exact (ascii_of_mem_writePair hpair).2
  · rcases List.mem_cons.mp hform with rfl | hform
    · decide
    · exact (mem_serialize hform).2

/-- A request for an address with a parameter and a form behind the question mark has these for
its parameters, and nothing else. -/
theorem pairs_ofTarget (hpath : '?' ∉ path.toList)
    (hname : ∀ c ∈ name.toList, isNameCharacter c = true)
    (hvalue : ∀ c ∈ value.toList, isNameCharacter c = true) {target : String}
    (htarget : target.toList = path.toList ++ '?' ::
      (name.toList ++ '=' :: value.toList ++ '&' :: (formText pairs).toList)) :
    (Http.Request.ofTarget Http.Method.get target).queryPairs = (name, value) :: pairs ∧
      (Http.Request.ofTarget Http.Method.get target).pairs = (name, value) :: pairs := by
  have hquery := Http.Request.query_ofTarget_append Http.Method.get hpath htarget
  have hmethod := Http.Request.method_ofTarget Http.Method.get target
  have hread : (Http.Request.ofTarget Http.Method.get target).queryPairs =
      (name, value) :: pairs := by
    simp only [Http.Request.queryPairs, hquery, bytesOf_query hname hvalue,
      parse_writePair_append, parse_serialize]
  have hbody : (Http.Request.ofTarget Http.Method.get target).bodyPairs = [] := by
    rw [Http.Request.bodyPairs, hmethod]
    rfl
  rw [Http.Request.pairs, hbody, List.append_nil]
  exact ⟨hread, hread⟩

/-- The path of such a request ends at the question mark. -/
theorem path_ofTarget {target : String} {path query : List Char} (method : Http.Method)
    (hpath : '?' ∉ path) (htarget : target.toList = path ++ '?' :: query) :
    (Http.Request.ofTarget method target).path = String.ofList path := by
  have htake : target.toList.takeWhile (· != '?') = path := by
    rw [htarget, List.takeWhile_append_of_pos (forall_bne hpath)]
    simp
  simp only [Http.Request.ofTarget, htake]
  split <;> rfl

/-! ## Parameters in any order -/

/-- In the entries of a dictionary, in any order, no name comes twice. -/
theorem nodup_of_perm {parameters : Parameters} (h : pairs.Perm parameters.entries) :
    (pairs.map Prod.fst).Nodup := by
  rw [(h.map Prod.fst).nodup_iff, List.Nodup, List.pairwise_map]
  exact parameters.pairwise_entries

/-- The entries of a dictionary can be looked up in whatever order they stand. -/
theorem lookup_of_perm {parameters : Parameters} (h : pairs.Perm parameters.entries)
    (name : String) : pairs.lookup name = parameters.get? name := by
  apply Option.ext
  intro value
  rw [(isConsistent_of_nodup (nodup_of_perm h)).lookup_eq_some_iff, h.mem_iff,
    Dictionary.mem_entries_iff]

/-- Pairs with distinct names are gathered to the parameters that answer as they do. -/
theorem gatherPairs_eq_ok {parameters : Parameters} (hnodup : (pairs.map Prod.fst).Nodup)
    (hlookup : ∀ name, pairs.lookup name = parameters.get? name) :
    gatherPairs Dictionary.empty pairs = .ok parameters := by
  obtain ⟨gathered, hgathered, hget⟩ :=
    gatherPairs_of_nodup hnodup fun pair _ => Dictionary.get?_empty pair.1
  have hsame : gathered = parameters := by
    apply Dictionary.ext_get?
    intro name
    rw [hget, Dictionary.get?_empty, Option.or_none, hlookup]
  rw [hgathered, hsame]

/-- A parameter and the pairs of others, with names of their own, are gathered to all of them. -/
theorem gatherParameters_eq_insert {request : Http.Request} {parameters : Parameters}
    (hread : request.pairs = (name, value) :: pairs) (hpairs : pairs.Perm parameters.entries)
    (hnew : parameters.get? name = none) :
    gatherParameters request = .ok (parameters.insert name value) := by
  have hfresh : name ∉ pairs.map Prod.fst := by
    intro hmem
    obtain ⟨⟨other, held⟩, hentry, rfl⟩ := List.mem_map.mp hmem
    rw [Dictionary.mem_entries_iff.mp (hpairs.mem_iff.mp hentry)] at hnew
    cases hnew
  rw [gatherParameters, hread]
  refine gatherPairs_eq_ok (List.nodup_cons.mpr ⟨hfresh, nodup_of_perm hpairs⟩) fun other => ?_
  rw [Dictionary.get?_insert, List.lookup_cons]
  by_cases heq : name = other
  · simp [heq]
  · have hne : (other == name) = false := by simpa using fun h => heq h.symm
    rw [hne, if_neg heq]
    exact lookup_of_perm hpairs other

end RemoteCall
