import RemoteCall.Proofs.Convention.Parameters
import RemoteCall.Proofs.Text.FormEncoding

/-!
# Gathering the parameters of a request

The pairs of a request are entered one by one into a dictionary, and a name that comes with a
second value is refused. What has been entered are the pairs that have been met, so whether
gathering succeeds and what it gives depends only on which pairs there are: not on their order,
not on how often they come, and not on whether they come in the query or in a form.
-/

namespace RemoteCall

open Http (bytesOf)
open Text.FormEncoding (parse parse_join)

variable {request other : Http.Request} {parameters : Parameters}

/-- Parameters can be gathered exactly when no name comes with two values. -/
theorem exists_gatherParameters_iff (request : Http.Request) :
    (∃ parameters, gatherParameters request = .ok parameters) ↔ IsConsistent request.pairs :=
  exists_gatherPairs_iff

/-- What has been gathered answers as the request does. -/
theorem get?_of_gatherParameters (h : gatherParameters request = .ok parameters) (name : String) :
    parameters.get? name = request.parameter? name := by
  rw [get?_of_gatherPairs h, Dictionary.get?_empty, Option.none_or]
  rfl

/-- Where gathering fails, the name that is blamed comes with two values. -/
theorem exists_mem_pairs_of_gatherParameters_eq_error {fault : RequestFault}
    (h : gatherParameters request = .error fault) :
    ∃ name value second, fault = .severalValues name ∧ (name, value) ∈ request.pairs ∧
      (name, second) ∈ request.pairs ∧ value ≠ second := by
  rcases gatherPairs_cases Dictionary.empty request.pairs with
    ⟨-, gathered, hgathered⟩ | ⟨name, value, second, herror, hvalue, hsecond, hne⟩
  · rw [gatherParameters, hgathered] at h
    cases h
  · rw [gatherParameters, herror] at h
    cases h
    exact ⟨name, value, second, rfl, hvalue, hsecond, hne⟩

/-- Requests with the same pairs, in whatever order and however often, give the same. -/
theorem gatherParameters_of_mem_iff (hmem : ∀ pair, pair ∈ other.pairs ↔ pair ∈ request.pairs)
    (h : gatherParameters request = .ok parameters) : gatherParameters other = .ok parameters := by
  have hconsistent : IsConsistent request.pairs :=
    (exists_gatherParameters_iff request).mp ⟨parameters, h⟩
  have hconsistent' : IsConsistent other.pairs := (IsConsistent.congr hmem).mpr hconsistent
  obtain ⟨gathered, hgathered⟩ := (exists_gatherParameters_iff other).mpr hconsistent'
  have hsame : gathered = parameters := by
    refine Dictionary.ext_get? fun name => Option.ext fun value => ?_
    rw [get?_of_gatherParameters hgathered, get?_of_gatherParameters h, Http.Request.parameter?,
      Http.Request.parameter?, hconsistent.lookup_eq_some_iff, hconsistent'.lookup_eq_some_iff, hmem]
  rw [hgathered, hsame]

/-- The posted form with a part of its query moved into its body. -/
def Http.Request.moveToBody (request : Http.Request) (kept moved : String) : Http.Request :=
  { request with query := some kept, body := (moved ++ "&").toUTF8 ++ request.body }

/-- Moving a part of the query into the body leaves the pairs as they are. -/
theorem Http.Request.pairs_moveToBody {kept moved : String} (hmethod : request.method = Method.post)
    (hform : request.isForm = true) (hquery : request.query = some (kept ++ "&" ++ moved)) :
    (request.moveToBody kept moved).pairs = request.pairs := by
  have hmark : "&".toByteArray.data.toList = [0x26] := by decide
  have hbody : bytesOf (request.moveToBody kept moved).body =
      bytesOf moved.toUTF8 ++ 0x26 :: bytesOf request.body := by
    simp [moveToBody, bytesOf, hmark]
  have hsplit : bytesOf (kept ++ "&" ++ moved).toUTF8 =
      bytesOf kept.toUTF8 ++ 0x26 :: bytesOf moved.toUTF8 := by
    simp [bytesOf, hmark]
  have hform' : (request.moveToBody kept moved).isForm = true := hform
  have hmethod' : (request.moveToBody kept moved).method = Method.post := hmethod
  have hquery' : (request.moveToBody kept moved).query = some kept := rfl
  simp only [pairs, queryPairs, bodyPairs, hmethod, hform, hmethod', hform', hquery, hquery', hsplit,
    hbody, parse_join, decide_true, Bool.and_self, if_true, List.append_assoc]

/-- What becomes of the pairs of a request when its parameters are gathered. -/
structure IsGathered (request : Http.Request) : Prop where
  succeeds_iff : (∃ parameters, gatherParameters request = .ok parameters) ↔
    ∀ name value other, (name, value) ∈ request.pairs → (name, other) ∈ request.pairs →
      value = other
  names : ∀ parameters, gatherParameters request = .ok parameters → parameters.names.Nodup ∧
    ∀ name, name ∈ parameters.names ↔ ∃ value, (name, value) ∈ request.pairs
  parameter : ∀ parameters, gatherParameters request = .ok parameters →
    ∀ name, parameters.get? name = request.parameter? name
  queryParameter : ∀ parameters, gatherParameters request = .ok parameters →
    ∀ name value, request.queryParameter? name = some value → parameters.get? name = some value
  rearranged : ∀ other : Http.Request,
    (∀ pair, pair ∈ other.queryPairs ++ other.bodyPairs ↔
      pair ∈ request.queryPairs ++ request.bodyPairs) →
    ∀ parameters, gatherParameters other = .ok parameters ↔ gatherParameters request = .ok parameters
  moved : ∀ kept moved, request.method = Http.Method.post → request.isForm = true →
    request.query = some (kept ++ "&" ++ moved) →
    gatherParameters (request.moveToBody kept moved) = gatherParameters request
  refused : ∀ fault, gatherParameters request = .error fault →
    ∃ name value other, fault = .severalValues name ∧ (name, value) ∈ request.pairs ∧
      (name, other) ∈ request.pairs ∧ value ≠ other

/-- The names that are gathered are those of the pairs. -/
theorem mem_names_iff_of_gatherParameters (h : gatherParameters request = .ok parameters)
    (name : String) : name ∈ parameters.names ↔ ∃ value, (name, value) ∈ request.pairs := by
  have hconsistent := (exists_gatherParameters_iff request).mp ⟨parameters, h⟩
  have hmem (value : String) :
      (name, value) ∈ parameters.entries ↔ (name, value) ∈ request.pairs := by
    rw [Dictionary.mem_entries_iff, get?_of_gatherParameters h, Http.Request.parameter?,
      hconsistent.lookup_eq_some_iff]
  simp [Dictionary.names, hmem]

/-- **Gathering depends on which pairs there are, and on nothing else.** It succeeds exactly if no
name comes with two values, and then gives every name the value that the request and its query
answer with. Neither permuting nor repeating pairs changes that, nor does moving them between query
and form. A request that is refused has two values for the name that is complained about. -/
theorem isGathered (request : Http.Request) : IsGathered request where
  succeeds_iff := exists_gatherParameters_iff request
  names := by
    intro parameters h
    refine ⟨?_, mem_names_iff_of_gatherParameters h⟩
    rw [Dictionary.names, List.Nodup, List.pairwise_map]
    exact parameters.pairwise_entries
  parameter := fun parameters => get?_of_gatherParameters
  queryParameter := by
    intro parameters h name value hquery
    rw [get?_of_gatherParameters h, Http.Request.parameter?, Http.Request.pairs,
      List.lookup_append, ← Http.Request.queryParameter?, hquery, Option.some_or]
  rearranged := fun other hmem parameters =>
    ⟨gatherParameters_of_mem_iff fun pair => (hmem pair).symm, gatherParameters_of_mem_iff hmem⟩
  moved := by
    intro kept moved hmethod hform hquery
    rw [gatherParameters, Http.Request.pairs_moveToBody hmethod hform hquery, ← gatherParameters]
  refused := fun fault => exists_mem_pairs_of_gatherParameters_eq_error

end RemoteCall
