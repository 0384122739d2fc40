import RemoteCall.Proofs.Api.Legality
import RemoteCall.Proofs.Convention.Selection

/-!
# Values that requests bring

A document has legal characters only, also behind its references, so no value that a document
brings has another. Parameters of a query or form are percent-encoded, and any character can be
written so: their values are legal only if the sender makes them so.
-/

namespace RemoteCall

open Xml (isXmlText)

/-- What a function gets of any parameters is among them. -/
theorem get?_of_functionParameters {parameters accepted : Parameters}
    (h : functionParameters parameters = .ok accepted) {name value : String}
    (hget : accepted.get? name = some value) : parameters.get? name = some value := by
  simp only [functionParameters] at h
  split at h
  · cases h
    rw [cleanUp, Dictionary.get?_filter] at hget
    exact (Option.filter_eq_some_iff.mp hget).1
  · cases h

/-- The values of gathered parameters are those of the pairs. -/
theorem exists_mem_pairs_of_gatherParameters {request : Http.Request} {parameters : Parameters}
    (h : gatherParameters request = .ok parameters) {name value : String}
    (hget : parameters.get? name = some value) : ∃ pair ∈ request.pairs, pair.2 = value := by
  have hlookup : request.pairs.lookup name = some value := by
    rw [← hget, get?_of_gatherPairs h]
    rfl
  obtain ⟨before, after, heq, -⟩ := List.lookup_eq_some_iff.mp hlookup
  exact ⟨(name, value), by simp [heq], rfl⟩

/-- Pairs of legal texts make calls with legal values. -/
theorem Standard.holdsLegal_of_convert {request : Http.Request} {call : FunctionRequest}
    (hpairs : ∀ pair ∈ request.pairs, isXmlText pair.2 = true)
    (h : convert request = .ok call) : call.HoldsLegal := by
  simp only [convert] at h
  split at h
  · cases h
  next parameters hgathered =>
  split at h
  · cases h
  obtain ⟨-, data, accepted, -, haccepted, rfl⟩ := callOf_eq_ok_iff.mp (mapError_eq_ok_iff.mp h)
  intro name value hget
  obtain ⟨pair, hpair, rfl⟩ := exists_mem_pairs_of_gatherParameters hgathered
    (get?_of_functionParameters haccepted hget)
  exact hpairs pair hpair

namespace Document

/-- Each parameter has the text of an element, or none of it. -/
theorem holdsLegal_of_collectParameters {elements : List Element}
    (helements : ∀ element ∈ elements, element.IsLegal) {parameters collected : Parameters}
    (hbefore : ∀ name value, parameters.get? name = some value → isXmlText value = true)
    (h : collectParameters parameters elements = .ok collected) :
    ∀ name value, collected.get? name = some value → isXmlText value = true := by
  induction elements generalizing parameters with
  | nil =>
    cases h
    exact hbefore
  | cons param rest ih =>
    obtain ⟨hparam, hrest⟩ := List.forall_mem_cons.mp helements
    have htext : isXmlText (param.text.getD "") = true := by
      cases hcontent : param.text with
      | none => rfl
      | some text => exact hparam.text text hcontent
    simp only [collectParameters] at h
    split at h
    · cases h
    split at h
    · refine ih hrest (fun name value hget => ?_) h
      rw [Dictionary.get?_insert] at hget
      split at hget
      · cases hget
        exact htext
      · exact hbefore name value hget
    · split at h
      · exact ih hrest hbefore h
      · cases h

/-- Documents of legal texts make calls with legal values. -/
theorem holdsLegal_of_convertRoot {root : Element} (hroot : root.Every Element.IsLegal)
    {call : FunctionRequest} (h : convertRoot root = .ok call) : call.HoldsLegal := by
  simp only [convertRoot] at h
  split at h
  · cases h
  split at h
  · cases h
  obtain ⟨-, parameters, accepted, hcollected, haccepted, -, rfl⟩ :=
    callOf_eq_ok_iff.mp (mapError_eq_ok_iff.mp h)
  have hparams : ∀ param ∈ root.childrenNamed "param", param.IsLegal := fun param hmem =>
    (hroot.children param (List.mem_filter.mp hmem).1).test
  intro name value hget
  refine holdsLegal_of_collectParameters hparams ?_ hcollected name value
    (get?_of_functionParameters haccepted hget)
  intro name value hnone
  cases hnone

/-- No document brings an illegal value. -/
theorem holdsLegal_of_convert {request : Http.Request} {kept : Option Element}
    (hkept : IsRoot request kept) {call : FunctionRequest}
    (h : (convert request kept).1 = .returned call) : call.HoldsLegal := by
  have hread := (readBody_spec true hkept).2
  unfold convert at h
  split at h
  · next root more heq =>
    rw [heq] at hread
    have hparsed := hread root rfl
    unfold parseBody at hparsed
    split at hparsed
    · cases hparsed
    split at hparsed
    · cases hparsed
    split at hparsed
    · next hparse =>
      cases hparsed
      exact holdsLegal_of_convertRoot (Element.every_isLegal_of_parse hparse)
        (HookResult.ofExcept_eq_returned_iff.mp h)
    · cases hparsed
  · cases h

end Document

end RemoteCall
