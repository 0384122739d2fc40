import RemoteCall.Proofs.Client.Request
import RemoteCall.Proofs.Client.Wire

/-!
# Calls sent by either method

A call is posted as a form, or its form is added to the address that it is asked for at. Either
way a server reads the query of the address first and then the pairs of the call, so it need not
know which it was. The one thing in the way is a fragment: what is added to an address goes
behind it and is never sent, while a posted call is not touched by it.
-/

namespace RemoteCall

namespace ClientCall

/-- The pairs of a call are never empty: they tell its function at least. -/
theorem IsMirrored.wire_ne_nil {call : ClientCall} (h : call.IsMirrored) : call.wire ≠ [] := by
  rw [h.wire]
  simp

/-- **Both methods put the same pairs on the wire exactly if the address has no fragment.**
However a call has been put together, what a server reads of it when it is posted are the pairs of
the address and then those of the call. When it is added to the address, it reads the same unless
there is a fragment; then it reads the pairs of the address only. -/
theorem arrives_alike_iff {function url : String} {parameters : Parameters}
    {data : Option Element} {call : ClientCall} (hmake : make function parameters data = .ok call)
    (steps : List Change) {target : HttpTarget} (htarget : HttpTarget.ofUrl url = .ok target)
    (failOver : Bool) {posted asked : WireRequest}
    (hposted : target.wireRequest ((call.after steps).setConfig ⟨failOver, .post⟩) = .ok posted)
    (hasked : target.wireRequest ((call.after steps).setConfig ⟨failOver, .get⟩) = .ok asked) :
    posted.received.pairs = HttpTarget.ownPairs url ++ (call.after steps).wire ∧
      asked.received.pairs = (if '#' ∈ url.toList then HttpTarget.ownPairs url
        else HttpTarget.ownPairs url ++ (call.after steps).wire) ∧
      (asked.received.pairs = posted.received.pairs ↔ '#' ∉ url.toList) := by
  have hwire : (call.after steps).wire ≠ [] :=
    ((isValid_make hmake).after steps).isMirrored.wire_ne_nil
  have hpost : posted.received.pairs = HttpTarget.ownPairs url ++ (call.after steps).wire := by
    simpa [setConfig] using (HttpTarget.received_eq htarget hposted).2
  have hget : asked.received.pairs = if '#' ∈ url.toList then HttpTarget.ownPairs url
      else HttpTarget.ownPairs url ++ (call.after steps).wire := by
    simpa [setConfig] using (HttpTarget.received_eq htarget hasked).2
  refine ⟨hpost, hget, ?_⟩
  rw [hpost, hget]
  split
  · next hhash => simpa [hhash] using hwire
  · next hhash => simp [hhash]

/-- A call of a function with one parameter. -/
def spokenCall : ClientCall :=
  rebuild ⟨⟨"Echo", Dictionary.empty.insert "text" "a&b", none⟩, {}, none, []⟩

/-- The call can be made. -/
theorem make_spokenCall :
    make "Echo" (Dictionary.empty.insert "text" "a&b") none = .ok spokenCall := rfl

/-- Where an address can be read and a call becomes a request, these can be named. -/
theorem exists_wireRequest (url : String) (call : ClientCall)
    (hread : (Url.parse? url).isSome = true)
    (hsent : ((HttpTarget.mk url HttpTarget.defaultTimeout).wireRequest call).toOption.isSome =
      true) :
    HttpTarget.ofUrl url = .ok ⟨url, HttpTarget.defaultTimeout⟩ ∧
      ∃ wire, (HttpTarget.mk url HttpTarget.defaultTimeout).wireRequest call = .ok wire := by
  refine ⟨HttpTarget.ofUrl_eq_ok_iff.mpr ⟨hread, rfl⟩, ?_⟩
  cases hwire : (HttpTarget.mk url HttpTarget.defaultTimeout).wireRequest call with
  | ok wire => exact ⟨wire, rfl⟩
  | error e =>
    rw [hwire] at hsent
    cases hsent

/-- A call to an address with a query of its own, whose value holds a separator. -/
theorem arrives_alike_iff_query :
    ∃ target posted asked, HttpTarget.ofUrl "http://localhost:8080?x=1&y" = .ok target ∧
      target.wireRequest (spokenCall.setConfig ⟨false, .post⟩) = .ok posted ∧
      target.wireRequest (spokenCall.setConfig ⟨false, .get⟩) = .ok asked ∧
      asked.received.pairs = posted.received.pairs ∧
      posted.received.pairs = [("x", "1"), ("y", ""), ("_function", "Echo"),
        ("_convention", "_xins-std"), ("text", "a&b")] := by
  have hread : (Url.parse? "http://localhost:8080?x=1&y").isSome = true := by decide +kernel
  obtain ⟨htarget, posted, hposted⟩ := exists_wireRequest "http://localhost:8080?x=1&y"
    (spokenCall.setConfig ⟨false, .post⟩) hread (by decide +kernel)
  obtain ⟨-, asked, hasked⟩ := exists_wireRequest "http://localhost:8080?x=1&y"
    (spokenCall.setConfig ⟨false, .get⟩) hread (by decide +kernel)
  have hown : HttpTarget.ownPairs "http://localhost:8080?x=1&y" = [("x", "1"), ("y", "")] := by
    decide +kernel
  obtain ⟨hpairs, -, halike⟩ :=
    arrives_alike_iff make_spokenCall [] htarget false hposted hasked
  refine ⟨_, posted, asked, htarget, hposted, hasked, halike.mpr (by decide), ?_⟩
  rw [hpairs, hown]
  rfl

/-- Behind a fragment, no parameter of a call arrives, not even the name of the function. -/
theorem not_arrives_alike_fragment :
    make "Echo" (Dictionary.empty.insert "text" "a&b") none = .ok spokenCall ∧
      ∃ target posted asked, HttpTarget.ofUrl "http://localhost:8080/api#top" = .ok target ∧
      target.wireRequest (spokenCall.setConfig ⟨false, .post⟩) = .ok posted ∧
      target.wireRequest (spokenCall.setConfig ⟨false, .get⟩) = .ok asked ∧
      asked.received.pairs = [] ∧
      posted.received.pairs = [("_function", "Echo"), ("_convention", "_xins-std"),
        ("text", "a&b")] := by
  have hread : (Url.parse? "http://localhost:8080/api#top").isSome = true := by decide +kernel
  obtain ⟨htarget, posted, hposted⟩ := exists_wireRequest "http://localhost:8080/api#top"
    (spokenCall.setConfig ⟨false, .post⟩) hread (by decide +kernel)
  obtain ⟨-, asked, hasked⟩ := exists_wireRequest "http://localhost:8080/api#top"
    (spokenCall.setConfig ⟨false, .get⟩) hread (by decide +kernel)
  have hown : HttpTarget.ownPairs "http://localhost:8080/api#top" = [] := by decide +kernel
  have hpost := (HttpTarget.received_eq htarget hposted).2
  have hget := (HttpTarget.received_eq htarget hasked).2
  rw [if_neg (by decide), hown] at hpost
  rw [if_pos (by decide), hown] at hget
  exact ⟨make_spokenCall, _, posted, asked, htarget, hposted, hasked, hget, hpost⟩

end ClientCall

end RemoteCall
