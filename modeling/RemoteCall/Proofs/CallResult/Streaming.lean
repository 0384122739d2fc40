import RemoteCall.CallResult.Sink
import RemoteCall.Proofs.Text.Utf8

/-!
# Documents cut short

Writing to a sink turns appending bytes into doing one thing after the other. So the sink of a
result has taken the document as far as it had room, wherever it failed: between two elements, in
the middle of a tag, or at any depth of the data section.
-/

namespace RemoteCall

open Xml (Markup)

/-! ## The pieces that are written -/

section

variable {m : Type → Type} [Monad m] [LawfulMonad m] (output : Output m)

mutual

/-- An element is written as the pieces of its markup. -/
theorem Element.streamIn_eq_forM (outer : Option String) (element : Element) :
    element.streamIn output outer = (element.markupIn outer).forM output.emit := by
  obtain ⟨name, uri, attributes, children, text⟩ := element
  rw [Element.streamIn, Element.markupIn]
  split
  · rw [List.forM_eq_forM, List.forM_cons, List.forM_nil]
    simp
  · rw [Element.streamAll_eq_forM uri children]
    cases text <;> simp

/-- Elements are written one after the other. -/
theorem Element.streamAll_eq_forM (outer : Option String) (elements : List Element) :
    Element.streamAll output outer elements =
      (Element.markupAll outer elements).forM output.emit := by
  cases elements with
  | nil => simp [Element.streamAll, Element.markupAll]
  | cons element rest =>
    rw [Element.streamAll, Element.markupAll, Element.streamIn_eq_forM outer element,
      Element.streamAll_eq_forM outer rest]
    simp

end

/-- What is done for each of several parts is done for the pieces of each in turn. -/
theorem forM_flatMap {α β : Type} (action : β → m Unit) (f : α → List β) (items : List α) :
    (items.flatMap f).forM action = items.forM fun item => (f item).forM action := by
  induction items with
  | nil => simp
  | cons item items ih => simp_all

/-- A parameter is written as the pieces of its markup, and nothing if there are none. -/
theorem CallResult.streamParameter_eq_forM (spec : Option FunctionSpec) (name value : String) :
    CallResult.streamParameter output spec name value =
      (CallResult.parameterMarkup spec name value).forM output.emit := by
  rw [CallResult.streamParameter, CallResult.parameterMarkup]
  split <;> simp

/-- Parameters are written one after the other. -/
theorem CallResult.forM_streamParameter (spec : Option FunctionSpec)
    (entries : List (String × String)) :
    (entries.forM fun (name, value) => CallResult.streamParameter output spec name value) =
      (entries.flatMap fun (name, value) =>
        CallResult.parameterMarkup spec name value).forM output.emit := by
  simp only [forM_flatMap, streamParameter_eq_forM]

/-- A result is written as the pieces of its markup, and then flushed. -/
theorem CallResult.stream_eq_forM (spec : Option FunctionSpec) (result : CallResult) :
    result.stream output spec = (do
      (result.markup spec).forM output.emit
      output.flush) := by
  rw [CallResult.stream, CallResult.markup, forM_streamParameter]
  cases result.data with
  | none => simp_all
  | some data => simp_all [Element.streamIn_eq_forM, Element.markup]

end

/-! ## The bytes that a sink takes -/

namespace Sink

variable {ε : Type} (failure : ε)

/-- What has become of a sink that was to take bytes, and of the writing. -/
theorem run_write (bytes : List UInt8) (sink : Sink) : (write failure bytes).run.run sink =
    if bytes.length ≤ sink.room then
      (.ok (), ⟨sink.taken ++ bytes, sink.room - bytes.length, sink.later⟩)
    else (.error failure, ⟨sink.taken ++ bytes.take sink.room, sink.later, 0⟩) := by
  rfl

/-- Nothing happens to a sink that is to take nothing, not even if it is full. -/
theorem write_nil : write failure [] = pure () := by
  refine ExceptT.ext (StateT.ext fun sink => ?_)
  rw [run_write, List.length_nil, if_pos (Nat.zero_le _), List.append_nil, Nat.sub_zero]
  rfl

/-- Bytes are taken in one go as they are one part after the other. -/
theorem write_append (first second : List UInt8) : write failure (first ++ second) = (do
    write failure first
    write failure second) := by
  refine ExceptT.ext (StateT.ext fun sink => ?_)
  rw [run_write, List.length_append, ExceptT.run_bind, StateT.run_bind, run_write]
  by_cases hfirst : first.length ≤ sink.room
  · have htake : (first ++ second).take sink.room =
        first ++ second.take (sink.room - first.length) := by
      rw [List.take_append, List.take_of_length_le hfirst]
    have hroom : first.length + second.length ≤ sink.room ↔
        second.length ≤ sink.room - first.length := by omega
    simp only [if_pos hfirst, hroom, htake, ← List.append_assoc, Nat.sub_add_eq]
    exact (run_write failure second
      ⟨sink.taken ++ first, sink.room - first.length, sink.later⟩).symm
  · -- the first part does not fit, and what comes after it is not written, whatever room there is
    have hboth : ¬ first.length + second.length ≤ sink.room := by omega
    have htake : (first ++ second).take sink.room = first.take sink.room :=
      List.take_append_of_le_length (by omega)
    rw [if_neg hfirst, if_neg hboth, htake]
    rfl

/-- Parts that are taken one after the other are taken in one go. -/
theorem forM_write (parts : List (List UInt8)) :
    parts.forM (write failure) = write failure parts.flatten := by
  induction parts with
  | nil => exact (write_nil failure).symm
  | cons part parts ih =>
    rw [List.flatten_cons, write_append, ← ih]
    rfl

/-- Into whatever chunks the pieces are cut, their bytes are taken in one go. -/
theorem forM_emit (chunking : Chunking) (pieces : List Markup) :
    pieces.forM (output chunking failure).emit =
      write failure (Http.bytesOf (Markup.textOf pieces).toUTF8) := by
  rw [Markup.textOf, Text.Utf8.bytesOf_ofList]
  induction pieces with
  | nil => exact (write_nil failure).symm
  | cons piece pieces ih =>
    have hpiece : (output chunking failure).emit piece =
        write failure (Text.Utf8.encode piece.render) := by
      rw [← chunking.flatten_chunks piece, ← forM_write]
      rfl
    have hencode : Text.Utf8.encode ((piece :: pieces).flatMap Markup.render) =
        Text.Utf8.encode piece.render ++ Text.Utf8.encode (pieces.flatMap Markup.render) := by
      rw [Text.Utf8.encode, List.flatMap_cons, List.flatMap_append]
      rfl
    rw [hencode, write_append, ← ih, ← hpiece]
    rfl

end Sink

/-- **A sink that fails has taken the beginning of the document, and no byte more.** A result that
is written to a sink with room for some bytes leaves in it as many of the first bytes of its
document, whatever chunks they come in, and however many the sink would take after its failure.
Writing ends well if the whole document fits, and with the failure of the sink otherwise. -/
theorem CallResult.run_stream_sink {ε : Type} (failure : ε) (chunking : Chunking)
    (spec : Option FunctionSpec) (result : CallResult) (capacity later : Nat) :
    let document := Http.bytesOf (result.toXml spec).toUTF8
    let written := (result.stream (Sink.output chunking failure) spec).run.run
      ⟨[], capacity, later⟩
    written.2.taken = document.take (min capacity document.length) ∧
    written.1 = (if document.length ≤ capacity then .ok () else .error failure) ∧
    (result.writeTo spec (.ofCapacity capacity)).1.taken =
      document.take (min capacity document.length) ∧
    (result.writeTo spec (.ofCapacity capacity)).2 = decide (document.length ≤ capacity) := by
  intro document written
  have hrun {ε : Type} (failure : ε) (chunking : Chunking) (sink : Sink) :
      (result.stream (Sink.output chunking failure) spec).run.run sink =
        (Sink.write failure document).run.run sink := by
    rw [stream_eq_forM, Sink.forM_emit]
    exact congrArg (fun writing => writing.run.run sink) (bind_pure_unit (m := Writing ε))
  have hwritten : written = _ := (hrun failure chunking _).trans (Sink.run_write ..)
  have hwriteTo : (result.stream (Sink.output .whole ()) spec).run.run (.ofCapacity capacity) = _ :=
    (hrun () .whole _).trans (Sink.run_write ..)
  have hdefault : result.writeTo spec (.ofCapacity capacity) = _ :=
    congrArg (fun run => (run.2, run.1.isOk)) hwriteTo
  rw [hwritten, hdefault]
  by_cases hfits : document.length ≤ capacity
  · simp [Sink.ofCapacity, hfits, Except.isOk, Except.toBool]
  · have hmin : min capacity document.length = capacity := by omega
    simp [Sink.ofCapacity, hfits, hmin, Except.isOk, Except.toBool]

end RemoteCall
