import RemoteCall.CallResult.Stream
import RemoteCall.Text.Utf8

/-!
# Writing to a limited sink

A sink takes bytes up to its capacity. Bytes that do not fit are taken as far as there is
room; then the sink fails, and writing stops there. A piece of markup may reach it as
several chunks of bytes.
-/

namespace RemoteCall

/-- A sink: the bytes it has taken, how many more it will take before it fails, and how
many it would take after that. -/
structure Sink where
  taken : List UInt8
  room : Nat
  later : Nat := 0
deriving DecidableEq, Repr

/-- What is done to a sink until it fails. -/
abbrev Writing (ε : Type) := ExceptT ε (StateM Sink)

/-- The chunks of bytes in which a piece of markup is written. -/
structure Chunking where
  chunks : Xml.Markup → List (List UInt8)
  flatten_chunks : ∀ piece, (chunks piece).flatten = Text.Utf8.encode piece.render

namespace Chunking

/-- Every piece is written at once. -/
def whole : Chunking where
  chunks piece := [Text.Utf8.encode piece.render]
  flatten_chunks _ := List.flatten_singleton

end Chunking

namespace Sink

variable {ε : Type}

/-- A sink that has taken nothing. -/
def ofCapacity (capacity : Nat) : Sink := ⟨[], capacity, 0⟩

/-- Takes bytes, or those that fit, and fails. -/
def write (failure : ε) (bytes : List UInt8) : Writing ε Unit := ExceptT.mk fun sink =>
  if bytes.length ≤ sink.room then
    (.ok (), ⟨sink.taken ++ bytes, sink.room - bytes.length, sink.later⟩)
  else (.error failure, ⟨sink.taken ++ bytes.take sink.room, sink.later, 0⟩)

/-- A sink as an output. It keeps nothing back that would have to be flushed. -/
def output (chunking : Chunking) (failure : ε) : Output (Writing ε) where
  emit piece := (chunking.chunks piece).forM (write failure)
  flush := pure ()

end Sink

namespace CallResult

/-- Writes a result to a sink; says whether it fitted. -/
def writeTo (spec : Option FunctionSpec) (result : CallResult) (sink : Sink) : Sink × Bool :=
  let (outcome, sink) := (result.stream (Sink.output .whole ()) spec).run sink
  (sink, outcome.isOk)

end CallResult

end RemoteCall
