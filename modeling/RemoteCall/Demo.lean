import RemoteCall.Api

/-!
# The demonstration interface

Three functions: one repeats a text, one adds two integers of 64 bits, one greets by
name or by nickname.
-/

namespace RemoteCall.Demo

/-- Repeats the text. -/
def echo : ApiFunction where
  spec :=
    { name := "Echo", input := [⟨"text", .text, true⟩], output := [⟨"text", .text, true⟩] }
  run request :=
    .result (CallResult.success.setParameter "text" ((request.parameters.get? "text").getD ""))

/-- Whether an integer fits 64 bits, sign included. -/
def fits (value : Int) : Bool :=
  -0x8000000000000000 ≤ value && value < 0x8000000000000000

/-- The integer that a parameter spells, or zero. -/
def operand (request : FunctionRequest) (name : String) : Int :=
  let value := (request.parameters.get? name).bind fun text => Text.integer? text.toList
  (value.filter fits).getD 0

/-- Adds two integers; a sum that does not fit is an error. -/
def add : ApiFunction where
  spec :=
    { name := "Add"
      input := [⟨"a", .int64, true⟩, ⟨"b", .int64, true⟩]
      output := [⟨"sum", .int64, true⟩]
      errorCodes := ["Overflow"] }
  run request :=
    let sum := operand request "a" + operand request "b"
    if fits sum then .result (CallResult.success.setParameter "sum" (Text.integerText sum))
    else .result (CallResult.error "Overflow")

/-- Greets by name, or by nickname if there is no name. -/
def greet : ApiFunction where
  spec :=
    { name := "Greet"
      input := [⟨"name", .text, false⟩, ⟨"nickname", .text, false⟩]
      output := [⟨"greeting", .text, true⟩]
      combos := [⟨.exclusiveOr, ["name", "nickname"]⟩] }
  run request :=
    let who := ((request.parameters.get? "name").or (request.parameters.get? "nickname")).getD
      "stranger"
    .result (CallResult.success.setParameter "greeting" s!"Hello, {who}!")

/-- The demonstration interface under a name. -/
def api (name : String) : Except ApiError Api :=
  (Api.ofName name).registerAll [echo, add, greet]

end RemoteCall.Demo
