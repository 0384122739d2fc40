import RemoteCall.CallResult.Writer

/-!
# Results as they are written

A result goes to its output piece by piece, and nothing is kept in between. Where the output
fails, the pieces that would have come next are not written.
-/

namespace RemoteCall

open Xml (Markup escapePlain escapeText)

/-- Where pieces of markup go. -/
structure Output (m : Type → Type) where
  emit : Markup → m Unit
  flush : m Unit

variable {m : Type → Type} [Monad m]

namespace Element

mutual

/-- Writes an element below a parent in the namespace `outer`. -/
def streamIn (output : Output m) (outer : Option String) : Element → m Unit
  | .mk name uri attributes children text => do
    let tag := tagAttributes outer uri attributes
    if children.isEmpty && text.isNone then
      output.emit (.emptyTag name tag)
    else
      output.emit (.startTag name tag)
      if let some text := text then
        output.emit (.text (escapeText text))
      streamAll output uri children
      output.emit (.endTag name)

/-- Writes elements below a parent in the namespace `outer`. -/
def streamAll (output : Output m) (outer : Option String) : List Element → m Unit
  | [] => pure ()
  | element :: rest => do
    streamIn output outer element
    streamAll output outer rest

end

end Element

namespace CallResult

/-- Writes a parameter. -/
def streamParameter (output : Output m) (spec : Option FunctionSpec) (name value : String) :
    m Unit := do
  if name = "" ∨ value = "" then return
  output.emit (.startTag "param" [("name", escapePlain name)])
  output.emit (.text (if isRaw spec name then value else escapeText value))
  output.emit (.endTag "param")

/-- Writes a result. -/
def stream (output : Output m) (spec : Option FunctionSpec) (result : CallResult) : m Unit := do
  output.emit .declaration
  output.emit (.startTag "result"
    (result.code.map fun code => ("errorcode", escapePlain code)).toList)
  result.parameters.entries.forM fun (name, value) => streamParameter output spec name value
  if let some data := result.data then
    data.streamIn output none
  output.emit (.endTag "result")
  output.flush

end CallResult

end RemoteCall
