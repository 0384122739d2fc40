import RemoteCall.Element.Writer
import RemoteCall.Spec.Function

/-!
# Results as documents

A result is written as a `result` element: its error code as an attribute, a `param`
element for each parameter by name, and the data section. A parameter with an empty name
or value is left out. A parameter that the declaration of the function gives the markup
type is written as it is; every other value is escaped.
-/

namespace RemoteCall.CallResult

open Xml (Markup escapePlain escapeText)

/-- Whether the parameter is declared as markup. -/
def isRaw (spec : Option FunctionSpec) (name : String) : Bool :=
  spec.bind (·.outputType name) = some .xml

/-- The markup of a parameter. -/
def parameterMarkup (spec : Option FunctionSpec) (name value : String) : List Markup :=
  if name = "" ∨ value = "" then []
  else
    [.startTag "param" [("name", escapePlain name)],
      .text (if isRaw spec name then value else escapeText value),
      .endTag "param"]

/-- The markup of a result. -/
def markup (spec : Option FunctionSpec) (result : CallResult) : List Markup :=
  let attributes := (result.code.map (fun code => ("errorcode", escapePlain code))).toList
  let parameters := result.parameters.entries.flatMap fun (name, value) =>
    parameterMarkup spec name value
  let data := (result.data.map Element.markup).getD []
  .declaration :: .startTag "result" attributes :: (parameters ++ data ++ [.endTag "result"])

/-- The document of a result. -/
def toXml (spec : Option FunctionSpec) (result : CallResult) : String :=
  Markup.textOf (result.markup spec)

end RemoteCall.CallResult
