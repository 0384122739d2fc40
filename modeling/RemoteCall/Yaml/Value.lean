import RemoteCall.Text.Integer
import RemoteCall.Yaml.Document

/-!
# Values of nodes

What nodes stand for. A text is any scalar as it is written. A truth value or a number is
a plain scalar, or a literal one with the tag of its kind. Where a collection is expected,
nothing at all is the empty one. Copies are followed within collections.
-/

namespace RemoteCall.Yaml

/-- Whether the scalar is one that nothing has been written for. -/
def Scalar.isNothing (scalar : Scalar) : Bool :=
  scalar.style == .plain && scalar.text == ""

/-- Whether the text stands for a missing value. -/
def isNullText (text : String) : Bool :=
  text == "null" || text == "Null" || text == "NULL" || text == "~"

/-- The truth value that a text spells. -/
def boolOf? (text : String) : Option Bool :=
  if text == "true" || text == "True" || text == "TRUE" then some true
  else if text == "false" || text == "False" || text == "FALSE" then some false
  else none

/-- The largest number. -/
def maxNatural : Nat := 0xFFFFFFFFFFFFFFFF

/-- The number that digits spell, if there is at least one and the number is not too large. -/
def digitsIn? (base : Nat) (digits : List Char) : Option Nat :=
  let value := Text.valueIn base digits
  if !digits.isEmpty && digits.all (Text.isDigitIn base) && value ≤ maxNatural then some value
  else none

/-- The number that a text spells: a plus sign or none, then decimal digits without
superfluous zeros, or the digits of another system after a mark. -/
def naturalOf? (text : List Char) : Option Nat :=
  let unsigned := match text with
    | '+' :: rest => rest
    | rest => rest
  match unsigned with
  | '0' :: 'x' :: digits => digitsIn? 16 digits
  | '0' :: 'o' :: digits => digitsIn? 8 digits
  | '0' :: 'b' :: digits => digitsIn? 2 digits
  | '0' :: _ :: _ => none
  | digits => digitsIn? 10 digits

/-- The text of a scalar that may stand for something else than a text. -/
def Scalar.typed? (scalar : Scalar) (tag : Tag) : Option String :=
  if scalar.style == .plain || (scalar.style == .literal && scalar.tag == some tag) then
    some scalar.text
  else none

namespace Node

/-- The text that a node is. -/
def text? : Node → Option String
  | .scalar content => some content.text
  | _ => none

/-- The truth value that a node is. -/
def bool? : Node → Option Bool
  | .scalar content => (content.typed? Tag.bool).bind boolOf?
  | _ => none

/-- The number that a node is. -/
def natural? : Node → Option Nat
  | .scalar content => (content.typed? Tag.int).bind fun text => naturalOf? text.toList
  | _ => none

/-- Whether there is a value in a place that may have none. A tag says that there is one,
unless it is that of missing values; then the text must stand for a missing one. -/
def isPresent? : Node → Option Bool
  | .scalar content =>
    if content.style != .plain then some true
    else
      match content.tag with
      | none => some (content.text != "" && !isNullText content.text)
      | some tag =>
        if tag != Tag.null then some true
        else if isNullText content.text then some false
        else none
  | _ => some true

end Node

namespace Document

/-- What the items of a node are. -/
def items? (document : Document) : Node → Option (List Node)
  | .sequence items => some (items.map document.content)
  | .scalar scalar => if scalar.isNothing then some [] else none
  | _ => none

/-- What the entries of a node are, all of whose keys are texts. -/
def fields? (document : Document) : Node → Option (List (String × Node))
  | .mapping entries => entries.mapM fun (key, value) =>
    (document.content key).text?.map (·, document.content value)
  | .scalar scalar => if scalar.isNothing then some [] else none
  | _ => none

end Document

end RemoteCall.Yaml
