import RemoteCall.Decimal.Reader
import RemoteCall.Xml.Document

/-!
# Types of parameters

Parameters travel as text; a type says which texts are values of it.
-/

namespace RemoteCall

/-- The type of a parameter. -/
inductive ParamType where
  | text
  | boolean
  | int32
  | int64
  | float64
  | xml
deriving DecidableEq, Repr

namespace ParamType

/-- The name of the type. -/
def name : ParamType → String
  | .text => "_text"
  | .boolean => "_boolean"
  | .int32 => "_int32"
  | .int64 => "_int64"
  | .float64 => "_float64"
  | .xml => "_xml"

/-- All types. -/
def all : List ParamType :=
  [.text, .boolean, .int32, .int64, .float64, .xml]

/-- The type of a name. -/
def ofName? (text : String) : Option ParamType :=
  all.find? (fun type => type.name = text)

/-- Whether the text spells an integer of so many bits, sign included. -/
def isInteger (bits : Nat) (text : String) : Bool :=
  match Text.integer? text.toList with
  | some value =>
    let bound := Int.ofNat (Nat.pow 2 (bits - 1))
    value < bound && -bound ≤ value
  | none => false

/-- Whether the text is a value of the type. A value of the markup type makes a
well-formed document when it is put into an element. -/
def accepts (type : ParamType) (value : String) : Bool :=
  match type with
  | .text => true
  | .boolean => value = "true" || value = "false"
  | .int32 => isInteger 32 value
  | .int64 => isInteger 64 value
  | .float64 => Decimal.isFiniteNumber value.toList
  | .xml => Xml.isWellFormed ("<x>" ++ value ++ "</x>")

end ParamType

end RemoteCall
