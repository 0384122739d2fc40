import RemoteCall.Decimal.Notation
import RemoteCall.Dictionary

/-!
# JSON values

The members of an object are listed by name in code point order, each name once; the
functions that build objects keep them so. A number is an integer of 64 bits, signed or
unsigned, or a number of the 64-bit binary format.
-/

namespace RemoteCall

/-- A number of a JSON text. -/
inductive JsonNumber where
  | integer (value : Int)
  | binary (negative : Bool) (magnitude : Decimal.Binary64)
deriving DecidableEq, Repr

/-- A JSON value. -/
inductive Json where
  | null
  | bool (value : Bool)
  | number (value : JsonNumber)
  | string (text : String)
  | array (items : List Json)
  | object (members : List (String × Json))

namespace Json

/-- The object with the members; of a repeated name the last one stays. -/
def ofMembers (members : List (String × Json)) : Json :=
  .object (Entries.ofList members)

/-- Whether the value is an object. -/
def isObject : Json → Bool
  | .object _ => true
  | _ => false

end Json

/-- Numbers are written positionally from `10 ^ (-5)` up to below `10 ^ 16`. -/
def JsonNumber.layout : Decimal.Notation := ⟨-5, 15⟩

/-- The text of a number. -/
def JsonNumber.render : JsonNumber → List Char
  | .integer value => (Text.integerText value).toList
  | .binary negative magnitude => magnitude.render layout negative

end RemoteCall
