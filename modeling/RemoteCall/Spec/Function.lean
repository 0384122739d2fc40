import RemoteCall.Spec.ParamType
import RemoteCall.CallResult.Basic

/-!
# Declarations of functions

A function declares its input and output parameters, combinations of input parameters
that must or must not be set together, and the error codes of its own.
-/

namespace RemoteCall

/-- A declared parameter. -/
structure ParamSpec where
  name : String
  type : ParamType
  required : Bool
deriving DecidableEq, Repr

/-- How many parameters of a combination must be set. -/
inductive ComboKind where
  | exclusiveOr
  | inclusiveOr
  | allOrNone
  | notAll
deriving DecidableEq, Repr

namespace ComboKind

/-- The name of the kind. -/
def name : ComboKind → String
  | .exclusiveOr => "exclusive-or"
  | .inclusiveOr => "inclusive-or"
  | .allOrNone => "all-or-none"
  | .notAll => "not-all"

/-- All kinds. -/
def all : List ComboKind :=
  [.exclusiveOr, .inclusiveOr, .allOrNone, .notAll]

/-- The kind of a name. -/
def ofName? (text : String) : Option ComboKind :=
  all.find? (fun kind => kind.name = text)

/-- Whether the kind admits that `set` of `total` listed parameters are set. -/
def admits (kind : ComboKind) (set total : Nat) : Bool :=
  match kind with
  | .exclusiveOr => set = 1
  | .inclusiveOr => 1 ≤ set
  | .allOrNone => set = 0 || set = total
  | .notAll => set < total

end ComboKind

/-- A constraint on which of the listed parameters are set. -/
structure ParamCombo where
  kind : ComboKind
  params : List String
deriving DecidableEq, Repr

/-- The declaration of a function. -/
structure FunctionSpec where
  name : String
  input : List ParamSpec := []
  output : List ParamSpec := []
  combos : List ParamCombo := []
  errorCodes : List String := []
deriving DecidableEq, Repr

namespace FunctionSpec

/-- The type of the first declaration with the name. -/
def typeIn (declarations : List ParamSpec) (name : String) : Option ParamType :=
  (declarations.find? (fun declaration => declaration.name = name)).map ParamSpec.type

/-- The type of an input parameter. -/
def inputType (spec : FunctionSpec) (name : String) : Option ParamType :=
  typeIn spec.input name

/-- The type of an output parameter. -/
def outputType (spec : FunctionSpec) (name : String) : Option ParamType :=
  typeIn spec.output name

/-- Whether the function may answer with the error code: one of its own or a standard one. -/
def acceptsErrorCode (spec : FunctionSpec) (code : String) : Bool :=
  isStandardErrorCode code || spec.errorCodes.contains code

end FunctionSpec

end RemoteCall
