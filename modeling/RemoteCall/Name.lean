import RemoteCall.Dictionary
import RemoteCall.Element.Basic

/-!
# Names of functions and parameters

A name is a letter followed by letters, digits, underscores, dots and hyphens, all
ASCII. Functions may also have one of the three names that every API answers; the
parameter name `function` is reserved.
-/

namespace RemoteCall

/-- Whether the character is an ASCII letter. -/
def isLetter (c : Char) : Bool :=
  ('a' ≤ c && c ≤ 'z') || ('A' ≤ c && c ≤ 'Z')

/-- Whether a name may hold the character. -/
def isNameCharacter (c : Char) : Bool :=
  isLetter c || Text.isDigit c || c == '_' || c == '.' || c == '-'

/-- Whether the text is a name. -/
def isName (text : String) : Bool :=
  match text.toList with
  | [] => false
  | c :: rest => isLetter c && rest.all isNameCharacter

/-- The function that does nothing. -/
def noOperation : String := "_NoOp"

/-- The function that reports versions. -/
def getVersion : String := "_GetVersion"

/-- The function that lists the functions. -/
def getFunctionList : String := "_GetFunctionList"

/-- Whether every API answers the function, whatever functions of its own it has. -/
def isMetaFunction (name : String) : Bool :=
  name = noOperation || name = getVersion || name = getFunctionList

/-- What a name is given to. -/
inductive NameKind where
  | function
  | parameter
deriving DecidableEq, Repr

/-- What is named, in a word. -/
def NameKind.word : NameKind → String
  | .function => "function"
  | .parameter => "parameter"

/-- Why a call cannot be formed. -/
inductive RequestError where
  | emptyName (kind : NameKind)
  | invalidName (kind : NameKind) (name : String)
  | reservedName (name : String)
  | dataSectionName (name : String)
deriving DecidableEq, Repr

/-- What is wrong, in words. -/
def RequestError.message : RequestError → String
  | .emptyName kind => s!"{kind.word} name must not be empty"
  | .invalidName kind name =>
    s!"{kind.word} name \"{name}\" does not match the pattern [a-zA-Z][a-zA-Z0-9_.-]*"
  | .reservedName name => s!"parameter name \"{name}\" is reserved"
  | .dataSectionName name =>
    s!"the data section root must be named \"data\", found \"{name}\""

/-- The parameter name that cannot be used. -/
def reservedParameter : String := "function"

/-- Accepts names and the names of meta functions. -/
def checkFunctionName (name : String) : Except RequestError Unit :=
  if name = "" then .error (.emptyName .function)
  else if isMetaFunction name || isName name then .ok ()
  else .error (.invalidName .function name)

/-- Accepts names other than the reserved one. -/
def checkParameterName (name : String) : Except RequestError Unit :=
  if name = "" then .error (.emptyName .parameter)
  else if name = reservedParameter then .error (.reservedName name)
  else if isName name then .ok ()
  else .error (.invalidName .parameter name)

/-- Accepts parameters whose names are all acceptable; the first other name counts. -/
def checkParameterNames (parameters : Parameters) : Except RequestError Unit :=
  parameters.names.forM checkParameterName

/-- A call of one function. -/
structure FunctionRequest where
  function : String
  parameters : Parameters
  data : Option Element

end RemoteCall
