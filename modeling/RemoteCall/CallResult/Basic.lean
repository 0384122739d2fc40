import RemoteCall.Dictionary
import RemoteCall.Element.Equality

/-!
# Results of calls

A result has an error code unless the call succeeded, parameters, and perhaps a data
section. The empty error code is none.
-/

namespace RemoteCall

/-- The answer of a function. -/
structure CallResult where
  code : Option String
  parameters : Parameters
  data : Option Element

/-- The code for input that breaks the declaration. -/
def invalidRequestCode : String := "_InvalidRequest"

/-- The code for output that breaks the declaration. -/
def invalidResponseCode : String := "_InvalidResponse"

/-- The code of a function that is switched off. -/
def disabledFunctionCode : String := "_DisabledFunction"

/-- The code of a function that broke off. -/
def internalErrorCode : String := "_InternalError"

/-- Whether the code is one that every function may answer with. -/
def isStandardErrorCode (code : String) : Bool :=
  [invalidRequestCode, invalidResponseCode, disabledFunctionCode, internalErrorCode].contains code

namespace CallResult

/-- The result of the parts; the empty error code is none. -/
def make (code : Option String) (parameters : Parameters) (data : Option Element) : CallResult :=
  ⟨Element.nonEmpty code, parameters, data⟩

/-- Success without parameters or data. -/
def success : CallResult :=
  ⟨none, Dictionary.empty, none⟩

/-- A result with an error code only. -/
def error (code : String) : CallResult :=
  make (some code) Dictionary.empty none

/-- Whether the call succeeded. -/
def isSuccess (result : CallResult) : Bool :=
  result.code.isNone

/-- Sets a parameter. An empty value removes it, since it could not be told from an absent
one; the empty name is never set. -/
def setParameter (name value : String) (result : CallResult) : CallResult :=
  { result with
    parameters :=
      if name = "" ∨ value = "" then result.parameters.erase name
      else result.parameters.insert name value }

/-- Sets the data section. -/
def withData (data : Element) (result : CallResult) : CallResult :=
  { result with data := some data }

/-- The value of a parameter. -/
def parameter? (result : CallResult) (name : String) : Option String :=
  result.parameters.get? name

/-- Whether two results have the same code, parameters and data section. -/
def same (a b : CallResult) : Bool :=
  a.code = b.code && a.parameters = b.parameters && a.data == b.data

instance : BEq CallResult := ⟨same⟩

end CallResult

end RemoteCall
