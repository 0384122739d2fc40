import RemoteCall.Convention.Error
import RemoteCall.Http.Request

/-!
# Parameters of requests

Query and form parameters become a dictionary: a repeated name must have one value.
Entries that are empty, or that belong to the framework, never reach a function.
-/

namespace RemoteCall

/-- Enters the pairs one by one; a name must not come with two values. -/
def gatherPairs (parameters : Parameters) :
    List (String × String) → Except RequestFault Parameters
  | [] => .ok parameters
  | (name, value) :: rest =>
    match parameters.get? name with
    | none => gatherPairs (parameters.insert name value) rest
    | some existing =>
      if existing = value then gatherPairs parameters rest else .error (.severalValues name)

/-- The parameters of a request. -/
def gatherParameters (request : Http.Request) : Except RequestFault Parameters :=
  gatherPairs Dictionary.empty request.pairs

/-- Whether an entry may reach a function: neither part is empty, the name is not the
reserved one and does not begin with an underscore. -/
def reachesFunction (name value : String) : Bool :=
  name ≠ "" && value ≠ "" && name ≠ reservedParameter && name.toList.head? ≠ some '_'

/-- The entries that may reach a function. -/
def cleanUp (parameters : Parameters) : Parameters :=
  parameters.filter reachesFunction

/-- The parameters for a function, with acceptable names. -/
def functionParameters (parameters : Parameters) : Except RequestFault Parameters :=
  match checkParameterNames (cleanUp parameters) with
  | .ok _ => .ok (cleanUp parameters)
  | .error e => .error (.nameRule e)

end RemoteCall
