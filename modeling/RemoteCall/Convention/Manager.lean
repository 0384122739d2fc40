import RemoteCall.Convention.Managed
import RemoteCall.Http.Request

/-!
# Choosing a convention

A request that names a convention gets that one or none. Any other gets the default
convention if that understands it, and else the first one in order that does.
-/

namespace RemoteCall

/-- The conventions of a server, and the name of the default one. -/
structure ConventionManager where
  conventions : List ManagedConvention
  defaultName : String

namespace ConventionManager

/-- The parameter by which a request names its convention. -/
def conventionParameter : String := "_convention"

/-- The conventions, all usable. -/
def ofConventions (conventions : List Convention) (defaultName : String) : ConventionManager :=
  ⟨conventions.map (fun convention => (ManagedConvention.ofConvention convention).start),
    defaultName⟩

/-- The names of the conventions in order. -/
def names (manager : ConventionManager) : List String :=
  manager.conventions.map ManagedConvention.name

/-- The first convention with the name. -/
def get? (manager : ConventionManager) (name : String) : Option ManagedConvention :=
  manager.conventions.find? (fun managed => managed.name = name)

/-- The first of the conventions that understands a request. -/
def firstMatch (request : Http.Request) :
    List ManagedConvention → RequestContext → Option ManagedConvention × RequestContext
  | [], context => (none, context)
  | managed :: rest, context =>
    match managed.understands request context with
    | (true, context) => (some managed, context)
    | (false, context) => firstMatch request rest context

/-- The order in which conventions are tried: the default one, then the others. -/
def candidates (manager : ConventionManager) : List ManagedConvention :=
  (manager.get? manager.defaultName).toList ++
    manager.conventions.filter (fun managed => managed.name ≠ manager.defaultName)

/-- The convention that a request names. -/
def selectNamed (manager : ConventionManager) (name : String) (request : Http.Request)
    (context : RequestContext) : Except ConventionError ManagedConvention × RequestContext :=
  match manager.get? name with
  | none => (.error (.invalidRequest (.unknownConvention name)), context)
  | some managed =>
    match managed.understands request context with
    | (true, context) => (.ok managed, context)
    | (false, context) => (.error (.invalidRequest (.unsuitableConvention name)), context)

/-- The convention for a request. -/
def select (manager : ConventionManager) (request : Http.Request) (context : RequestContext) :
    Except ConventionError ManagedConvention × RequestContext :=
  match (request.parameter? conventionParameter).filter (· ≠ "") with
  | some name => manager.selectNamed name request context
  | none =>
    match firstMatch request manager.candidates context with
    | (some managed, context) => (.ok managed, context)
    | (none, context) => (.error (.invalidRequest .noConvention), context)

/-- Adds the methods that are not there yet. -/
def addMethods (methods more : List Http.Method) : List Http.Method :=
  more.foldl (fun methods method =>
    if methods.contains method then methods else methods ++ [method]) methods

/-- The methods that a usable convention takes for a request, after `OPTIONS`. -/
def allowedMethods (manager : ConventionManager) (request : Http.Request) : List Http.Method :=
  (manager.conventions.filter ManagedConvention.isUsable).foldl
    (fun methods managed => addMethods methods (managed.methods request)) [Http.Method.options]

/-- Changes the first convention with the name. -/
def modify (manager : ConventionManager) (name : String)
    (change : ManagedConvention → ManagedConvention) : ConventionManager :=
  { manager with conventions := modifyFirst manager.conventions }
where
  /-- Changes the first of the conventions with the name. -/
  modifyFirst : List ManagedConvention → List ManagedConvention
    | [] => []
    | managed :: rest =>
      if managed.name = name then change managed :: rest else managed :: modifyFirst rest

/-- Ends the use of all conventions. -/
def shutDown (manager : ConventionManager) : ConventionManager :=
  { manager with conventions := manager.conventions.map ManagedConvention.close }

end ConventionManager

end RemoteCall
