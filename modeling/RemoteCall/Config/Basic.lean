import RemoteCall.Convention.Document
import RemoteCall.Convention.Manager
import RemoteCall.Convention.Script
import RemoteCall.Convention.Standard

/-!
# Configurations

A configuration tells a server where to listen, what its API is called, how long it waits,
which conventions it offers and how large a body may be. The standard convention is always
offered; the others can be switched off.
-/

namespace RemoteCall

/-- How long a server waits, in seconds: for a whole body, and between requests. -/
structure Timeouts where
  requestRead : Nat
  idle : Nat
deriving DecidableEq, Repr

/-- Whether requests are counted, and where the counts can be read. -/
structure MetricsSettings where
  enabled : Bool
  address : String
deriving DecidableEq, Repr

/-- The switches of the conventions other than the standard one. -/
structure ConventionSwitches where
  document : Bool := true
  script : Bool := true
deriving DecidableEq, Repr

/-- A configuration as it is written. What is left out has a default value. -/
structure Config where
  listenAddresses : List String
  apiName : String
  timeouts : Timeouts
  metrics : MetricsSettings
  defaultConvention : Option String
  conventions : Option ConventionSwitches
  maxBodySize : Option Nat
  shutdownTimeout : Option Nat
deriving DecidableEq, Repr

namespace Config

/-- The convention that is tried first. -/
def defaultConventionName (config : Config) : String :=
  config.defaultConvention.getD Standard.name

/-- The largest number of bytes of a body. -/
def bodyLimit (config : Config) : Nat :=
  config.maxBodySize.getD (1024 * 1024)

/-- How many seconds open connections may take when the server ends. -/
def shutdownSeconds (config : Config) : Nat :=
  config.shutdownTimeout.getD 30

/-- The switches, all on unless they are written. -/
def switches (config : Config) : ConventionSwitches :=
  config.conventions.getD {}

/-- The names of the conventions that there are. -/
def knownConventions : List String :=
  [Standard.name, Document.name, Script.name]

/-- Whether the convention with a name is offered. -/
def offers (config : Config) (name : String) : Bool :=
  if name = Standard.name then true
  else if name = Document.name then config.switches.document
  else if name = Script.name then config.switches.script
  else false

/-- The conventions that are offered. -/
def offered (config : Config) : List Convention :=
  [Standard.convention, Document.convention, Script.convention].filter
    (fun convention => config.offers convention.name)

end Config

/-- The conventions of a configured server. -/
def ConventionManager.ofConfig (config : Config) : ConventionManager :=
  ConventionManager.ofConventions config.offered config.defaultConventionName

end RemoteCall
