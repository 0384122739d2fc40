import RemoteCall.Engine
import RemoteCall.Text.Quoted

/-!
# Descriptions of the parts of a server

One-line descriptions of conventions, of their manager, of an API and of an engine, for
diagnostics.
-/

namespace RemoteCall

open Text (quoted describeBool describeList describeRecord)

/-- Describes a convention by its name and whether it can be used. -/
def ManagedConvention.describe (managed : ManagedConvention) : String :=
  describeRecord "ManagedConvention"
    [("name", quoted managed.name), ("usable", describeBool managed.isUsable)]

/-- Describes a manager by its conventions and the name of the default one. -/
def ConventionManager.describe (manager : ConventionManager) : String :=
  describeRecord "ConventionManager"
    [("conventions", describeList (manager.conventions.map ManagedConvention.describe)),
      ("default_name", quoted manager.defaultName)]

/-- Describes an API by its name and the names of its functions. -/
def Api.describe (api : Api) : String :=
  describeRecord "Api"
    [("name", quoted api.name), ("functions", describeList (api.functionNames.map quoted))]

/-- Describes an engine by its parts. -/
def Engine.describe (engine : Engine) : String :=
  describeRecord "Engine"
    [("api", engine.api.describe), ("conventions", engine.conventions.describe),
      ("metrics", describeBool engine.metrics.isSome)]

end RemoteCall
