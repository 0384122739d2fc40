import RemoteCall.Config.Basic

/-!
# Rules of configurations

A server must listen somewhere, accept bodies, and offer its default convention. The first
rule that is broken counts.
-/

namespace RemoteCall

/-- How a configuration breaks the rules. -/
inductive ConfigViolation where
  | noListenAddress
  | zeroBodyLimit
  | unknownDefault (name : String)
  | disabledDefault (name : String)
deriving DecidableEq, Repr

/-- What is wrong, in words. -/
def ConfigViolation.message : ConfigViolation → String
  | .noListenAddress => "at least one listen address is required"
  | .zeroBodyLimit => "max_body_size must be greater than zero"
  | .unknownDefault name => s!"unknown default convention \"{name}\""
  | .disabledDefault name => s!"default convention \"{name}\" is disabled"

namespace Config

/-- Checks the rules. -/
def validate (config : Config) : Except ConfigViolation Unit :=
  if config.listenAddresses.isEmpty then .error .noListenAddress
  else if config.maxBodySize = some 0 then .error .zeroBodyLimit
  else if !knownConventions.contains config.defaultConventionName then
    .error (.unknownDefault config.defaultConventionName)
  else if !config.offers config.defaultConventionName then
    .error (.disabledDefault config.defaultConventionName)
  else .ok ()

end Config

end RemoteCall
