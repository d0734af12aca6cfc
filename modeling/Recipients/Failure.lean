/-
# Failures

Resolving a path or a receiver never fails; what is missing is absent. Failures come from registering
policies, from reading and checking a configuration, and from sending a notification. Each has a cause,
and one function words them all.

Key definitions: `ConfigFault`, `Failure`, `Failure.message`.
-/
import Recipients.Json.ReadError
import Recipients.Policy.Registration

namespace Recipients

/-- What is wrong with a configuration that was read. -/
inductive ConfigFault where
  | noSender
  | noTemplate (event : String)
  | nothingToResolve
  deriving DecidableEq

/-- Says what is wrong. -/
def ConfigFault.message : ConfigFault → String
  | noSender => "sender must not be empty"
  | noTemplate event => "notification `" ++ event ++ "` has no template"
  | nothingToResolve => "either --config or --receivers is required"

/-- Why an operation fails. -/
inductive Failure where
  | registration (cause : RegistrationError)
  | unknownEvent (event : String)
  | noReceivers (event : String)
  | transport (reason : String)
  | config (fault : ConfigFault)
  | json (cause : ReadError)
  | io (reason : String)

/-- Says why. -/
def Failure.message : Failure → String
  | registration (.duplicate name) => "determiner `" ++ name ++ "` is already registered"
  | registration (.cycle name) =>
    "adding determiner `" ++ name ++ "` would create a delegation cycle"
  | unknownEvent event => "no notification configured for event `" ++ event ++ "`"
  | noReceivers event => "no receivers resolved for event `" ++ event ++ "`"
  | transport reason => "transport error: " ++ reason
  | config fault => "config error: " ++ fault.message
  | json cause => "invalid JSON: " ++ cause.message
  | io reason => "io error: " ++ reason

end Recipients
