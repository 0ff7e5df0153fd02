import StoreGateway.Error
import StoreGateway.Text.Blank
import StoreGateway.Text.Numeral

/-!
# Faults in the settings

* `Environment`: the variables that settings are read from;
* `Environment.value?`: a variable that says something;
* `Fault`, `Fault.message`: what can be wrong with a setting.
-/

namespace StoreGateway.Settings

abbrev Environment := String → Option String

/-- A variable without the blanks around it; a variable that is blank counts as not set. -/
def Environment.value? (env : Environment) (name : String) : Option String :=
  (env name).bind fun v => if Text.trimmed v = "" then none else some (Text.trimmed v)

inductive Fault where
  | notNatural (name raw : String) (cause : Text.NumeralError)
  | zeroOutputLimit
  | emptyServiceName
  | emptyKey (entry : String)
  | notPair (entry : String)
  | unknownLevel (level : String)
deriving DecidableEq, Repr

def Fault.message : Fault → String
  | notNatural name raw cause =>
    name ++ " must be a non-negative integer, got '" ++ raw ++ "': " ++ cause.message
  | zeroOutputLimit => "PCS_MAX_OUTPUT_BYTES must be greater than zero"
  | emptyServiceName => "OTEL_SERVICE_NAME cannot be empty"
  | emptyKey entry => "OTEL_RESOURCE_ATTRIBUTES entry '" ++ entry ++ "' has an empty key"
  | notPair entry => "OTEL_RESOURCE_ATTRIBUTES entry '" ++ entry ++ "' is not a key=value pair"
  | unknownLevel level =>
    "unknown log level '" ++ level ++ "', use trace, debug, info, warn or error"

/-- A fault as it reaches the caller. -/
def Fault.toError (f : Fault) : Error :=
  .config f.message

end StoreGateway.Settings
