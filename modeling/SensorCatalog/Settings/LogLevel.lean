/-!
# Levels of diagnostic messages

`LogLevel.ofName?` knows the names of the levels in any mix of cases; only letters of the Latin alphabet
have cases here, which is enough as no other letter becomes one of these names. `LogLevel.ofName` takes an
unknown name for `info`.
-/

namespace SensorCatalog

/-- How much is told about the work. -/
inductive LogLevel where
  | off
  | error
  | warn
  | info
  | debug
  | trace
  deriving DecidableEq

namespace LogLevel

/-- The level with a name. -/
def ofName? (name : String) : Option LogLevel :=
  match name.toLower with
  | "off" => some .off
  | "error" => some .error
  | "warn" => some .warn
  | "warning" => some .warn
  | "info" => some .info
  | "debug" => some .debug
  | "trace" => some .trace
  | _ => none

/-- The level with a name; an unknown name stands for `info`. -/
def ofName (name : String) : LogLevel := (ofName? name).getD .info

/-- The level that is meant by asking for more so many times. -/
def ofVerbosity : Nat → LogLevel
  | 0 => .info
  | 1 => .debug
  | _ => .trace

def label : LogLevel → String
  | .off => "OFF"
  | .error => "ERROR"
  | .warn => "WARN"
  | .info => "INFO"
  | .debug => "DEBUG"
  | .trace => "TRACE"

end LogLevel

end SensorCatalog
