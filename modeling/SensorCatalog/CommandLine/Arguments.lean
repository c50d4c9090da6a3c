import SensorCatalog.Number.Numeral

/-!
# Arguments of the command line

`Command.parse` reads the arguments one after the other. An option has a long name and mostly a short one;
its value stands behind an equals sign, directly behind the short name, or in the next argument. Short
names may be run together. Only `-v` may be repeated, and nothing may stand outside of options.

A value in the next argument must not look like an option itself.
-/

namespace SensorCatalog

/-- What is asked for. -/
structure Arguments where
  config : Option String
  /-- The minutes between two rebuilds. -/
  interval : Option Nat
  workers : Option Nat
  /-- The sensor to delete after the first rebuild. -/
  deleteSensor : Option String
  /-- The file that the catalog is written to. -/
  output : Option String
  /-- How often more messages were asked for. -/
  verbosity : Nat
  deriving DecidableEq

/-- What the arguments come to. -/
inductive Command where
  | run (a : Arguments)
  | help
  | version
  /-- Nothing that can be done. -/
  | misuse
  deriving DecidableEq

/-- The options that have a value. -/
inductive ValueOption where
  | config
  | interval
  | workers
  | deleteSensor
  | output
  deriving DecidableEq

/-- The options. -/
inductive OptionName where
  /-- An option that has a value. -/
  | value (o : ValueOption)
  | verbose
  | help
  | version
  deriving DecidableEq

namespace OptionName

/-- The option with a long name. -/
def ofLong? (name : String) : Option OptionName :=
  match name with
  | "config" => some (.value .config)
  | "interval" => some (.value .interval)
  | "workers" => some (.value .workers)
  | "delete-sensor" => some (.value .deleteSensor)
  | "output" => some (.value .output)
  | "verbose" => some .verbose
  | "help" => some .help
  | "version" => some .version
  | _ => none

/-- The option with a short name. -/
def ofShort? (name : Char) : Option OptionName :=
  match name with
  | 'c' => some (.value .config)
  | 'i' => some (.value .interval)
  | 'w' => some (.value .workers)
  | 'o' => some (.value .output)
  | 'v' => some .verbose
  | 'h' => some .help
  | 'V' => some .version
  | _ => none

end OptionName

namespace Arguments

def none : Arguments := ⟨.none, .none, .none, .none, .none, 0⟩

/-- A 64-bit count, with an optional plus sign. -/
def count? (s : String) : Option Nat :=
  let digits := match s.toList with
    | '+' :: cs => cs
    | cs => cs
  match Digit.span digits with
  | ([], _) => .none
  | (ds, []) => if Digit.value ds < wordEnd then some (Digit.value ds) else .none
  | _ => .none

/-- A path, which is not empty. -/
def path? (s : String) : Option String := if s.isEmpty then .none else some s

/-- Sets an option, which must not be set already, to a value that it can have. -/
def set? (a : Arguments) (o : ValueOption) (value : String) : Option Arguments :=
  match o with
  | .config =>
    match a.config, path? value with
    | .none, some p => some { a with config := some p }
    | _, _ => .none
  | .interval =>
    match a.interval, count? value with
    | .none, some n => some { a with interval := some n }
    | _, _ => .none
  | .workers =>
    match a.workers, count? value with
    | .none, some n => some { a with workers := some n }
    | _, _ => .none
  | .deleteSensor =>
    match a.deleteSensor with
    | .none => some { a with deleteSensor := some value }
    | some _ => .none
  | .output =>
    match a.output, path? value with
    | .none, some p => some { a with output := some p }
    | _, _ => .none

end Arguments

/-- What an argument comes to. -/
inductive ArgumentEnd where
  /-- The next argument can be read. -/
  | next (a : Arguments)
  /-- The next argument is the value of an option. -/
  | expects (o : ValueOption) (a : Arguments)
  /-- The rest does not matter. -/
  | stop (c : Command)
  deriving DecidableEq

namespace Command

/-- Sets an option, or gives up. -/
def assign (a : Arguments) (o : ValueOption) (value : String) : ArgumentEnd :=
  match a.set? o value with
  | some a => .next a
  | none => .stop .misuse

/-- Reads short names that are run together. -/
def readShort (a : Arguments) : List Char → ArgumentEnd
  | [] => .next a
  | c :: cs =>
    match OptionName.ofShort? c with
    | none => .stop .misuse
    | some .verbose => readShort { a with verbosity := a.verbosity + 1 } cs
    | some .help => .stop .help
    | some .version => .stop .version
    | some (.value o) =>
      match cs with
      | [] => .expects o a
      | '=' :: value => assign a o (String.ofList value)
      | value => assign a o (String.ofList value)

/-- Reads a long name, with the value if one stands behind an equals sign. -/
def readLong (a : Arguments) (name : String) (value : Option String) : ArgumentEnd :=
  match OptionName.ofLong? name, value with
  | some (.value o), some value => assign a o value
  | some (.value o), none => .expects o a
  | some .verbose, none => .next { a with verbosity := a.verbosity + 1 }
  | some .help, none => .stop .help
  | some .version, none => .stop .version
  | _, _ => .stop .misuse

/-- Splits a text at its first equals sign. -/
def splitValue (cs : List Char) : String × Option String :=
  match cs.dropWhile (· != '=') with
  | [] => (String.ofList cs, none)
  | _ :: value => (String.ofList (cs.takeWhile (· != '=')), some (String.ofList value))

/-- Reads an argument that is no value. -/
def readArgument (a : Arguments) (arg : String) : ArgumentEnd :=
  match arg.toList with
  | '-' :: '-' :: cs => readLong a (splitValue cs).1 (splitValue cs).2
  | '-' :: c :: cs => readShort a (c :: cs)
  | _ => .stop .misuse

/-- Whether an argument looks like an option. A single hyphen does not. -/
def looksLikeOption (arg : String) : Bool :=
  match arg.toList with
  | '-' :: _ :: _ => true
  | _ => false

/-- Reads arguments. Two hyphens end the options, and nothing may stand behind them. -/
def parseFrom (a : Arguments) : List String → Command
  | [] => .run a
  | arg :: rest =>
    if arg = "--" then (if rest.isEmpty then .run a else .misuse)
    else
      match readArgument a arg, rest with
      | .stop c, _ => c
      | .next a, rest => parseFrom a rest
      | .expects _ _, [] => .misuse
      | .expects o a, value :: rest =>
        if looksLikeOption value then .misuse
        else
          match a.set? o value with
          | some a => parseFrom a rest
          | none => .misuse

/-- Reads the arguments of the command line. -/
def parse (args : List String) : Command := parseFrom Arguments.none args

end Command

end SensorCatalog
