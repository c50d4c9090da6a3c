import SensorCatalog.Fault
import SensorCatalog.Json.Reader
import SensorCatalog.Json.Writer
import SensorCatalog.Settings.LogLevel

/-!
# Settings

`Settings` say how often the catalog is rebuilt, on how many threads, and how much is told about it. They
are kept in a file as an object with three members, each of which may be left out.

`Settings.check` decides whether settings are acceptable, `Settings.load` reads a file and checks what it
says, and `Settings.loadOrDefault` falls back on the defaults when that fails for any reason.
-/

namespace SensorCatalog

/-- The greatest update interval in minutes: a leap year. -/
def maxIntervalMinutes : Nat := 366 * 24 * 60

/-- How the catalog is kept. -/
structure Settings where
  /-- The minutes between two rebuilds. -/
  minutes : Nat
  workers : Nat
  /-- The name of the level of messages. -/
  level : String
  deriving DecidableEq

/-- What is found at the path of a settings file. -/
inductive SettingsFile where
  | absent
  /-- Something that holds no text. -/
  | unreadable
  | text (s : String)

/-- A file with these bytes. -/
def SettingsFile.ofBytes (bytes : ByteArray) : SettingsFile :=
  match String.fromUTF8? bytes with
  | some s => .text s
  | none => .unreadable

namespace Settings

/-- The settings where nothing is said. -/
def default : Settings := ⟨120, 5, "info"⟩

/-- The seconds between two rebuilds, as a 64-bit count that stops at its greatest value. -/
def intervalSeconds (minutes : Nat) : Nat := min (minutes * 60) (wordEnd - 1)

/-- Whether settings are acceptable, and if not, the first reason. -/
def check (s : Settings) : Except SettingsFault Unit :=
  if s.minutes = 0 then .error (.invalid "update_interval_minutes must be greater than 0")
  else if maxIntervalMinutes < s.minutes then
    .error (.invalid s!"update_interval_minutes must be at most {maxIntervalMinutes}")
  else if s.workers = 0 then .error (.invalid "worker_threads must be greater than 0")
  else
    match LogLevel.ofName? s.level with
    | none => .error (.invalid ("unknown log_level '" ++ s.level ++ "'"))
    | some _ => .ok ()

/-- The names of the settings in a file. -/
def fieldNames : List String := ["update_interval_minutes", "worker_threads", "log_level"]

def toJson (s : Settings) : Json :=
  Json.record (fieldNames.zip [.ofNat s.minutes, .ofNat s.workers, .ofText s.level])

/-- The text of settings, as it is saved. -/
def toText (s : Settings) : String := s.toJson.toPretty

/-- The file in which settings are saved. -/
def save (s : Settings) : SettingsFile := .ofBytes s.toText.toUTF8

/-- A setting that may be missing. -/
def fieldOr {α : Type} (read : Json → Option α) (default : α) : Option Json → Option α
  | none => some default
  | some j => read j

/-- Reads exchanged settings. They are not checked. -/
def ofJson? (j : Json) : Option Settings :=
  match j.someFields? fieldNames with
  | some [minutes, workers, level] =>
    match fieldOr Json.toCount? default.minutes minutes, fieldOr Json.toCount? default.workers workers,
      fieldOr Json.toText? default.level level with
    | some minutes, some workers, some level => some ⟨minutes, workers, level⟩
    | _, _, _ => none
  | _ => none

/-- Reads the text of settings. They are not checked. -/
def ofText? (s : String) : Option Settings := (Json.read? s).bind ofJson?

/-- Reads a file and checks what it says. The texts of faults that come from outside are given. -/
def loadWith (path fileReason syntaxReason : String) : SettingsFile → Except SettingsFault Settings
  | .absent => .error (.missing path)
  | .unreadable => .error (.file fileReason)
  | .text s =>
    match ofText? s with
    | none => .error (.malformed syntaxReason)
    | some settings =>
      match settings.check with
      | .ok _ => .ok settings
      | .error f => .error f

/-- Reads a file and checks what it says. -/
def load : SettingsFile → Except SettingsFault Settings := loadWith "" "" ""

/-- The settings of a file, or the defaults when there are no acceptable ones in it. -/
def loadOrDefault (file : SettingsFile) : Settings :=
  match load file with
  | .ok s => s
  | .error _ => default

end Settings

end SensorCatalog
