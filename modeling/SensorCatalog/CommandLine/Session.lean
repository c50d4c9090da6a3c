import SensorCatalog.Catalog.Text
import SensorCatalog.CommandLine.Arguments
import SensorCatalog.CommandLine.Demo
import SensorCatalog.Service.Course

/-!
# A session of the program

`Session.run` is what the program does with its arguments: it reads the settings, has a catalog of the demo
archive built, deletes a sensor if asked to, and shows or saves the catalog. Reading and saving files, and
telling how long something took, are left to whoever carries out the `Transcript`.
-/

namespace SensorCatalog

/-- A line on the screen. -/
inductive Line where
  | text (s : String)
  /-- How long the first rebuild took. -/
  | firstRebuild
  /-- How long the last rebuild took, and when it was over. -/
  | lastRebuild
  deriving DecidableEq

/-- What a session shows and does. -/
structure Transcript where
  screen : List Line
  /-- The lines among the diagnostics. -/
  diagnostics : List String
  /-- A path, and what is to be saved there, after the lines were shown. -/
  save : Option (String × String)
  /-- The lines on the screen after saving. -/
  ending : List Line
  exit : Nat
  deriving DecidableEq

namespace Transcript

/-- A session that ends with a failure. -/
def failure (screen : List Line) (diagnostics : List String) : Transcript :=
  ⟨screen, diagnostics, none, [], 1⟩

/-- A session in which the program could not be used. -/
def misuse : Transcript :=
  ⟨[], ["error: these arguments cannot be used", "", "Usage: capabilities-cache [OPTIONS]", "",
    "For more information, try '--help'."], none, [], 2⟩

/-- The session when the file cannot be saved. -/
def unsaved (t : Transcript) : Transcript :=
  match t.save with
  | none => t
  | some (path, _) => failure t.screen (t.diagnostics ++ [s!"Error: writing {path}"])

/-- A session that only shows some lines. -/
def showing (lines : List String) : Transcript := ⟨lines.map .text, [], none, [], 0⟩

end Transcript

namespace Session

/-- How the program is used. -/
def usage : List String :=
  ["Capabilities cache controller demo over an in-memory observation store",
    "",
    "Usage: capabilities-cache [OPTIONS]",
    "",
    "Options:",
    "  -c, --config <CONFIG>                ",
    "  -i, --interval <INTERVAL>            Minutes between scheduled rebuilds",
    "  -w, --workers <WORKERS>              ",
    "      --delete-sensor <DELETE_SENSOR>  "
      ++ "Delete this sensor after the first rebuild and wait for the cache to follow",
    "  -o, --output <OUTPUT>                Write the final cache snapshot here instead of stdout",
    "  -v, --verbose...                     ",
    "  -h, --help                           Print help",
    "  -V, --version                        Print version"]

/-- A text with all of its lines moved to the right. -/
def indented (s : String) : String :=
  "\n".intercalate ((s.splitOn "\n").map ("    " ++ ·))

/-- The settings of a session. What the arguments say goes before what the file says. -/
def settings (a : Arguments) (readFile : String → SettingsFile) : Except (List String) Settings := do
  let base ←
    match a.config with
    | none => pure Settings.default
    | some path =>
      match Settings.loadWith path "unreadable" "malformed" (readFile path) with
      | .ok s => pure s
      | .error f => throw [s!"Error: loading {path}", "", "Caused by:", indented f.message]
  let s := { base with minutes := a.interval.getD base.minutes, workers := a.workers.getD base.workers }
  match s.check with
  | .ok _ => pure s
  | .error f => throw ["Error: " ++ f.message]

/-- The state of the catalog, as it is shown. -/
def status (s : Service) : List Line :=
  let k := s.keeper
  let size (c : IdCategory) := toString (k.world.catalog.ids c).size
  [.text "Cache Status", .text (String.ofList (List.replicate 40 '-')),
    .text ("  Health: " ++ k.health.name),
    .text ("  Procedures: " ++ size .procedures),
    .text ("  Offerings: " ++ size .offerings),
    .text ("  Observable properties: " ++ size .properties),
    .text ("  Features: " ++ size .features)]
    ++ (match k.lastReport with
        | none => []
        | some r => .lastRebuild :: r.errors.map fun f => .text ("  [!] " ++ f.message))
    ++ [.text ""]

/-- How long the session waits for a rebuild. -/
def patience : Nat := seconds 30

def hasProcedure (s : Service) (id : String) : Bool :=
  decide (id ∈ s.keeper.world.catalog.ids .procedures)

/-- Deletes a sensor, and waits for the catalog to follow. -/
def delete (fuel : Nat) (s : Service) (id : String) : Service :=
  let s := s.perform fuel (.keeper (.edit (.content (.deleteSensor id))))
  let s := s.waitUntil fuel (s.keeper.now + patience) fun s => !hasProcedure s id
  (s.call fuel .waitIdle).2

/-- Ends a session: shows or saves the catalog, and closes the relay and the keeper. -/
def finish (fuel : Nat) (a : Arguments) (s : Service) (screen : List Line) (diagnostics : List String) :
    Transcript :=
  let catalog := s.keeper.world.catalog.toText
  -- First the relay, so that it asks for no rebuild while the keeper is being closed.
  let s := s.perform fuel .beginClosing
  let (_, s) := s.call fuel .cleanup
  let rebuilds := s.keeper.completed
  let last := Line.text s!"[+] Shut down after {rebuilds} rebuild(s)"
  match a.output with
  | none => ⟨screen ++ [.text catalog, last], diagnostics, none, [], 0⟩
  | some path =>
    ⟨screen, diagnostics, some (path, catalog), [.text s!"[+] Snapshot saved to: {path}", last], 0⟩

/-- What is shown before the service starts. -/
def banner (s : Settings) : List Line :=
  let minutes := s.minutes
  let workers := s.workers
  [.text "Capabilities Cache Controller", .text (String.ofList (List.replicate 50 '=')),
    .text s!"[*] Interval: {minutes} min, workers: {workers}"]

/-- A session with settings. -/
def serve (fuel : Nat) (a : Arguments) (settings : Settings) : Transcript :=
  let head := banner settings
  match Keeper.ofSettings settings { World.initial with archive := Demo.archive } with
  | .error f => Transcript.failure head ["Error: " ++ f.message]
  | .ok k =>
    let (_, s) := (Service.create k).attachRelay.call fuel .start
    -- The first rebuild is due at once.
    let s := s.waitUntil fuel patience fun s => decide (1 ≤ s.keeper.completed)
    if s.keeper.completed = 0 then
      Transcript.failure head ["Error: no cache rebuild finished within " ++ spanText patience]
    else if !s.keeper.initialized then
      Transcript.failure head
        ["Error: initial cache rebuild failed (health: " ++ s.keeper.health.name ++ ")"]
    else
      let screen := head ++ status s ++ [.firstRebuild]
      match a.deleteSensor with
      | none => finish fuel a s screen []
      | some id =>
        if s.keeper.world.archive.content.sensors.contains id then
          let screen := screen ++ [.text s!"[*] Deleted sensor {id}, waiting for cache"]
          let s := delete fuel s id
          if hasProcedure s id then
            Transcript.failure screen [s!"Error: cache still lists {id} after " ++ spanText patience]
          else finish fuel a s (screen ++ status s) []
        else finish fuel a s screen [s!"[!] Unknown sensor: {id}"]

/-- What the program does with its arguments. -/
def run (fuel : Nat) (args : List String) (readFile : String → SettingsFile) : Transcript :=
  match Command.parse args with
  | .misuse => Transcript.misuse
  | .help => Transcript.showing usage
  | .version => Transcript.showing ["capabilities-cache 1.0.0"]
  | .run a =>
    match settings a readFile with
    | .error diagnostics => Transcript.failure [] diagnostics
    | .ok s => serve fuel a s

end Session

end SensorCatalog
