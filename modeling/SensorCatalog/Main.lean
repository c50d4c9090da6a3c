import SensorCatalog.CommandLine.Session
import Std.Time.DateTime.Timestamp

/-!
# The program

Carries out the session that the arguments ask for: reads the settings file, shows the lines, saves the
catalog, and tells how long the session took and when it was over.
-/

namespace SensorCatalog

/-- More acts than any session takes. -/
def sessionFuel : Nat := 1000000000000

/-- The time of day in UTC, so many nanoseconds after the beginning of 1970. -/
def timeSince1970? (nanos : Nat) : Option Timestamp :=
  let days := nanos / seconds 86400
  let second := nanos % seconds 86400 / seconds 1
  let date? := days.repeat (fun d => d.bind Date.next?) (Date.ofParts? 1970 1 1)
  date?.map fun d =>
    ⟨d, Timestamp.hourOf (second / 3600), Timestamp.minuteOf (second / 60),
      Timestamp.secondOf (second % 60), Timestamp.nanosOf nanos⟩

/-- A time as the program shows it. -/
def shownTime (t : Timestamp) : String :=
  String.ofList (t.write.dropLast.map fun c => if c = 'T' then ' ' else c) ++ " UTC"

/-- A span of time in seconds with two places. -/
def shownSpan (span : Nat) : String :=
  let hundredths := (span + milliseconds 5) / milliseconds 10
  toString (hundredths / 100) ++ "." ++ String.ofList (Timestamp.padded 2 (hundredths % 100)) ++ "s"

/-- The text of a line, when something took a span of time and was over at some time. -/
def Line.shown (span : Nat) (finished : Option Timestamp) : Line → String
  | .text s => s
  | .firstRebuild => "[+] Initial rebuild complete in " ++ shownSpan span
  | .lastRebuild => "  Last rebuild: " ++ shownSpan span ++ " at " ++ (finished.map shownTime).getD "-"

/-- What is in the settings file. -/
def readSettings (path : String) : IO SettingsFile := do
  try
    return .ofBytes (← IO.FS.readBinFile path)
  catch
    | .noFileOrDirectory .. => return .absent
    | _ => return .unreadable

/-- What is in the settings file that the arguments name. -/
def readSettingsOf (args : List String) : IO SettingsFile :=
  match Command.parse args with
  | .run ⟨some path, _, _, _, _, _⟩ => readSettings path
  | _ => return .absent

/-- Saves what a session wants to be saved. Answers what is left to be shown of the session. -/
def saveFile (t : Transcript) : IO Transcript := do
  match t.save with
  | none => return t
  | some (path, text) =>
    try
      IO.FS.writeFile path text
      return t
    catch _ => return t.unsaved

end SensorCatalog

open SensorCatalog in
/-- The program. -/
def main (args : List String) : IO UInt32 := do
  let file ← readSettingsOf args
  let begun ← IO.monoNanosNow
  let t ← IO.lazyPure fun _ => Session.run sessionFuel args fun _ => file
  let span := (← IO.monoNanosNow) - begun
  let finished := timeSince1970? (← Std.Time.Timestamp.now).toNanosecondsSinceUnixEpoch.val.toNat
  for line in t.screen do
    IO.println (line.shown span finished)
  let t ← saveFile t
  for line in t.ending do
    IO.println (line.shown span finished)
  for line in t.diagnostics do
    IO.eprintln line
  return UInt32.ofNat t.exit
