import SensorCatalog.Rebuild.Run
import SensorCatalog.Rebuild.Standard
import SensorCatalog.Timer.Basic

/-!
# The keeper of the catalog

A `Keeper` rebuilds the catalog: when it is asked to, and whenever its timer fires. At most one rebuild
runs at a time. Whoever asks for another one meanwhile waits, and either is content with the running one
(`TriggerMode.coalesce`) or has another one run after it. A rebuild that is over sets the timer anew.

This module holds what the keeper remembers, and what it makes of the result of a rebuild
(`Keeper.record`). How its callers come and go is `Keeper.Step`.
-/

namespace SensorCatalog

/-- What one does who wants a rebuild while another one is running. -/
inductive TriggerMode where
  /-- Waits for it and is content. -/
  | coalesce
  /-- Waits for it, and then has another one run. -/
  | runAfterCurrent
  deriving DecidableEq

/-- The state of the catalog as seen by its keeper. -/
inductive Health where
  /-- No rebuild is over. -/
  | unknown
  /-- The last rebuild went well. -/
  | healthy
  /-- The last rebuild had faults, or failed while an older catalog remains. -/
  | degraded
  /-- There never was a usable catalog. -/
  | unhealthy
  deriving DecidableEq

def Health.name : Health → String
  | .unknown => "unknown"
  | .healthy => "healthy"
  | .degraded => "degraded"
  | .unhealthy => "unhealthy"

/-- What a caller gets. -/
inductive Answer where
  /-- A rebuild was run, with this report. -/
  | completed (r : Report)
  /-- Another rebuild ended meanwhile. -/
  | coalesced
  /-- The call was refused or failed. -/
  | refused (f : Fault)
  /-- The call did what it should. -/
  | done
  /-- Whether no rebuild is running. -/
  | idle (b : Bool)
  /-- The call broke off: its deadline cannot be shown by the clock. -/
  | broken

/-- What a caller waits for that no rebuild is running. -/
inductive Purpose where
  /-- To have a rebuild. -/
  | trigger (mode : TriggerMode)
  /-- To know it. -/
  | idle
  /-- To know it, until a deadline. -/
  | idleUntil (deadline : Nat)
  /-- To have the keeper closed. -/
  | close
  deriving DecidableEq

/-- What operations on the timer are done for. -/
inductive TimerUse where
  /-- To set it after a rebuild, which has this answer. -/
  | rearm (a : Answer)
  | start
  | adjust
  | close

/-- How far a call is. -/
inductive CallPhase where
  /-- It looks whether a rebuild is running, for the first time or again. -/
  | looking (p : Purpose) (again : Bool)
  /-- It sleeps until no rebuild is running. -/
  | asleep (p : Purpose)
  | running (r : Run)
  /-- Its rebuild is over, and has to be recorded. -/
  | recording (result : Except Fault Report)
  /-- It has to wake those who sleep, and then to set the timer or not. -/
  | announcing (rearm : Bool) (a : Answer)
  | timing (sections : List TimerSection) (use : TimerUse)
  /-- It is about to start the keeper. -/
  | starting
  /-- The keeper could not be started. -/
  | unstarting (f : Fault)
  /-- It is about to close the keeper. -/
  | closing
  | returned (a : Answer)

/-- A call to the keeper. -/
structure Call where
  phase : CallPhase
  /-- Whether it is made by the thread of the timer. -/
  onTimer : Bool

/-- The keeper with its callers and what it works on. -/
structure Keeper where
  steps : List Step
  timer : Timer
  now : Nat
  /-- Whether no rebuild is running. -/
  idle : Bool
  started : Bool
  /-- Whether it is closed or being closed. -/
  shuttingDown : Bool
  /-- Whether a rebuild ever succeeded. -/
  initialized : Bool
  health : Health
  /-- The last rebuild that succeeded. -/
  lastReport : Option Summary
  /-- How many rebuilds are over. -/
  completed : Nat
  /-- All calls, in the order in which they began. -/
  calls : List Call
  /-- The call that the thread of the timer makes. -/
  tick : Option Nat
  /-- The archive and the catalog. -/
  world : World

namespace Keeper

/-- A keeper before its first call. -/
def create (steps : List Step) (interval : Nat) (world : World) : Keeper :=
  ⟨steps, Timer.create interval, 0, true, false, false, false, .unknown, none, 0, [], none, world⟩

/-- A keeper with the given steps, if the interval is acceptable. -/
def ofSteps (steps : List Step) (interval : Nat) (world : World) : Except Fault Keeper :=
  match checkInterval interval with
  | .error f => .error f
  | .ok _ => .ok (create steps interval world)

/-- A keeper that does what settings say, if they are acceptable. -/
def ofSettings (s : Settings) (world : World) : Except Fault Keeper :=
  match s.check with
  | .error f => .error f.toFault
  | .ok _ =>
    match Standard.steps? s.workers with
    | .error f => .error f
    | .ok steps => ofSteps steps (seconds (Settings.intervalSeconds s.minutes)) world

/-- The state of the catalog after a rebuild with this result. -/
def healthAfter (initialized : Bool) : Except Fault Report → Health
  | .ok r => if r.isDegraded then .degraded else .healthy
  | .error (.unusable _) => .unhealthy
  | .error _ => if initialized then .degraded else .unhealthy

/-- The keeper after a rebuild that is over. -/
def record (k : Keeper) (result : Except Fault Report) : Keeper :=
  { k with
    idle := true
    completed := k.completed + 1
    health := healthAfter k.initialized result
    initialized := k.initialized || result.isOk
    lastReport :=
      match result with
      | .ok r => some r.summary
      | .error _ => k.lastReport }

/-- What a caller gets whose rebuild has this result. -/
def answerOf : Except Fault Report → Answer
  | .ok r => .completed r
  | .error f => .refused f

end Keeper

end SensorCatalog
