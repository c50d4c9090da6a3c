import SensorCatalog.Fault
import SensorCatalog.Settings.Basic
import SensorCatalog.Time.Clock

/-!
# The timer

A `Timer` has at most one deadline. Its thread waits for it, takes it away and fires. Each firing has to be
armed anew: the very first arming may be for now, every other one is for one interval ahead.

Operations on the timer consist of sections (`TimerSection`), each of which nobody can interrupt, and
between which anybody else may come in. `Timer.perform` carries out a section, `Timer.look` is what the
thread of the timer does when it looks at the clock.
-/

namespace SensorCatalog

/-- The greatest interval. -/
def maxInterval : Nat := seconds (maxIntervalMinutes * 60)

/-- Whether an interval is acceptable. -/
def checkInterval (interval : Nat) : Except Fault Unit :=
  if interval = 0 then .error (.setting "update interval must be greater than 0")
  else if maxInterval < interval then
    .error (.setting s!"update interval must be at most {maxIntervalMinutes} minutes")
  else .ok ()

/-- What the thread of a timer is doing. -/
inductive TimerThread where
  /-- There has been none so far. -/
  | absent
  /-- It waits for the deadline. -/
  | waiting
  /-- It has fired, and what it called has not returned. -/
  | firing
  | ended
  deriving DecidableEq

/-- A timer. -/
structure Timer where
  /-- The interval between two firings. -/
  interval : Nat
  /-- When it fires next, if it is armed. -/
  deadline : Option Nat
  /-- Whether it was ever armed. -/
  initialized : Bool
  /-- Whether it is shut down. -/
  shutDown : Bool
  /-- How often it fired. -/
  fired : Nat
  thread : TimerThread
  /-- Whether somebody still has to wait for the end of the thread. -/
  hasThread : Bool
  deriving DecidableEq

/-- A part of an operation that nobody can interrupt. -/
inductive TimerSection where
  /-- Sees to it that there is a thread. -/
  | start
  /-- Sets the deadline; the first one is for now unless a full interval is asked for. -/
  | arm (full : Bool)
  /-- Changes the interval. -/
  | adjust (interval : Nat)
  /-- Takes the deadline away. -/
  | disarm
  /-- Takes the deadline away for good. -/
  | stop
  /-- Takes over the waiting for the end of the thread. -/
  | release
  /-- Waits for the end of the thread. -/
  | join
  deriving DecidableEq

/-- What comes of a section. -/
inductive SectionEnd where
  /-- The operation goes on, first with these sections. -/
  | proceed (more : List TimerSection)
  /-- The operation is refused. -/
  | refuse (f : Fault)
  deriving DecidableEq

namespace Timer

/-- A timer that has not been used. -/
def create (interval : Nat) : Timer := ⟨interval, none, false, false, 0, .absent, false⟩

def isArmed (t : Timer) : Bool := t.deadline.isSome

/-- How far ahead the deadline is set. -/
def delay (t : Timer) (full : Bool) : Nat := if t.initialized || full then t.interval else 0

/-- Carries out a section, for the thread of the timer itself or for another one. `none`: it has to
wait. -/
def perform (now : Nat) (onThread : Bool) (t : Timer) : TimerSection → Option (Timer × SectionEnd)
  | .start =>
    if t.hasThread then some (t, .proceed [])
    else if t.shutDown then some (t, .refuse .closing)
    else some ({ t with thread := .waiting, hasThread := true }, .proceed [])
  | .arm full =>
    if t.shutDown then some (t, .refuse .closing)
    else
      match Clock.after? now (t.delay full) with
      | none =>
        let span := spanText (t.delay full)
        some (t, .refuse (.setting s!"update interval {span} is out of range"))
      | some deadline =>
        some ({ t with initialized := true, deadline := some deadline }, .proceed [])
  | .adjust interval =>
    match checkInterval interval with
    | .error f => some (t, .refuse f)
    | .ok _ =>
      if t.interval = interval then some (t, .proceed [])
      else
        -- Between these sections others may arm or disarm the timer as well.
        some ({ t with interval := interval },
          .proceed (if t.isArmed then [.disarm, .start, .arm false] else []))
  | .disarm => some ({ t with deadline := none }, .proceed [])
  | .stop => some ({ t with deadline := none, shutDown := true }, .proceed [])
  | .release =>
    if t.hasThread then
      -- The thread of the timer cannot wait for its own end.
      some ({ t with hasThread := false }, .proceed (if onThread then [] else [.join]))
    else some (t, .proceed [])
  | .join => if t.thread = .ended then some (t, .proceed []) else none

/-- What the thread does when it looks at the clock: it ends when the timer is shut down, and fires when the
deadline has come. `none`: there is nothing to do for it. -/
def look (now : Nat) (t : Timer) : Option Timer :=
  if t.thread ≠ .waiting then none
  -- However long the deadline is past, a timer that is shut down does not fire.
  else if t.shutDown then some { t with thread := .ended }
  else
    match t.deadline with
    | none => none
    | some deadline =>
      if deadline ≤ now then
        some { t with deadline := none, fired := t.fired + 1, thread := .firing }
      else none

/-- The thread after what it called has returned. -/
def resume (t : Timer) : Timer := { t with thread := .waiting }

end Timer

/-! ### Operations -/

namespace TimerSection

/-- Arms the timer. -/
def schedule : List TimerSection := [.start, .arm false]

/-- Arms the timer for one full interval ahead. -/
def scheduleInterval : List TimerSection := [.start, .arm true]

/-- Changes the interval; an armed timer is armed anew. -/
def setInterval (interval : Nat) : List TimerSection := [.adjust interval]

/-- Disarms the timer. -/
def cancel : List TimerSection := [.disarm]

/-- Shuts the timer down and waits for the end of its thread. -/
def cleanup : List TimerSection := [.stop, .release]

end TimerSection

end SensorCatalog
