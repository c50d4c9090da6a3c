import SensorCatalog.Timer.Basic

/-!
# A timer with those who use it

A `Scheduler` is a timer together with the operations on it that are under way, each in a thread of its
own, and a clock. `Scheduler.step` is one act: a section of an operation, a look of the timer's thread at
the clock, the return of what the timer called, or time that passes. Every interleaving is a list of acts.
-/

namespace SensorCatalog

/-- What can be done with a timer. -/
inductive TimerOperation where
  /-- Sees to it that there is a thread. -/
  | start
  | schedule
  | scheduleInterval
  | setInterval (interval : Nat)
  | cancel
  | cleanup
  deriving DecidableEq

/-- The sections of an operation. -/
def TimerOperation.sections : TimerOperation → List TimerSection
  | .start => [.start]
  | .schedule => TimerSection.schedule
  | .scheduleInterval => TimerSection.scheduleInterval
  | .setInterval interval => TimerSection.setInterval interval
  | .cancel => TimerSection.cancel
  | .cleanup => TimerSection.cleanup

/-- An operation on a timer that is under way or over. -/
structure TimerCall where
  operation : TimerOperation
  /-- The sections that are left. -/
  sections : List TimerSection
  /-- Whether it is made by the thread of the timer. -/
  onThread : Bool
  /-- What it answered, when it is over. -/
  result : Option (Except Fault Unit)

/-- A timer with the operations on it. -/
structure Scheduler where
  timer : Timer
  now : Nat
  /-- The operations in the order in which they began. -/
  calls : List TimerCall

/-- What can happen. -/
inductive SchedulerAct where
  /-- An operation begins. -/
  | begin (operation : TimerOperation) (onThread : Bool)
  /-- An operation goes on. -/
  | move (i : Nat)
  /-- The thread of the timer looks at the clock. -/
  | look
  /-- What the timer called comes to its end. -/
  | resume (outcome : CallbackEnd)
  | pass (span : Nat)

namespace TimerCall

/-- An operation that begins. -/
def create (operation : TimerOperation) (onThread : Bool) : TimerCall :=
  ⟨operation, operation.sections, onThread, none⟩

/-- The next section of an operation; `none` when it has to wait or is over. -/
def advance (now : Nat) (t : Timer) (c : TimerCall) : Option (Timer × TimerCall) :=
  match c.result, c.sections with
  | some _, _ => none
  | none, [] => some (t, { c with result := some (.ok ()) })
  | none, s :: rest =>
    match t.perform now c.onThread s with
    | none => none
    | some (t, .refuse f) => some (t, { c with sections := [], result := some (.error f) })
    | some (t, .proceed more) => some (t, { c with sections := more ++ rest })

end TimerCall

namespace Scheduler

/-- A timer that nobody uses. -/
def create (interval : Nat) : Scheduler := ⟨Timer.create interval, 0, []⟩

/-- One act; `none` when it cannot happen now. -/
def step (s : Scheduler) : SchedulerAct → Option Scheduler
  | .begin operation onThread =>
    some { s with calls := s.calls ++ [TimerCall.create operation onThread] }
  | .move i =>
    match s.calls[i]? with
    | none => none
    | some c =>
      match c.advance s.now s.timer with
      | none => none
      | some (t, c) => some { s with timer := t, calls := s.calls.set i c }
  | .look => (s.timer.look s.now).map fun t => { s with timer := t }
  | .resume _ =>
    if s.timer.thread = .firing then some { s with timer := s.timer.resume } else none
  | .pass span => some { s with now := s.now + span }

/-- What an operation answered, if it is over. -/
def result? (s : Scheduler) (i : Nat) : Option (Except Fault Unit) := s.calls[i]?.bind (·.result)

/-- The time that is left until the timer fires, if it is armed. -/
def timeLeft? (s : Scheduler) : Option Nat := s.timer.deadline.map (· - s.now)

end Scheduler

end SensorCatalog
