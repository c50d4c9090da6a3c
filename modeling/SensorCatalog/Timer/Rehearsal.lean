import SensorCatalog.Timer.Scheduler

/-!
# Rehearsing a timer

A `TimerRehearsal` is a scheduler whose timer calls something that counts its calls and may itself use the
timer. It follows one of the many possible courses: whoever can move moves at once
(`TimerRehearsal.settle`), and time passes only while somebody waits for something
(`TimerRehearsal.waitUntil`).
-/

namespace SensorCatalog

/-- What the timer calls. -/
structure Callback where
  /-- How many of its calls do something; without a limit all do. -/
  limit : Option Nat
  /-- How they use the timer. -/
  operation : Option TimerOperation
  /-- How they end. -/
  outcome : CallbackEnd

/-- A scheduler in rehearsal. -/
structure TimerRehearsal where
  /-- The scheduler. -/
  scheduler : Scheduler
  /-- What the timer calls. -/
  callback : Callback
  /-- The operation that the present call of the callback carries out. -/
  current : Option Nat
  /-- How many calls of the callback were counted. -/
  counted : Nat

namespace TimerRehearsal

def create (interval : Nat) (callback : Callback) : TimerRehearsal :=
  ⟨Scheduler.create interval, callback, none, 0⟩

/-- The rehearsal after an act of the scheduler, if the act can happen. -/
def act (r : TimerRehearsal) (a : SchedulerAct) : Option TimerRehearsal :=
  (r.scheduler.step a).map fun s => { r with scheduler := s }

/-- Whether the present call of the callback does something. -/
def isWithinLimit (r : TimerRehearsal) : Bool :=
  match r.callback.limit with
  | none => true
  | some limit => decide (r.counted < limit)

/-- The present call of the callback is counted and ends. -/
def endCallback (r : TimerRehearsal) : Option TimerRehearsal :=
  (r.act (.resume (if r.isWithinLimit then r.callback.outcome else .returned))).map fun r =>
    { r with current := none, counted := r.counted + 1 }

/-- The next move of the callback: it begins to use the timer, or it has done so and ends. -/
def moveCallback (r : TimerRehearsal) : Option TimerRehearsal :=
  if r.scheduler.timer.thread = .firing then
    match r.current, if r.isWithinLimit then r.callback.operation else none with
    | none, none => r.endCallback
    | none, some operation =>
      let i := r.scheduler.calls.length
      (r.act (.begin operation true)).map fun r => { r with current := some i }
    | some i, _ =>
      match r.scheduler.result? i with
      | none => none
      | some _ => r.endCallback
  else none

/-- The next move of anybody. -/
def move (r : TimerRehearsal) : Option TimerRehearsal :=
  match (List.range r.scheduler.calls.length).findSome? fun i => r.act (.move i) with
  | some r => some r
  | none =>
    match r.moveCallback with
    | some r => some r
    | none => r.act .look

/-- Lets everybody move as far as possible. -/
def settle : (fuel : Nat) → TimerRehearsal → TimerRehearsal
  | 0, r => r
  | fuel + 1, r =>
    match r.move with
    | some r => settle fuel r
    | none => r

/-- Carries out an operation, with what follows from it. -/
def call (fuel : Nat) (r : TimerRehearsal) (operation : TimerOperation) :
    Option (Except Fault Unit) × TimerRehearsal :=
  let i := r.scheduler.calls.length
  let r := settle fuel ((r.act (.begin operation false)).getD r)
  (r.scheduler.result? i, r)

/-- Lets time pass up to the next deadline that is not behind `finish`, or else to `finish`. -/
def pass (r : TimerRehearsal) (finish : Nat) : TimerRehearsal :=
  let target :=
    match r.scheduler.timer.deadline with
    | some deadline => if r.scheduler.now < deadline then min deadline finish else finish
    | none => finish
  (r.act (.pass (target - r.scheduler.now))).getD r

/-- Waits until a condition holds, but not longer than until `finish`. -/
def waitUntil : (fuel : Nat) → (finish : Nat) → (TimerRehearsal → Bool) → TimerRehearsal →
    TimerRehearsal
  | 0, _, _, r => r
  | fuel + 1, finish, holds, r =>
    let r := settle (fuel + 1) r
    if holds r || decide (finish ≤ r.scheduler.now) then r
    else waitUntil fuel finish holds (r.pass finish)

end TimerRehearsal

end SensorCatalog
