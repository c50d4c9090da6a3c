import SensorCatalog.Time.Clock

/-!
# Count-down latches

A `Latch` is counted down to zero, and lets go all who wait for that. Those who wait are threads: each
looks at the count, falls asleep if it is not zero, and looks again whenever it is woken. It may wake for
no reason. One that waits until a deadline gives up when it is woken by the clock, and then answers
whether the count is zero.

`Latch.step` is one act of one of the threads, or of the clock. A deadline that the clock cannot show makes
the call break off.
-/

namespace SensorCatalog

/-- How far a thread that waits for a latch is. -/
inductive LatchWait where
  /-- About to look at the count. -/
  | looking (deadline : Option Nat)
  | asleep (deadline : Option Nat)
  /-- Back, and whether the count was zero. -/
  | returned (zero : Bool)
  /-- Broken off: the deadline cannot be shown. -/
  | broken
  deriving DecidableEq

/-- A latch with those who wait for it. -/
structure Latch where
  /-- What is left to count down. -/
  count : Nat
  /-- Those who wait or waited. -/
  waits : List LatchWait
  now : Nat
  deriving DecidableEq

/-- What can happen at a latch. -/
inductive LatchAct where
  | countDown
  /-- Someone comes to wait, for a span of time if one is given. -/
  | arrive (span : Option Nat)
  /-- A thread looks at the count. -/
  | look (i : Nat)
  /-- A thread wakes for no reason. -/
  | wake (i : Nat)
  /-- A thread is woken by the clock. -/
  | expire (i : Nat)
  | pass (span : Nat)
  deriving DecidableEq

namespace Latch

/-- A latch with a count, and nobody waiting. -/
def create (count : Nat) : Latch := ⟨count, [], 0⟩

/-- Wakes a thread that sleeps. -/
def rouse : LatchWait → LatchWait
  | .asleep deadline => .looking deadline
  | w => w

/-- Counts down once. At zero nothing is left to count, and reaching zero wakes all who sleep. -/
def countDown (l : Latch) : Latch :=
  match l.count with
  | 0 => l
  | 1 => { l with count := 0, waits := l.waits.map rouse }
  | n + 2 => { l with count := n + 1 }

/-- How a wait begins. -/
def begin (l : Latch) : Option Nat → LatchWait
  | none => .looking none
  | some span =>
    match Clock.after? l.now span with
    | some deadline => .looking (some deadline)
    | none => .broken

/-- Puts one of those who wait into another state. -/
def put (l : Latch) (i : Nat) (w : LatchWait) : Latch := { l with waits := l.waits.set i w }

/-- One act; `none` when it cannot happen now. -/
def step (l : Latch) : LatchAct → Option Latch
  | .countDown => some l.countDown
  | .arrive span => some { l with waits := l.waits ++ [l.begin span] }
  | .look i =>
    match l.waits[i]? with
    | some (.looking deadline) =>
      some (l.put i (if l.count = 0 then .returned true else .asleep deadline))
    | _ => none
  | .wake i =>
    match l.waits[i]? with
    | some (.asleep deadline) => some (l.put i (.looking deadline))
    | _ => none
  | .expire i =>
    match l.waits[i]? with
    | some (.asleep (some deadline)) =>
      if deadline ≤ l.now then some (l.put i (.returned (l.count == 0))) else none
    | _ => none
  | .pass span => some { l with now := l.now + span }

/-- All acts of a list, as far as they can happen. -/
def steps (l : Latch) (acts : List LatchAct) : Latch := acts.foldl (fun l a => (l.step a).getD l) l

/-- Counts down several times, and stops at zero, where counting down changes nothing. -/
def countDowns (l : Latch) (n : Nat) : Latch :=
  (Nat.min n l.count).repeat countDown l

/-- What one gets who comes to wait for a span of time, with nobody counting down meanwhile. -/
def waitFor (l : Latch) (span : Nat) : LatchWait × Latch :=
  let i := l.waits.length
  let l := l.steps [.arrive (some span), .look i, .pass span, .expire i]
  (l.waits.getD i .broken, l)

end Latch

end SensorCatalog
