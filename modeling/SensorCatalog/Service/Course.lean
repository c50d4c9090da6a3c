import SensorCatalog.Service.Basic

/-!
# One course of the service

Of the many courses that a service can take, this one is followed when it runs: whoever can move moves at
once, one after the other (`Service.settle`). Time passes only while somebody waits for something
(`Service.waitUntil`), and only then does the timer fire: to wake its thread takes longer than to make the
next call.

The answers are those of the archive. Where the archive takes its time for one, whoever has asked is slow
(`Service.slow`): the others move on, and the answer comes when somebody has waited for so long.
-/

namespace SensorCatalog

namespace Service

/-- One act, with the answers of the archive. -/
def act (s : Service) (a : ServiceAct) : Option Service := s.step s.keeper.world.archive.backend a

/-- The act of somebody in the rebuild that a call runs. -/
def actOf (i : Nat) : Actor → KeeperAct
  | .main => .move i
  | .item j => .item i j

/-- What a call to the keeper may do next, in the order in which it is tried, and how many milliseconds each of
these acts takes. -/
def nextActs (s : Service) (i : Nat) : CallPhase → List (Nat × KeeperAct)
  | .returned _ => []
  | .asleep (.idleUntil _) => [(0, .expire i)]
  | .asleep _ => []
  | .running r => r.actors.map fun a => (((r.asks? a).map s.keeper.world.archive.lag).getD 0, actOf i a)
  | _ => [(0, .move i)]

/-- The next move of a call to the keeper. -/
def moveCall (s : Service) (i : Nat) : Option Service :=
  match s.keeper.calls[i]? with
  | none => none
  | some c => (s.nextActs i c.phase).findSome? fun (lag, a) => if lag = 0 then s.act (.keeper a) else none

/-- The acts that take their time. -/
def slow (s : Service) : List (Nat × KeeperAct) :=
  (s.keeper.calls.zipIdx.flatMap fun (c, i) => s.nextActs i c.phase).filter fun (lag, _) => 0 < lag

/-- The next move of the thread of the timer. It does not fire unless somebody waits. -/
def moveTimer (waiting : Bool) (s : Service) : Option Service :=
  (s.act (.keeper .tick)).filter fun t => waiting || t.keeper.timer.fired == s.keeper.timer.fired

/-- The next move of anybody. -/
def move (waiting : Bool) (s : Service) : Option Service :=
  (s.act (.tell 0)).orElse fun _ =>
  ((List.range s.keeper.calls.length).findSome? s.moveCall).orElse fun _ =>
  (s.moveTimer waiting).orElse fun _ =>
  (s.act .relay).orElse fun _ =>
  (List.range s.closings.length).findSome? fun i => s.act (.close i)

/-- Lets everybody move as far as possible. -/
def settle (waiting : Bool) : (fuel : Nat) → Service → Service
  | 0, s => s
  | fuel + 1, s =>
    match s.move waiting with
    | some s => settle waiting fuel s
    | none => s

/-- An act with all that follows from it. -/
def perform (fuel : Nat) (s : Service) (a : ServiceAct) : Service := settle false fuel ((s.act a).getD s)

/-- Makes a call to the keeper, and lets everybody move. Answers the number of the call. -/
def call (fuel : Nat) (s : Service) (r : Request) : Nat × Service :=
  (s.keeper.calls.length, s.perform fuel (.keeper (.begin r)))

/-- The deadline of a call that sleeps. -/
def deadline? (c : Call) : Option Nat :=
  match c.phase with
  | .asleep (.idleUntil deadline) => some deadline
  | _ => none

/-- The next moment at which something can happen by itself, but not behind `finish`. -/
def nextMoment (s : Service) (finish : Nat) : Nat :=
  let moments := s.keeper.calls.filterMap deadline? ++ s.keeper.timer.deadline.toList ++
    s.slow.map fun (lag, _) => s.keeper.now + milliseconds lag
  (moments.filter fun m => decide (s.keeper.now < m)).foldl min finish

/-- Lets time pass up to the next moment, but not beyond `finish`. Acts that take their time happen if this is
enough for them; else they begin anew. -/
def pass (s : Service) (finish : Nat) : Service :=
  let moment := s.nextMoment finish
  let due := s.slow.filter fun (lag, _) => s.keeper.now + milliseconds lag ≤ moment
  let passed := (s.act (.keeper (.pass (moment - s.keeper.now)))).getD s
  due.foldl (fun s (_, a) => (s.act (.keeper a)).getD s) passed

/-- Waits until a condition holds, but not longer than until `finish`. -/
def waitUntil : (fuel : Nat) → (finish : Nat) → (Service → Bool) → Service → Service
  | 0, _, _, s => s
  | fuel + 1, finish, holds, s =>
    -- Nobody waits for what holds already.
    if holds s then s
    else
      let s := settle true (fuel + 1) s
      if holds s || decide (finish ≤ s.keeper.now) then s
      else waitUntil fuel finish holds (s.pass finish)

/-- Waits for the end of a call. -/
def await (fuel finish : Nat) (s : Service) (i : Nat) : Service :=
  s.waitUntil fuel finish fun s => (s.answer? i).isSome

end Service

end SensorCatalog
