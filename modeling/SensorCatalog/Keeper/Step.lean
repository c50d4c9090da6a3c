import SensorCatalog.Keeper.Basic

/-!
# Calls to the keeper

A call to the keeper is a thread. What it does under the lock of the keeper, or of the timer, nobody can
interrupt; in between others may come in. `Keeper.step` is one such act of one thread, and so every course
that calls, rebuilds, the timer and the clock can take together is a list of acts (`KeeperAct`).

A call that finds a rebuild running falls asleep. It is woken when a rebuild is over, possibly for no
reason, or by the clock if it has a deadline, and looks again. Between the end of a rebuild and the waking
of those who sleep, another rebuild may begin.
-/

namespace SensorCatalog

/-- What can be asked of the keeper. -/
inductive Request where
  | trigger (mode : TriggerMode)
  /-- To begin its work. -/
  | start
  | setInterval (interval : Nat)
  | setMinutes (minutes : Nat)
  /-- To end its work. -/
  | cleanup
  | waitIdle
  /-- To wait so long at most. -/
  | waitIdleFor (span : Nat)

/-- What can happen. -/
inductive KeeperAct where
  | begin (r : Request)
  /-- A call goes on. -/
  | move (i : Nat)
  /-- The work for one procedure goes on, in the rebuild that a call runs. -/
  | item (i j : Nat)
  /-- A call that sleeps wakes for no reason. -/
  | wake (i : Nat)
  /-- A call that sleeps is woken by the clock. -/
  | expire (i : Nat)
  /-- The thread of the timer goes on. -/
  | tick
  | pass (span : Nat)
  | edit (e : Edit)
  /-- Somebody closes or opens the gate. -/
  | gate (closed : Bool)

/-- How a call begins. -/
def Request.phase (now : Nat) : Request → CallPhase
  | .trigger mode => .looking (.trigger mode) false
  | .start => .starting
  | .setInterval interval => .timing (TimerSection.setInterval interval) .adjust
  | .setMinutes minutes =>
    if minutes = 0 then
      .returned (.refused (.setting "update interval must be greater than 0 minutes"))
    else .timing (TimerSection.setInterval (seconds (Settings.intervalSeconds minutes))) .adjust
  | .cleanup => .closing
  | .waitIdle => .looking .idle false
  | .waitIdleFor span =>
    match Clock.after? now span with
    | some deadline => .looking (.idleUntil deadline) false
    | none => .returned .broken

namespace CallPhase

/-- Wakes a call that sleeps. -/
def rouse : CallPhase → CallPhase
  | .asleep p => .looking p true
  | phase => phase

/-- What follows the use of the timer. -/
def afterTiming : TimerUse → Except Fault Unit → CallPhase
  | .rearm a, _ => .returned a
  | .start, .ok _ => .returned .done
  | .start, .error f => .unstarting f
  | .adjust, .ok _ => .returned .done
  | .adjust, .error f => .returned (.refused f)
  | .close, _ => .looking .close false

end CallPhase

namespace Keeper

/-- Puts a call into another phase. -/
def setPhase (k : Keeper) (i : Nat) (phase : CallPhase) : Keeper :=
  { k with calls := k.calls.modify i fun c => { c with phase := phase } }

/-- Adds a call. -/
def addCall (k : Keeper) (phase : CallPhase) (onTimer : Bool) : Keeper :=
  { k with calls := k.calls ++ [⟨phase, onTimer⟩] }

/-- Has a call run a rebuild. -/
def beginRun (k : Keeper) (i : Nat) : Keeper :=
  { k with idle := false }.setPhase i (.running (Run.start k.steps (!k.initialized)))

/-- What a call does when it looks whether a rebuild is running. -/
def look (k : Keeper) (i : Nat) : Purpose → (again : Bool) → Keeper
  | .trigger mode, false =>
    if k.shuttingDown then k.setPhase i (.returned (.refused .closing))
    else if k.idle then k.beginRun i
    else k.setPhase i (.asleep (.trigger mode))
  | .trigger mode, true =>
    -- Whether the keeper is being closed matters only to those who still want a rebuild.
    if !k.idle then k.setPhase i (.asleep (.trigger mode))
    else if mode = .coalesce then k.setPhase i (.returned .coalesced)
    else if k.shuttingDown then k.setPhase i (.returned (.refused .closing))
    else k.beginRun i
  | .idle, _ => k.setPhase i (if k.idle then .returned .done else .asleep .idle)
  | .idleUntil deadline, _ =>
    k.setPhase i (if k.idle then .returned (.idle true) else .asleep (.idleUntil deadline))
  | .close, _ => k.setPhase i (if k.idle then .announcing false .done else .asleep .close)

/-- Wakes all calls that sleep. -/
def rouseAll (k : Keeper) : Keeper :=
  { k with calls := k.calls.map fun c => { c with phase := c.phase.rouse } }

/-- The next section of a use of the timer; `none` when it has to wait. -/
def useTimer (k : Keeper) (i : Nat) (onTimer : Bool) (sections : List TimerSection) (use : TimerUse) :
    Option Keeper :=
  match sections with
  | [] => some (k.setPhase i (CallPhase.afterTiming use (.ok ())))
  | s :: rest =>
    match k.timer.perform k.now onTimer s with
    | none => none
    | some (t, .refuse f) =>
      some ({ k with timer := t }.setPhase i (CallPhase.afterTiming use (.error f)))
    | some (t, .proceed more) => some ({ k with timer := t }.setPhase i (.timing (more ++ rest) use))

/-- The next act of a rebuild; `none` when it is held up. -/
def moveRun (b : Backend) (k : Keeper) (i : Nat) (r : Run) (a : Actor) : Option Keeper :=
  match r.step b k.world a with
  | some (r, w) => some ({ k with world := w }.setPhase i (.running r))
  | none => none

/-- The next act of a call; `none` when it sleeps, is held up or is over. -/
def moveCall (b : Backend) (k : Keeper) (i : Nat) (c : Call) : Option Keeper :=
  match c.phase with
  | .looking p again => some (k.look i p again)
  | .asleep _ => none
  | .running r =>
    match r.result? with
    | some result => some (k.setPhase i (.recording result))
    | none => k.moveRun b i r .main
  | .recording result =>
    -- Whether the timer is set anew is decided here, not when it is done.
    some ((k.record result).setPhase i (.announcing (!k.shuttingDown) (answerOf result)))
  | .announcing rearm a =>
    -- The record has been made, so another rebuild may be running by now.
    some (k.rouseAll.setPhase i
      (if rearm then .timing TimerSection.scheduleInterval (.rearm a) else .returned a))
  | .timing sections use => k.useTimer i c.onTimer sections use
  | .starting =>
    if k.shuttingDown then some (k.setPhase i (.returned (.refused .closing)))
    else if k.started then some (k.setPhase i (.returned .done))
    else some ({ k with started := true }.setPhase i (.timing TimerSection.schedule .start))
  | .unstarting f => some ({ k with started := false }.setPhase i (.returned (.refused f)))
  | .closing =>
    if k.shuttingDown then some (k.setPhase i (.returned .done))
    else some ({ k with shuttingDown := true }.setPhase i (.timing TimerSection.cleanup .close))
  | .returned _ => none

/-- Whether a call is over. -/
def isOver (k : Keeper) (i : Nat) : Bool :=
  match k.calls[i]? with
  | some ⟨.returned _, _⟩ => true
  | _ => false

/-- The next act of the thread of the timer; `none` when it waits. When the timer fires, the thread asks
for a rebuild, and is content with one that is running. -/
def moveTimer (k : Keeper) : Option Keeper :=
  match k.tick with
  | some i =>
    if k.isOver i then some { k with timer := k.timer.resume, tick := none } else none
  | none =>
    match k.timer.look k.now with
    | none => none
    | some t =>
      let k := { k with timer := t }
      if t.thread = .firing then
        some { k.addCall (.looking (.trigger .coalesce) false) true with tick := some k.calls.length }
      else some k

/-- One act, with the given answers of the archive; `none` when it cannot happen now. -/
def step (b : Backend) (k : Keeper) : KeeperAct → Option Keeper
  | .begin r => some (k.addCall (r.phase k.now) false)
  | .move i => k.calls[i]?.bind fun c => k.moveCall b i c
  | .item i j =>
    match k.calls[i]? with
    | some ⟨.running r, _⟩ => k.moveRun b i r (.item j)
    | _ => none
  | .wake i =>
    match k.calls[i]? with
    | some ⟨.asleep p, _⟩ => some (k.setPhase i (.looking p true))
    | _ => none
  | .expire i =>
    match k.calls[i]? with
    | some ⟨.asleep (.idleUntil deadline), _⟩ =>
      if deadline ≤ k.now then some (k.setPhase i (.returned (.idle k.idle))) else none
    | _ => none
  | .tick => k.moveTimer
  | .pass span => some { k with now := k.now + span }
  | .edit e => some { k with world := k.world.edit e }
  | .gate closed => some { k with world := { k.world with gate := { k.world.gate with closed } } }

end Keeper

end SensorCatalog
