import SensorCatalog.Rebuild.Program
import SensorCatalog.Rebuild.World
import SensorCatalog.Rebuild.Collector

/-!
# Work side by side

A `FanOut` is work for a list of procedures, done by several threads at once. Each `Item` opens a session
of its own, works, gives the session back, reports how it went, and counts down the latch on which the
one who wants all of it done is waiting. Whatever happens to one item, the others go on.

`FanOut.step` moves one item by one act that nobody can interrupt. Which item moves is free, so every
interleaving of the items is a list of indices. `FanOut.next?` is one such choice: the first item that is
not through.
-/

namespace SensorCatalog

/-- How far an item is. -/
inductive ItemPhase where
  | waiting
  /-- At work, with a session. -/
  | working (rest : Work)
  /-- The work is over, the session is still open. -/
  | closing (outcome : Outcome Unit)
  /-- No session is open (any more), and the outcome has to be reported. -/
  | reporting (outcome : Outcome Unit)
  /-- The latch has to be counted down. -/
  | leaving
  | gone

/-- The work for one procedure. -/
structure Item where
  procedure : String
  phase : ItemPhase

/-- What a move of an item means for the others. -/
inductive ItemEffect where
  | nothing
  | success
  | failure (f : Fault)
  | countDown

namespace ItemPhase

def isWaiting : ItemPhase → Bool
  | .waiting => true
  | _ => false

def isGone : ItemPhase → Bool
  | .gone => true
  | _ => false

/-- Whether the item occupies a thread. -/
def isActive (p : ItemPhase) : Bool := !p.isWaiting && !p.isGone

/-- How the outcome of the work for a procedure is reported. -/
def effectOf (procedure : String) : Outcome Unit → ItemEffect
  | .ok _ => .success
  | .fault f => .failure (.worker procedure f)
  | .panic p => .failure (.workerPanicked procedure p.message)

/-- The next act of an item; `none` when it is through. -/
def advance (b : Backend) (procedure : String) (work : String → Work) (w : World) :
    ItemPhase → Option (ItemPhase × World × ItemEffect)
  | .waiting =>
    match b.opening with
    | .ok _ => some (.working (work procedure), w.openSession, .nothing)
    | .fault f => some (.reporting (.fault f), w, .nothing)
    | .panic p => some (.reporting (.panic p), w, .nothing)
  | .working .done => some (.closing (.ok ()), w, .nothing)
  | .working (.fail f) => some (.closing (.fault f), w, .nothing)
  | .working (.panic p) => some (.closing (.panic p), w, .nothing)
  | .working (.query q next) => some (.working (next (b.answers q)), w, .nothing)
  | .working (.write x next) => some (.working next, w.write x, .nothing)
  | .closing outcome => some (.reporting outcome, w.closeSession, .nothing)
  | .reporting outcome => some (.leaving, w, effectOf procedure outcome)
  | .leaving => some (.gone, w, .countDown)
  | .gone => none

end ItemPhase

/-- The work for a list of procedures. -/
structure FanOut where
  /-- How many items may be at work at a time. -/
  threads : Nat
  /-- What is to be done for each procedure. -/
  work : String → Work
  items : List Item
  /-- How many items have still to count down. -/
  latch : Nat
  succeeded : Nat
  failed : Nat

namespace FanOut

/-- The work before it begins. -/
def start (threads : Nat) (procedures : List String) (work : String → Work) : FanOut :=
  ⟨threads, work, procedures.map fun p => ⟨p, .waiting⟩, procedures.length, 0, 0⟩

/-- The number of items at work. -/
def active (f : FanOut) : Nat := f.items.countP fun i => i.phase.isActive

/-- Whether everything is done, as far as the one who waits can tell. -/
def isOver (f : FanOut) : Bool := f.latch == 0

/-- Takes note of what a move means for the others. -/
def apply (f : FanOut) (errors : Collector) : ItemEffect → FanOut × Collector
  | .nothing => (f, errors)
  | .success => ({ f with succeeded := f.succeeded + 1 }, errors)
  | .failure e => ({ f with failed := f.failed + 1 }, errors.push e)
  | .countDown => ({ f with latch := f.latch - 1 }, errors)

/-- Moves one item. Faults are added to those collected so far. An item begins only when a thread is free;
`none` when the item cannot move. -/
def step (b : Backend) (i : Nat) (f : FanOut) (errors : Collector) (w : World) :
    Option (FanOut × Collector × World) :=
  match f.items[i]? with
  | none => none
  | some item =>
    -- All threads are taken.
    if item.phase.isWaiting && decide (f.threads ≤ f.active) then none
    else
      match item.phase.advance b item.procedure f.work w with
      | none => none
      | some (phase, w, effect) =>
        let (f, errors) :=
          apply { f with items := f.items.set i { item with phase := phase } } errors effect
        some (f, errors, w)

/-- The first item that is not through. -/
def next? (f : FanOut) : Option Nat := f.items.findIdx? fun i => !i.phase.isGone

/-- Moves the first item that is not through, again and again. The answers are those of the archive. -/
def drive : (fuel : Nat) → FanOut → Collector → World → FanOut × Collector × World
  | 0, f, errors, w => (f, errors, w)
  | fuel + 1, f, errors, w =>
    match f.next?.bind fun i => f.step w.archive.backend i errors w with
    | some (f, errors, w) => drive fuel f errors w
    | none => (f, errors, w)

end FanOut

end SensorCatalog
