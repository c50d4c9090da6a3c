import SensorCatalog.Bus.Basic
import SensorCatalog.Keeper.Step
import SensorCatalog.Relay.Basic

/-!
# The whole service

A `Service` is a keeper, a bus on which the changes of the archive are told, and a relay between the two:
changes of the archive come to the relay over the bus, and the relay has the keeper rebuild the catalog.

An edit of the archive and telling of it are two acts, with room for others in between. `Service.step` is
one act of anybody.
-/

namespace SensorCatalog

/-- Who listens on the bus. -/
inductive Listener where
  | relay
  /-- Somebody who only listens. -/
  | observer
  deriving DecidableEq

/-- The whole service. -/
structure Service where
  /-- The keeper, with the archive and the catalog. -/
  keeper : Keeper
  bus : Bus Listener
  /-- Whether the changes of the archive are told on the bus. -/
  attached : Bool
  relay : Relay
  /-- The subscription of the relay. -/
  subscription : Option Nat
  /-- The call to the keeper that the thread of the relay makes. -/
  hook : Option Nat
  /-- What is left of closing the relay, for each who does so. -/
  closings : List (List RelaySection)

/-- What can happen. -/
inductive ServiceAct where
  /-- An act of the keeper, its callers, its timer, the clock, or somebody who edits the archive. -/
  | keeper (a : KeeperAct)
  /-- One of those who edited the archive tells of it. -/
  | tell (i : Nat)
  /-- Somebody tells a change. -/
  | publish (c : Change)
  /-- The thread of the relay goes on. -/
  | relay
  /-- Somebody begins to close the relay. -/
  | beginClosing
  /-- Somebody who closes the relay goes on. -/
  | close (i : Nat)

namespace Service

/-- A relay that is not there. -/
def noRelay : Relay := { Relay.create with subscribed := false, canOrder := false, hasThread := false }

/-- The service of a keeper, without a relay. -/
def create (k : Keeper) : Service := ⟨k, Bus.empty, false, noRelay, none, none, []⟩

/-- Puts a relay between the archive and the keeper. -/
def attachRelay (s : Service) : Service :=
  { s with
    bus := s.bus.subscribe ChangeKinds.all .relay
    attached := true
    relay := Relay.create
    subscription := some s.bus.nextId
    hook := none }

/-- Puts somebody on the bus who only listens. -/
def attachObserver (s : Service) : Service :=
  { s with bus := s.bus.subscribe ChangeKinds.all .observer, attached := true }

/-- Those whom a change reaches. -/
def reached (s : Service) (c : Change) : List Listener := (s.bus.matching c.kind).map (·.subscriber)

/-- Tells a change on the bus. -/
def publish (s : Service) (c : Change) : Service :=
  { s with
    relay := (s.reached c).foldl (fun r l => if l = .relay then r.tell c else r) s.relay }

/-- What a call to the keeper got, if it is over. -/
def answer? (s : Service) (i : Nat) : Option Answer :=
  match s.keeper.calls[i]? with
  | some ⟨.returned a, _⟩ => some a
  | _ => none

/-- What the call of the relay came to. -/
def outcomeOf : Answer → RelayOutcome
  | .refused f => .fault f
  | _ => .ok

/-- The next act of the thread of the relay. For a change it asks the keeper for a rebuild that begins
after the one that is running. -/
def moveRelay (s : Service) : Option Service :=
  match s.relay.phase, s.hook with
  | .calling _, none =>
    some { s with
      keeper := s.keeper.addCall ((Request.trigger .runAfterCurrent).phase s.keeper.now) false
      hook := some s.keeper.calls.length }
  | .calling _, some i =>
    match s.answer? i with
    | none => none
    | some a => some { s with relay := s.relay.finish (outcomeOf a), hook := none }
  | _, _ => s.relay.take.map fun relay => { s with relay }

/-- The next section of one who closes the relay. -/
def moveClosing (s : Service) (i : Nat) : Option Service :=
  match s.closings[i]? with
  | some (x :: rest) =>
    (s.relay.close x).map fun (relay, more) =>
      { s with
        relay
        bus := match x, s.subscription with
          | .unsubscribe, some id => s.bus.unsubscribe id
          | _, _ => s.bus
        closings := s.closings.set i (more ++ rest) }
  | _ => none

/-- Tells the change that is in the given place among those that are untold. -/
def tellUntold (s : Service) (i : Nat) : Option Service :=
  match s.keeper.world.untold[i]? with
  | none => none
  | some c =>
    let world := { s.keeper.world with untold := s.keeper.world.untold.eraseIdx i }
    let s := { s with keeper := { s.keeper with world } }
    -- Without a bus nobody hears of it.
    some (if s.attached then s.publish c else s)

/-- One act, with the given answers of the archive; `none` when it cannot happen now. -/
def step (b : Backend) (s : Service) : ServiceAct → Option Service
  | .keeper a => (s.keeper.step b a).map fun keeper => { s with keeper }
  | .tell i => s.tellUntold i
  | .publish c => some (s.publish c)
  | .relay => s.moveRelay
  | .beginClosing => some { s with closings := s.closings ++ [RelaySection.shutdown] }
  | .close i => s.moveClosing i

end Service

end SensorCatalog
