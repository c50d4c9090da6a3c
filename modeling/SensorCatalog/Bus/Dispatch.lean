import SensorCatalog.Bus.Basic
import SensorCatalog.Fault

/-!
# Deliveries

A `Delivery` is a change on its way to those whom it reaches. They are told one after the other. A subscriber that is
told a change is at work until it returns or breaks off, and may meanwhile use the bus as it likes. If it publishes a
change of its own, that one is delivered in full before the subscriber goes on, so deliveries nest.

A `Dispatch` is a bus with the deliveries that are under way, and `Dispatch.step` is one act of whoever is at work, or of
the bus itself. What subscribers do is not restricted in any way.
-/

namespace SensorCatalog

variable {α : Type}

/-- A change that is being delivered. -/
structure Delivery (α : Type) where
  /-- The number of the publication. -/
  publication : Nat
  change : Change
  /-- How many subscriptions the change reaches. -/
  reached : Nat
  /-- Those that are still to be told. -/
  pending : List (Subscription α)
  /-- The one whose subscriber is at work. -/
  current : Option (Subscription α)

/-- A bus with the deliveries that are under way. -/
structure Dispatch (α : Type) where
  bus : Bus α
  /-- The innermost delivery first. -/
  deliveries : List (Delivery α)
  /-- How many changes have been published. -/
  publications : Nat

/-- What can happen. -/
inductive DispatchAct (α : Type) where
  | subscribe (kinds : ChangeKinds) (subscriber : α)
  | unsubscribe (id : Nat)
  | publish (change : Change)
  /-- The next subscriber is told the change. -/
  | tell
  /-- The subscriber that is at work comes to its end. -/
  | finish (outcome : CallbackEnd)
  /-- Publishing comes to its end, since everybody was told. -/
  | conclude

namespace Dispatch

def empty : Dispatch α := ⟨Bus.empty, [], 0⟩

/-- Whether somebody is at work who can use the bus: a subscriber, or the one outside of all deliveries. -/
def isAtWork (d : Dispatch α) : Bool :=
  match d.deliveries with
  | [] => true
  | f :: _ => f.current.isSome

/-- Begins to deliver a change. Whom it reaches is looked up now. -/
def publish (d : Dispatch α) (change : Change) : Dispatch α :=
  let reached := d.bus.matching change.kind
  { d with
    deliveries := ⟨d.publications, change, reached.length, reached, none⟩ :: d.deliveries
    publications := d.publications + 1 }

/-- One act; `none` when it cannot happen now. -/
def step (d : Dispatch α) : DispatchAct α → Option (Dispatch α)
  | .subscribe kinds subscriber =>
    if d.isAtWork then some { d with bus := d.bus.subscribe kinds subscriber } else none
  | .unsubscribe id => if d.isAtWork then some { d with bus := d.bus.unsubscribe id } else none
  | .publish change => if d.isAtWork then some (d.publish change) else none
  | .tell =>
    match d.deliveries with
    | ⟨publication, change, reached, s :: pending, none⟩ :: outer =>
      some { d with deliveries := ⟨publication, change, reached, pending, some s⟩ :: outer }
    | _ => none
  | .finish _ =>
    match d.deliveries with
    | ⟨publication, change, reached, pending, some _⟩ :: outer =>
      some { d with deliveries := ⟨publication, change, reached, pending, none⟩ :: outer }
    | _ => none
  | .conclude =>
    match d.deliveries with
    | ⟨_, _, _, [], none⟩ :: outer => some { d with deliveries := outer }
    | _ => none

end Dispatch

end SensorCatalog
