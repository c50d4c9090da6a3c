import SensorCatalog.Bus.Basic
import SensorCatalog.Fault
import SensorCatalog.Sorted.Map

/-!
# Subscribers that act

An `Audience` is a bus whose subscribers have names and act when a change reaches them: they may subscribe
others, unsubscribe anyone, publish changes of their own, or panic. All they do is noted in a journal.

`Audience.publish` hands a change to the subscriptions that match it at the start, one after the other.
What an earlier subscriber does to the bus, a panic included, does not change who comes later. Publishing
inside of publishing nests, and `fuel` bounds how deep. Every publication has a number, so that the notes
of nested ones can be told apart.
-/

namespace SensorCatalog

/-- What a subscriber does when a change reaches it. -/
inductive Action where
  /-- Breaks off; what comes behind is not done. -/
  | panic (p : Panic)
  /-- Removes the latest subscription made under a name. -/
  | unsubscribe (name : String)
  /-- Subscribes under a name. -/
  | subscribe (name : String) (kinds : ChangeKinds) (actions : List Action)
  /-- Publishes a change. -/
  | publish (change : Change)

/-- A named subscriber. -/
structure Subscriber where
  name : String
  /-- What it does with every change that reaches it. -/
  actions : List Action

/-- What is noted. -/
inductive Note where
  /-- A change reached a subscriber. -/
  | handled (publication subscription : Nat) (name : String) (change : Change)
  /-- A subscriber removed a subscription, or found it removed before. -/
  | unsubscribed (name : String) (removed : Bool)
  /-- A subscriber published a change, which reached so many. -/
  | published (name : String) (delivered : Nat)
  deriving DecidableEq

/-- A bus of named subscribers. -/
structure Audience where
  bus : Bus Subscriber
  /-- The number of the latest subscription under each name. -/
  names : SortedMap Nat
  /-- How many changes have been published. -/
  publications : Nat
  /-- What was noted, in order. -/
  journal : List Note

namespace Audience

def empty : Audience := ⟨Bus.empty, SortedMap.empty, 0, []⟩

/-- Adds a note to the journal. -/
def note (a : Audience) (n : Note) : Audience := { a with journal := a.journal ++ [n] }

/-- Subscribes under a name, which now stands for the new subscription. -/
def subscribe (a : Audience) (name : String) (kinds : ChangeKinds) (actions : List Action) : Audience :=
  { a with bus := a.bus.subscribe kinds ⟨name, actions⟩, names := a.names.insert name a.bus.nextId }

/-- Removes the latest subscription under a name. Answers whether it was still there, and `none` for a
name that was never used. -/
def unsubscribe (a : Audience) (name : String) : Option (Bool × Audience) :=
  (a.names.get? name).map fun id => (a.bus.contains id, { a with bus := a.bus.unsubscribe id })

/-- Publishing a change: the number of subscriptions that it reached, and the audience afterwards. -/
abbrev Publish := Audience → Change → Option (Nat × Audience)

/-- Lets a subscriber act, with a way to publish changes of its own. -/
def act (publish : Publish) (a : Audience) (name : String) : List Action → Option Audience
  | [] => some a
  | .panic _ :: _ => some a
  | .unsubscribe target :: rest =>
    match a.unsubscribe target with
    | none => act publish a name rest
    | some (removed, a) => act publish (a.note (.unsubscribed name removed)) name rest
  | .subscribe other kinds actions :: rest => act publish (a.subscribe other kinds actions) name rest
  | .publish change :: rest =>
    match publish a change with
    | none => none
    | some (delivered, a) => act publish (a.note (.published name delivered)) name rest

/-- Hands a change to some subscriptions in turn. -/
def deliver (publish : Publish) (publication : Nat) (change : Change) (a : Audience) :
    List (Subscription Subscriber) → Option Audience
  | [] => some a
  | s :: rest =>
    let noted := a.note (.handled publication s.id s.subscriber.name change)
    match act publish noted s.subscriber.name s.subscriber.actions with
    | none => none
    | some a => deliver publish publication change a rest

/-- Publishes a change. Answers the number of subscriptions that it reached; `none` when the fuel does not
suffice. -/
def publish : (fuel : Nat) → Publish
  | 0, _, _ => none
  | fuel + 1, a, change =>
    let reached := a.bus.matching change.kind
    (deliver (publish fuel) a.publications change { a with publications := a.publications + 1 }
      reached).map fun a => (reached.length, a)

end Audience

end SensorCatalog
