import SensorCatalog.Change

/-!
# The bus

A `Bus` holds subscriptions in the order in which they were made. Each has a number of its own, counted
from 1 and never given twice, the kinds of changes it is for, and a subscriber of any type `α`.

`Bus.matching` is whom a change reaches: it is looked up once, when the change is published, and stays the
answer whatever happens to the bus afterwards.
-/

namespace SensorCatalog

variable {α : Type}

structure Subscription (α : Type) where
  id : Nat
  /-- The kinds of changes it is for. -/
  kinds : ChangeKinds
  subscriber : α

/-- The subscriptions, and the number of the next one. -/
structure Bus (α : Type) where
  /-- The subscriptions in the order in which they were made. -/
  subscriptions : List (Subscription α)
  /-- The number that the next subscription gets. -/
  nextId : Nat

namespace Bus

def empty : Bus α := ⟨[], 1⟩

instance : Inhabited (Bus α) := ⟨empty⟩

/-- Adds a subscription, with `nextId` as its number. -/
def subscribe (b : Bus α) (kinds : ChangeKinds) (subscriber : α) : Bus α :=
  ⟨b.subscriptions ++ [⟨b.nextId, kinds, subscriber⟩], b.nextId + 1⟩

def contains (b : Bus α) (id : Nat) : Bool := b.subscriptions.any fun s => s.id == id

/-- Removes the subscription with this number, if there is one. -/
def unsubscribe (b : Bus α) (id : Nat) : Bus α :=
  { b with subscriptions := b.subscriptions.filter fun s => s.id != id }

/-- The subscriptions that a change of this kind reaches, in their order. -/
def matching (b : Bus α) (kind : ChangeKind) : List (Subscription α) :=
  b.subscriptions.filter fun s => s.kinds.has kind

def size (b : Bus α) : Nat := b.subscriptions.length

end Bus

end SensorCatalog
