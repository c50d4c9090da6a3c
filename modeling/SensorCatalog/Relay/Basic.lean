import SensorCatalog.Change
import SensorCatalog.Fault

/-!
# The relay of changes

A `Relay` takes the changes that are told on a bus and has the catalog rebuilt. It has a queue and a thread.
The thread takes a change from the queue, then all others that are already there, and makes one call for
the last of them. So changes that come while a rebuild is running are folded into the next one.

`Relay.step` is one act of the thread or of those who tell changes. What a call comes to is part of the act
that ends it (`RelayOutcome`). Closing the relay consists of sections (`RelaySection`).
-/

namespace SensorCatalog

/-- What stands in the queue. -/
inductive Message where
  | change (c : Change)
  | shutdown
  deriving DecidableEq

/-- What the thread of a relay is doing. -/
inductive RelayPhase where
  | receiving
  /-- It takes what is already there; the last change so far is this one. -/
  | draining (latest : Change)
  /-- It makes a call for this change. -/
  | calling (c : Change)
  | ended
  deriving DecidableEq

/-- What a call comes to. -/
inductive RelayOutcome where
  | ok
  | fault (f : Fault)
  | panic (p : Panic)
  deriving DecidableEq

/-- A part of closing a relay that nobody can interrupt. -/
inductive RelaySection where
  /-- Takes the relay from the bus. -/
  | unsubscribe
  | order
  /-- Takes over the waiting for the end of the thread. -/
  | release
  /-- Waits for the end of the thread. -/
  | join
  deriving DecidableEq

/-- The relay. -/
structure Relay where
  /-- The messages that the thread has not taken, the oldest first. -/
  queue : List Message
  phase : RelayPhase
  /-- How many changes it was told. -/
  received : Nat
  /-- How many calls succeeded. -/
  rebuilds : Nat
  /-- How many calls failed. -/
  failures : Nat
  /-- Whether it is on the bus. -/
  subscribed : Bool
  /-- Whether the order to end can still be given. -/
  canOrder : Bool
  /-- Whether somebody still has to wait for the end of the thread. -/
  hasThread : Bool
  deriving DecidableEq

/-- What can happen. -/
inductive RelayAct where
  /-- The relay is told a change. -/
  | tell (c : Change)
  /-- The thread takes a message, or finds that there is none. -/
  | take
  /-- The call of the thread returns or breaks off. -/
  | finish (outcome : RelayOutcome)
  /-- The relay is being closed. -/
  | close (s : RelaySection)
  deriving DecidableEq

namespace Relay

/-- A relay on the bus with an empty queue. -/
def create : Relay := ⟨[], .receiving, 0, 0, 0, true, true, true⟩

/-- Puts a message at the end of the queue. Nobody takes it any more when the thread has ended. -/
def send (r : Relay) (m : Message) : Relay :=
  if r.phase = .ended then r else { r with queue := r.queue ++ [m] }

/-- Tells the relay a change. -/
def tell (r : Relay) (c : Change) : Relay := { r with received := r.received + 1 }.send (.change c)

/-- The thread takes a message. In `receiving` it waits for one, in `draining` it goes on to its call when
there is none. -/
def take (r : Relay) : Option Relay :=
  match r.phase, r.queue with
  | .receiving, .change c :: rest => some { r with phase := .draining c, queue := rest }
  | .receiving, .shutdown :: _ => some { r with phase := .ended, queue := [] }
  | .draining _, .change c :: rest => some { r with phase := .draining c, queue := rest }
  -- The change that was to be relayed is dropped.
  | .draining _, .shutdown :: _ => some { r with phase := .ended, queue := [] }
  | .draining latest, [] => some { r with phase := .calling latest }
  | _, _ => none

/-- The call of the thread is over. A call that was refused because the keeper is being closed counts
neither as success nor as failure. -/
def finish (r : Relay) : RelayOutcome → Relay
  | .ok => { r with phase := .receiving, rebuilds := r.rebuilds + 1 }
  | .fault .closing => { r with phase := .receiving }
  | .fault _ => { r with phase := .receiving, failures := r.failures + 1 }
  | .panic _ => { r with phase := .receiving, failures := r.failures + 1 }

/-- Carries out a section of closing, and says which sections are to follow first. `none`: it has to
wait. -/
def close (r : Relay) : RelaySection → Option (Relay × List RelaySection)
  | .unsubscribe => some ({ r with subscribed := false }, [])
  | .order =>
    if r.canOrder then some ({ r with canOrder := false }.send .shutdown, []) else some (r, [])
  | .release => if r.hasThread then some ({ r with hasThread := false }, [.join]) else some (r, [])
  | .join => if r.phase = .ended then some (r, []) else none

/-- One act; `none` when it cannot happen now. -/
def step (r : Relay) : RelayAct → Option Relay
  | .tell c => some (r.tell c)
  | .take => r.take
  | .finish outcome =>
    match r.phase with
    | .calling _ => some (r.finish outcome)
    | _ => none
  | .close s => (r.close s).map (·.1)

end Relay

/-- The sections of closing a relay. -/
def RelaySection.shutdown : List RelaySection := [.unsubscribe, .order, .release]

end SensorCatalog
