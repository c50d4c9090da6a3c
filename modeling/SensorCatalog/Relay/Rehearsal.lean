import SensorCatalog.Relay.Basic

/-!
# Rehearsing a relay

A `RelayRehearsal` is a relay whose calls go to a stand-in: it notes of what kind the change was, passes a
gate, and comes to what was agreed upon by then. Of the many possible courses the rehearsal follows the one
in which whoever can move moves at once (`RelayRehearsal.settle`).
-/

namespace SensorCatalog

structure RelayRehearsal where
  relay : Relay
  /-- What calls come to. -/
  outcome : RelayOutcome
  /-- Whether calls are held up at the gate. -/
  gateClosed : Bool
  /-- The kinds of the changes that calls were made for. -/
  calls : List ChangeKind
  /-- Whether the present call was noted. -/
  noted : Bool
  /-- What is left of closing the relay, for each who does so. -/
  closings : List (List RelaySection)

namespace RelayRehearsal

def create : RelayRehearsal := ⟨Relay.create, .ok, false, [], false, []⟩

/-- The next section of one who closes the relay. -/
def moveClosing (r : RelayRehearsal) (i : Nat) : Option RelayRehearsal :=
  match r.closings[i]? with
  | some (s :: rest) =>
    (r.relay.close s).map fun (relay, more) =>
      { r with relay, closings := r.closings.set i (more ++ rest) }
  | _ => none

/-- The next move of the thread of the relay. -/
def moveThread (r : RelayRehearsal) : Option RelayRehearsal :=
  match r.relay.phase with
  | .calling c =>
    if !r.noted then some { r with calls := r.calls ++ [c.kind], noted := true }
    else if r.gateClosed then none
    else (r.relay.step (.finish r.outcome)).map fun relay => { r with relay, noted := false }
  | _ => (r.relay.step .take).map fun relay => { r with relay }

/-- The next move of anybody. -/
def move (r : RelayRehearsal) : Option RelayRehearsal :=
  match (List.range r.closings.length).findSome? r.moveClosing with
  | some r => some r
  | none => r.moveThread

/-- Lets everybody move as far as possible. -/
def settle : (fuel : Nat) → RelayRehearsal → RelayRehearsal
  | 0, r => r
  | fuel + 1, r =>
    match r.move with
    | some r => settle fuel r
    | none => r

/-- Tells a change on the bus. Answers how many heard of it. -/
def publish (r : RelayRehearsal) (c : Change) : Nat × RelayRehearsal :=
  if r.relay.subscribed then (1, { r with relay := r.relay.tell c }) else (0, r)

/-- Somebody begins to close the relay. -/
def beginClosing (r : RelayRehearsal) : RelayRehearsal :=
  { r with closings := r.closings ++ [RelaySection.shutdown] }

end RelayRehearsal

end SensorCatalog
