/-!
# Changes of the archive

A `Change` says what happened to the archive, a `ChangeKind` of which of five kinds it is, and
`ChangeKinds` is a set of kinds. Each kind has a place in a word of five bits, and a set of kinds is such
a word.
-/

namespace SensorCatalog

/-- The kinds of changes. -/
inductive ChangeKind where
  /-- A sensor came or was described anew. -/
  | sensorInsertion
  /-- A sensor went. -/
  | sensorDeletion
  /-- An observation came or was replaced. -/
  | observationInsertion
  /-- An observation went. -/
  | observationDeletion
  /-- A result template came or was replaced. -/
  | templateInsertion
  deriving DecidableEq

namespace ChangeKind

def all : List ChangeKind :=
  [sensorInsertion, sensorDeletion, observationInsertion, observationDeletion, templateInsertion]

def name : ChangeKind → String
  | .sensorInsertion => "sensor_insertion"
  | .sensorDeletion => "sensor_deletion"
  | .observationInsertion => "observation_insertion"
  | .observationDeletion => "observation_deletion"
  | .templateInsertion => "result_template_insertion"

/-- The place of the bit of a kind. -/
def place : ChangeKind → Nat
  | .sensorInsertion => 0
  | .sensorDeletion => 1
  | .observationInsertion => 2
  | .observationDeletion => 3
  | .templateInsertion => 4

/-- The word that has the bit of this kind only. -/
def bit (k : ChangeKind) : Nat := Nat.pow 2 k.place

end ChangeKind

/-- A change of the archive. -/
inductive Change where
  /-- A sensor came or was described anew. -/
  | sensorInsertion (procedure : String)
  /-- A sensor went. -/
  | sensorDeletion (procedure : String)
  /-- An observation of a procedure came or was replaced. -/
  | observationInsertion (observation procedure : String)
  /-- An observation of a procedure went. -/
  | observationDeletion (observation procedure : String)
  /-- A result template came or was replaced. -/
  | templateInsertion (template : String)
  deriving DecidableEq

def Change.kind : Change → ChangeKind
  | .sensorInsertion _ => .sensorInsertion
  | .sensorDeletion _ => .sensorDeletion
  | .observationInsertion _ _ => .observationInsertion
  | .observationDeletion _ _ => .observationDeletion
  | .templateInsertion _ => .templateInsertion

/-- A set of kinds. -/
structure ChangeKinds where
  /-- The word with the bits of the kinds in the set. -/
  bits : Fin 32
  deriving DecidableEq

namespace ChangeKinds

def empty : ChangeKinds := ⟨0⟩

def all : ChangeKinds := ⟨31⟩

/-- The kinds whose bits are set in a word; further bits say nothing. -/
def ofBits (bits : Nat) : ChangeKinds := ⟨Fin.ofNat 32 bits⟩

/-- Whether a kind is in the set. -/
def has (ks : ChangeKinds) (k : ChangeKind) : Bool := ks.bits.val.testBit k.place

/-- The kinds of both sets. -/
def union (ks ls : ChangeKinds) : ChangeKinds := ofBits (ks.bits.val ||| ls.bits.val)

def single (k : ChangeKind) : ChangeKinds := ofBits k.bit

/-- The kinds in the set, in the order of their bits. -/
def toList (ks : ChangeKinds) : List ChangeKind := ChangeKind.all.filter ks.has

/-- All kinds are among all kinds. -/
theorem has_all (k : ChangeKind) : all.has k = true := by cases k <;> rfl

/-- None is among none. -/
theorem has_empty (k : ChangeKind) : empty.has k = false := by cases k <;> rfl

/-- A single kind is that kind only. -/
theorem has_single {k l : ChangeKind} : (single k).has l = true ↔ l = k := by
  cases k <;> cases l <;> decide

end ChangeKinds

end SensorCatalog
