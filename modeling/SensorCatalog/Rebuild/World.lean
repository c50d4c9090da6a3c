import SensorCatalog.Archive.Basic
import SensorCatalog.Catalog.Write

/-!
# What a rebuild works on

A `World` is the archive with its sessions, the catalog, and a gate at which a step may be held up. All of
it is shared: while a rebuild goes on, others may edit the archive or read the catalog.
-/

namespace SensorCatalog

/-- A gate that steps may have to pass. -/
structure Gate where
  closed : Bool
  /-- How many steps ever came to it. -/
  arrived : Nat
  deriving DecidableEq

/-- What a rebuild works on. -/
structure World where
  archive : Archive
  sessions : Sessions
  catalog : Catalog
  gate : Gate
  /-- The changes of the archive that have still to be told to others, in their order. -/
  untold : List Change

namespace World

/-- The world with an empty archive and an empty catalog. -/
def initial : World := ⟨Archive.empty, Sessions.initial, Catalog.empty, ⟨false, 0⟩, []⟩

instance : Inhabited World := ⟨initial⟩

def write (w : World) (x : Write) : World := { w with catalog := w.catalog.write x }

def edit (w : World) (e : Edit) : World :=
  { w with archive := w.archive.apply e, untold := w.untold ++ (e.change? w.archive).toList }

/-- The world with one more session. -/
def openSession (w : World) : World := { w with sessions := w.sessions.openOne }

/-- The world with one more session, if the archive opens one. -/
def opened (w : World) : Outcome World :=
  match w.archive.backend.opening with
  | .ok _ => .ok w.openSession
  | .fault f => .fault f
  | .panic p => .panic p

/-- The world with one session less. -/
def closeSession (w : World) : World := { w with sessions := w.sessions.closeOne }

/-- The world after a step came to the gate. -/
def arrive (w : World) : World := { w with gate := { w.gate with arrived := w.gate.arrived + 1 } }

end World

end SensorCatalog
