import SensorCatalog.Fault

/-!
# The collector of faults

A `Collector` gathers faults in the order in which they are pushed. All who push share it. `drain` takes
out what has been gathered.
-/

namespace SensorCatalog

/-- The faults gathered so far, in order. -/
structure Collector where
  faults : List Fault
  deriving DecidableEq

namespace Collector

def empty : Collector := ⟨[]⟩

/-- Adds a fault. -/
def push (c : Collector) (f : Fault) : Collector := ⟨c.faults ++ [f]⟩

def size (c : Collector) : Nat := c.faults.length

/-- The texts of the faults. -/
def messages (c : Collector) : List String := c.faults.map Fault.message

/-- The texts of the faults in one line. -/
def summary (c : Collector) : String := "; ".intercalate c.messages

/-- Takes out all faults. -/
def drain (c : Collector) : List Fault × Collector := (c.faults, empty)

end Collector

end SensorCatalog
