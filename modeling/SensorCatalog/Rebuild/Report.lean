import SensorCatalog.Fault

/-!
# Reports on rebuilds

A `Report` says what a rebuild did: which steps ran and failed, the faults that were collected, and how
many procedures and offerings the catalog has in the end. `Report.verdict` decides whether that is good
enough: the first rebuild has to leave at least one procedure and one offering.
-/

namespace SensorCatalog

/-- A step that was carried out. -/
structure StepMark where
  name : String
  failed : Bool
  deriving DecidableEq

/-- What a rebuild did. -/
structure Report where
  /-- The steps in their order. -/
  steps : List StepMark
  /-- The faults in the order in which they were collected. -/
  errors : List Fault
  procedures : Nat
  offerings : Nat
  deriving DecidableEq

/-- What is kept of a report. -/
structure Summary where
  procedures : Nat
  offerings : Nat
  errors : List Fault
  deriving DecidableEq

namespace Report

def isDegraded (r : Report) : Bool := !r.errors.isEmpty

/-- The steps that failed. -/
def failedSteps (r : Report) : List String := (r.steps.filter (·.failed)).map (·.name)

/-- What is kept of the report. -/
def summary (r : Report) : Summary := ⟨r.procedures, r.offerings, r.errors⟩

/-- Whether the catalog is of use. -/
def isUsable (r : Report) : Bool := r.procedures != 0 && r.offerings != 0

/-- What is wrong with a report on the first rebuild. -/
def unusable (r : Report) : Fault :=
  let p := r.procedures
  let o := r.offerings
  let e := r.errors.length
  .unusable s!"{p} procedure(s), {o} offering(s) after {e} error(s)"

/-- The result of a rebuild with this report. -/
def verdict (firstRun : Bool) (r : Report) : Except Fault Report :=
  if firstRun && !r.isUsable then .error r.unusable else .ok r

end Report

def Summary.isDegraded (s : Summary) : Bool := !s.errors.isEmpty

end SensorCatalog
