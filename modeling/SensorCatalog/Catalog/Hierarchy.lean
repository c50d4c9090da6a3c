import SensorCatalog.Sorted.Map

/-!
# The feature hierarchy

A `Hierarchy` holds, for each feature, the features that it is a part of, and the same relation read from
the other side. The side of the children is never written on its own: `Hierarchy.set` moves one feature,
and `Hierarchy.ofParents` derives the children of a whole relation.

Neither side holds an empty set.
-/

namespace SensorCatalog

/-- A map without its empty sets. -/
def withoutEmpty (m : SortedMap SortedSet) : SortedMap SortedSet := m.filter fun _ s => !s.isEmpty

/-- The set at a key, which is empty where the map has no entry. -/
def setAt (m : SortedMap SortedSet) (k : String) : SortedSet := (m.get? k).getD SortedSet.empty

/-- The map with the set at a key replaced; an empty set leaves no entry. -/
def putSet (m : SortedMap SortedSet) (k : String) (s : SortedSet) : SortedMap SortedSet :=
  if s.isEmpty then m.erase k else m.insert k s

/-- The map with `a` added to the set at a key. -/
def addAt (m : SortedMap SortedSet) (k a : String) : SortedMap SortedSet :=
  m.insert k ((setAt m k).insert a)

/-- The map with `a` taken from the set at a key; an empty set leaves no entry. -/
def removeAt (m : SortedMap SortedSet) (k a : String) : SortedMap SortedSet :=
  match m.get? k with
  | some s => putSet m k (s.erase a)
  | none => m

/-- Features with their parents, and with their children. -/
structure Hierarchy where
  /-- The features that each feature is a part of. -/
  parents : SortedMap SortedSet
  /-- The features that are part of each feature. -/
  children : SortedMap SortedSet
  deriving DecidableEq

namespace Hierarchy

/-- No feature is part of another. -/
def empty : Hierarchy := ⟨SortedMap.empty, SortedMap.empty⟩

/-- Adds a feature to the children of some others. -/
def adopt (feature : String) (children : SortedMap SortedSet) (parents : List String) :
    SortedMap SortedSet :=
  parents.foldl (fun m p => addAt m p feature) children

/-- Takes a feature from the children of some others. -/
def disown (feature : String) (children : SortedMap SortedSet) (parents : List String) :
    SortedMap SortedSet :=
  parents.foldl (fun m p => removeAt m p feature) children

/-- Sets the parents of one feature, and moves it under their children. -/
def set (h : Hierarchy) (feature : String) (parents : SortedSet) : Hierarchy :=
  ⟨putSet h.parents feature parents,
    adopt feature (disown feature h.children (setAt h.parents feature).toList) parents.toList⟩

/-- The hierarchy with the given parents. -/
def ofParents (parents : SortedMap SortedSet) : Hierarchy :=
  let parents := withoutEmpty parents
  -- Each feature is put among the children of all its parents.
  ⟨parents, parents.toList.foldl (fun m e => adopt e.1 m e.2.toList) SortedMap.empty⟩

end Hierarchy

end SensorCatalog
