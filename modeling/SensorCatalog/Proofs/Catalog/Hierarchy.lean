import Mathlib
import SensorCatalog.Catalog.Hierarchy

/-!
# Maps without empty sets

A map of sets is read by `setAt`, which does not tell an empty set from none, so a map that holds no empty
set is determined by it. `Found` says that what is found at a key is the set of all `x` with `P x`, and
that there is no entry if there is none (`Found.unique`).

`Hierarchy.ofParents` derives the children from the parents: `found_children` says that they are the same
relation, read from the other side.
-/

namespace SensorCatalog

/-- **What is found at a key** is the set of all with the property `P`, and nothing if there are none. -/
def Found (v : Option SortedSet) (P : String → Prop) : Prop :=
  (∀ x, x ∈ v.getD SortedSet.empty ↔ P x) ∧ v ≠ some SortedSet.empty

variable {P Q : String → Prop}

/-- What is found is determined by the property. -/
theorem Found.unique {u v : Option SortedSet} (hu : Found u P) (hv : Found v P) : u = v := by
  have h : u.getD SortedSet.empty = v.getD SortedSet.empty :=
    SortedSet.ext fun x => (hu.1 x).trans (hv.1 x).symm
  -- `h` leaves open whether an empty set stands for no entry, and neither side holds one
  cases u with
  | none =>
    cases v with
    | none => rfl
    | some t => exact absurd (congrArg some h.symm) hv.2
  | some s =>
    cases v with
    | none => exact absurd (congrArg some h) hu.2
    | some t => exact congrArg some h

/-- It does not matter how the property is put. -/
theorem Found.congr {v : Option SortedSet} (h : Found v P) (hPQ : ∀ x, P x ↔ Q x) : Found v Q :=
  ⟨fun x => (h.1 x).trans (hPQ x), h.2⟩

/-- Nothing is found where nothing has the property. -/
theorem found_none (h : ∀ x, ¬ P x) : Found none P :=
  ⟨fun x => iff_of_false (SortedSet.not_mem_empty x) (h x), by simp⟩

/-- There is an entry if there is something to be found. -/
theorem Found.exists_iff {v : Option SortedSet} (h : Found v P) : (∃ s, v = some s) ↔ ∃ x, P x := by
  constructor
  · rintro ⟨s, rfl⟩
    -- an entry without members would be an empty set, and that is not found
    by_contra hnone
    have hempty : s = SortedSet.empty := SortedSet.ext fun x =>
      iff_of_false (fun hx => hnone ⟨x, (h.1 x).1 hx⟩) (SortedSet.not_mem_empty x)
    exact h.2 (congrArg some hempty)
  · rintro ⟨x, hx⟩
    cases v with
    | none => exact absurd ((h.1 x).2 hx) (SortedSet.not_mem_empty x)
    | some s => exact ⟨s, rfl⟩

/-- What a set leaves in a map: no entry if it is empty. -/
def entryOf (s : SortedSet) : Option SortedSet := if s.isEmpty then none else some s

/-- What a set leaves in a map is found there. -/
theorem found_entryOf {s : SortedSet} (h : ∀ x, x ∈ s ↔ P x) : Found (entryOf s) P := by
  rw [entryOf]
  split
  · rename_i hs
    rw [SortedSet.isEmpty_iff_forall] at hs
    exact found_none fun x hx => hs x ((h x).2 hx)
  · rename_i hs
    refine ⟨h, fun he => hs ?_⟩
    rw [Option.some.inj he]
    rfl

/-- What is put in is an entry, or none if it is empty. -/
theorem get?_putSet (m : SortedMap SortedSet) (k : String) (s : SortedSet) (j : String) :
    (putSet m k s).get? j = if j = k then entryOf s else m.get? j := by
  rw [putSet, entryOf]
  split
  · rw [SortedMap.get?_erase]
  · rw [SortedMap.get?_insert]

/-- What is left out where empty sets are taken out. -/
theorem get?_withoutEmpty (m : SortedMap SortedSet) (k : String) :
    (withoutEmpty m).get? k = (m.get? k).bind entryOf := by
  rw [withoutEmpty, SortedMap.get?_filter]
  cases h : m.get? k with
  | none => rfl
  | some s => cases hs : s.isEmpty <;> simp [entryOf, hs]

/-- Taking out empty sets changes nothing that is read. -/
theorem found_withoutEmpty {m : SortedMap SortedSet} {k : String} (h : ∀ x, x ∈ setAt m k ↔ P x) :
    Found ((withoutEmpty m).get? k) P := by
  rw [get?_withoutEmpty]
  rw [setAt] at h
  cases hm : m.get? k with
  | none =>
    rw [hm] at h
    exact found_none fun x hx => SortedSet.not_mem_empty x ((h x).2 hx)
  | some s =>
    rw [hm] at h
    exact found_entryOf h

/-! ### Adding one by one -/

/-- Adding to the set at a key makes an entry of it. -/
theorem get?_addAt (m : SortedMap SortedSet) (k a j : String) :
    (addAt m k a).get? j = if j = k then some ((setAt m k).insert a) else m.get? j := by
  rw [addAt, SortedMap.get?_insert]

/-- Adding to the set at a key adds one member. -/
theorem mem_setAt_addAt {m : SortedMap SortedSet} {k a j x : String} :
    x ∈ setAt (addAt m k a) j ↔ j = k ∧ x = a ∨ x ∈ setAt m j := by
  rw [setAt, get?_addAt]
  by_cases hj : j = k
  · subst hj
    simp [setAt]
  · simp [hj, setAt]

/-- **No empty set** is held. -/
def HoldsNoEmpty (m : SortedMap SortedSet) : Prop := ∀ k, m.get? k ≠ some SortedSet.empty

/-- An empty map has no entry at all. -/
theorem holdsNoEmpty_empty : HoldsNoEmpty SortedMap.empty := fun k => by simp

/-- Adding leaves no empty set. -/
theorem HoldsNoEmpty.addAt {m : SortedMap SortedSet} (h : HoldsNoEmpty m) (k a : String) :
    HoldsNoEmpty (addAt m k a) := by
  intro j
  rw [get?_addAt]
  split
  · intro he
    -- what was put in is a member
    have : a ∈ (setAt m k).insert a := by simp
    rw [Option.some.inj he] at this
    exact SortedSet.not_mem_empty a this
  · exact h j

/-- In such a map whatever is read at a key is found there. -/
theorem HoldsNoEmpty.found {m : SortedMap SortedSet} (h : HoldsNoEmpty m) {k : String}
    (hP : ∀ x, x ∈ setAt m k ↔ P x) : Found (m.get? k) P :=
  ⟨hP, h k⟩

/-- Adding pair by pair adds all pairs. -/
theorem mem_setAt_foldl_addAt {pairs : List (String × String)} {m : SortedMap SortedSet} {k x : String} :
    x ∈ setAt (pairs.foldl (fun m p => SensorCatalog.addAt m p.1 p.2) m) k ↔
      (k, x) ∈ pairs ∨ x ∈ setAt m k := by
  -- by the pairs, for all maps, since the first one is added to the map that the others meet
  induction pairs generalizing m with
  | nil => simp
  | cons p pairs ih =>
    rw [List.foldl_cons, ih, mem_setAt_addAt, List.mem_cons, Prod.ext_iff]
    constructor
    · rintro (h | h | h)
      · exact .inl (.inr h)
      · exact .inl (.inl h)
      · exact .inr h
    · rintro ((h | h) | h)
      · exact .inr (.inl h)
      · exact .inl h
      · exact .inr (.inr h)

namespace Hierarchy

/-- Whoever is adopted by several parents becomes a child of each. -/
theorem mem_setAt_adopt {feature : String} {parents : List String} {m : SortedMap SortedSet}
    {k x : String} :
    x ∈ setAt (adopt feature m parents) k ↔ k ∈ parents ∧ x = feature ∨ x ∈ setAt m k := by
  rw [adopt]
  induction parents generalizing m with
  | nil => simp
  | cons p parents ih =>
    rw [List.foldl_cons, ih, mem_setAt_addAt, List.mem_cons]
    constructor
    · rintro (h | h | h) <;> simp [h]
    · rintro (⟨h | h, hx⟩ | h) <;> simp [*]

/-- Adopting leaves no empty set. -/
theorem holdsNoEmpty_adopt {feature : String} {parents : List String} {m : SortedMap SortedSet}
    (h : HoldsNoEmpty m) : HoldsNoEmpty (adopt feature m parents) := by
  rw [adopt]
  induction parents generalizing m with
  | nil => exact h
  | cons p parents ih => exact ih (h.addAt p feature)

/-- Where all features are adopted by their parents, the children are the features that name a parent. -/
theorem mem_setAt_foldl_adopt {es : List (String × SortedSet)} {m : SortedMap SortedSet} {k x : String} :
    x ∈ setAt (es.foldl (fun m e => adopt e.1 m e.2.toList) m) k ↔
      (∃ s, (x, s) ∈ es ∧ k ∈ s) ∨ x ∈ setAt m k := by
  induction es generalizing m with
  | nil => simp
  | cons e es ih =>
    obtain ⟨f, s⟩ := e
    -- `ih` speaks of the map in which `f` has been adopted by its parents
    rw [List.foldl_cons, ih, mem_setAt_adopt]
    constructor
    · rintro (⟨t, ht, hk⟩ | ⟨hk, rfl⟩ | h)
      · exact .inl ⟨t, List.mem_cons_of_mem _ ht, hk⟩
      · exact .inl ⟨s, List.mem_cons_self, hk⟩
      · exact .inr h
    · rintro (⟨t, ht, hk⟩ | h)
      · rcases List.mem_cons.1 ht with ht | ht
        · cases ht
          exact .inr (.inl ⟨hk, rfl⟩)
        · exact .inl ⟨t, ht, hk⟩
      · exact .inr (.inr h)

/-- Adopting all of them leaves no empty set. -/
theorem holdsNoEmpty_foldl_adopt {es : List (String × SortedSet)} {m : SortedMap SortedSet}
    (h : HoldsNoEmpty m) : HoldsNoEmpty (es.foldl (fun m e => adopt e.1 m e.2.toList) m) := by
  induction es generalizing m with
  | nil => exact h
  | cons e es ih => exact ih (holdsNoEmpty_adopt h)

/-- **The parents of a derived hierarchy** are those that were given. -/
theorem found_parents {m : SortedMap SortedSet} {R : String → String → Prop}
    (h : ∀ f g, g ∈ setAt m f ↔ R f g) (f : String) : Found ((ofParents m).parents.get? f) (R f) :=
  found_withoutEmpty (h f)

/-- **The children of a derived hierarchy** are the same relation, read from the other side. -/
theorem found_children {m : SortedMap SortedSet} {R : String → String → Prop}
    (h : ∀ f g, g ∈ setAt m f ↔ R f g) (g : String) :
    Found ((ofParents m).children.get? g) fun f => R f g := by
  refine (holdsNoEmpty_foldl_adopt holdsNoEmpty_empty).found fun f => ?_
  rw [mem_setAt_foldl_adopt]
  have hf := found_parents h f
  constructor
  · rintro (⟨s, hs, hg⟩ | hx)
    · refine (hf.1 g).1 ?_
      have hs : (ofParents m).parents.get? f = some s := SortedMap.mem_toList.1 hs
      rw [hs]
      exact hg
    · exact absurd hx (SortedSet.not_mem_empty f)
  · intro hR
    -- there is an entry for `f`, since it has a parent
    have hg := (hf.1 g).2 hR
    cases hs : (ofParents m).parents.get? f with
    | none => rw [hs] at hg; exact absurd hg (SortedSet.not_mem_empty g)
    | some s =>
      rw [hs] at hg
      exact .inl ⟨s, SortedMap.mem_toList.2 hs, hg⟩

end Hierarchy

end SensorCatalog
