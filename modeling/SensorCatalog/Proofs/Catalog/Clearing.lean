import SensorCatalog.Proofs.Catalog.Write

/-!
# Clearing the catalog

`Write.clear` has far fewer writes than one might think of, and they are of several kinds: some replace a
category by nothing, some retain no procedure, and one empties both directions of the feature hierarchy. A
category that none of them is about would only be noticed by one who had filled it before.

Each of the writes empties all categories that it changes (`Write.Empties`), so it does no harm that two of
them may be about the same category (`Catalog.makes_void`). What remains is to check that every category is
among those that one of them changes (`Write.clear_covers`). The categories determine the catalog, so it is
the empty one afterwards, and everything else follows from that: what is found there by those who ask
(`Catalog.Vacant`), and what becomes of it by later writes.
-/

namespace SensorCatalog

/-- Nothing is left out of an empty map. -/
theorem withoutEmpty_empty : withoutEmpty SortedMap.empty = SortedMap.empty := rfl

/-- Where no feature has a parent, the hierarchy is empty. -/
theorem Hierarchy.ofParents_empty : Hierarchy.ofParents SortedMap.empty = Hierarchy.empty := rfl

/-! ### Categories that hold nothing -/

/-- A category that holds nothing holds what it is given first. -/
theorem Category.isVoid_iff {k : Category} (v : k.Value) : k.isVoid v = true ↔ v = k.void := by
  cases k with
  | ids _ => exact SortedSet.isEmpty_iff
  | globalEnvelope | globalTime => exact Option.isNone_iff_eq_none
  | _ => exact SortedMap.isEmpty_iff

namespace Catalog

/-- At first no category holds anything. -/
theorem get_empty (k : Category) : empty.get k = k.void := by cases k <;> rfl

/-- **The catalog is empty** if and only if it is the one that everything begins with. -/
theorem isEmpty_iff {c : Catalog} : c.isEmpty = true ↔ c = empty := by
  unfold isEmpty
  rw [List.all_eq_true]
  constructor
  · intro h
    -- from left to right the categories are compared one by one, since each of them is void
    apply Catalog.ext
    intro k
    rw [get_empty]
    exact (Category.isVoid_iff _).1 (h k k.mem_all)
  · rintro rfl k -
    exact (Category.isVoid_iff _).2 (get_empty k)

end Catalog

/-! ### Writes that empty what they change -/

/-- **A write that empties**: whatever the categories held that it changes, they hold nothing afterwards. -/
def Write.Empties (x : Write) : Prop := ∀ c : Catalog, ∀ k ∈ x.categories, (c.write x).get k = k.void

/-- If all writes empty what they change, none of them fills what another one emptied. -/
theorem Catalog.makes_void {ws : List Write} (h : ∀ x ∈ ws, x.Empties) {k : Category}
    (hk : ∃ x ∈ ws, k ∈ x.categories) : Makes (fun c => c.get k) k.void ws := by
  obtain ⟨x, hx, hxk⟩ := hk
  refine ⟨fun y hy => ?_, x, hx, fun c => h x hx c k hxk⟩
  -- a write that does not change the category leaves it void
  by_cases hyk : k ∈ y.categories
  · exact .inr fun c => h y hy c k hyk
  · exact .inl fun c => c.get_write_of_not_mem hyk

namespace Write

/-- An empty set of identifiers leaves none. -/
theorem empties_setIds (k : IdCategory) : (setIds k SortedSet.empty).Empties := by
  intro c j hj
  rw [List.mem_singleton.1 hj]
  exact if_pos rfl

/-- An empty map in place of an association leaves none of it. -/
theorem empties_replace (a : Association) : (replace a SortedMap.empty).Empties := by
  intro c j hj
  rw [List.mem_singleton.1 hj]
  exact (if_pos rfl).trans withoutEmpty_empty

/-- Nobody is left whom the entries could be about. -/
theorem empties_of_mem_retain {x : Write} (h : x ∈ retain SortedSet.empty) : x.Empties := by
  intro c j hj
  rcases mem_retain.1 h with ⟨a, -, rfl⟩ | rfl
  · rw [List.mem_singleton.1 hj]
    -- at each procedure nothing is kept
    apply SortedMap.ext
    intro p
    show Catalog.cell a p (c.write (.retainKeys a SortedSet.empty)) = none
    rw [Catalog.cell_write_retainKeys, if_pos ⟨rfl, SortedSet.not_mem_empty p⟩]
  · rw [List.mem_singleton.1 hj]
    apply SortedMap.ext
    intro p
    show Catalog.time p (c.write (.retainTimes SortedSet.empty)) = none
    rw [Catalog.time_write_retainTimes, if_pos (SortedSet.not_mem_empty p)]

/-- The children of features go with their parents. -/
theorem empties_replaceParents : (replaceParents SortedMap.empty).Empties := by
  intro c j hj
  -- both directions are computed from the parents, of which there are none
  have hwrite : (c.write (.replaceParents SortedMap.empty)).hierarchy = Hierarchy.empty :=
    Hierarchy.ofParents_empty
  rcases List.mem_pair.1 hj with rfl | rfl
  · exact congrArg Hierarchy.parents hwrite
  · exact congrArg Hierarchy.children hwrite

/-- **Each write of those that clear the catalog empties what it changes.** -/
theorem empties_of_mem_clear {x : Write} (h : x ∈ clear) : x.Empties := by
  unfold clear at h
  simp only [List.mem_append, List.mem_map, List.mem_cons, List.not_mem_nil, or_false] at h
  -- in the order in which the categories are cleared
  rcases h with ((⟨k, -, rfl⟩ | ⟨a, -, rfl⟩) | h) | rfl | rfl | rfl | rfl | rfl | rfl
  · exact empties_setIds k
  · exact empties_replace a
  · exact empties_of_mem_retain h
  · exact empties_replaceParents
  -- the others set a single category to nothing
  all_goals
    intro c j hj
    rw [List.mem_singleton.1 hj]
    rfl

/-- **None of the thirty categories is forgotten.** -/
theorem clear_covers (k : Category) : ∃ x ∈ clear, k ∈ x.categories := by
  -- which write it is can be looked up for each of the thirty
  have hall : ∀ k ∈ Category.all, ∃ x ∈ clear, k ∈ x.categories := by decide
  exact hall k k.mem_all

end Write

/-! ### The catalog afterwards -/

namespace Catalog

/-- **What is found in a catalog by whoever asks**, when there is nothing in it. -/
structure Vacant (c : Catalog) : Prop where
  /-- No category holds anything. -/
  get : ∀ k, c.get k = k.void
  /-- One who asks whether the catalog is empty is told so. -/
  isEmpty : c.isEmpty = true
  /-- No identifier is in any of the sets. -/
  ids : ∀ k id, id ∉ c.ids k
  /-- Nothing is associated with anything. -/
  related : ∀ a key, c.related a key = SortedSet.empty
  /-- No feature is part of another. -/
  parents : ∀ feature, setAt c.hierarchy.parents feature = SortedSet.empty
  /-- No feature has another as its part. -/
  children : ∀ feature, setAt c.hierarchy.children feature = SortedSet.empty
  components : ∀ composite, c.components.get? composite = none
  globalEnvelope : c.globalEnvelope = none
  offeringEnvelopes : ∀ offering, c.offeringEnvelopes.get? offering = none
  globalTime : c.globalTime = none
  offeringTimes : ∀ offering, c.offeringTimes.get? offering = none
  procedureTimes : ∀ procedure, c.procedureTimes.get? procedure = none
  /-- Nothing is known of any procedure. -/
  entry : ∀ procedure, c.entry procedure = Entry.empty

/-- There is nothing in the empty catalog for anybody. -/
theorem vacant_empty : Vacant empty where
  get := get_empty
  isEmpty := isEmpty_iff.2 rfl
  ids _ id := SortedSet.not_mem_empty id
  related _ _ := rfl
  parents _ := rfl
  children _ := rfl
  components _ := rfl
  globalEnvelope := rfl
  offeringEnvelopes _ := rfl
  globalTime := rfl
  offeringTimes _ := rfl
  procedureTimes _ := rfl
  entry _ := rfl

/-- **Nothing of what was there is left.** -/
theorem writeAll_clear (c : Catalog) : c.writeAll Write.clear = empty := by
  apply Catalog.ext
  intro k
  -- every write leaves it void or as it is, and one of them makes it void
  have hmakes := makes_void (fun x hx => Write.empties_of_mem_clear hx) (Write.clear_covers k)
  calc (c.writeAll Write.clear).get k = k.void := hmakes.view_eq c
    _ = empty.get k := (get_empty k).symm

/-- **Clearing.** Whatever the catalog holds, it is vacant once it has been cleared. In every category, what
later writes make of it is what they make of a catalog in which there never was anything. -/
theorem clearing_forgets_all (c : Catalog) :
    Vacant (c.writeAll Write.clear) ∧
      ∀ (ws : List Write) (k : Category),
        ((c.writeAll Write.clear).writeAll ws).get k = (empty.writeAll ws).get k := by
  rw [writeAll_clear]
  exact ⟨vacant_empty, fun _ _ => rfl⟩

end Catalog

end SensorCatalog
