import SensorCatalog.Catalog.Write
import SensorCatalog.Proofs.Catalog.Hierarchy

/-!
# What every catalog keeps

However a catalog was written, two things hold of it. The children of features are their parents, read from the
other side, and no category that associates identifiers with sets holds an empty set. The second makes reading
unambiguous: an empty answer says that there is no entry (`HoldsNoEmpty.mem_keys_iff`).

* `Hierarchy.Sound` is what the two sides of the feature hierarchy have to do with each other.
  `Hierarchy.Sound.set` is the case that takes an argument: one feature is moved, first from under its old
  parents and then under its new ones, and the old and the new ones may overlap. The feature may also be among
  its own parents.
* `Catalog.Consistent` is kept by each write (`Catalog.Consistent.write`), whichever it is, so it holds after
  any writes (`Catalog.consistent_of_writes`). Operations that consist of several writes, such as
  `Write.entry`, `Write.retain` and `Write.clear`, keep it between any two of them.
-/

namespace SensorCatalog

/-! ### Changing the set at a key -/

variable {m : SortedMap SortedSet} {j k a x : String} {s : SortedSet}

/-- Putting in a set changes what is read at its key. -/
theorem mem_setAt_putSet : x ∈ setAt (putSet m k s) j ↔ if j = k then x ∈ s else x ∈ setAt m j := by
  unfold setAt
  rw [get?_putSet]
  split
  · -- an empty set is not put in, and then nothing is found
    exact (found_entryOf (P := fun x => x ∈ s) fun _ => Iff.rfl).1 x
  · exact Iff.rfl

/-- What is read at the key is the set that was put in, even if it is empty and there is no key. -/
theorem setAt_putSet : setAt (putSet m k s) j = if j = k then s else setAt m j := by
  refine SortedSet.ext fun x => ?_
  rw [mem_setAt_putSet]
  split <;> exact Iff.rfl

/-- Leaving out what is empty is not seen by whoever reads. -/
theorem setAt_withoutEmpty : setAt (withoutEmpty m) k = setAt m k := by
  refine SortedSet.ext fun x => ?_
  exact (found_withoutEmpty (P := fun x => x ∈ setAt m k) fun _ => Iff.rfl).1 x

/-- Where keys are filtered, what is read at the others is empty. -/
theorem setAt_filter_keys (keep : SortedSet) :
    setAt (m.filter fun j _ => decide (j ∈ keep)) k = if k ∈ keep then setAt m k else SortedSet.empty := by
  unfold setAt
  rw [SortedMap.get?_filter]
  by_cases hk : k ∈ keep
  · cases m.get? k <;> simp [hk, Option.filter]
  · cases m.get? k <;> simp [hk]

/-- Taking an identifier away changes one set by one member. -/
theorem mem_setAt_removeAt : x ∈ setAt (removeAt m k a) j ↔ x ∈ setAt m j ∧ ¬(j = k ∧ x = a) := by
  unfold removeAt
  cases hm : m.get? k with
  | none =>
    -- there was nothing at `k` to be taken away
    have hnone : setAt m k = SortedSet.empty := by rw [setAt, hm]; rfl
    refine ⟨fun hx => ⟨hx, ?_⟩, And.left⟩
    rintro ⟨rfl, -⟩
    rw [hnone] at hx
    exact SortedSet.not_mem_empty x hx
  | some t =>
    -- what is left of the set is put back, or the key is dropped with it
    have hsome : setAt m k = t := by rw [setAt, hm]; rfl
    show x ∈ setAt (putSet m k (t.erase a)) j ↔ _
    rw [mem_setAt_putSet]
    split
    · rename_i hj
      subst hj
      rw [hsome, SortedSet.mem_erase]
      simp
    · rename_i hj
      simp [hj]

namespace HoldsNoEmpty

/-- An empty set is not put in. -/
theorem putSet (h : HoldsNoEmpty m) (k : String) (s : SortedSet) : HoldsNoEmpty (putSet m k s) := by
  intro j
  rw [get?_putSet]
  split
  · exact (found_entryOf (P := fun x => x ∈ s) fun _ => Iff.rfl).2
  · exact h j

/-- An entry is not left behind when its last member is taken away. -/
theorem removeAt (h : HoldsNoEmpty m) (k a : String) : HoldsNoEmpty (removeAt m k a) := by
  unfold SensorCatalog.removeAt
  split
  · exact h.putSet k _
  · exact h

/-- No empty set remains where empty sets are left out. -/
theorem withoutEmpty (m : SortedMap SortedSet) : HoldsNoEmpty (withoutEmpty m) := by
  intro k
  exact (found_withoutEmpty (P := fun x => x ∈ setAt m k) fun _ => Iff.rfl).2

/-- A filter brings in no empty set. -/
theorem filter (h : HoldsNoEmpty m) (p : String → SortedSet → Bool) : HoldsNoEmpty (m.filter p) := by
  intro k hk
  rw [SortedMap.get?_filter, Option.filter_eq_some_iff] at hk
  exact h k hk.1

/-- **There is a key exactly if something is read at it.** -/
theorem mem_keys_iff (h : HoldsNoEmpty m) : k ∈ m.keys ↔ setAt m k ≠ SortedSet.empty := by
  rw [SortedMap.mem_keys]
  unfold setAt
  -- at a key there is a set, which is not the empty one
  cases hk : m.get? k with
  | none => simp
  | some s =>
    refine iff_of_true ⟨s, rfl⟩ ?_
    show s ≠ SortedSet.empty
    exact fun hs => h k (hs ▸ hk)

end HoldsNoEmpty

/-! ### The hierarchy of features -/

namespace Hierarchy

variable {feature p : String} {parents : List String} {h : Hierarchy}

/-- A feature that is disowned is a child of none of the parents that are named. -/
theorem mem_setAt_disown :
    x ∈ setAt (disown feature m parents) k ↔ x ∈ setAt m k ∧ ¬(k ∈ parents ∧ x = feature) := by
  unfold disown
  -- by the parents, for all maps, since each removal changes the map
  induction parents generalizing m with
  | nil => simp
  | cons p parents ih =>
    rw [List.foldl_cons, ih, mem_setAt_removeAt, List.mem_cons, and_assoc, ← not_or, or_and_right]

/-- Disowning leaves no empty set behind. -/
theorem holdsNoEmpty_disown (h : HoldsNoEmpty m) : HoldsNoEmpty (disown feature m parents) := by
  unfold disown
  induction parents generalizing m with
  | nil => exact h
  | cons p parents ih => exact ih (h.removeAt p feature)

/-- **The two sides of the hierarchy belong together.** -/
structure Sound (h : Hierarchy) : Prop where
  /-- The children are the parents, read from the other side. -/
  inverse : ∀ f p, p ∈ setAt h.parents f ↔ f ∈ setAt h.children p
  /-- A feature without parents has no entry. -/
  parents : HoldsNoEmpty h.parents
  /-- A feature without children has no entry. -/
  children : HoldsNoEmpty h.children

/-- At first no feature has a parent or a child. -/
theorem Sound.empty : Hierarchy.empty.Sound where
  inverse f p := iff_of_false (SortedSet.not_mem_empty p) (SortedSet.not_mem_empty f)
  parents := holdsNoEmpty_empty
  children := holdsNoEmpty_empty

/-- **Moving one feature.** -/
theorem Sound.set (hsound : h.Sound) (feature : String) (parents : SortedSet) :
    (h.set feature parents).Sound where
  inverse f p := by
    show p ∈ setAt (putSet h.parents feature parents) f ↔
      f ∈ setAt (adopt feature (disown feature h.children (setAt h.parents feature).toList) parents.toList) p
    rw [mem_setAt_putSet, mem_setAt_adopt, mem_setAt_disown, ← hsound.inverse]
    by_cases hf : f = feature
    · -- the feature itself is where it was put: under an old parent it stays only if this is a new one as well
      subst hf
      have hold : ¬(p ∈ setAt h.parents f ∧ ¬(p ∈ (setAt h.parents f).toList ∧ f = f)) :=
        fun hp => hp.2 ⟨hp.1, rfl⟩
      rw [if_pos rfl, or_iff_left hold, and_iff_left rfl]
      exact Iff.rfl
    · -- every other feature is moved by neither of the two
      simp [hf]
  parents := hsound.parents.putSet feature parents
  children := holdsNoEmpty_adopt (holdsNoEmpty_disown hsound.children)

/-- **A derived hierarchy.** Nothing is asked of the parents that are given. -/
theorem sound_ofParents (m : SortedMap SortedSet) : (ofParents m).Sound where
  inverse f p := by
    -- both sides are read off the given map
    have hparents := found_parents (m := m) (R := fun f g => g ∈ setAt m f) (fun _ _ => Iff.rfl) f
    have hchildren := found_children (m := m) (R := fun f g => g ∈ setAt m f) (fun _ _ => Iff.rfl) p
    exact (hparents.1 p).trans (hchildren.1 f).symm
  parents := HoldsNoEmpty.withoutEmpty m
  children := holdsNoEmpty_foldl_adopt holdsNoEmpty_empty

end Hierarchy

/-! ### The catalog -/

/-- What a category holds, if it associates identifiers with sets. -/
def Category.sets? : (k : Category) → k.Value → Option (SortedMap SortedSet)
  | .association _, m | .parentFeatures, m | .childFeatures, m => some m
  | _, _ => none

namespace Catalog

variable {c : Catalog}

/-- **Consistency.** -/
structure Consistent (c : Catalog) : Prop where
  /-- The children of features are their parents, read from the other side. -/
  hierarchy : c.hierarchy.Sound
  /-- No association holds an empty set. -/
  associations : ∀ a, HoldsNoEmpty (c.associations a)

/-- At first nothing is associated with anything. -/
theorem Consistent.empty : Catalog.empty.Consistent where
  hierarchy := Hierarchy.Sound.empty
  associations _ := holdsNoEmpty_empty

/-- A change of one association leaves the others as they are. -/
theorem Consistent.updateAssociation (h : c.Consistent) (a : Association)
    (f : SortedMap SortedSet → SortedMap SortedSet) (hf : HoldsNoEmpty (f (c.associations a))) :
    (c.updateAssociation a f).Consistent where
  hierarchy := h.hierarchy
  associations b := by
    show HoldsNoEmpty (if b = a then f (c.associations a) else c.associations b)
    split
    · exact hf
    · exact h.associations b

/-- **Each write keeps a catalog consistent.** -/
theorem Consistent.write (h : c.Consistent) (x : Write) : (c.write x).Consistent := by
  cases x with
  | setKey a key ids => exact h.updateAssociation a (fun m => putSet m key ids) ((h.associations a).putSet key ids)
  | replace a entries => exact h.updateAssociation a (fun _ => withoutEmpty entries) (.withoutEmpty entries)
  | retainKeys a keep =>
    exact h.updateAssociation a (fun m => m.filter fun k _ => decide (k ∈ keep)) ((h.associations a).filter _)
  | setParents feature parents => exact ⟨h.hierarchy.set feature parents, h.associations⟩
  | replaceParents parents => exact ⟨Hierarchy.sound_ofParents parents, h.associations⟩
  -- all others write neither associations nor the hierarchy
  | _ => exact ⟨h.hierarchy, h.associations⟩

/-- By induction, so does any number of writes. -/
theorem Consistent.writeAll (h : c.Consistent) (ws : List Write) : (c.writeAll ws).Consistent := by
  induction ws generalizing c with
  | nil => exact h
  | cons x ws ih => exact ih (h.write x)

/-- No category that associates identifiers with sets holds an empty one. -/
theorem Consistent.holdsNoEmpty (h : c.Consistent) {k : Category} {m : SortedMap SortedSet}
    (hm : k.sets? (c.get k) = some m) : HoldsNoEmpty m := by
  cases k with
  | association a =>
    obtain rfl := Option.some.inj hm
    exact h.associations a
  | parentFeatures =>
    obtain rfl := Option.some.inj hm
    exact h.hierarchy.parents
  | childFeatures =>
    obtain rfl := Option.some.inj hm
    exact h.hierarchy.children
  | _ => cases hm

/-- **What every catalog keeps**, by whatever writes it came about from the empty one. A feature is among the
children of exactly those that are its parents, and in each category that associates identifiers with sets no
set is empty, so that a key is there exactly if something is read at it. -/
theorem consistent_of_writes (ws : List Write) :
    (∀ f p, p ∈ setAt ((Catalog.empty.writeAll ws).get .parentFeatures) f ↔
      f ∈ setAt ((Catalog.empty.writeAll ws).get .childFeatures) p) ∧
    ∀ (k : Category) (m : SortedMap SortedSet), k.sets? ((Catalog.empty.writeAll ws).get k) = some m →
      (∀ key, m.get? key ≠ some SortedSet.empty) ∧ ∀ key, key ∈ m.keys ↔ setAt m key ≠ SortedSet.empty := by
  have h := Consistent.empty.writeAll ws
  refine ⟨h.hierarchy.inverse, fun k m hm => ?_⟩
  have hfull := h.holdsNoEmpty hm
  exact ⟨hfull, fun key => hfull.mem_keys_iff⟩

/-- A feature that is its own parent gets a second one, which it loses again. -/
def lakeWrites : List Write :=
  [.setParents "lake" (.ofList ["lake", "park"]), .setKey .parentProcedures "gauge" .empty,
    .setParents "lake" (.ofList ["lake"])]

/-- The feature is its own child and nobody else's, and what had nothing left is no key any more. -/
theorem consistent_of_writes_lake :
    let c := Catalog.empty.writeAll lakeWrites
    Category.sets? .childFeatures (c.get .childFeatures) = some c.hierarchy.children ∧
      c.hierarchy.children.keys.toList = ["lake"] ∧ "lake" ∈ setAt c.hierarchy.parents "lake" ∧
      "lake" ∈ setAt c.hierarchy.children "lake" ∧
      setAt c.hierarchy.children "lake" ≠ SortedSet.empty := by
  intro c
  have h := consistent_of_writes lakeWrites
  -- the three facts about this catalog are evaluated, the rest is the theorem
  have hkeys : c.hierarchy.children.keys.toList = ["lake"] := by decide +kernel
  have hparent : "lake" ∈ setAt c.hierarchy.parents "lake" := by decide +kernel
  have hkey : "lake" ∈ c.hierarchy.children.keys := by
    show "lake" ∈ c.hierarchy.children.keys.toList
    rw [hkeys]
    exact List.mem_cons_self
  exact ⟨rfl, hkeys, hparent, (h.1 "lake" "lake").1 hparent, ((h.2 .childFeatures _ rfl).2 "lake").1 hkey⟩

end Catalog

end SensorCatalog
