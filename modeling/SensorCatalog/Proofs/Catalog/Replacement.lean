import SensorCatalog.Proofs.Catalog.Consistent
import SensorCatalog.Proofs.Catalog.Write

/-!
# Two ways to replace the feature hierarchy

The hierarchy can be replaced in one write, which derives the children from the parents that it is given, or
one feature after the other: each is taken from under the parents that it had, and then put under those that
it is to have. The first way never looks at the old children, the second one only ever edits them.

The two need not be compared edit by edit. Both leave a sound hierarchy, and a sound hierarchy is determined by
the parents of each feature (`Hierarchy.Sound.ext`). These are read from one place for each feature, which a
write that moves the feature replaces and which all others leave alone (`Catalog.parents_write_setParents`), so
`Catalog.Makes` says what becomes of them, in any order (`Catalog.parents_moves`).
-/

namespace SensorCatalog

/-- **A sound hierarchy is determined by the parents of each feature.** -/
theorem Hierarchy.Sound.ext {h h' : Hierarchy} (hsound : h.Sound) (hsound' : h'.Sound)
    (hparents : ∀ f, setAt h.parents f = setAt h'.parents f) : h = h' := by
  -- the parents of both are equal as maps, since neither holds an empty set
  have hup : h.parents = h'.parents := by
    refine SortedMap.ext fun f => ?_
    refine (hsound.parents.found (P := fun p => p ∈ setAt h'.parents f) fun p => ?_).unique
      (hsound'.parents.found fun p => Iff.rfl)
    rw [hparents f]
  -- and so are the children, which are the parents read from the other side
  have hdown : h.children = h'.children := by
    refine SortedMap.ext fun p => ?_
    refine (hsound.children.found (P := fun f => p ∈ setAt h'.parents f) fun f => ?_).unique
      (hsound'.children.found fun f => (hsound'.inverse f p).symm)
    rw [← hsound.inverse, hparents f]
  cases h
  cases h'
  congr

/-- Moves features one after the other. -/
def Write.moves (es : List (String × SortedSet)) : List Write := es.map fun e => .setParents e.1 e.2

/-- Each move sets the parents of one feature that is named. -/
theorem Write.mem_moves {es : List (String × SortedSet)} {x : Write} :
    x ∈ Write.moves es ↔ ∃ f s, (f, s) ∈ es ∧ x = .setParents f s := by
  unfold moves
  rw [List.mem_map]
  constructor
  · rintro ⟨⟨f, s⟩, he, rfl⟩
    exact ⟨f, s, he, rfl⟩
  · rintro ⟨f, s, he, rfl⟩
    exact ⟨(f, s), he, rfl⟩

namespace Catalog

/-- The parents of a feature. -/
def parentsOf (f : String) (c : Catalog) : SortedSet := setAt c.hierarchy.parents f

/-- One move sets the parents of its feature, and of no other. -/
theorem parents_write_setParents (f g : String) (s : SortedSet) (c : Catalog) :
    parentsOf f (c.write (.setParents g s)) = if f = g then s else parentsOf f c :=
  setAt_putSet

/-- Replacing gives each feature the parents that the map has for it. -/
theorem parents_write_replaceParents (f : String) (m : SortedMap SortedSet) (c : Catalog) :
    parentsOf f (c.write (.replaceParents m)) = setAt m f := by
  refine SortedSet.ext fun p => ?_
  exact (Hierarchy.found_parents (m := m) (R := fun f p => p ∈ setAt m f) (fun _ _ => Iff.rfl) f).1 p

section Moves

variable {c : Catalog} {f : String} {s : SortedSet} {es : List (String × SortedSet)}

/-- **A feature that is moved.** If all its moves agree on its parents, it has these in the end. -/
theorem parents_moves (hmoved : (f, s) ∈ es) (hagree : ∀ t, (f, t) ∈ es → t = s) :
    parentsOf f (c.writeAll (Write.moves es)) = s := by
  have hmakes : Makes (parentsOf f) s (Write.moves es) := by
    -- every move of the feature makes the set, and there is such a move
    refine ⟨fun x hx => ?_, .setParents f s, Write.mem_moves.2 ⟨f, s, hmoved, rfl⟩, fun c => ?_⟩
    · obtain ⟨g, t, he, rfl⟩ := Write.mem_moves.1 hx
      by_cases hf : f = g
      · subst hf
        exact .inr fun c => by rw [parents_write_setParents, if_pos rfl, hagree t he]
      · exact .inl fun c => by rw [parents_write_setParents, if_neg hf]
    · rw [parents_write_setParents, if_pos rfl]
  exact hmakes.view_eq c

/-- **A feature that is not moved.** -/
theorem parents_moves_of_not_moved (hmoved : ∀ t, (f, t) ∉ es) :
    parentsOf f (c.writeAll (Write.moves es)) = parentsOf f c := by
  have hleaves : Leaves (parentsOf f) (Write.moves es) := by
    intro x hx c
    obtain ⟨g, t, he, rfl⟩ := Write.mem_moves.1 hx
    have hf : f ≠ g := fun hf => hmoved t (hf ▸ he)
    rw [parents_write_setParents, if_neg hf]
  exact hleaves.view_eq c

end Moves

variable {c : Catalog} {features : List String}

/-- Features that are moved to nowhere leave a hierarchy without parents, if no feature with parents was left
out. -/
theorem parents_cleared (hfeatures : ∀ f, parentsOf f c ≠ SortedSet.empty → f ∈ features) (f : String) :
    parentsOf f (c.writeAll (Write.moves (features.map (·, SortedSet.empty)))) = SortedSet.empty := by
  by_cases hf : f ∈ features
  -- each of the moves sets it to nothing
  · refine parents_moves (List.mem_map.2 ⟨f, hf, rfl⟩) fun t ht => ?_
    obtain ⟨g, -, hg⟩ := List.mem_map.1 ht
    exact (Prod.ext_iff.1 hg).2.symm
  · -- it was left out because it had no parents, and it has none now
    rw [parents_moves_of_not_moved fun t ht => ?_]
    · exact not_not.1 fun hp => hf (hfeatures f hp)
    · obtain ⟨g, hg, hgf⟩ := List.mem_map.1 ht
      obtain ⟨rfl, -⟩ := Prod.ext_iff.1 hgf
      exact hf hg

/-- Features that are moved by the entries of a map, in any order, have the parents that the map gives them, if
no feature had parents before. -/
theorem parents_entered {m : SortedMap SortedSet} {entries : List (String × SortedSet)}
    (hentries : entries.Perm m.toList) (hnone : ∀ f, parentsOf f c = SortedSet.empty) (f : String) :
    parentsOf f (c.writeAll (Write.moves entries)) = setAt m f := by
  -- the order of the entries is of no account, only what they are
  have hentry : ∀ t, (f, t) ∈ entries ↔ m.get? f = some t := fun t =>
    hentries.mem_iff.trans SortedMap.mem_toList
  unfold setAt
  cases hm : m.get? f with
  | none =>
    rw [parents_moves_of_not_moved fun t ht => ?_, hnone f]
    · rfl
    · rw [hentry, hm] at ht
      cases ht
  | some s =>
    refine parents_moves ((hentry s).2 hm) fun t ht => ?_
    rw [hentry, hm] at ht
    exact (Option.some.inj ht).symm

/-- Moves change only the two categories of the hierarchy. -/
theorem not_mem_categories_of_moves {es : List (String × SortedSet)} {k : Category} (hup : k ≠ .parentFeatures)
    (hdown : k ≠ .childFeatures) : ∀ x ∈ Write.moves es, k ∉ x.categories := by
  intro x hx hk
  obtain ⟨f, s, -, rfl⟩ := Write.mem_moves.1 hx
  rcases List.mem_pair.1 hk with hk | hk
  · exact hup hk
  · exact hdown hk

/-- **Replacing the hierarchy is moving its features.** By whatever writes a catalog came about from the empty
one, replacing its hierarchy leaves the same catalog as moving each feature that has parents to nowhere, in any
order, and then each feature that is given to the parents that are given for it, again in any order; and neither
changes any category but the two of the hierarchy. An empty set may be given, and features without parents may
be moved to nowhere as well. -/
theorem replaceParents_eq_moves (ws : List Write) (m : SortedMap SortedSet) (features : List String)
    (entries : List (String × SortedSet))
    (hfeatures : ∀ f, setAt ((empty.writeAll ws).get .parentFeatures) f ≠ SortedSet.empty → f ∈ features)
    (hentries : entries.Perm m.toList) :
    let c := empty.writeAll ws
    let replaced := c.write (.replaceParents m)
    let moved := (c.writeAll (Write.moves (features.map (·, SortedSet.empty)))).writeAll (Write.moves entries)
    replaced = moved ∧
      ∀ k : Category, k ≠ .parentFeatures → k ≠ .childFeatures →
        replaced.get k = c.get k ∧ moved.get k = c.get k := by
  intro c replaced moved
  have hsound : c.Consistent := Consistent.empty.writeAll ws
  have hmoved : moved.Consistent := (hsound.writeAll _).writeAll _
  have hreplaced : replaced.Consistent := hsound.write _
  -- both hierarchies are sound, so only the parents have to be compared
  have hhierarchy : replaced.hierarchy = moved.hierarchy := by
    refine hreplaced.hierarchy.ext hmoved.hierarchy fun f => ?_
    calc parentsOf f replaced = setAt m f := parents_write_replaceParents f m c
      _ = parentsOf f moved := (parents_entered hentries (parents_cleared hfeatures) f).symm
  have hothers : ∀ k : Category, k ≠ .parentFeatures → k ≠ .childFeatures →
      replaced.get k = c.get k ∧ moved.get k = c.get k := by
    intro k hup hdown
    refine ⟨c.get_write_of_not_mem ?_, ?_⟩
    · simp [Write.categories, hup, hdown]
    · exact (get_writeAll_of_not_mem _ (not_mem_categories_of_moves hup hdown)).trans
        (get_writeAll_of_not_mem c (not_mem_categories_of_moves hup hdown))
  refine ⟨ext fun k => ?_, hothers⟩
  -- the two categories of the hierarchy are equal, and the others have not been changed by either
  by_cases hup : k = .parentFeatures
  · subst hup
    exact congrArg Hierarchy.parents hhierarchy
  · by_cases hdown : k = .childFeatures
    · subst hdown
      exact congrArg Hierarchy.children hhierarchy
    · exact (hothers k hup hdown).1.trans (hothers k hup hdown).2.symm

/-- A pond in a lake, both of them in a park. -/
def parkWrites : List Write :=
  [.setParents "lake" (.ofList ["park"]), .setParents "pond" (.ofList ["lake", "park"])]

/-- The lake is taken from the park, and the bay and the pond come into it. -/
def lakeParents : SortedMap SortedSet :=
  .ofList [("bay", .ofList ["lake"]), ("lake", .empty), ("pond", .ofList ["lake", "pond"])]

/-- The features of the park are moved from the last to the first. -/
theorem replaceParents_eq_moves_park :
    let c := empty.writeAll parkWrites
    (∀ f, setAt (c.get .parentFeatures) f ≠ SortedSet.empty → f ∈ ["pond", "lake"]) ∧
      lakeParents.toList.reverse.Perm lakeParents.toList ∧
      c.write (.replaceParents lakeParents) =
        (c.writeAll (Write.moves (["pond", "lake"].map (·, SortedSet.empty)))).writeAll
          (Write.moves lakeParents.toList.reverse) ∧
      (c.write (.replaceParents lakeParents)).hierarchy.children.keys.toList = ["lake", "pond"] := by
  intro c
  have hkeys : c.hierarchy.parents.keys.toList = ["lake", "pond"] := by decide +kernel
  have hfeatures : ∀ f, setAt (c.get .parentFeatures) f ≠ SortedSet.empty → f ∈ ["pond", "lake"] := by
    intro f hf
    have hf : f ∈ c.hierarchy.parents.keys.toList :=
      (Consistent.empty.writeAll parkWrites).hierarchy.parents.mem_keys_iff.2 hf
    rw [hkeys] at hf
    exact List.mem_reverse.2 hf
  have hentries : lakeParents.toList.reverse.Perm lakeParents.toList := List.reverse_perm _
  exact ⟨hfeatures, hentries, (replaceParents_eq_moves parkWrites lakeParents _ _ hfeatures hentries).1,
    by decide +kernel⟩

end Catalog

end SensorCatalog
