import Mathlib

/-!
# The first of a list

The ends of an extent are found by going through a list and picking one of two values again and again. What is left is
the first of all values, in the direction in which they are picked. For some kinds of values there are some that have
no place in the order, and these are passed over as long as there are others. They are the values that are not related
to themselves, so a direction is a relation that is transitive and reflexive on what it relates at all (`IsDirection`).

`Picks` is about one choice between two values, and `IsFirst` about what is left of a list. The list may grow
(`IsFirst.concat`), and what is first in a larger list stands before what is first in a smaller one
(`IsFirst.before_of_subset`).
-/

namespace SensorCatalog

variable {α : Type} {R : α → α → Prop} {a b u v w x : α} {l m : List α}

/-- **A direction.** Values that are not related to themselves have no place in it. -/
structure IsDirection (R : α → α → Prop) : Prop where
  trans : ∀ {x y z}, R x y → R y z → R x z
  /-- What stands before anything has a place. -/
  left : ∀ {x y}, R x y → R x x
  /-- And so has what stands behind anything. -/
  right : ∀ {x y}, R x y → R y y

/-- **The other way round.** -/
theorem IsDirection.flip (h : IsDirection R) : IsDirection fun x y => R y x :=
  ⟨fun hxy hyz => h.trans hyz hxy, h.right, h.left⟩

/-- **One of two values is picked**: one that stands before the other, or any of them if the other has no place. -/
inductive Picks (R : α → α → Prop) (a b : α) : α → Prop where
  | first (h : R a b ∨ ¬ R b b) : Picks R a b a
  | second (h : R b a ∨ ¬ R a a) : Picks R a b b

/-- **The first of a list** is one of its values, and stands before all that have a place. -/
structure IsFirst (R : α → α → Prop) (l : List α) (v : α) : Prop where
  mem : v ∈ l
  before : ∀ u ∈ l, R u u → R v u

namespace IsFirst

/-- A single value is the first one. -/
theorem single (v : α) : IsFirst R [v] v := by
  refine ⟨List.mem_cons_self, fun u hu hplace => ?_⟩
  obtain rfl := List.mem_singleton.1 hu
  exact hplace

/-- **One more value.** -/
theorem concat (h : IsFirst R l v) (hR : IsDirection R) (hpick : Picks R v b w) : IsFirst R (l ++ [b]) w := by
  cases hpick with
  -- the new value comes behind what was first so far, or before it
  | first hvb =>
    refine ⟨List.mem_append_left _ h.mem, fun u hu hplace => ?_⟩
    rcases List.mem_append.1 hu with hu | hu
    · exact h.before u hu hplace
    · obtain rfl := List.mem_singleton.1 hu
      exact hvb.resolve_right (not_not.2 hplace)
  | second hbv =>
    refine ⟨List.mem_append_right _ List.mem_cons_self, fun u hu hplace => ?_⟩
    rcases List.mem_append.1 hu with hu | hu
    · -- some value of the list has a place, so what was first so far has one
      have hvu := h.before u hu hplace
      exact hR.trans (hbv.resolve_right (not_not.2 (hR.left hvu))) hvu
    · obtain rfl := List.mem_singleton.1 hu
      exact hplace

/-- What stands behind the first of a list stands behind that of a larger one. -/
theorem before_of_subset (h : IsFirst R l v) (h' : IsFirst R m w) (hR : IsDirection R) (hsub : l ⊆ m) (hx : R v x) :
    R w x :=
  hR.trans (h'.before v (hsub h.mem) (hR.left hx)) hx

/-- The first of a list is the first of some of its values already, if one of these stands before it. -/
theorem of_subset (h : IsFirst R m w) (hR : IsDirection R) (hanti : ∀ {x y}, R x y → R y x → x = y) (hsub : l ⊆ m)
    (hv : v ∈ l) (hvw : R v w) : IsFirst R l w := by
  obtain rfl : v = w := hanti hvw (h.before v (hsub hv) (hR.left hvw))
  exact ⟨hv, fun u hu => h.before u (hsub hu)⟩

end IsFirst

end SensorCatalog
