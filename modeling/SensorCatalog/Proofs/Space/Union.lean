import SensorCatalog.Proofs.Space.Alike
import SensorCatalog.Proofs.Space.Envelope

/-!
# The union of envelopes

The system of the first envelope decides which of the others count (`Envelope.members`). The sides of the union are the
first of what the members have there (`Envelope.bounds_union`), and being the first of a list is hardly about the list:
it depends on which values there are, and not on how often or in which order they come. What is left open is which of
two coordinates with one place it is, and these are alike (`Coordinate.alike_of_isFirst`).

A coordinate that is no number has no place. So the first of a list is no number only if there is none in the list, and
otherwise it is the least or the greatest of the numbers (`Envelope.Side.Outermost`).
-/

namespace SensorCatalog

open Coordinate

/-! ### The first of some coordinates -/

namespace Coordinate

variable {R : Float → Float → Prop} {l m : List Float} {v w : Float}

/-- **A direction of the coordinates**, in which all numbers have a place. -/
structure IsOrder (R : Float → Float → Prop) : Prop extends IsDirection R where
  self_iff : ∀ {x}, R x x ↔ x.isNaN = false
  alike : ∀ {x y}, R x y → R y x → Alike x y

/-- Upwards is an order, but for what is no number. -/
theorem isOrder_le : IsOrder (· ≤ ·) where
  toIsDirection := isDirection_le
  self_iff := le_self_iff
  alike hxy hyx := by
    obtain ⟨r, s, hr, hs, hrs⟩ := le_iff.1 hxy
    obtain ⟨s', r', hs', hr', hsr⟩ := le_iff.1 hyx
    obtain rfl := Option.some.inj (hr.symm.trans hr')
    obtain rfl := Option.some.inj (hs.symm.trans hs')
    exact alike_of_place_eq hr (le_antisymm hrs hsr ▸ hs)

/-- Downwards is an order, but for what is no number. -/
theorem isOrder_ge : IsOrder (· ≥ ·) where
  toIsDirection := isDirection_ge
  self_iff := le_self_iff
  alike hxy hyx := isOrder_le.alike hyx hxy

/-- The first of some coordinates is no number if none of them is one. -/
theorem isNaN_iff_of_isFirst (hR : IsOrder R) (h : IsFirst R l v) :
    v.isNaN = true ↔ ∀ u ∈ l, u.isNaN = true := by
  constructor
  · -- a number has a place, and what is first would come before it and be a number as well
    intro hv u hu
    by_contra hnumber
    have hplace : R u u := hR.self_iff.2 (Bool.eq_false_iff.2 hnumber)
    have hv' := hR.self_iff.1 (hR.left (h.before u hu hplace))
    rw [hv] at hv'
    cases hv'
  · intro hall
    exact hall v h.mem

/-- **There is only one first coordinate**, up to the sign of zero, whatever the list looks like. -/
theorem alike_of_isFirst (hR : IsOrder R) (hv : IsFirst R l v) (hw : IsFirst R m w) (hlm : ∀ u, u ∈ l ↔ u ∈ m) :
    Alike v w := by
  have hvm : v ∈ m := (hlm v).1 hv.mem
  have hwl : w ∈ l := (hlm w).2 hw.mem
  by_cases hnumber : v.isNaN = true
  · have hw' : w.isNaN = true := (isNaN_iff_of_isFirst hR hv).1 hnumber w hwl
    exact .inl (eq_of_isNaN hnumber hw')
  · -- each of the two stands before the other
    have hvv : R v v := hR.self_iff.2 (Bool.eq_false_iff.2 hnumber)
    have hwv : R w v := hw.before v hvm hvv
    have hvw : R v w := hv.before w hwl (hR.left hwv)
    exact hR.alike hvw hwv

end Coordinate

namespace Envelope

/-! ### The four sides -/

inductive Side where
  | minX
  | minY
  | maxX
  | maxY

namespace Side

/-- Where an envelope has this side. -/
def of : Side → Envelope → Float
  | minX => Envelope.minX
  | minY => Envelope.minY
  | maxX => Envelope.maxX
  | maxY => Envelope.maxY

/-- Whether a coordinate is at least as far out as another one. -/
def Beyond : Side → Float → Float → Prop
  | minX | minY => (· ≤ ·)
  | maxX | maxY => (· ≥ ·)

/-- Each side looks in a direction that is an order. -/
theorem isOrder_beyond (s : Side) : IsOrder s.Beyond := by
  cases s with
  | minX | minY => exact isOrder_le
  | maxX | maxY => exact isOrder_ge

/-- **The outermost of the sides of some envelopes.** -/
structure Outermost (s : Side) (es : List Envelope) (v : Float) : Prop where
  /-- It is no number exactly if none of the envelopes has a number there. -/
  isNaN_iff : v.isNaN = true ↔ ∀ e ∈ es, (s.of e).isNaN = true
  /-- One of the envelopes has it there. -/
  mem : ∃ e ∈ es, s.of e = v
  /-- Those that have a number there do not reach beyond it. -/
  beyond : ∀ e ∈ es, (s.of e).isNaN = false → s.Beyond v (s.of e)

/-- What is first on a side is outermost there. -/
theorem outermost_of_isFirst {s : Side} {es : List Envelope} {v : Float} (h : IsFirst s.Beyond (es.map s.of) v) :
    Outermost s es v where
  isNaN_iff := by
    rw [isNaN_iff_of_isFirst s.isOrder_beyond h]
    exact List.forall_mem_map
  mem := List.mem_map.1 h.mem
  beyond e he hnumber := h.before _ (List.mem_map_of_mem he) (s.isOrder_beyond.self_iff.2 hnumber)

end Side

variable {e f g : Envelope} {es fs : List Envelope} {x y : Float}

/-- The bounds of envelopes are first on each of their sides. -/
theorem Bounds.side (h : Bounds es g) (s : Side) : IsFirst s.Beyond (es.map s.of) (s.of g) := by
  cases s with
  | minX => exact h.minX
  | minY => exact h.minY
  | maxX => exact h.maxX
  | maxY => exact h.maxY

/-- **Equal up to the sign of zero**, on each side. -/
structure Alike (g h : Envelope) : Prop where
  srid : g.srid = h.srid
  side : ∀ s : Side, Coordinate.Alike (s.of g) (s.of h)

/-- The bounds of some envelopes do not depend on their order. -/
theorem Bounds.alike (hf : Bounds fs f) (hg : Bounds es g) (hsrid : f.srid = g.srid) (hmem : ∀ e, e ∈ fs ↔ e ∈ es) :
    Alike f g where
  srid := hsrid
  side s := by
    refine alike_of_isFirst s.isOrder_beyond (hf.side s) (hg.side s) fun u => ?_
    simp only [List.mem_map, hmem]

/-! ### The union -/

/-- The envelopes of one system. -/
def members (srid : Int) (es : List Envelope) : List Envelope := es.filter fun e => e.srid == srid

/-- The members of a system are the envelopes with this system. -/
theorem mem_members {srid : Int} : e ∈ members srid es ↔ e ∈ es ∧ e.srid = srid := by
  rw [members, List.mem_filter, beq_iff_eq]

/-- The union has the system of the first envelope. -/
theorem srid_of_union (h : union (e :: es) = some g) : g.srid = e.srid := by
  obtain rfl := Option.some.inj h
  exact srid_foldl_expand _ _

/-- The union depends on the first envelope and on those that share its system. -/
theorem union_eq_of_members (h : members e.srid fs = members e.srid es) : union (e :: fs) = union (e :: es) := by
  show some ((members e.srid fs).foldl expand e) = some ((members e.srid es).foldl expand e)
  rw [h]

/-- **What the union of `e` and `es` is.** -/
structure Unites (e : Envelope) (es : List Envelope) (g : Envelope) : Prop where
  /-- It belongs to the system of the first envelope. -/
  srid : g.srid = e.srid
  /-- Whatever lies in one of the members lies in it. -/
  contains : ∀ f ∈ members e.srid (e :: es), ∀ x y, f.contains x y = true → g.contains x y = true
  /-- Each of its sides is the outermost one of the members. -/
  outermost : ∀ s : Side, s.Outermost (members e.srid (e :: es)) (s.of g)
  /-- Envelopes of other systems have no influence. -/
  foreign : ∀ fs, members e.srid fs = members e.srid es → union (e :: fs) = some g
  /-- Another order gives the same, as long as it begins with an envelope of this system. -/
  reordered : ∀ f fs, (f :: fs).Perm (e :: es) → f.srid = e.srid → ∃ h, union (f :: fs) = some h ∧ h.Alike g

/-- **The union of envelopes.** One envelope at least has a union, and no system and no coordinate is an exception. -/
theorem union_unites (e : Envelope) (es : List Envelope) : ∃ g, union (e :: es) = some g ∧ Unites e es g := by
  obtain ⟨g, hg⟩ : ∃ g, union (e :: es) = some g := ⟨_, rfl⟩
  have hsrid : g.srid = e.srid := srid_of_union hg
  have hbounds : Bounds (members e.srid (e :: es)) g := by
    have h := bounds_union hg
    rwa [hsrid] at h
  refine ⟨g, hg, hsrid, ?contains, ?outermost, ?foreign, ?reordered⟩
  case contains =>
    intro f hf x y hin
    exact (Bounds.single f).contains_of_subset hbounds (List.cons_subset.2 ⟨hf, List.nil_subset _⟩) hin
  case outermost =>
    intro s
    exact Side.outermost_of_isFirst (hbounds.side s)
  case foreign =>
    intro fs hfs
    exact (union_eq_of_members hfs).trans hg
  -- in another order the first one is another, but the members of its system are the same
  case reordered =>
    intro f fs hperm hf
    obtain ⟨h, hh⟩ : ∃ h, union (f :: fs) = some h := ⟨_, rfl⟩
    have hsrid' : h.srid = e.srid := (srid_of_union hh).trans hf
    have hbounds' : Bounds (members e.srid (f :: fs)) h := by
      have h' := bounds_union hh
      rwa [hsrid'] at h'
    refine ⟨h, hh, hbounds'.alike hbounds (hsrid'.trans hsrid.symm) fun u => ?_⟩
    rw [mem_members, mem_members, hperm.mem_iff]

end Envelope

end SensorCatalog
