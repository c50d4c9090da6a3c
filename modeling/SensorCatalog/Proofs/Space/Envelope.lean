import SensorCatalog.Space.Envelope
import SensorCatalog.Proofs.Space.Coordinate

/-!
# What an envelope holds

An envelope that was made of several is given by four folds, one for each of its sides. `lesser` and `greater` pick one
of two coordinates in opposite directions, in which all numbers have a place and nothing else has, so what a fold leaves
is the first of the numbers, or no number if there is none (`IsFirst`).

`Envelope.Bounds` says this of all sides, and `Envelope.bounds_union` of the union. A point that lies in the union of
some envelopes lies in that of more of them (`Envelope.Bounds.contains_of_subset`).
-/

namespace SensorCatalog

open Coordinate

/-! ### Picking one of two coordinates -/

/-- The lesser of two coordinates is picked, and one that is no number only if it has to be. -/
theorem picks_lesser (a b : Float) : Picks (· ≤ ·) a b (lesser a b) := by
  unfold lesser
  split
  -- the first one is no number, or the second one is none, or they can be compared
  · rename_i ha
    exact .second (.inr fun h => by rw [le_self_iff.1 h] at ha; cases ha)
  · rename_i ha
    split
    · rename_i hb
      exact .first (.inr fun h => by rw [le_self_iff.1 h] at hb; cases hb)
    · rename_i hb
      split
      · rename_i hlt
        exact .first (.inl (le_of_lt hlt))
      · rename_i hlt
        exact .second (.inl (le_of_not_lt (Bool.eq_false_iff.2 ha) (Bool.eq_false_iff.2 hb) hlt))

/-- The greater of two coordinates is picked, and one that is no number only if it has to be. -/
theorem picks_greater (a b : Float) : Picks (· ≥ ·) a b (greater a b) := by
  unfold greater
  split
  · rename_i ha
    exact .second (.inr fun h => by rw [le_self_iff.1 h] at ha; cases ha)
  · rename_i ha
    split
    · rename_i hb
      exact .first (.inr fun h => by rw [le_self_iff.1 h] at hb; cases hb)
    · rename_i hb
      split
      · rename_i hlt
        exact .first (.inl (le_of_lt hlt))
      · rename_i hlt
        exact .second (.inl (le_of_not_lt (Bool.eq_false_iff.2 hb) (Bool.eq_false_iff.2 ha) hlt))

/-! ### Envelopes -/

namespace Envelope

variable {e g : Envelope} {es fs : List Envelope} {x y : Float}

/-- **The sides of an envelope** are the outermost ones of some envelopes, as far as these have numbers there. -/
structure Bounds (es : List Envelope) (g : Envelope) : Prop where
  minX : IsFirst (· ≤ ·) (es.map (·.minX)) g.minX
  minY : IsFirst (· ≤ ·) (es.map (·.minY)) g.minY
  maxX : IsFirst (· ≥ ·) (es.map (·.maxX)) g.maxX
  maxY : IsFirst (· ≥ ·) (es.map (·.maxY)) g.maxY

namespace Bounds

/-- An envelope is bounded by itself. -/
theorem single (e : Envelope) : Bounds [e] e :=
  ⟨.single _, .single _, .single _, .single _⟩

/-- One more envelope moves each of the bounds outwards, or none of them. -/
theorem expand (h : Bounds es g) (e : Envelope) : Bounds (es ++ [e]) (g.expand e) := by
  constructor
  case minX =>
    rw [List.map_append]
    exact h.minX.concat isDirection_le (picks_lesser _ _)
  case minY =>
    rw [List.map_append]
    exact h.minY.concat isDirection_le (picks_lesser _ _)
  case maxX =>
    rw [List.map_append]
    exact h.maxX.concat isDirection_ge (picks_greater _ _)
  case maxY =>
    rw [List.map_append]
    exact h.maxY.concat isDirection_ge (picks_greater _ _)

/-- Envelopes that are joined one after the other have the result as their bounds. -/
theorem foldl_expand (h : Bounds es g) (fs : List Envelope) : Bounds (es ++ fs) (fs.foldl Envelope.expand g) := by
  induction fs generalizing es g with
  | nil => rwa [List.append_nil]
  | cons f fs ih =>
    rw [List.foldl_cons, List.append_cons]
    exact ih (h.expand f)

/-- **More envelopes hold more points.** -/
theorem contains_of_subset (h : Bounds es e) (h' : Bounds fs g) (hsub : es ⊆ fs) (hin : e.contains x y = true) :
    g.contains x y = true := by
  simp only [contains, Bool.and_eq_true, decide_eq_true_eq] at hin ⊢
  obtain ⟨⟨⟨hminX, hmaxX⟩, hminY⟩, hmaxY⟩ := hin
  refine ⟨⟨⟨?_, ?_⟩, ?_⟩, ?_⟩
  · exact h.minX.before_of_subset h'.minX isDirection_le (List.map_subset _ hsub) hminX
  · exact h.maxX.before_of_subset h'.maxX isDirection_ge (List.map_subset _ hsub) hmaxX
  · exact h.minY.before_of_subset h'.minY isDirection_le (List.map_subset _ hsub) hminY
  · exact h.maxY.before_of_subset h'.maxY isDirection_ge (List.map_subset _ hsub) hmaxY

end Bounds

/-- Whatever is joined to an envelope, the system of coordinates stays. -/
theorem srid_foldl_expand (fs : List Envelope) (e : Envelope) : (fs.foldl expand e).srid = e.srid := by
  induction fs generalizing e with
  | nil => rfl
  | cons f fs ih => exact ih (e.expand f)

/-- Only of no envelopes at all is there no union. -/
theorem union_eq_none_iff : union es = none ↔ es = [] := by
  cases es with
  | nil => exact iff_of_true rfl rfl
  | cons e es => exact iff_of_false nofun nofun

/-- **The union** is bounded by those of its members that are in its own system. -/
theorem bounds_union (h : union es = some g) : Bounds (es.filter fun f => f.srid == g.srid) g := by
  cases es with
  | nil => cases h
  | cons e es =>
    obtain rfl := Option.some.inj h
    rw [srid_foldl_expand, List.filter_cons_of_pos (by simp)]
    exact (Bounds.single e).foldl_expand _

end Envelope

end SensorCatalog
