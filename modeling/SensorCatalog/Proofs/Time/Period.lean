import SensorCatalog.Proofs.Sorted.First
import SensorCatalog.Time.Period

/-!
# What a period spans

The union of some periods starts with the earliest of them and ends with the last, and each of its two ends is that of
one of them. `Period.Spans` says so, and there is only one such period (`Period.Spans.unique`), so this is all there is
to be known of a union (`Period.union_eq_some_iff`), in whatever order the periods come.

Nothing is asked of the periods: one that is taken as it is may end before it starts. The two ends of a union may come
from different periods, so a union ends no sooner than it starts as soon as one of its members does
(`Period.Spans.start_le_finish`).
-/

namespace SensorCatalog

namespace Timestamp

/-- Later is a direction. -/
theorem isDirection_le : IsDirection (α := Timestamp) (· ≤ ·) where
  trans := le_trans
  left _ := le_refl _
  right _ := le_refl _

/-- Earlier is a direction. -/
theorem isDirection_ge : IsDirection (α := Timestamp) (· ≥ ·) := isDirection_le.flip

end Timestamp

namespace Period

variable {ps qs ts : List Period} {g h p q : Period}

/-- A period lies **within** another one. -/
def Within (p g : Period) : Prop := g.start ≤ p.start ∧ p.finish ≤ g.finish

/-- **The period that some periods span.** -/
structure Spans (ps : List Period) (g : Period) : Prop where
  start : IsFirst (· ≤ ·) (ps.map (·.start)) g.start
  finish : IsFirst (· ≥ ·) (ps.map (·.finish)) g.finish

/-- Of two periods that are joined the earlier start is picked. -/
theorem picks_extend_start (p q : Period) : Picks (· ≤ ·) p.start q.start (p.extend q).start := by
  show Picks _ _ _ (if q.start < p.start then q.start else p.start)
  split
  · rename_i hlt
    exact .second (.inl (Int.le_of_lt hlt))
  · rename_i hlt
    exact .first (.inl (Timestamp.not_lt.1 hlt))

/-- Of two periods that are joined the later finish is picked. -/
theorem picks_extend_finish (p q : Period) : Picks (· ≥ ·) p.finish q.finish (p.extend q).finish := by
  show Picks _ _ _ (if p.finish < q.finish then q.finish else p.finish)
  split
  · rename_i hlt
    exact .second (.inl (Int.le_of_lt hlt))
  · rename_i hlt
    exact .first (.inl (Timestamp.not_lt.1 hlt))

namespace Spans

/-- A period spans itself. -/
theorem single (p : Period) : Spans [p] p := ⟨.single _, .single _⟩

/-- One more period is spanned after it is joined. -/
theorem extend (hg : Spans ps g) (q : Period) : Spans (ps ++ [q]) (g.extend q) := by
  constructor
  case start =>
    rw [List.map_append]
    exact hg.start.concat Timestamp.isDirection_le (picks_extend_start g q)
  case finish =>
    rw [List.map_append]
    exact hg.finish.concat Timestamp.isDirection_ge (picks_extend_finish g q)

/-- Periods that are joined one after the other are spanned by the result. -/
theorem foldl_extend (hg : Spans ps g) (qs : List Period) : Spans (ps ++ qs) (qs.foldl Period.extend g) := by
  induction qs generalizing ps g with
  | nil => rwa [List.append_nil]
  | cons q qs ih =>
    rw [List.foldl_cons, List.append_cons]
    exact ih (hg.extend q)

/-- What spans some periods lies within what spans more of them. -/
theorem within_of_subset (hp : Spans ps p) (hg : Spans qs g) (hsub : ps ⊆ qs) : p.Within g :=
  ⟨hp.start.before_of_subset hg.start Timestamp.isDirection_le (List.map_subset _ hsub) (Timestamp.le_refl _),
    hp.finish.before_of_subset hg.finish Timestamp.isDirection_ge (List.map_subset _ hsub) (Timestamp.le_refl _)⟩

/-- A period is within what spans it. -/
theorem within_of_mem (hg : Spans ps g) (hp : p ∈ ps) : p.Within g :=
  (single p).within_of_subset hg (List.cons_subset.2 ⟨hp, List.nil_subset _⟩)

/-- **There is only one such period.** -/
theorem unique (hg : Spans ps g) (hh : Spans ps h) : g = h := by
  have hgh := hg.within_of_subset hh (List.Subset.refl ps)
  have hhg := hh.within_of_subset hg (List.Subset.refl ps)
  cases g
  cases h
  exact congrArg₂ Period.mk (Timestamp.le_antisymm hhg.1 hgh.1) (Timestamp.le_antisymm hgh.2 hhg.2)

/-- If one of the periods runs forward, so does what spans them. -/
theorem start_le_finish (hg : Spans ps g) (hp : p ∈ ps) (hforward : p.start ≤ p.finish) : g.start ≤ g.finish :=
  Timestamp.le_trans (hg.within_of_mem hp).1 (Timestamp.le_trans hforward (hg.within_of_mem hp).2)

/-- **Periods that span parts of the others** span together what these span, if they leave none of them out. -/
theorem join (hg : Spans qs g) (hparts : ∀ t ∈ ts, ∃ ps, ps ⊆ qs ∧ Spans ps t)
    (hcover : ∀ q ∈ qs, ∃ t ∈ ts, q.Within t) : Spans ts g := by
  constructor
  case start =>
    obtain ⟨q, hq, hqg⟩ := List.mem_map.1 hg.start.mem
    obtain ⟨t, ht, hqt⟩ := hcover q hq
    -- the earliest start is that of a part, as no period is left out
    refine hg.start.of_subset Timestamp.isDirection_le Timestamp.le_antisymm ?_ (List.mem_map.2 ⟨t, ht, rfl⟩) ?_
    · intro u hu
      obtain ⟨t, ht, rfl⟩ := List.mem_map.1 hu
      obtain ⟨ps, hsub, hps⟩ := hparts t ht
      exact List.map_subset _ hsub hps.start.mem
    · rw [← hqg]
      exact hqt.1
  case finish =>
    obtain ⟨q, hq, hqg⟩ := List.mem_map.1 hg.finish.mem
    obtain ⟨t, ht, hqt⟩ := hcover q hq
    refine hg.finish.of_subset Timestamp.isDirection_ge (fun hxy hyx => Timestamp.le_antisymm hyx hxy) ?_
      (List.mem_map.2 ⟨t, ht, rfl⟩) ?_
    · intro u hu
      obtain ⟨t, ht, rfl⟩ := List.mem_map.1 hu
      obtain ⟨ps, hsub, hps⟩ := hparts t ht
      exact List.map_subset _ hsub hps.finish.mem
    · rw [← hqg]
      exact hqt.2

end Spans

/-- The union spans the periods. -/
theorem spans_union (hg : union ps = some g) : Spans ps g := by
  cases ps with
  | nil => cases hg
  | cons p ps =>
    obtain rfl := Option.some.inj hg
    exact (Spans.single p).foldl_extend ps

/-- Only of no periods at all is there no union. -/
theorem union_eq_none_iff : union ps = none ↔ ps = [] := by
  cases ps with
  | nil => exact iff_of_true rfl rfl
  | cons p ps => exact iff_of_false nofun nofun

/-- **The union of some periods** is what they span. -/
theorem union_eq_some_iff : union ps = some g ↔ Spans ps g := by
  refine ⟨spans_union, fun hg => ?_⟩
  cases hunion : union ps with
  | none =>
    obtain rfl := union_eq_none_iff.1 hunion
    exact absurd hg.start.mem List.not_mem_nil
  | some h => rw [(spans_union hunion).unique hg]

end Period

end SensorCatalog
