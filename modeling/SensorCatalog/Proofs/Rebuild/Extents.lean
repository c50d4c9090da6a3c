import SensorCatalog.Proofs.Rebuild.Determined
import SensorCatalog.Proofs.Space.Envelope
import SensorCatalog.Proofs.Time.Period

/-!
# Extents

The catalog holds the extent of all data in space and in time, and those of the parts of the data that belong to one
offering or to one procedure. All of them are asked for in different queries, and the archive makes each of them from
records that it selects for the purpose, so nothing in the steps relates one to the other.

`Catalog.Coherent` says how they are related, and `Catalog.coherent_of_shows` is about catalogs that are true to some
data. A part of the data gives an extent within that of all data, whatever the records are, since an extent is
determined by the records that are in it (`Period.Spans`, `Envelope.Bounds`). Two reservations come from the records:

* A box is made in one spatial reference system, that of the first feature. Where an offering happens to start with
  another system than all features do, its box is not compared.
* Observations may be of procedures that are not registered. These count in the extent of all data only, which is
  therefore the join of those of the procedures if there are none of them.

A rebuild over data that do not change, with nothing that goes wrong, leaves such a catalog (`Run.extents_cohere`).
-/

namespace SensorCatalog

/-! ### The records of an extent -/

namespace Content

variable {c : Content}

/-- The periods are those of the observations that are asked for. -/
theorem mem_times {q : Observation → Bool} {t : Period} :
    t ∈ c.times q ↔ ∃ i b, c.observations.get? i = some b ∧ q b = true ∧ b.time = t := by
  unfold times
  rw [List.mem_map]
  constructor
  · rintro ⟨b, hb, rfl⟩
    obtain ⟨i, hi⟩ := mem_values.1 hb
    obtain ⟨hi, hq⟩ := get?_observationsWhere.1 hi
    exact ⟨i, b, hi, hq, rfl⟩
  · rintro ⟨i, b, hi, hq, rfl⟩
    exact ⟨b, mem_values.2 ⟨i, get?_observationsWhere.2 ⟨hi, hq⟩⟩, rfl⟩

/-- All of them are periods of some observation. -/
theorem times_subset (c : Content) (q : Observation → Bool) : c.times q ⊆ c.times fun _ => true := by
  intro t ht
  obtain ⟨i, b, hi, -, hb⟩ := mem_times.1 ht
  exact mem_times.2 ⟨i, b, hi, rfl, hb⟩

/-- There is no period at all exactly if there is no observation. -/
theorem times_eq_nil_iff : (c.times fun _ => true) = [] ↔ c.observations = SortedMap.empty := by
  constructor
  · intro hnil
    refine SortedMap.ext fun i => ?_
    cases hi : c.observations.get? i with
    | none => rfl
    | some b =>
      have hb : b.time ∈ c.times fun _ => true := mem_times.2 ⟨i, b, hi, rfl, rfl⟩
      rw [hnil] at hb
      cases hb
  · intro hempty
    refine List.eq_nil_iff_forall_not_mem.2 fun t ht => ?_
    obtain ⟨i, b, hi, -, -⟩ := mem_times.1 ht
    rw [hempty] at hi
    cases hi

/-- The places are those of the features that are asked for. -/
theorem mem_places {p : String → Bool} {e : Envelope} :
    e ∈ c.places p ↔ ∃ f r, c.features.get? f = some r ∧ p f = true ∧ r.location = some e := by
  unfold places
  rw [List.mem_filterMap]
  constructor
  · rintro ⟨r, hr, he⟩
    obtain ⟨f, hf⟩ := mem_values.1 hr
    rw [SortedMap.get?_filter, Option.filter_eq_some_iff] at hf
    exact ⟨f, r, hf.1, hf.2, he⟩
  · rintro ⟨f, r, hf, hp, he⟩
    refine ⟨r, mem_values.2 ⟨f, ?_⟩, he⟩
    rw [SortedMap.get?_filter, Option.filter_eq_some_iff]
    exact ⟨hf, hp⟩

/-- All of them are places of some feature. -/
theorem places_subset (c : Content) (p : String → Bool) : c.places p ⊆ c.places fun _ => true := by
  intro e he
  obtain ⟨f, r, hf, -, hr⟩ := mem_places.1 he
  exact mem_places.2 ⟨f, r, hf, rfl, hr⟩

/-- What is found is what was looked for. -/
theorem FoundIf.eq_of_some {α : Type} {P : Prop} {u v : Option α} {a : α} (h : FoundIf P u v) (hu : u = some a) :
    v = some a := by
  by_cases hP : P
  · rw [← h.1 hP, hu]
  · rw [h.2 hP] at hu
    cases hu

end Content

/-! ### Extents that belong together -/

namespace Catalog

variable {c : Catalog} {content : Content}

/-- A period that the catalog has for an offering or for a procedure. -/
def HasPeriod (c : Catalog) (t : Period) : Prop := t ∈ c.offeringTimes.values ∨ t ∈ c.procedureTimes.values

/-- **Extents that belong together**, in a catalog of some data. -/
structure Coherent (content : Content) (c : Catalog) : Prop where
  /-- Only without observations there is no period of them. -/
  absent : c.globalTime = none ↔ content.observations = SortedMap.empty
  /-- The periods of offerings and procedures lie within that of all observations. -/
  within : ∀ t, c.HasPeriod t → ∃ g, c.globalTime = some g ∧ g.start ≤ t.start ∧ t.finish ≤ g.finish
  /-- Those of the procedures make up the whole of it, if each observation is of a registered one. -/
  join : (∀ i b, content.observations.get? i = some b → content.Has .procedures b.procedure) →
    Period.union c.procedureTimes.values = c.globalTime
  /-- If no observation ends before it starts, no period does. -/
  forward : (∀ i b, content.observations.get? i = some b → b.time.start ≤ b.time.finish) →
    ∀ t, c.globalTime = some t ∨ c.HasPeriod t → t.start ≤ t.finish
  /-- Where there is a box for an offering, there is one for all features, which holds each point of it if it is in
  the same system. -/
  envelope : ∀ o e, c.offeringEnvelopes.get? o = some e → ∃ g, c.globalEnvelope = some g ∧
    (e.srid = g.srid → ∀ x y, e.contains x y = true → g.contains x y = true)

/-- The period of an offering or a procedure is what some of the observations span. -/
theorem spans_of_hasPeriod (h : ∀ k, content.Shows k (c.get k)) {t : Period} (ht : c.HasPeriod t) :
    ∃ q, Period.Spans (content.times q) t := by
  rcases ht with ht | ht
  · obtain ⟨o, ho⟩ := Content.mem_values.1 ht
    exact ⟨_, Period.spans_union ((h .offeringTimes o).eq_of_some ho)⟩
  · obtain ⟨p, hp⟩ := Content.mem_values.1 ht
    exact ⟨_, Period.spans_union ((h .procedureTimes p).eq_of_some hp)⟩

/-- If there is an observation, there is a global period, and it is that of all of them. -/
theorem globalTime_of_mem (h : ∀ k, content.Shows k (c.get k)) {t : Period} (ht : t ∈ content.times fun _ => true) :
    ∃ g, c.globalTime = some g ∧ Period.Spans (content.times fun _ => true) g := by
  have hglobal : c.globalTime = Period.union (content.times fun _ => true) := h .globalTime
  cases hunion : Period.union (content.times fun _ => true) with
  | none => exact absurd (Period.union_eq_none_iff.1 hunion ▸ ht) List.not_mem_nil
  | some g => exact ⟨g, hglobal.trans hunion, Period.spans_union hunion⟩

/-- Each observation of a registered procedure lies within the period of the procedure. -/
theorem within_procedureTimes (h : ∀ k, content.Shows k (c.get k)) {i : String} {b : Observation}
    (hb : content.observations.get? i = some b) (hregistered : content.Has .procedures b.procedure) :
    ∃ t ∈ c.procedureTimes.values, b.time.Within t := by
  have hmem : b.time ∈ content.times fun b' => b'.procedure == b.procedure :=
    Content.mem_times.2 ⟨i, b, hb, beq_self_eq_true _, rfl⟩
  have hcached := (h .procedureTimes b.procedure).1 hregistered
  cases hunion : Period.union (content.times fun b' => b'.procedure == b.procedure) with
  | none => exact absurd (Period.union_eq_none_iff.1 hunion ▸ hmem) List.not_mem_nil
  | some t =>
    exact ⟨t, Content.mem_values.2 ⟨b.procedure, hcached.trans hunion⟩,
      (Period.spans_union hunion).within_of_mem hmem⟩

/-- **A catalog that is true to some data is coherent**, whatever the data are. -/
theorem coherent_of_shows (h : ∀ k, content.Shows k (c.get k)) : c.Coherent content := by
  have hglobal : c.globalTime = Period.union (content.times fun _ => true) := h .globalTime
  have hwithin : ∀ t, c.HasPeriod t → ∃ g, c.globalTime = some g ∧ t.Within g := by
    -- the observations behind a period are some of all, so their union lies within that of all
    intro t ht
    obtain ⟨q, hq⟩ := spans_of_hasPeriod h ht
    obtain ⟨b, hb, -⟩ := List.mem_map.1 hq.start.mem
    obtain ⟨g, hg, hspans⟩ := globalTime_of_mem h (content.times_subset q hb)
    exact ⟨g, hg, hq.within_of_subset hspans (content.times_subset q)⟩
  constructor
  case absent => rw [hglobal, Period.union_eq_none_iff, Content.times_eq_nil_iff]
  case within => exact hwithin
  -- with all observers registered each observation is within the period of its procedure
  case join =>
    intro hregistered
    -- without a global period there is no period of a procedure to join
    cases hg : c.globalTime with
    | none =>
      refine Period.union_eq_none_iff.2 (List.eq_nil_iff_forall_not_mem.2 fun t ht => ?_)
      obtain ⟨g, hg', -⟩ := hwithin t (.inr ht)
      rw [hg] at hg'
      cases hg'
    | some g =>
      refine Period.union_eq_some_iff.2 ((Period.spans_union (hglobal.symm.trans hg)).join ?_ ?_)
      · intro t ht
        obtain ⟨q, hq⟩ := spans_of_hasPeriod h (.inr ht)
        exact ⟨_, content.times_subset q, hq⟩
      · intro t ht
        obtain ⟨i, b, hb, -, rfl⟩ := Content.mem_times.1 ht
        exact within_procedureTimes h hb (hregistered i b hb)
  -- the start of the union is the start of some observation, and this one does not finish before it
  case forward =>
    intro hforward t ht
    have hspans : ∃ q, Period.Spans (content.times q) t := by
      rcases ht with ht | ht
      · exact ⟨_, Period.spans_union (hglobal.symm.trans ht)⟩
      · exact spans_of_hasPeriod h ht
    obtain ⟨q, hq⟩ := hspans
    obtain ⟨p, hp, -⟩ := List.mem_map.1 hq.start.mem
    obtain ⟨i, b, hb, -, rfl⟩ := Content.mem_times.1 hp
    exact hq.start_le_finish hp (hforward i b hb)
  case envelope =>
    intro o e he
    have hbounds := Envelope.bounds_union ((h .offeringEnvelopes o).eq_of_some he)
    have hfeatures : c.globalEnvelope = Envelope.union (content.places fun _ => true) := h .globalEnvelope
    cases hunion : Envelope.union (content.places fun _ => true) with
    | none =>
      -- a side of the box is one of the places, and these are all among those that there are
      obtain ⟨f, hf, -⟩ := List.mem_map.1 hbounds.minX.mem
      have hplace := content.places_subset _ (List.mem_filter.1 hf).1
      exact absurd (Envelope.union_eq_none_iff.1 hunion ▸ hplace) List.not_mem_nil
    | some g =>
      refine ⟨g, hfeatures.trans hunion, fun hsrid x y hin => ?_⟩
      refine hbounds.contains_of_subset (Envelope.bounds_union hunion) ?_ hin
      rw [hsrid]
      exact List.filter_subset _ (content.places_subset _)

end Catalog

/-! ### After a rebuild -/

namespace Run

variable {steps : List Step} {firstRun : Bool} {w w' : World} {r : Run} {moves : List (Actor × Backend)}

/-- **All extents belong together after a rebuild**, whatever the catalog held before, if the data stay as they are and
nothing is made to go wrong. The rebuild makes progress until it is over. -/
theorem extents_cohere {threads : Nat} (hsteps : Standard.steps? threads = .ok steps)
    (hharmless : w.archive.plan.IsHarmless) (h : Moves (Run.start steps firstRun, w) moves (r, w'))
    (hfixed : ∀ m ∈ moves, m.2 = w.archive.backend) :
    Progresses w.archive.backend (Run.start steps firstRun) moves.length r w' ∧
      (r.result?.isSome = true → w'.catalog.Coherent w.archive.content) := by
  refine ⟨h.progresses ?_ hfixed, fun hover => ?_⟩
  · obtain ⟨hthreads, rfl⟩ := Standard.steps?_eq_ok.1 hsteps
    exact fun s hs => Standard.plain_of_mem hthreads hs
  · exact Catalog.coherent_of_shows (h.catalog_shows hsteps hharmless hfixed hover)

/-- A gauge that was read in the yard, in a period that ends before it starts. Nobody knows how far east the yard lies,
and the barn, which comes first, is in another spatial reference system. -/
def yardContent : Content :=
  let hour (n : Nat) : Timestamp :=
    ⟨⟨2024, 7, 1, by decide⟩, Timestamp.hourOf n, Timestamp.minuteOf 0, Timestamp.secondOf 0, Timestamp.nanosOf 0⟩
  { Content.empty with
    sensors := .ofList [("gauge", ⟨.ofList ["rainfall"], .ofList ["rain"], .empty, "plain"⟩)]
    observations := .ofList [("o1", ⟨"gauge", "rainfall", "rain", "yard", ⟨hour 18, hour 6⟩⟩)]
    features := .ofList [("barn", ⟨.empty, some (.point 31467 0 0)⟩),
      ("yard", ⟨.empty, some (.point 4326 (0 / 0) 52)⟩)] }

def yardWorld : World := { World.initial with archive := ⟨yardContent, FaultPlan.none⟩ }

/-- The period of the offering is reversed as well, and its box is not compared with that of all features. -/
theorem extents_cohere_yard : ∃ moves r w',
    Moves (Run.start (Standard.steps 2) true, yardWorld) moves (r, w') ∧ r.result?.isSome = true ∧
      w'.catalog.Coherent yardContent ∧ (∃ t, w'.catalog.HasPeriod t ∧ t.finish < t.start) ∧
      ∃ e g, w'.catalog.offeringEnvelopes.get? "rainfall" = some e ∧ w'.catalog.globalEnvelope = some g ∧
        e.srid ≠ g.srid := by
  have hsteps : Standard.steps? 2 = .ok (Standard.steps 2) := rfl
  have hharmless : yardWorld.archive.plan.IsHarmless := ⟨rfl, rfl, rfl, rfl⟩
  -- such a rebuild exists, as its steps can always go on
  obtain ⟨moves, r, w', hmoves, hfixed, hover⟩ :=
    Moves.exists_finished (r := Run.start (Standard.steps 2) true) (w := yardWorld)
      (b := yardWorld.archive.backend) (fun s hs => Standard.plain_of_mem (by decide) hs) .start
      (by simp)
  have hcoherent := (extents_cohere hsteps hharmless hmoves hfixed).2 hover
  have hshows := hmoves.catalog_shows hsteps hharmless hfixed hover
  have hrainfall : yardContent.Has .offerings "rainfall" := ⟨"gauge", _, rfl, by decide⟩
  have htime := (hshows .offeringTimes "rainfall").1 hrainfall
  have hbox := (hshows .offeringEnvelopes "rainfall").1 hrainfall
  refine ⟨moves, r, w', hmoves, hover, hcoherent, ⟨_, .inl (Content.mem_values.2 ⟨_, htime.trans rfl⟩), by decide⟩,
    _, _, hbox.trans rfl, (hshows .globalEnvelope).trans rfl, ?_⟩
  decide

end Run

end SensorCatalog
