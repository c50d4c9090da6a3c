import SensorCatalog.Archive.Basic
import SensorCatalog.Catalog.Basic
import SensorCatalog.Proofs.Catalog.Hierarchy
import SensorCatalog.Proofs.Sorted.Map

/-!
# What the data say

The categories of the catalog are about data, and this is what they should hold, said of the data alone.
`Content.Has` is about identifiers, `Content.Relates` about associations. `Content.Shows` says of each
category what value of it is true to the data. There is one such value (`Content.Shows.unique`).

The answers to queries are given in the same terms: `Content.mem_gather` and its kin. Where a plan is harmless,
the archive gives no other answers (`Archive.answers_of_harmless`).
-/

namespace SensorCatalog

namespace Content

/-- **Identifiers**: the data have this one. -/
def Has (c : Content) : IdCategory → String → Prop
  | .procedures, p => ∃ s, c.sensors.get? p = some s
  | .offerings, o => ∃ p s, c.sensors.get? p = some s ∧ o ∈ s.offerings
  | .properties, x => ∃ p s, c.sensors.get? p = some s ∧ x ∈ s.properties
  | .features, f =>
    (∃ r, c.features.get? f = some r) ∨ ∃ i b, c.observations.get? i = some b ∧ b.feature = f
  | .observations, i => ∃ b, c.observations.get? i = some b
  | .templates, i => ∃ t, c.templates.get? i = some t
  | .descriptionFormats, m => ∃ p s, c.sensors.get? p = some s ∧ s.format = m
  | .featureTypes, t => t ∈ c.featureTypes
  | .composites, i => ∃ k ∈ c.composites, k.id = i

/-- **Associations**: the data relate the second identifier to the first. -/
def Relates (c : Content) : Association → String → String → Prop
  | .proceduresForOffering, o, p => ∃ s, c.sensors.get? p = some s ∧ o ∈ s.offerings
  | .propertiesForOffering, o, x => ∃ p s, c.sensors.get? p = some s ∧ o ∈ s.offerings ∧ x ∈ s.properties
  | .featuresForOffering, o, f =>
    c.Has .offerings o ∧ ∃ i b, c.observations.get? i = some b ∧ b.offering = o ∧ b.feature = f
  | .relatedFeaturesForOffering, o, f => ∃ r ∈ c.related, o ∈ r.offerings ∧ r.id = f
  | .templatesForOffering, o, i => ∃ t, c.templates.get? i = some t ∧ t.offering = o
  | .offeringsForProcedure, p, o => ∃ s, c.sensors.get? p = some s ∧ o ∈ s.offerings
  | .propertiesForProcedure, p, x => ∃ s, c.sensors.get? p = some s ∧ x ∈ s.properties
  | .parentProcedures, p, q => ∃ s, c.sensors.get? p = some s ∧ q ∈ s.parents
  | .childProcedures, p, q => c.Has .procedures p ∧ ∃ s, c.sensors.get? q = some s ∧ p ∈ s.parents
  | .observationsForProcedure, p, i =>
    c.Has .procedures p ∧ ∃ b, c.observations.get? i = some b ∧ b.procedure = p
  | .proceduresForProperty, x, p => ∃ s, c.sensors.get? p = some s ∧ x ∈ s.properties
  | .offeringsForProperty, x, o => ∃ p s, c.sensors.get? p = some s ∧ x ∈ s.properties ∧ o ∈ s.offerings
  | .rolesForRelatedFeature, f, role => ∃ r ∈ c.related, r.id = f ∧ r.role = role

/-- The second feature is a parent of the first. -/
def Parent (c : Content) (f g : String) : Prop := ∃ r, c.features.get? f = some r ∧ g ∈ r.parents

/-- What a composite phenomenon is made of. Of several with one identifier the last counts. -/
def componentsOf (c : Content) (id : String) : Option (List String) :=
  (c.composites.reverse.find? fun k => k.id == id).map (·.components)

/-- The places of the features that satisfy `p` and have one, in the order of the features. -/
def places (c : Content) (p : String → Bool) : List Envelope :=
  (c.features.filter fun f _ => p f).values.filterMap (·.location)

/-- Whether a feature was observed in an offering. -/
def observedIn (c : Content) (o f : String) : Bool :=
  c.observations.values.any fun b => b.offering == o && b.feature == f

/-- The times of the observations that satisfy `p`, in the order of the observations. -/
def times (c : Content) (p : Observation → Bool) : List Period := (c.observationsWhere p).values.map (·.time)

/-- What is found at a key is `v` if `P`, and nothing otherwise. -/
def FoundIf {α : Type} (P : Prop) (u v : Option α) : Prop := (P → u = v) ∧ (¬ P → u = none)

/-- **The true value of a category.** -/
def Shows (c : Content) : (k : Category) → k.Value → Prop
  | .ids k, s => ∀ x, x ∈ s ↔ c.Has k x
  | .association a, m => ∀ key, Found (m.get? key) (c.Relates a key)
  | .parentFeatures, m => ∀ f, Found (m.get? f) (c.Parent f)
  | .childFeatures, m => ∀ g, Found (m.get? g) fun f => c.Parent f g
  | .components, m => ∀ id, m.get? id = c.componentsOf id
  | .globalEnvelope, e => e = Envelope.union (c.places fun _ => true)
  | .offeringEnvelopes, m => ∀ o,
    FoundIf (c.Has .offerings o) (m.get? o) (Envelope.union (c.places (c.observedIn o)))
  | .globalTime, t => t = Period.union (c.times fun _ => true)
  | .offeringTimes, m => ∀ o,
    FoundIf (c.Has .offerings o) (m.get? o) (Period.union (c.times fun b => b.offering == o))
  | .procedureTimes, m => ∀ p,
    FoundIf (c.Has .procedures p) (m.get? p) (Period.union (c.times fun b => b.procedure == p))

variable {c : Content}

/-- A condition with a value, or nothing without it, determines what is found. -/
theorem FoundIf.unique {α : Type} {P : Prop} {u u' v : Option α} (h : FoundIf P u v)
    (h' : FoundIf P u' v) : u = u' := by
  by_cases hP : P
  · rw [h.1 hP, h'.1 hP]
  · rw [h.2 hP, h'.2 hP]

/-- **Each category has one true value.** -/
theorem Shows.unique {k : Category} {u v : k.Value} (hu : c.Shows k u) (hv : c.Shows k v) : u = v := by
  -- what is shown determines the value at each identifier or key, and values are extensional
  cases k with
  | ids k => exact SortedSet.ext fun x => (hu x).trans (hv x).symm
  | association a => exact SortedMap.ext fun key => (hu key).unique (hv key)
  | parentFeatures => exact SortedMap.ext fun f => (hu f).unique (hv f)
  | childFeatures => exact SortedMap.ext fun g => (hu g).unique (hv g)
  | components => exact SortedMap.ext fun id => (hu id).trans (hv id).symm
  | globalEnvelope => exact hu.trans hv.symm
  | globalTime => exact hu.trans hv.symm
  | offeringEnvelopes => exact SortedMap.ext fun o => (hu o).unique (hv o)
  | offeringTimes => exact SortedMap.ext fun o => (hu o).unique (hv o)
  | procedureTimes => exact SortedMap.ext fun p => (hu p).unique (hv p)

/-! ### Answers in these terms -/

/-- The values of a map are what it has at its keys. -/
theorem mem_values {α : Type} {m : SortedMap α} {v : α} : v ∈ m.values ↔ ∃ k, m.get? k = some v := by
  simp only [SortedMap.values, List.mem_map]
  constructor
  · rintro ⟨⟨k, v⟩, hmem, rfl⟩
    exact ⟨k, SortedMap.mem_toList.1 hmem⟩
  · rintro ⟨k, hk⟩
    exact ⟨(k, v), SortedMap.mem_toList.2 hk, rfl⟩

/-- The keys of a map are those at which it has something. -/
theorem mem_keys_toList {α : Type} {m : SortedMap α} {k : String} :
    k ∈ m.keys.toList ↔ ∃ v, m.get? k = some v :=
  SortedMap.mem_keys

/-- What is gathered from all sensors is what some sensor has. -/
theorem mem_gather {sensors : SortedMap Sensor} {part : Sensor → SortedSet} {x : String} :
    x ∈ (gather sensors part).toList ↔ ∃ p s, sensors.get? p = some s ∧ x ∈ part s := by
  rw [gather, ← SortedSet.mem_def, SortedSet.mem_ofList, List.mem_flatMap]
  constructor
  -- a value of the map stands for the key at which it is found
  · rintro ⟨s, hs, hx⟩
    obtain ⟨p, hp⟩ := mem_values.1 hs
    exact ⟨p, s, hp, hx⟩
  · rintro ⟨p, s, hp, hx⟩
    exact ⟨s, mem_values.2 ⟨p, hp⟩, hx⟩

/-- Choosing sensors takes nothing else away. -/
theorem get?_sensorsWhere {q : Sensor → Bool} {p : String} {s : Sensor} :
    (c.sensorsWhere q).get? p = some s ↔ c.sensors.get? p = some s ∧ q s = true := by
  rw [sensorsWhere, SortedMap.get?_filter, Option.filter_eq_some_iff]

/-- Choosing observations takes nothing else away. -/
theorem get?_observationsWhere {q : Observation → Bool} {i : String} {b : Observation} :
    (c.observationsWhere q).get? i = some b ↔ c.observations.get? i = some b ∧ q b = true := by
  rw [observationsWhere, SortedMap.get?_filter, Option.filter_eq_some_iff]

/-- The features of some observations, each with an observation that names it. -/
theorem mem_featuresOf {q : Observation → Bool} {f : String} :
    f ∈ (featuresOf (c.observationsWhere q)).toList ↔
      ∃ i b, c.observations.get? i = some b ∧ q b = true ∧ b.feature = f := by
  rw [featuresOf, ← SortedSet.mem_def, SortedSet.mem_ofList, List.mem_map]
  constructor
  · rintro ⟨b, hb, rfl⟩
    obtain ⟨i, hi⟩ := mem_values.1 hb
    obtain ⟨hi, hq⟩ := get?_observationsWhere.1 hi
    exact ⟨i, b, hi, hq, rfl⟩
  · rintro ⟨i, b, hi, hq, rfl⟩
    exact ⟨b, mem_values.2 ⟨i, get?_observationsWhere.2 ⟨hi, hq⟩⟩, rfl⟩

/-- All features are those that are described and those that were observed. -/
theorem mem_allFeatures {f : String} : f ∈ c.allFeatures.toList ↔ c.Has .features f := by
  rw [allFeatures, ← SortedSet.mem_def, SortedSet.mem_ofList, List.mem_append, mem_keys_toList,
    List.mem_map]
  -- the described ones are the same on both sides, the observed ones need an observation each
  refine or_congr Iff.rfl ⟨?_, ?_⟩
  · rintro ⟨b, hb, rfl⟩
    obtain ⟨i, hi⟩ := mem_values.1 hb
    exact ⟨i, b, hi, rfl⟩
  · rintro ⟨i, b, hi, rfl⟩
    exact ⟨b, mem_values.2 ⟨i, hi⟩, rfl⟩

/-- A filter that lets everything pass does nothing. -/
theorem filter_true {α : Type} (m : SortedMap α) : (m.filter fun _ _ => true) = m := by
  refine SortedMap.ext fun k => ?_
  rw [SortedMap.get?_filter]
  cases m.get? k <;> rfl

/-- The box around the features of an offering. -/
theorem envelopeOf_featuresOf (o : String) :
    envelopeOf ((featuresOf (c.observationsWhere fun b => b.offering == o)).toList.filterMap
      c.features.get?) = Envelope.union (c.places (c.observedIn o)) := by
  -- the features that are asked for are those that were observed in the offering
  have hobserved : ∀ f, decide (f ∈ featuresOf (c.observationsWhere fun b => b.offering == o)) =
      c.observedIn o f := by
    intro f
    rw [Bool.eq_iff_iff, decide_eq_true_eq, SortedSet.mem_def, mem_featuresOf, observedIn,
      List.any_eq_true]
    simp only [Bool.and_eq_true, beq_iff_eq]
    constructor
    · rintro ⟨i, b, hi, ho, hf⟩
      exact ⟨b, mem_values.2 ⟨i, hi⟩, ho, hf⟩
    · rintro ⟨b, hb, ho, hf⟩
      obtain ⟨i, hi⟩ := mem_values.1 hb
      exact ⟨i, b, hi, ho, hf⟩
  -- so both boxes are put together from the same places, in the same order
  rw [envelopeOf, places, SortedMap.filterMap_get?]
  simp only [hobserved]

end Content

/-! ### Nothing goes wrong on purpose -/

/-- The plan lets every session be opened and every query be answered. -/
structure FaultPlan.IsHarmless (p : FaultPlan) : Prop where
  opens : p.refusesSessions = false
  queries : p.failingQueries = SortedSet.empty
  failing : p.failingProcedures = SortedSet.empty
  panicking : p.panickingProcedures = SortedSet.empty

/-- What a session sees of data about which nothing goes wrong. -/
def Content.backend (c : Content) : Backend := ⟨.ok (), c.reply⟩

/-- A harmless plan does not interfere with any query. -/
theorem Archive.answers_of_harmless {a : Archive} (h : a.plan.IsHarmless) : a.answers = a.content.reply := by
  funext q
  -- none of the three lists has a member
  have hnone : interference? a.plan q = none := by
    rw [interference?, h.queries, h.failing, h.panicking, if_neg (SortedSet.not_mem_empty _)]
    cases q.procedure? with
    | none => rfl
    | some p => simp only [SortedSet.not_mem_empty, if_false]
  rw [answers, hnone]

/-- Where nothing goes wrong, the data are all that counts. -/
theorem Archive.backend_of_harmless {a : Archive} (h : a.plan.IsHarmless) :
    a.backend = a.content.backend := by
  rw [backend, h.opens, answers_of_harmless h]
  rfl

end SensorCatalog
