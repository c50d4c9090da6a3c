import SensorCatalog.Proofs.Rebuild.Agreement

/-!
# A sensor that was deleted

Deleting a sensor takes its observations and its templates out of the data, and its identifier out of the parents of
others. The catalog is not touched by this. It is the next rebuild that has to make it forget the sensor, whatever its
categories held before, and in doing so it must not lose anything of other sensors.

Both follow from what the data say after the deletion (`Content.get?_sensors_withoutSensor` and its kin), since the
rebuild leaves a catalog that is true to them. `Catalog.Forgets` says what is gone, and `Catalog.Retains` what is still
there, each in terms of the data before the deletion. `Run.forgets_deleted` is about the rebuild.
-/

namespace SensorCatalog

/-! ### What is related to what -/

/-- The associations that relate procedures to something. -/
def Association.toProcedures : List Association :=
  [.proceduresForOffering, .proceduresForProperty, .parentProcedures, .childProcedures]

/-- The associations whose keys are offerings that the sensors have. -/
def Association.ofOfferings : List Association := [.proceduresForOffering, .propertiesForOffering, .featuresForOffering]

/-- The associations whose keys are properties. -/
def Association.ofProperties : List Association := [.proceduresForProperty, .offeringsForProperty]

namespace Content

variable {c : Content} {q x y : String}

/-- What is known of procedures is known of those that have a record. -/
theorem exists_sensor_of_relates {a : Association} (ha : a ∈ Association.ofProcedures) (h : c.Relates a q y) :
    ∃ s, c.sensors.get? q = some s := by
  simp only [Association.ofProcedures, List.mem_cons, List.not_mem_nil, or_false] at ha
  rcases ha with rfl | rfl | rfl | rfl | rfl
  -- offerings, properties and parents are parts of the record
  · obtain ⟨s, hs, -⟩ := h
    exact ⟨s, hs⟩
  · obtain ⟨s, hs, -⟩ := h
    exact ⟨s, hs⟩
  · obtain ⟨s, hs, -⟩ := h
    exact ⟨s, hs⟩
  -- children and observations are asked for only where there is a record
  · exact h.1
  · exact h.1

/-- What is known of offerings is known of those that sensors have. -/
theorem has_offering_of_relates {a : Association} (ha : a ∈ Association.ofOfferings) (h : c.Relates a x y) :
    c.Has .offerings x := by
  simp only [Association.ofOfferings, List.mem_cons, List.not_mem_nil, or_false] at ha
  rcases ha with rfl | rfl | rfl
  · obtain ⟨s, hs, ho⟩ := h
    exact ⟨y, s, hs, ho⟩
  · obtain ⟨p, s, hs, ho, -⟩ := h
    exact ⟨p, s, hs, ho⟩
  · exact h.1

/-- What is known of properties is known of those that sensors have. -/
theorem has_property_of_relates {a : Association} (ha : a ∈ Association.ofProperties) (h : c.Relates a x y) :
    c.Has .properties x := by
  simp only [Association.ofProperties, List.mem_cons, List.not_mem_nil, or_false] at ha
  rcases ha with rfl | rfl
  · obtain ⟨s, hs, hx⟩ := h
    exact ⟨y, s, hs, hx⟩
  · obtain ⟨p, s, hs, hx, -⟩ := h
    exact ⟨p, s, hs, hx⟩

/-- What is not there has no key. -/
theorem FoundIf.not_mem_keys {α : Type} {P : Prop} {m : SortedMap α} {v : Option α}
    (h : FoundIf P (m.get? x) v) (hP : ¬ P) : x ∉ m.keys := by
  rw [SortedMap.mem_keys, h.2 hP]
  rintro ⟨_, hv⟩
  cases hv

end Content

/-! ### The data without the sensor -/

namespace Content

variable {c : Content} {p q i x : String}

/-- Others are as they were, but for their parents. -/
theorem get?_sensors_withoutSensor {s : Sensor} : (c.withoutSensor p).sensors.get? q = some s ↔
    q ≠ p ∧ ∃ s₀, c.sensors.get? q = some s₀ ∧ { s₀ with parents := s₀.parents.erase p } = s := by
  show ((c.sensors.erase p).map _).get? q = some s ↔ _
  rw [SortedMap.get?_map, Option.map_eq_some_iff, SortedMap.get?_erase]
  -- the sensor itself is not among those that are left
  split
  · rename_i hqp
    constructor
    · rintro ⟨s₀, hs₀, -⟩
      cases hs₀
    · rintro ⟨hne, -⟩
      exact absurd hqp hne
  · rename_i hqp
    exact (and_iff_right hqp).symm

/-- The observations that are left are those of others. -/
theorem get?_observations_withoutSensor {b : Observation} : (c.withoutSensor p).observations.get? i = some b ↔
    c.observations.get? i = some b ∧ b.procedure ≠ p := by
  show (c.observationsWhere _).get? i = some b ↔ _
  rw [get?_observationsWhere, bne_iff_ne]

/-- The templates that are left are those of others. -/
theorem get?_templates_withoutSensor {t : Template} : (c.withoutSensor p).templates.get? i = some t ↔
    c.templates.get? i = some t ∧ t.procedure ≠ p := by
  show (c.templates.filter _).get? i = some t ↔ _
  rw [SortedMap.get?_filter, Option.filter_eq_some_iff, bne_iff_ne]

/-- Another sensor has the identifier in some part of its record. -/
def Remains (c : Content) (p : String) (part : Sensor → SortedSet) (x : String) : Prop :=
  ∃ q s, q ≠ p ∧ c.sensors.get? q = some s ∧ x ∈ part s

/-- What a sensor has that is still there was a part of another one. -/
theorem remains_of_withoutSensor (part : Sensor → SortedSet) (hpart : ∀ s parents, part { s with parents } = part s)
    {s : Sensor} (hs : (c.withoutSensor p).sensors.get? q = some s) (hx : x ∈ part s) : c.Remains p part x := by
  obtain ⟨hne, s₀, hs₀, rfl⟩ := get?_sensors_withoutSensor.1 hs
  rw [hpart] at hx
  exact ⟨q, s₀, hne, hs₀, hx⟩

/-- An offering that no other sensor has is gone. -/
theorem not_has_offering (hnone : ¬ c.Remains p Sensor.offerings x) : ¬ (c.withoutSensor p).Has .offerings x := by
  rintro ⟨q, s, hs, ho⟩
  exact hnone (remains_of_withoutSensor Sensor.offerings (fun _ _ => rfl) hs ho)

/-- A property that no other sensor has is gone. -/
theorem not_has_property (hnone : ¬ c.Remains p Sensor.properties x) : ¬ (c.withoutSensor p).Has .properties x := by
  rintro ⟨q, s, hs, hx⟩
  exact hnone (remains_of_withoutSensor Sensor.properties (fun _ _ => rfl) hs hx)

end Content

/-! ### Catalogs without a trace -/

namespace Catalog

/-- **No trace of a sensor** that was deleted from these data. -/
structure Forgets (before : Content) (p : String) (c : Catalog) : Prop where
  /-- It is not listed. -/
  procedures : p ∉ c.ids .procedures
  /-- Nothing is known of it. -/
  keys : (∀ a ∈ Association.ofProcedures, p ∉ (c.associations a).keys) ∧ p ∉ c.procedureTimes.keys
  /-- It is related to nothing. -/
  values : ∀ a ∈ Association.toProcedures, ∀ x, p ∉ c.related a x
  /-- Its observations are gone. -/
  observations : ∀ i b, before.observations.get? i = some b → b.procedure = p →
    i ∉ c.ids .observations ∧ ∀ q, i ∉ c.related .observationsForProcedure q
  /-- So are its templates. -/
  templates : ∀ i t, before.templates.get? i = some t → t.procedure = p →
    i ∉ c.ids .templates ∧ ∀ o, i ∉ c.related .templatesForOffering o
  /-- So are the offerings that no other sensor has. -/
  offerings : ∀ o, ¬ before.Remains p Sensor.offerings o →
    o ∉ c.ids .offerings ∧ (∀ q, o ∉ c.related .offeringsForProcedure q) ∧
      (∀ x, o ∉ c.related .offeringsForProperty x) ∧
      (∀ a ∈ Association.ofOfferings, o ∉ (c.associations a).keys) ∧
      o ∉ c.offeringEnvelopes.keys ∧ o ∉ c.offeringTimes.keys
  /-- So are the properties that no other sensor has. -/
  properties : ∀ x, ¬ before.Remains p Sensor.properties x →
    x ∉ c.ids .properties ∧ (∀ o, x ∉ c.related .propertiesForOffering o) ∧
      (∀ q, x ∉ c.related .propertiesForProcedure q) ∧ ∀ a ∈ Association.ofProperties, x ∉ (c.associations a).keys
  /-- So are the features that are not described and were observed by no other procedure. -/
  features : ∀ f, before.features.get? f = none →
    (∀ i b, before.observations.get? i = some b → b.feature = f → b.procedure = p) → f ∉ c.ids .features
  /-- No offering has a feature that was observed in it by no other procedure. -/
  observed : ∀ o f, (∀ i b, before.observations.get? i = some b → b.offering = o → b.feature = f →
    b.procedure = p) → f ∉ c.related .featuresForOffering o

/-- **All of the other sensors** is still there. -/
structure Retains (before : Content) (p : String) (c : Catalog) : Prop where
  procedures : ∀ q s, q ≠ p → before.sensors.get? q = some s → q ∈ c.ids .procedures
  offerings : ∀ q s, q ≠ p → before.sensors.get? q = some s → ∀ o ∈ s.offerings,
    o ∈ c.ids .offerings ∧ o ∈ c.related .offeringsForProcedure q ∧ q ∈ c.related .proceduresForOffering o
  properties : ∀ q s, q ≠ p → before.sensors.get? q = some s → ∀ x ∈ s.properties,
    x ∈ c.ids .properties ∧ x ∈ c.related .propertiesForProcedure q ∧ q ∈ c.related .proceduresForProperty x ∧
      ∀ o ∈ s.offerings, x ∈ c.related .propertiesForOffering o ∧ o ∈ c.related .offeringsForProperty x
  /-- A parent that was deleted is a parent no more. -/
  parents : ∀ q s, q ≠ p → before.sensors.get? q = some s → ∀ r ∈ s.parents, r ≠ p →
    r ∈ c.related .parentProcedures q ∧
      ((∃ s', before.sensors.get? r = some s') → q ∈ c.related .childProcedures r)
  observations : ∀ i b, before.observations.get? i = some b → b.procedure ≠ p →
    i ∈ c.ids .observations ∧ b.feature ∈ c.ids .features ∧
      ((∃ s, before.sensors.get? b.procedure = some s) → i ∈ c.related .observationsForProcedure b.procedure)
  templates : ∀ i t, before.templates.get? i = some t → t.procedure ≠ p →
    i ∈ c.ids .templates ∧ i ∈ c.related .templatesForOffering t.offering

section Shows

variable {before : Content} {p : String} {c : Catalog}

/-- **A catalog that is true to the data without the sensor** has no trace of it. -/
theorem forgets_of_shows (h : ∀ k, (before.withoutSensor p).Shows k (c.get k)) : c.Forgets before p := by
  have hids : ∀ k x, x ∈ c.ids k ↔ (before.withoutSensor p).Has k x := fun k => h (.ids k)
  have hrelated : ∀ a x y, y ∈ c.related a x ↔ (before.withoutSensor p).Relates a x y := fun a =>
    mem_related_of_shows (h (.association a))
  have hkeys : ∀ a x, x ∈ (c.associations a).keys ↔ ∃ y, (before.withoutSensor p).Relates a x y := fun a =>
    mem_keys_iff (h (.association a))
  have hgone : ¬ ∃ s, (before.withoutSensor p).sensors.get? p = some s := by
    rintro ⟨s, hs⟩
    exact (Content.get?_sensors_withoutSensor.1 hs).1 rfl
  constructor
  case procedures =>
    rw [hids]
    exact hgone
  case keys =>
    refine ⟨fun a ha => ?_, Content.FoundIf.not_mem_keys (h .procedureTimes p) hgone⟩
    -- whatever is kept by procedure is related through a sensor of this name
    rw [hkeys]
    rintro ⟨x, hx⟩
    exact hgone (Content.exists_sensor_of_relates ha hx)
  case values =>
    intro a ha x
    rw [hrelated]
    -- there are four associations whose values are procedures
    simp only [Association.toProcedures, List.mem_cons, List.not_mem_nil, or_false] at ha
    rcases ha with rfl | rfl | rfl | rfl
    · rintro ⟨s, hs, -⟩
      exact hgone ⟨s, hs⟩
    · rintro ⟨s, hs, -⟩
      exact hgone ⟨s, hs⟩
    · -- the sensors that are left have lost this parent
      rintro ⟨s, hs, hp⟩
      obtain ⟨-, s₀, -, rfl⟩ := Content.get?_sensors_withoutSensor.1 hs
      exact (SortedSet.mem_erase.1 hp).2 rfl
    · rintro ⟨-, s, hs, -⟩
      exact hgone ⟨s, hs⟩
  case observations =>
    intro i b hi hb
    -- the observation was the sensor's, so it is not among those that are left
    have hnone : ¬ ∃ b', (before.withoutSensor p).observations.get? i = some b' := by
      rintro ⟨b', hi'⟩
      obtain ⟨hi', hb'⟩ := Content.get?_observations_withoutSensor.1 hi'
      cases hi.symm.trans hi'
      exact hb' hb
    refine ⟨fun hin => hnone ((hids .observations i).1 hin), fun q hin => ?_⟩
    obtain ⟨-, b', hi', -⟩ := (hrelated .observationsForProcedure q i).1 hin
    exact hnone ⟨b', hi'⟩
  case templates =>
    intro i t hi ht
    have hnone : ¬ ∃ t', (before.withoutSensor p).templates.get? i = some t' := by
      rintro ⟨t', hi'⟩
      obtain ⟨hi', ht'⟩ := Content.get?_templates_withoutSensor.1 hi'
      cases hi.symm.trans hi'
      exact ht' ht
    refine ⟨fun hin => hnone ((hids .templates i).1 hin), fun o hin => ?_⟩
    obtain ⟨t', hi', -⟩ := (hrelated .templatesForOffering o i).1 hin
    exact hnone ⟨t', hi'⟩
  case offerings =>
    -- only the sensor had the offering, so it is not listed, and all else about offerings hangs on that
    intro o hnone
    have hlisted := Content.not_has_offering hnone
    refine ⟨fun hin => hlisted ((hids .offerings o).1 hin), fun q hin => ?_, fun x hin => ?_, fun a ha => ?_,
      Content.FoundIf.not_mem_keys (h .offeringEnvelopes o) hlisted,
      Content.FoundIf.not_mem_keys (h .offeringTimes o) hlisted⟩
    · obtain ⟨s, hs, ho⟩ := (hrelated .offeringsForProcedure q o).1 hin
      exact hlisted ⟨q, s, hs, ho⟩
    · obtain ⟨q, s, hs, -, ho⟩ := (hrelated .offeringsForProperty x o).1 hin
      exact hlisted ⟨q, s, hs, ho⟩
    · rw [hkeys]
      rintro ⟨x, hx⟩
      exact hlisted (Content.has_offering_of_relates ha hx)
  case properties =>
    -- the same for a property that only the sensor had
    intro x hnone
    have hlisted := Content.not_has_property hnone
    refine ⟨fun hin => hlisted ((hids .properties x).1 hin), fun o hin => ?_, fun q hin => ?_, fun a ha => ?_⟩
    · obtain ⟨q, s, hs, -, hx⟩ := (hrelated .propertiesForOffering o x).1 hin
      exact hlisted ⟨q, s, hs, hx⟩
    · obtain ⟨s, hs, hx⟩ := (hrelated .propertiesForProcedure q x).1 hin
      exact hlisted ⟨q, s, hs, hx⟩
    · rw [hkeys]
      rintro ⟨y, hy⟩
      exact hlisted (Content.has_property_of_relates ha hy)
  case features =>
    intro f hnone honly hin
    rcases (hids .features f).1 hin with ⟨r, hr⟩ | ⟨i, b, hi, hf⟩
    · -- descriptions are not touched by the deletion
      cases hnone.symm.trans hr
    · obtain ⟨hi, hb⟩ := Content.get?_observations_withoutSensor.1 hi
      exact hb (honly i b hi hf)
  case observed =>
    intro o f honly hin
    obtain ⟨-, i, b, hi, ho, hf⟩ := (hrelated .featuresForOffering o f).1 hin
    obtain ⟨hi, hb⟩ := Content.get?_observations_withoutSensor.1 hi
    exact hb (honly i b hi ho hf)

/-- **A catalog that is true to the data without the sensor** has all of the others. -/
theorem retains_of_shows (h : ∀ k, (before.withoutSensor p).Shows k (c.get k)) : c.Retains before p := by
  have hids : ∀ k x, x ∈ c.ids k ↔ (before.withoutSensor p).Has k x := fun k => h (.ids k)
  have hrelated : ∀ a x y, y ∈ c.related a x ↔ (before.withoutSensor p).Relates a x y := fun a =>
    mem_related_of_shows (h (.association a))
  -- the sensors that are left are as they were, but for the parent
  have hsensor : ∀ q s, q ≠ p → before.sensors.get? q = some s →
      (before.withoutSensor p).sensors.get? q = some { s with parents := s.parents.erase p } := fun q s hq hs =>
    Content.get?_sensors_withoutSensor.2 ⟨hq, s, hs, rfl⟩
  constructor
  case procedures =>
    intro q s hq hs
    exact (hids .procedures q).2 ⟨_, hsensor q s hq hs⟩
  case offerings =>
    intro q s hq hs o ho
    have hs' := hsensor q s hq hs
    refine ⟨(hids .offerings o).2 ⟨q, _, hs', ho⟩, ?_, ?_⟩
    · exact (hrelated .offeringsForProcedure q o).2 ⟨_, hs', ho⟩
    · exact (hrelated .proceduresForOffering o q).2 ⟨_, hs', ho⟩
  case properties =>
    intro q s hq hs x hx
    have hs' := hsensor q s hq hs
    refine ⟨(hids .properties x).2 ⟨q, _, hs', hx⟩, ?_, ?_, fun o ho => ⟨?_, ?_⟩⟩
    · exact (hrelated .propertiesForProcedure q x).2 ⟨_, hs', hx⟩
    · exact (hrelated .proceduresForProperty x q).2 ⟨_, hs', hx⟩
    · exact (hrelated .propertiesForOffering o x).2 ⟨q, _, hs', ho, hx⟩
    · exact (hrelated .offeringsForProperty x o).2 ⟨q, _, hs', hx, ho⟩
  case parents =>
    -- a parent that was another sensor is one still
    intro q s hq hs r hr hrp
    have hs' := hsensor q s hq hs
    have hr' : r ∈ s.parents.erase p := SortedSet.mem_erase.2 ⟨hr, hrp⟩
    refine ⟨(hrelated .parentProcedures q r).2 ⟨_, hs', hr'⟩, ?_⟩
    rintro ⟨s', hs''⟩
    exact (hrelated .childProcedures r q).2 ⟨⟨_, hsensor r s' hrp hs''⟩, _, hs', hr'⟩
  case observations =>
    intro i b hi hb
    have hi' := Content.get?_observations_withoutSensor.2 ⟨hi, hb⟩
    refine ⟨(hids .observations i).2 ⟨b, hi'⟩, (hids .features b.feature).2 (.inr ⟨i, b, hi', rfl⟩), ?_⟩
    rintro ⟨s, hs⟩
    exact (hrelated .observationsForProcedure b.procedure i).2 ⟨⟨_, hsensor _ s hb hs⟩, b, hi', rfl⟩
  case templates =>
    intro i t hi ht
    have hi' := Content.get?_templates_withoutSensor.2 ⟨hi, ht⟩
    exact ⟨(hids .templates i).2 ⟨t, hi'⟩, (hrelated .templatesForOffering t.offering i).2 ⟨t, hi', rfl⟩⟩

end Shows

end Catalog

namespace Run

variable {steps : List Step} {firstRun : Bool} {w w' : World} {r : Run} {moves : List (Actor × Backend)}

/-- **The next rebuild after a deletion leaves no trace of the sensor** and loses nothing of the others, whatever the
catalog held before, if the data stay as the deletion left them and nothing is made to go wrong. The rebuild makes
progress until it is over. -/
theorem forgets_deleted {before : Content} {p : String} {threads : Nat}
    (hdeleted : (ContentEdit.deleteSensor p).removed? before = some true)
    (hcontent : w.archive.content = before.apply (.deleteSensor p))
    (hsteps : Standard.steps? threads = .ok steps) (hharmless : w.archive.plan.IsHarmless)
    (h : Moves (Run.start steps firstRun, w) moves (r, w')) (hfixed : ∀ m ∈ moves, m.2 = w.archive.backend) :
    Progresses w.archive.backend (Run.start steps firstRun) moves.length r w' ∧
      (r.result?.isSome = true → w'.catalog.Forgets before p ∧ w'.catalog.Retains before p) := by
  -- there was a sensor to be deleted
  have hcontains : before.sensors.contains p = true := Option.some.inj hdeleted
  have hwithout : w.archive.content = before.withoutSensor p := hcontent.trans (if_pos hcontains)
  refine ⟨h.progresses ?_ hfixed, fun hover => ?_⟩
  · obtain ⟨hthreads, rfl⟩ := Standard.steps?_eq_ok.1 hsteps
    exact fun s hs => Standard.plain_of_mem hthreads hs
  · have hdet := h.catalog_determined hsteps hharmless.opens hfixed hover
    have hshows : ∀ k, (before.withoutSensor p).Shows k (w'.catalog.get k) := by
      rw [← hwithout]
      exact hdet.shows (congrFun (Archive.answers_of_harmless hharmless))
    exact ⟨Catalog.forgets_of_shows hshows, Catalog.retains_of_shows hshows⟩

/-- Two sensors in a yard. The first is the parent of the second. It alone measures wind and has a pad, and it has
an observation and a template. -/
def yard : Content :=
  let noon : Timestamp := ⟨⟨2024, 6, 1, by decide⟩, Timestamp.hourOf 12, Timestamp.minuteOf 0, Timestamp.secondOf 0,
    Timestamp.nanosOf 0⟩
  { Content.empty with
    sensors := .ofList
      [("gauge", ⟨.ofList ["yard", "pad"], .ofList ["rain", "wind"], .ofList [], "plain"⟩),
        ("pump", ⟨.ofList ["yard"], .ofList ["rain"], .ofList ["gauge"], "plain"⟩)]
    observations := .ofList
      [("gust", ⟨"gauge", "pad", "wind", "mast", .instant noon⟩),
        ("shower", ⟨"pump", "yard", "rain", "well", .instant noon⟩)]
    templates := .ofList [("breeze", ⟨"pad", "gauge", "wind"⟩)] }

/-- The first sensor was deleted, and the catalog still has it. -/
def bereftWorld : World :=
  { World.initial with
    archive := ⟨yard.apply (.deleteSensor "gauge"), FaultPlan.none⟩
    catalog := Catalog.empty.write (.setKey .offeringsForProcedure "gauge" (.ofList ["yard", "pad"])) }

/-- The pad is gone with the first sensor, and so are its observation and its mast. The yard is still there. -/
theorem forgets_deleted_gauge : ∃ moves r w',
    Moves (Run.start (Standard.steps 2) true, bereftWorld) moves (r, w') ∧ r.result?.isSome = true ∧
      (w'.catalog.Forgets yard "gauge" ∧ w'.catalog.Retains yard "gauge") ∧
      "pad" ∉ w'.catalog.ids .offerings ∧ "gust" ∉ w'.catalog.ids .observations ∧
      "yard" ∈ w'.catalog.ids .offerings := by
  have hdeleted : (ContentEdit.deleteSensor "gauge").removed? yard = some true := rfl
  have hsteps : Standard.steps? 2 = .ok (Standard.steps 2) := rfl
  have hharmless : bereftWorld.archive.plan.IsHarmless := ⟨rfl, rfl, rfl, rfl⟩
  -- such a rebuild exists, as its steps can always go on
  obtain ⟨moves, r, w', hmoves, hfixed, hover⟩ :=
    Moves.exists_finished (r := Run.start (Standard.steps 2) true) (w := bereftWorld)
      (b := bereftWorld.archive.backend) (fun s hs => Standard.plain_of_mem (by decide) hs) .start (by simp)
  have hboth := (forgets_deleted hdeleted rfl hsteps hharmless hmoves hfixed).2 hover
  have hforgets := hboth.1
  have hretains := hboth.2
  refine ⟨moves, r, w', hmoves, hover, hboth, (hforgets.offerings "pad" ?_).1,
    (hforgets.observations "gust" _ rfl rfl).1, (hretains.offerings "pump" _ (by decide) rfl "yard" (by decide)).1⟩
  -- the only other sensor is the pump
  rintro ⟨q, s, hq, hs, ho⟩
  have hmem := SortedMap.mem_toList.2 hs
  have htoList : yard.sensors.toList = [("gauge", ⟨.ofList ["yard", "pad"], .ofList ["rain", "wind"], .ofList [],
    "plain"⟩), ("pump", ⟨.ofList ["yard"], .ofList ["rain"], .ofList ["gauge"], "plain"⟩)] := by decide
  rw [htoList] at hmem
  simp only [List.mem_cons, Prod.mk.injEq, List.not_mem_nil, or_false] at hmem
  rcases hmem with ⟨rfl, -⟩ | ⟨-, rfl⟩
  · exact hq rfl
  · exact absurd ho (by decide)

end Run

end SensorCatalog
