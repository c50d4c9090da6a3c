import SensorCatalog.Proofs.Rebuild.Determined

/-!
# Referential integrity

Several categories speak of identifiers that others list. `Catalog.Integrity` says which identifiers have to
be listed where: what is known of procedures, offerings, properties and features is known of listed ones, the
children of features are their parents read from the other side, components and templates agree with what is
listed of them, and each related feature has a role.

Each of these relations is between two categories of one step. `Standard.Tends` says that the step tends to the
relation: whenever it writes anything the relation holds afterwards, whatever was read and whatever the catalog
held before. As no other step writes to the two categories, a rebuild keeps the relation
(`Standard.Tends.of_turns`).

`Catalog.Rebuilt.integrity` is about a catalog that was empty in the beginning and that nobody but standard
rebuilds has written. The answers may be anything, they may differ from query to query, and any of them may be
missing.
-/

namespace SensorCatalog

open Turn (allWrites)

variable {α β : Type} {B : Backend → Prop}

/-- **Referential integrity.** -/
structure Catalog.Integrity (c : Catalog) : Prop where
  /-- What is known of procedures is known of those that are listed. -/
  procedures : ∀ a ∈ Association.ofProcedures, ∀ p ∈ (c.associations a).keys, p ∈ c.ids .procedures
  /-- The same for their times. -/
  procedureTimes : ∀ p ∈ c.procedureTimes.keys, p ∈ c.ids .procedures
  /-- What is found in offerings is found in those that are listed. -/
  offerings : ∀ a ∈ [.proceduresForOffering, .propertiesForOffering, .featuresForOffering],
    ∀ o ∈ (c.associations a).keys, o ∈ c.ids .offerings
  /-- The same for the boxes around them. -/
  offeringEnvelopes : ∀ o ∈ c.offeringEnvelopes.keys, o ∈ c.ids .offerings
  /-- What is known of observed properties is known of those that are listed. -/
  properties : ∀ a ∈ [.proceduresForProperty, .offeringsForProperty],
    ∀ x ∈ (c.associations a).keys, x ∈ c.ids .properties
  /-- Only features that are listed have parents. -/
  parents : ∀ f ∈ c.hierarchy.parents.keys, f ∈ c.ids .features
  /-- The children of features are their parents, read from the other side. -/
  children : ∀ g, Found (c.hierarchy.children.get? g) fun f => g ∈ setAt c.hierarchy.parents f
  /-- The composite phenomena with components are those that are listed. -/
  components : c.components.keys = c.ids .composites
  /-- The templates of all offerings are those that are listed. -/
  templates : ∀ i, i ∈ c.ids .templates ↔ ∃ o, i ∈ c.related .templatesForOffering o
  /-- A feature that is related to an offering has a role. -/
  roles : ∀ o, ∀ f ∈ c.related .relatedFeaturesForOffering o,
    c.related .rolesForRelatedFeature f ≠ SortedSet.empty

/-- In an empty catalog nothing refers to anything. -/
theorem Catalog.Integrity.empty : Catalog.empty.Integrity where
  procedures _ _ _ hp := absurd hp (SortedSet.not_mem_empty _)
  procedureTimes _ hp := absurd hp (SortedSet.not_mem_empty _)
  offerings _ _ _ ho := absurd ho (SortedSet.not_mem_empty _)
  offeringEnvelopes _ ho := absurd ho (SortedSet.not_mem_empty _)
  properties _ _ _ hx := absurd hx (SortedSet.not_mem_empty _)
  parents _ hf := absurd hf (SortedSet.not_mem_empty _)
  children _ := found_none fun _ => SortedSet.not_mem_empty _
  components := rfl
  templates i := iff_of_false (SortedSet.not_mem_empty i) fun ⟨_, h⟩ => SortedSet.not_mem_empty i h
  roles _ _ hf := absurd hf (SortedSet.not_mem_empty _)

/-- The keys of what a category holds, if it is a map. -/
def Category.keys : (k : Category) → k.Value → SortedSet
  | .association _, m | .parentFeatures, m | .childFeatures, m => m.keys
  | .components, m => m.keys
  | .offeringEnvelopes, m => m.keys
  | .offeringTimes, m | .procedureTimes, m => m.keys
  | .ids _, _ | .globalEnvelope, _ | .globalTime, _ => SortedSet.empty

/-! ### What a reading of many rows finds -/

namespace Reading

/-- If what is read tells for what it was read, the rows tell the list. -/
theorem map_of_forEach {f : α → Reading β} {id : β → α}
    (hid : ∀ a b, (f a).Comes B (.ok b) → id b = a) {l : List α} {rows : List β}
    (h : (forEach f l).Comes B (.ok rows)) : rows.map id = l := by
  induction l generalizing rows with
  | nil =>
    cases h
    rfl
  | cons a l ih =>
    obtain ⟨b, hb, hrest⟩ := comes_ok_bind.1 h
    obtain ⟨bs, hbs, hdone⟩ := comes_ok_bind.1 hrest
    cases hdone
    rw [List.map_cons, hid a b hb, ih hbs]

end Reading

namespace Standard

open Reading (comes_ok_bind' comes_ok_pure map_of_forEach)

/-- The row of an offering bears its name. -/
theorem id_of_offeringRow {o : String} {row : OfferingRow} (h : (offeringRow o).Comes B (.ok row)) :
    row.id = o := by
  simp only [offeringRow, comes_ok_bind', comes_ok_pure] at h
  obtain ⟨procedures, -, properties, -, features, -, envelope, -, rfl⟩ := h
  rfl

/-- The row of a property bears its name. -/
theorem id_of_propertyRow {x : String} {row : PropertyRow} (h : (propertyRow x).Comes B (.ok row)) :
    row.id = x := by
  simp only [propertyRow, comes_ok_bind', comes_ok_pure] at h
  obtain ⟨procedures, -, offerings, -, rfl⟩ := h
  rfl

/-- The row of a feature bears its name. -/
theorem id_of_featureRow {f : String} {row : String × List String} (h : (featureRow f).Comes B (.ok row)) :
    row.1 = f := by
  simp only [featureRow, comes_ok_bind', comes_ok_pure] at h
  obtain ⟨parents, -, rfl⟩ := h
  rfl

/-- The keys of an association are among those of its rows. -/
theorem mem_keys_associate {rows : List (String × List String)} {i : String}
    (h : i ∈ (withoutEmpty (associate rows)).keys) : i ∈ rows.map (·.1) := by
  obtain ⟨s, hs⟩ := SortedMap.mem_keys.1 h
  rw [get?_withoutEmpty] at hs
  obtain ⟨t, ht, -⟩ := Option.bind_eq_some_iff.1 hs
  have hi := SortedMap.mem_keys_ofList.1 (SortedMap.mem_keys.2 ⟨t, ht⟩)
  simpa [List.map_map, Function.comp_def] using hi

/-- Whatever is found in some rows is found for their identifiers. -/
theorem mem_ids_of_associate {id : α → String} {f : α → List String} {rows : List α} {i : String}
    (h : i ∈ (withoutEmpty (associate (rows.map fun r => (id r, f r)))).keys) : i ∈ setOf (rows.map id) := by
  have := mem_keys_associate h
  rw [List.map_map] at this
  exact SortedSet.mem_ofList.2 this

/-- The keys of the rows that have a value are among those of all rows. -/
theorem mem_keys_present {rows : List (String × Option α)} {i : String} (h : i ∈ (present rows).keys) :
    i ∈ rows.map (·.1) := by
  obtain ⟨e, he, rfl⟩ := List.mem_map.1 (SortedMap.mem_keys_ofList.1 h)
  obtain ⟨r, hr, hre⟩ := List.mem_filterMap.1 he
  obtain ⟨v, -, rfl⟩ := Option.map_eq_some_iff.1 hre
  exact List.mem_map_of_mem hr

/-! ### Relations that a step tends to -/

/-- **A relation that a step tends to**, between two of its categories: whenever the step writes anything, the
relation holds afterwards. -/
structure Tends (i k : Category) (R : i.Value → k.Value → Prop) : Prop where
  /-- One step owns both categories. -/
  owner_eq : owner k = owner i
  /-- What this step writes makes the relation hold, whatever there was before. -/
  made : ∀ {threads s}, s ∈ steps threads → s.name = owner i →
    ∀ {ws fs e}, s.program.Does (fun _ => True) ws fs e →
      ws = [] ∨ ∀ c : Catalog, R ((c.writeAll ws).get i) ((c.writeAll ws).get k)

variable {i k : Category} {R : i.Value → k.Value → Prop}

/-- **A rebuild keeps what its steps tend to.** -/
theorem Tends.of_turns (h : Tends i k R) {threads : Nat} {turns : List Turn}
    (hholds : ∀ t ∈ turns, t.Holds fun _ => True) (hsteps : ∀ t ∈ turns, t.step ∈ steps threads)
    {c : Catalog} (hc : R (c.get i) (c.get k)) :
    R ((c.writeAll (allWrites turns)).get i) ((c.writeAll (allWrites turns)).get k) := by
  -- turn by turn, from the catalog that the turns before have left
  induction turns generalizing c with
  | nil => exact hc
  | cons t turns ih =>
    have hmem : t.step ∈ steps threads := hsteps t List.mem_cons_self
    have hdoes := hholds t List.mem_cons_self
    rw [allWrites, List.flatMap_cons, Catalog.writeAll_append]
    refine ih (fun u hu => hholds u (List.mem_cons_of_mem _ hu))
      (fun u hu => hsteps u (List.mem_cons_of_mem _ hu)) ?_
    by_cases hname : t.step.name = owner i
    · rcases h.made hmem hname hdoes with hnone | hmade
      · rw [hnone]
        exact hc
      · exact hmade c
    · -- another step leaves both categories alone
      have hleaves : ∀ j, owner j = owner i → (c.writeAll t.writes).get j = c.get j := fun j hj =>
        c.get_writeAll_of_not_mem fun x hx hjx => hname <| by rw [← hj, owner_of_does hmem hdoes x hx j hjx]
      rw [hleaves i rfl, hleaves k h.owner_eq]
      exact hc

/-- A step that reads and then writes tends to what its writes make true. -/
theorem Tends.of_reading {x : String × Reading (List Write)} (hx : x ∈ readings) (hi : owner i = x.1)
    (hk : owner k = x.1)
    (hmade : ∀ ws, x.2.Comes (fun _ => True) (.ok ws) →
      ∀ c : Catalog, R ((c.writeAll ws).get i) ((c.writeAll ws).get k)) : Tends i k R where
  owner_eq := hk.trans hi.symm
  made hs hname _ _ _ h := by
    rw [program_of_name hx hs (hname.trans hi)] at h
    rcases Program.Does.of_ofReading h with ⟨hws, -⟩ | ⟨-, hnone, -⟩
    · exact .inr (hmade _ hws)
    · exact .inl hnone

/-! ### What is listed -/

/-- All keys of a category are listed. -/
def Lists (k : Category) (ids : SortedSet) (m : k.Value) : Prop := ∀ x ∈ k.keys m, x ∈ ids

/-- The step `procedures` keeps no entry of a procedure that it does not list. -/
theorem tends_procedures (k : Category) (hk : owner k = "procedures") :
    Tends (.ids .procedures) k (Lists k) := by
  refine ⟨hk, fun hs hname _ _ _ h => ?_⟩
  rw [program_of_procedures hs hname] at h
  refine (prunes_of_does h).imp_right fun ⟨keep, hprunes⟩ c p hp => ?_
  rw [Catalog.get, hprunes.ids_eq]
  by_contra hgone
  -- nothing is left of a procedure that is not kept
  cases k with
  | association a =>
    obtain ⟨s, hs⟩ := SortedMap.mem_keys.1 hp
    have hplace := Catalog.isPlace_cell (owner_association.1 hk) p
    have hnone := (hprunes.makes_none hplace hgone).view_eq c
    exact Option.some_ne_none s (hs.symm.trans hnone)
  | procedureTimes =>
    obtain ⟨t, ht⟩ := SortedMap.mem_keys.1 hp
    have hnone := (hprunes.makes_none (Catalog.isPlace_time p) hgone).view_eq c
    exact Option.some_ne_none t (ht.symm.trans hnone)
  | ids i => exact SortedSet.not_mem_empty p hp
  | _ => exact absurd hk (by decide)

/-- The step `offerings` has entries for the offerings that it lists only. -/
theorem tends_offerings (k : Category) (hk : owner k = "offerings") :
    Tends (.ids .offerings) k (Lists k) := by
  refine .of_reading (x := ("offerings", offerings)) (by simp [readings]) rfl hk fun ws h c => ?_
  simp only [offerings, comes_ok_bind', comes_ok_pure] at h
  obtain ⟨ids, -, rows, hrows, rfl⟩ := h
  obtain rfl : rows.map (·.id) = ids := map_of_forEach (fun _ _ => id_of_offeringRow) hrows
  -- the five categories that this step owns
  revert k
  refine forall_owned ?_
  change ∀ k ∈ [_, _, _, _, _], _
  simp only [List.forall_mem_cons]
  refine ⟨fun o ho => absurd ho (SortedSet.not_mem_empty o), fun _ => mem_ids_of_associate,
    fun _ => mem_ids_of_associate, fun _ => mem_ids_of_associate, fun o ho => ?_, by simp⟩
  have := mem_keys_present ho
  rw [List.map_map] at this
  exact SortedSet.mem_ofList.2 this

/-- The step `observable_properties` has entries for the properties that it lists only. -/
theorem tends_properties (k : Category) (hk : owner k = "observable_properties") :
    Tends (.ids .properties) k (Lists k) := by
  refine .of_reading (x := ("observable_properties", properties)) (by simp [readings]) rfl hk fun ws h c => ?_
  simp only [properties, comes_ok_bind', comes_ok_pure] at h
  obtain ⟨ids, -, rows, hrows, rfl⟩ := h
  -- there is a row for each of the properties, and for no other
  obtain rfl : rows.map (·.id) = ids := map_of_forEach (fun _ _ => id_of_propertyRow) hrows
  revert k
  refine forall_owned ?_
  change ∀ k ∈ [_, _, _], _
  simp only [List.forall_mem_cons]
  exact ⟨fun x hx => absurd hx (SortedSet.not_mem_empty x), fun _ => mem_ids_of_associate,
    fun _ => mem_ids_of_associate, by simp⟩

/-- The parents of features are told of listed features only. -/
theorem tends_parents : Tends (.ids .features) .parentFeatures (Lists .parentFeatures) := by
  refine .of_reading (x := ("features_of_interest", features)) (by simp [readings]) rfl rfl
    fun ws h c f hf => ?_
  simp only [features, comes_ok_bind', comes_ok_pure] at h
  obtain ⟨ids, -, rows, hrows, envelope, -, rfl⟩ := h
  have hids : rows.map (·.1) = ids := map_of_forEach (fun _ _ => id_of_featureRow) hrows
  exact SortedSet.mem_ofList.2 (hids ▸ mem_keys_associate hf)

/-! ### What is told twice -/

/-- The children of features are their parents read from the other side. -/
theorem tends_children :
    Tends .parentFeatures .childFeatures fun parents children =>
      ∀ g, Found (children.get? g) fun f => g ∈ setAt parents f := by
  refine .of_reading (x := ("features_of_interest", features)) (by simp [readings]) rfl rfl
    fun ws h c g => ?_
  simp only [features, comes_ok_bind', comes_ok_pure] at h
  obtain ⟨ids, -, rows, -, envelope, -, rfl⟩ := h
  -- both sides are derived from what was read
  have hread : ∀ f g, g ∈ setAt (associate rows) f ↔ g ∈ setAt (associate rows) f := fun _ _ => .rfl
  exact (Hierarchy.found_children hread g).congr fun f => ((Hierarchy.found_parents hread f).1 g).symm

/-- The components are those of the composites that are listed. -/
theorem tends_components : Tends (.ids .composites) .components fun ids m => m.keys = ids := by
  refine .of_reading (x := ("composite_phenomena", composites)) (by simp [readings]) rfl rfl fun ws h c => ?_
  simp only [composites, comes_ok_bind', comes_ok_pure] at h
  obtain ⟨found, -, rfl⟩ := h
  refine SortedSet.ext fun x => SortedMap.mem_keys_ofList.trans ?_
  rw [List.map_map]
  exact SortedSet.mem_ofList.symm

/-- What was collected under a name is what was paired with it. -/
theorem mem_setAt_collect {pairs : List (String × String)} {i x : String} :
    x ∈ setAt (withoutEmpty (collect pairs)) i ↔ (i, x) ∈ pairs :=
  (found_collect (fun _ _ => .rfl) i).1 x

/-- The templates that are listed are those of the offerings. -/
theorem tends_templates :
    Tends (.ids .templates) (.association .templatesForOffering) fun ids m =>
      ∀ i, i ∈ ids ↔ ∃ o, i ∈ setAt m o := by
  refine .of_reading (x := ("result_templates", templates)) (by simp [readings]) rfl rfl fun ws h c i => ?_
  simp only [templates, comes_ok_bind', comes_ok_pure] at h
  obtain ⟨found, -, rfl⟩ := h
  refine SortedSet.mem_ofList.trans ?_
  rw [List.mem_map]
  constructor
  · -- each template was found with an offering
    rintro ⟨t, ht, rfl⟩
    exact ⟨t.template.offering, mem_setAt_collect.2 (List.mem_map.2 ⟨t, ht, rfl⟩)⟩
  · -- and what was collected for an offering was found
    rintro ⟨o, ho⟩
    obtain ⟨t, ht, he⟩ := List.mem_map.1 (mem_setAt_collect.1 ho)
    exact ⟨t, ht, congrArg Prod.snd he⟩

/-- A related feature of an offering has a role. -/
theorem tends_roles :
    Tends (.association .relatedFeaturesForOffering) (.association .rolesForRelatedFeature)
      fun related roles => ∀ o, ∀ f ∈ setAt related o, setAt roles f ≠ SortedSet.empty := by
  refine .of_reading (x := ("related_features", relatedFeatures)) (by simp [readings]) rfl rfl
    fun ws h c o f hf => ?_
  simp only [relatedFeatures, comes_ok_bind', comes_ok_pure] at h
  obtain ⟨found, -, rfl⟩ := h
  -- whatever relates the feature to the offering names its role
  obtain ⟨r, hr, hof⟩ := List.mem_flatMap.1 (mem_setAt_collect.1 hf)
  obtain ⟨o', -, he⟩ := List.mem_map.1 hof
  have hid : r.id = f := congrArg Prod.snd he
  have hrole : (f, r.role) ∈ found.map fun r => (r.id, r.role) :=
    List.mem_map.2 ⟨r, hr, congrArg (·, r.role) hid⟩
  intro hnone
  have hin : r.role ∈ SortedSet.empty := hnone.subst (motive := (r.role ∈ ·)) (mem_setAt_collect.2 hrole)
  exact SortedSet.not_mem_empty _ hin

end Standard

/-! ### Any history -/

/-- **A standard rebuild keeps the integrity of the catalog**, whatever is asked in vain. -/
theorem Catalog.Integrity.of_turns {threads : Nat} {turns : List Turn}
    (hholds : ∀ t ∈ turns, t.Holds fun _ => True) (hsteps : Turn.steps turns = Standard.steps threads)
    {c : Catalog} (h : c.Integrity) : (c.writeAll (allWrites turns)).Integrity := by
  have hmem : ∀ t ∈ turns, t.step ∈ Standard.steps threads := fun t ht => hsteps ▸ List.mem_map_of_mem ht
  -- each relation is between categories of one step, so it tends to hold after the turn of this step
  constructor
  case procedures =>
    intro a ha
    have hown := Standard.owner_association.2 ha
    exact (Standard.tends_procedures _ hown).of_turns hholds hmem (h.procedures a ha)
  case procedureTimes =>
    exact (Standard.tends_procedures .procedureTimes rfl).of_turns hholds hmem h.procedureTimes
  case offerings =>
    intro a ha
    have hown : Standard.owner (.association a) = "offerings" := by
      revert a
      decide
    exact (Standard.tends_offerings _ hown).of_turns hholds hmem (h.offerings a ha)
  case offeringEnvelopes =>
    exact (Standard.tends_offerings .offeringEnvelopes rfl).of_turns hholds hmem h.offeringEnvelopes
  case properties =>
    intro a ha
    have hown : Standard.owner (.association a) = "observable_properties" := by
      revert a
      decide
    exact (Standard.tends_properties _ hown).of_turns hholds hmem (h.properties a ha)
  case parents => exact Standard.tends_parents.of_turns hholds hmem h.parents
  case children => exact Standard.tends_children.of_turns hholds hmem h.children
  case components => exact Standard.tends_components.of_turns hholds hmem h.components
  case templates => exact Standard.tends_templates.of_turns hholds hmem h.templates
  case roles => exact Standard.tends_roles.of_turns hholds hmem h.roles

/-- **Catalogs that only standard rebuilds have written.** Each rebuild was begun when the one before it was
over. Nothing is said of the answers: whoever moves may meet any backend. -/
inductive Catalog.Rebuilt : Catalog → Prop where
  /-- Nobody has written it. -/
  | empty : Rebuilt Catalog.empty
  /-- One more rebuild is over. -/
  | rebuild {threads : Nat} {steps : List Step} {firstRun : Bool} {w w' : World} {r : Run}
    {moves : List (Actor × Backend)} (before : Rebuilt w.catalog)
    (hsteps : Standard.steps? threads = .ok steps)
    (h : Run.Moves (Run.start steps firstRun, w) moves (r, w')) (hover : r.result?.isSome = true) :
    Rebuilt w'.catalog

namespace Catalog.Rebuilt

/-- **Integrity survives any history.** However many rebuilds there were, and whatever went wrong in them:
whenever none is running, all identifiers that the catalog relates are listed. -/
theorem integrity {c : Catalog} (h : c.Rebuilt) : c.Integrity := by
  -- over the rebuilds; each of them leaves the catalog alone or makes its turns
  induction h with
  | empty => exact .empty
  | rebuild before hsteps h hover ih =>
    obtain ⟨-, rfl⟩ := Standard.steps?_eq_ok.1 hsteps
    rcases h.turns (B := fun _ => True) (fun _ _ => trivial) hover with
      ⟨hsame, -⟩ | ⟨turns, hholds, hturns, hc⟩
    · rw [hsame]
      exact ih
    · rw [hc]
      exact ih.of_turns hholds hturns

/-- After any history another rebuild can come to its end. While the archive stays as it is, what it leaves is
determined. -/
theorem exists_next {c : Catalog} (h : c.Rebuilt) (a : Archive) (hopen : a.plan.refusesSessions = false) :
    ∃ c', Rebuilt c' ∧ Standard.Determined a c c' := by
  have hsteps : Standard.steps? 2 = .ok (Standard.steps 2) := rfl
  obtain ⟨moves, r, w, hmoves, hfixed, hover⟩ :=
    Run.Moves.exists_finished (r := Run.start (Standard.steps 2) true)
      (w := { World.initial with archive := a, catalog := c }) (b := a.backend)
      (fun s hs => Standard.plain_of_mem (by decide) hs) .start (by simp)
  exact ⟨w.catalog, h.rebuild hsteps hmoves hover, hmoves.catalog_determined hsteps hopen hfixed hover⟩

/-- An archive that has lost its sensors and does not tell its offerings. -/
def lostArchive : Archive :=
  ⟨Content.empty, { FaultPlan.none with failingQueries := .ofList ["offering_identifiers"] }⟩

/-- After the troubled rebuild there is one over the lost archive. The old offering is still listed, with what
was found in it, but no procedure is. -/
theorem integrity_lost : ∃ c : Catalog, c.Integrity ∧ "yard" ∈ c.ids .offerings ∧
    "pump" ∈ c.related .proceduresForOffering "yard" ∧ ∀ p, p ∉ c.ids .procedures := by
  obtain ⟨c₁, h₁, hdet₁⟩ := Rebuilt.empty.exists_next Run.troubledArchive rfl
  obtain ⟨c₂, h₂, hdet₂⟩ := h₁.exists_next lostArchive rfl
  have hmem : ("offerings", Standard.offerings) ∈ Standard.readings := by simp [Standard.readings]
  -- the first rebuild could read the offerings, and the second could not
  have hread := hdet₁.answered _ hmem (by decide)
  have hkept := hdet₂.unanswered _ hmem ⟨.offeringIdentifiers, by decide, by decide⟩
  have hids : c₂.ids .offerings = c₁.ids .offerings := hkept (.ids .offerings) rfl
  have hof : c₂.associations .proceduresForOffering = c₁.associations .proceduresForOffering :=
    hkept (.association .proceduresForOffering) rfl
  have hyard : Run.troubledArchive.content.Relates .proceduresForOffering "yard" "pump" :=
    ⟨_, rfl, by decide⟩
  refine ⟨c₂, h₂.integrity, ?_, ?_, fun p hp => ?_⟩
  · rw [hids]
    exact (hread (.ids .offerings) rfl "yard").2 ⟨"pump", hyard⟩
  · rw [Catalog.related, hof]
    exact ((hread (.association .proceduresForOffering) rfl "yard").1 "pump").2 hyard
  · obtain ⟨s, hs⟩ := (hdet₂.procedures (by decide) p).1 hp
    cases hs

end Catalog.Rebuilt

end SensorCatalog
