import SensorCatalog.Rebuild.Standard
import SensorCatalog.Proofs.Archive.Content
import SensorCatalog.Proofs.Catalog.Write
import SensorCatalog.Proofs.Rebuild.Program

/-!
# What the standard steps read and write

Each category is written by one of the standard steps, its owner (`Standard.owner`). All but the seven
categories of `procedures` are written from one reading, and `Standard.readings` lists these.

* `Standard.owner_of_does`: whatever a step meets, it writes to categories that it owns only.
* `Standard.tells_of_mem`: answered from the data, a reading has a result, and the writes make each
  category of its step true to the data.
* `Standard.tells_procedureEntry` is the same for what is known of one procedure.
* `Standard.prunes_of_does`: the step `procedures` writes nothing, or it forgets the procedures that are gone
  and enters others, whatever it meets. `Standard.refreshes_of_backend` says which ones it enters while all
  that it meets is one backend.

An archive in which something goes wrong answers fewer queries, but never differently
(`Archive.reply_of_answers`), so whatever is read from it is what the data say (`Reading.run_mono`).
-/

namespace SensorCatalog

variable {α β : Type} {B : Backend → Prop}

/-! ### Readings and their queries -/

namespace Reading

/-- **The queries that a reading asks**, in order. After one that is not answered there is no other. -/
def asked (answers : Answers) : Reading α → List Query
  | .done _ => []
  | .ask q next =>
    q ::
      match answers q with
      | .ok v => (next v).asked answers
      | _ => []

/-- A reading has a result when all the queries that it asks are answered. -/
theorem isOk_run_iff {answers : Answers} {r : Reading α} :
    (r.run answers).isOk = true ↔ ∀ q ∈ r.asked answers, (answers q).isOk = true := by
  -- along the reading; the first query without an answer is the last one that is asked
  induction r with
  | done a => simp [run, asked, Outcome.isOk]
  | ask q next ih =>
    rw [run, asked]
    cases hq : answers q with
    | ok v =>
      rw [ih v]
      simp [hq, Outcome.isOk]
    | fault f => simp [hq, Outcome.isOk]
    | panic p => simp [hq, Outcome.isOk]

/-- A source that answers more queries, but none differently, leads to the same result. -/
theorem run_mono {answers more : Answers} (h : ∀ q v, answers q = .ok v → more q = .ok v)
    {r : Reading α} {a : α} (hr : r.run answers = .ok a) : r.run more = .ok a := by
  induction r with
  | done a' => exact hr
  | ask q next ih =>
    rw [run] at hr ⊢
    cases hq : answers q with
    | ok v =>
      rw [hq] at hr
      rw [h q v hq]
      exact ih v hr
    | fault f => rw [hq] at hr; cases hr
    | panic p => rw [hq] at hr; cases hr

/-- A single query has the result of its answer. -/
theorem run_query (answers : Answers) (q : Query) : (query q).run answers = answers q := by
  rw [query, run]
  cases answers q <;> rfl

/-- Where each row can be read, so can all of them. -/
theorem run_forEach {answers : Answers} {f : α → Reading β} {g : α → β} {l : List α}
    (h : ∀ a, (f a).run answers = .ok (g a)) : (forEach f l).run answers = .ok (l.map g) := by
  induction l with
  | nil => rfl
  | cons a l ih =>
    rw [forEach, run_bind, h a]
    simp only [run_bind, ih]
    rfl

/-- `comes_ok_bind` in the notation of the monad. -/
theorem comes_ok_bind' {r : Reading α} {f : α → Reading β} {b : β} :
    (r >>= f).Comes B (.ok b) ↔ ∃ a, r.Comes B (.ok a) ∧ (f a).Comes B (.ok b) :=
  comes_ok_bind

/-- Where nothing is asked the result is at hand. -/
theorem comes_ok_pure {a b : α} : (pure a : Reading α).Comes B (.ok b) ↔ b = a :=
  comes_ok_done

end Reading

/-- An answer that the archive gives is what its data say. -/
theorem Archive.reply_of_answers {a : Archive} {q : Query} {v : q.Reply} (h : a.answers q = .ok v) :
    a.content.reply q = .ok v := by
  rw [answers] at h
  cases hi : interference? a.plan q with
  -- without interference the archive answers from its data
  | none =>
    rw [hi] at h
    exact h
  | some outcome =>
    rw [hi] at h
    subst h
    -- the plan makes up no answers
    rw [interference?] at hi
    split at hi
    · cases hi
    · cases hp : q.procedure? with
      | none => simp [hp] at hi
      | some p =>
        simp only [hp] at hi
        split at hi
        · cases hi
        · split at hi <;> cases hi

namespace Standard

open Reading (comes_ok_bind' comes_ok_pure forEach query run_bind run_forEach)

/-! ### Owners -/

/-- **The standard step that owns a category.** -/
def owner : Category → String
  | .ids .offerings | .association .proceduresForOffering | .association .propertiesForOffering
  | .association .featuresForOffering | .offeringEnvelopes => "offerings"
  | .ids .procedures | .association .offeringsForProcedure | .association .propertiesForProcedure
  | .association .parentProcedures | .association .childProcedures
  | .association .observationsForProcedure | .procedureTimes => "procedures"
  | .ids .properties | .association .proceduresForProperty | .association .offeringsForProperty =>
    "observable_properties"
  | .ids .features | .parentFeatures | .childFeatures | .globalEnvelope => "features_of_interest"
  | .association .relatedFeaturesForOffering | .association .rolesForRelatedFeature => "related_features"
  | .ids .composites | .components => "composite_phenomena"
  | .ids .descriptionFormats | .ids .featureTypes => "static_capabilities"
  | .ids .observations => "observation_identifiers"
  | .ids .templates | .association .templatesForOffering => "result_templates"
  | .globalTime => "global_temporal_extent"
  | .offeringTimes => "offering_temporal_extent"

/-- Five associations are about procedures, and these belong to one step. -/
theorem owner_association {a : Association} :
    owner (.association a) = "procedures" ↔ a ∈ Association.ofProcedures := by
  cases a <;> decide

/-- **The steps that read and then write**, with their readings. -/
def readings : List (String × Reading (List Write)) :=
  [("offerings", offerings), ("observable_properties", properties), ("features_of_interest", features),
    ("related_features", relatedFeatures), ("composite_phenomena", composites),
    ("static_capabilities", capabilities), ("observation_identifiers", observations),
    ("result_templates", templates), ("global_temporal_extent", globalTime),
    ("offering_temporal_extent", offeringTimes)]

/-- Each standard step reads and then writes, but for the one that has work done side by side. -/
theorem mem_steps {threads : Nat} {s : Step} :
    s ∈ steps threads ↔
      s = ⟨"procedures", procedures threads⟩ ∨ ∃ x ∈ readings, s = ⟨x.1, .ofReading x.2⟩ := by
  simp [steps, readings]
  tauto

/-- What holds of each category on the list of those that a step owns. -/
theorem forall_owned {name : String} {P : Category → Prop}
    (h : ∀ k ∈ Category.all.filter fun k => owner k == name, P k) (k : Category) (hk : owner k = name) :
    P k :=
  h k (List.mem_filter.2 ⟨Category.mem_all k, by simpa using hk⟩)

/-- **A step makes its own categories anew**, and no others, whatever its reading finds. -/
theorem writes_of_comes {x : String × Reading (List Write)} (hx : x ∈ readings) {ws : List Write}
    (h : x.2.Comes B (.ok ws)) : ∀ w ∈ ws, w.replaces = true ∧ ∀ k ∈ w.categories, owner k = x.1 := by
  simp only [readings, List.mem_cons, List.not_mem_nil, or_false] at hx
  -- a result is a list of writes whose categories do not depend on what was read
  rcases hx with rfl | rfl | rfl | rfl | rfl | rfl | rfl | rfl | rfl | rfl <;>
    simp only [offerings, properties, features, relatedFeatures, composites, capabilities, observations,
      templates, globalTime, offeringTimes, comes_ok_bind', comes_ok_pure] at h
  · obtain ⟨ids, -, rows, -, rfl⟩ := h
    simp [Write.replaces, Write.categories, owner]
  · obtain ⟨ids, -, rows, -, rfl⟩ := h
    simp [Write.replaces, Write.categories, owner]
  · obtain ⟨ids, -, rows, -, envelope, -, rfl⟩ := h
    simp [Write.replaces, Write.categories, owner]
  · obtain ⟨related, -, rfl⟩ := h
    simp [Write.replaces, Write.categories, owner]
  · obtain ⟨found, -, rfl⟩ := h
    simp [Write.replaces, Write.categories, owner]
  · obtain ⟨formats, -, types, -, rfl⟩ := h
    simp [Write.replaces, Write.categories, owner]
  · obtain ⟨ids, -, rfl⟩ := h
    simp [Write.replaces, Write.categories, owner]
  · obtain ⟨found, -, rfl⟩ := h
    simp [Write.replaces, Write.categories, owner]
  · obtain ⟨time, -, rfl⟩ := h
    simp [Write.replaces, Write.categories, owner]
  · obtain ⟨ids, -, rows, -, rfl⟩ := h
    simp [Write.replaces, Write.categories, owner]

/-! ### What the writes make of the catalog -/

/-- An association that was made of rows has what the rows say. -/
theorem found_associate {ids : List String} {f : String → List String} {R : String → String → Prop}
    (h : ∀ i x, i ∈ ids ∧ x ∈ f i ↔ R i x) (i : String) :
    Found ((withoutEmpty (associate (ids.map fun i => (i, f i)))).get? i) (R i) := by
  refine found_withoutEmpty fun x => ?_
  rw [← h i x, associate, List.map_map, setAt]
  have := SortedMap.get?_ofList_map ids (fun i => setOf (f i)) i
  simp only [Function.comp_def] at this ⊢
  rw [this]
  by_cases hi : i ∈ ids <;> simp [hi]

/-- Of rows with a value the value is found, and no other row is there. -/
theorem get?_present (ids : List String) (f : String → Option α) (i : String) :
    (present (ids.map fun i => (i, f i))).get? i = if i ∈ ids then f i else none := by
  have := SortedMap.get?_ofList_filterMap ids f i
  rwa [present, List.filterMap_map]

/-- What is found in such a map is what the rows say, where there are rows. -/
theorem foundIf_present {ids : List String} {f : String → Option α} {P : String → Prop}
    (h : ∀ i, i ∈ ids ↔ P i) (i : String) :
    Content.FoundIf (P i) ((present (ids.map fun i => (i, f i))).get? i) (f i) := by
  rw [get?_present, ← h i]
  exact ⟨fun hi => if_pos hi, fun hi => if_neg hi⟩

/-- An association that was made of pairs has what the pairs say. -/
theorem found_collect {pairs : List (String × String)} {R : String → String → Prop}
    (h : ∀ i x, (i, x) ∈ pairs ↔ R i x) (i : String) :
    Found ((withoutEmpty (collect pairs)).get? i) (R i) := by
  refine found_withoutEmpty fun x => ?_
  rw [collect, mem_setAt_foldl_addAt, h i x]
  exact or_iff_left (SortedSet.not_mem_empty x)

/-- A reading that is answered from the data makes categories true to them. -/
def Tells (c : Content) (name : String) (r : Reading (List Write)) : Prop :=
  ∃ ws, r.run c.reply = .ok ws ∧
    ∀ k, owner k = name → ∀ prior : Catalog, c.Shows k ((prior.writeAll ws).get k)

/-- A reading with a result tells the truth if its writes do so in each of the categories of its step. -/
theorem Tells.intro {c : Content} {name : String} {r : Reading (List Write)} {ws : List Write}
    (hrun : r.run c.reply = .ok ws)
    (h : ∀ k ∈ Category.all.filter fun k => owner k == name,
      ∀ prior : Catalog, c.Shows k ((prior.writeAll ws).get k)) : Tells c name r :=
  ⟨ws, hrun, forall_owned h⟩

/-- What is read row by row has the rows of its list. -/
theorem run_rows {answers : Answers} {ids : List String} {row : String → Reading α} {g : String → α}
    {f : List α → β} (h : ∀ i, (row i).run answers = .ok (g i)) :
    ((forEach row ids).bind fun rows => .done (f rows)).run answers = .ok (f (ids.map g)) := by
  rw [run_bind, run_forEach h]
  rfl

variable (c : Content)

/-- The step `offerings` tells the truth. -/
theorem tells_offerings : Tells c "offerings" offerings := by
  have hrun : offerings.run c.reply = _ := run_rows fun o => rfl
  simp only [List.map_map, Function.comp_def] at hrun
  refine .intro hrun ?_
  -- the five categories that this step owns
  change ∀ k ∈ [_, _, _, _, _], _
  simp only [List.forall_mem_cons]
  refine ⟨fun _ x => ?_, fun _ => found_associate fun o p => ?_, fun _ => found_associate fun o x => ?_,
    fun _ => found_associate fun o f => ?_, fun _ o => ?_, by simp⟩
  -- the list, then the procedures, properties, features and boxes of each offering
  · exact SortedSet.mem_ofList.trans Content.mem_gather
  · rw [Content.mem_gather, Content.mem_keys_toList]
    simp only [Content.get?_sensorsWhere, decide_eq_true_eq]
    exact and_iff_right_of_imp fun ⟨s, hs, ho⟩ => ⟨p, s, hs, ho⟩
  · rw [Content.mem_gather, Content.mem_gather]
    simp only [Content.get?_sensorsWhere, decide_eq_true_eq, and_assoc]
    exact and_iff_right_of_imp fun ⟨p, s, hs, ho, _⟩ => ⟨p, s, hs, ho⟩
  · rw [Content.mem_gather, Content.mem_featuresOf]
    simp only [beq_iff_eq]
    rfl
  · rw [← Content.envelopeOf_featuresOf]
    exact foundIf_present (fun o => Content.mem_gather) o

/-- The step `observable_properties` tells the truth. -/
theorem tells_properties : Tells c "observable_properties" properties := by
  have hrun : properties.run c.reply = _ := run_rows fun x => rfl
  simp only [List.map_map, Function.comp_def] at hrun
  refine .intro hrun ?_
  change ∀ k ∈ [_, _, _], _
  simp only [List.forall_mem_cons]
  refine ⟨fun _ x => ?_, fun _ => found_associate fun x p => ?_, fun _ => found_associate fun x o => ?_,
    by simp⟩
  -- the list, then the procedures and the offerings of each property
  · exact SortedSet.mem_ofList.trans Content.mem_gather
  · rw [Content.mem_gather, Content.mem_keys_toList]
    simp only [Content.get?_sensorsWhere, decide_eq_true_eq]
    exact and_iff_right_of_imp fun ⟨s, hs, hx⟩ => ⟨p, s, hs, hx⟩
  · rw [Content.mem_gather, Content.mem_gather]
    simp only [Content.get?_sensorsWhere, decide_eq_true_eq, and_assoc]
    exact and_iff_right_of_imp fun ⟨p, s, hs, hx, _⟩ => ⟨p, s, hs, hx⟩

/-- The features are read with their parents and boxes. -/
theorem run_features :
    features.run c.reply = .ok
      [.setIds .features (setOf c.allFeatures.toList),
        .replaceParents (associate (c.allFeatures.toList.map fun f =>
          (f, match c.features.get? f with
            | some g => g.parents.toList
            | none => []))),
        .setGlobalEnvelope (Content.envelopeOf c.features.values)] := by
  change ((forEach featureRow _).bind _).run c.reply = _
  rw [run_bind, run_forEach fun f => rfl]
  rfl

/-- The step `features_of_interest` tells the truth. -/
theorem tells_features : Tells c "features_of_interest" features := by
  refine .intro (run_features c) ?_
  change ∀ k ∈ [_, _, _, _], _
  simp only [List.forall_mem_cons]
  -- the parents that are read, as a relation
  have hparents : ∀ f g, g ∈ setAt (associate (c.allFeatures.toList.map fun f =>
      (f, match c.features.get? f with
        | some r => r.parents.toList
        | none => []))) f ↔ c.Parent f g := by
    intro f g
    rw [associate, List.map_map, setAt]
    have hget := SortedMap.get?_ofList_map c.allFeatures.toList
      (fun f => setOf (match c.features.get? f with
        | some r => r.parents.toList
        | none => [])) f
    simp only [Function.comp_def] at hget ⊢
    rw [hget]
    -- a feature without a description has no parents
    cases hf : c.features.get? f with
    | none =>
      have hnone : ¬ c.Parent f g := by
        rintro ⟨r, hr, -⟩
        rw [hf] at hr
        cases hr
      split <;> simp [hnone]
    | some r =>
      have hmem : f ∈ c.allFeatures.toList := Content.mem_allFeatures.2 (.inl ⟨r, hf⟩)
      simp only [if_pos hmem, Option.getD_some, SortedSet.mem_ofList, Content.Parent, hf]
      constructor
      · exact fun hg => ⟨r, rfl, hg⟩
      · rintro ⟨r', hr, hg⟩
        exact Option.some.inj hr ▸ hg
  refine ⟨fun _ f => ?_, fun _ => Hierarchy.found_parents hparents,
    fun _ => Hierarchy.found_children hparents, fun _ => ?_, by simp⟩
  · exact SortedSet.mem_ofList.trans Content.mem_allFeatures
  · change Envelope.union _ = Envelope.union _
    rw [Content.places, Content.filter_true]

/-- The step `related_features` tells the truth. -/
theorem tells_relatedFeatures : Tells c "related_features" relatedFeatures := by
  refine .intro rfl ?_
  change ∀ k ∈ [_, _], _
  simp only [List.forall_mem_cons]
  refine ⟨fun _ => found_collect fun o f => ?_, fun _ => found_collect fun f role => ?_, by simp⟩
  · simp only [List.mem_flatMap, List.mem_map, Prod.mk.injEq]
    constructor
    · rintro ⟨r, hr, o', ho, rfl, rfl⟩
      exact ⟨r, hr, ho, rfl⟩
    · rintro ⟨r, hr, ho, rfl⟩
      exact ⟨r, hr, o, ho, rfl, rfl⟩
  · simp only [List.mem_map, Prod.mk.injEq]
    rfl

/-- The step `composite_phenomena` tells the truth. -/
theorem tells_composites : Tells c "composite_phenomena" composites := by
  refine .intro rfl ?_
  change ∀ k ∈ [_, _], _
  simp only [List.forall_mem_cons]
  refine ⟨fun _ i => ?_, fun _ id => ?_, by simp⟩
  · refine SortedSet.mem_ofList.trans ?_
    rw [List.mem_map]
    rfl
  -- of two composites of one name the later one is found, as in the data
  · refine (SortedMap.get?_ofList _ id).trans ?_
    rw [← List.map_reverse, List.find?_map, Option.map_map]
    rfl

/-- The step `static_capabilities` tells the truth. -/
theorem tells_capabilities : Tells c "static_capabilities" capabilities := by
  refine .intro rfl ?_
  change ∀ k ∈ [_, _], _
  simp only [List.forall_mem_cons]
  refine ⟨fun _ m => ?_, fun _ t => ?_, by simp⟩
  · refine (SortedSet.mem_ofList.trans SortedSet.mem_ofList).trans ?_
    rw [List.mem_map]
    constructor
    · rintro ⟨s, hs, hm⟩
      obtain ⟨p, hp⟩ := Content.mem_values.1 hs
      exact ⟨p, s, hp, hm⟩
    · rintro ⟨p, s, hp, hm⟩
      exact ⟨s, Content.mem_values.2 ⟨p, hp⟩, hm⟩
  · exact SortedSet.mem_ofList

/-- The step `observation_identifiers` tells the truth. -/
theorem tells_observations : Tells c "observation_identifiers" observations := by
  refine .intro rfl ?_
  change ∀ k ∈ [_], _
  simp only [List.forall_mem_cons]
  exact ⟨fun _ i => SortedSet.mem_ofList.trans Content.mem_keys_toList, by simp⟩

/-- The step `result_templates` tells the truth. -/
theorem tells_templates : Tells c "result_templates" templates := by
  refine .intro rfl ?_
  change ∀ k ∈ [_, _], _
  simp only [List.forall_mem_cons]
  -- the templates that are read
  have hmem : ∀ (i : String) (t : Template),
      (⟨i, t⟩ : NamedTemplate) ∈ c.templates.toList.map (fun e => (⟨e.1, e.2⟩ : NamedTemplate)) ↔
        c.templates.get? i = some t := by
    intro i t
    rw [← SortedMap.mem_toList, List.mem_map]
    constructor
    · rintro ⟨⟨j, u⟩, he, hju⟩
      cases hju
      exact he
    · exact fun he => ⟨(i, t), he, rfl⟩
  refine ⟨fun _ i => ?_, fun _ => found_collect fun o i => ?_, by simp⟩
  · refine SortedSet.mem_ofList.trans ?_
    rw [List.mem_map]
    constructor
    · rintro ⟨⟨j, t⟩, ht, rfl⟩
      exact ⟨t, (hmem j t).1 ht⟩
    · rintro ⟨t, ht⟩
      exact ⟨⟨i, t⟩, (hmem i t).2 ht, rfl⟩
  · rw [List.mem_map]
    constructor
    · rintro ⟨⟨j, t⟩, ht, hoi⟩
      cases hoi
      exact ⟨t, (hmem j t).1 ht, rfl⟩
    · rintro ⟨t, ht, rfl⟩
      exact ⟨⟨i, t⟩, (hmem i t).2 ht, rfl⟩

/-- The step `global_temporal_extent` tells the truth. -/
theorem tells_globalTime : Tells c "global_temporal_extent" globalTime := by
  refine .intro rfl ?_
  change ∀ k ∈ [_], _
  simp only [List.forall_mem_cons]
  refine ⟨fun _ => ?_, by simp⟩
  change Period.union _ = Period.union _
  rw [Content.times, Content.observationsWhere, Content.filter_true]

/-- The step `offering_temporal_extent` tells the truth. -/
theorem tells_offeringTimes : Tells c "offering_temporal_extent" offeringTimes := by
  have hrun : offeringTimes.run c.reply = _ := run_rows fun o => rfl
  refine .intro hrun ?_
  change ∀ k ∈ [_], _
  simp only [List.forall_mem_cons]
  exact ⟨fun _ => foundIf_present fun o => Content.mem_gather, by simp⟩

/-- **Readings tell the truth.** Answered from the data, each has a result, and its writes make the
categories of its step true to the data, whatever they held before. -/
theorem tells_of_mem {x : String × Reading (List Write)} (hx : x ∈ readings) : Tells c x.1 x.2 := by
  simp only [readings, List.mem_cons, List.not_mem_nil, or_false] at hx
  rcases hx with rfl | rfl | rfl | rfl | rfl | rfl | rfl | rfl | rfl | rfl
  · exact tells_offerings c
  · exact tells_properties c
  · exact tells_features c
  · exact tells_relatedFeatures c
  · exact tells_composites c
  · exact tells_capabilities c
  · exact tells_observations c
  · exact tells_templates c
  · exact tells_globalTime c
  · exact tells_offeringTimes c

/-! ### Procedures -/

/-- **The six queries about a procedure.** -/
def queriesAbout (p : String) : List Query :=
  [.offeringsForProcedure p, .propertiesForProcedure p, .parentProcedures p, .childProcedures p,
    .observationsForProcedure p, .timeForProcedure p]

/-- A reading that asks first needs an answer, and a result of what it does with that. -/
theorem isOk_run_ask {answers : Answers} {q : Query} {next : q.Reply → Reading α} :
    ((Reading.ask q next).run answers).isOk = true ↔
      (answers q).isOk = true ∧ ∀ v, answers q = .ok v → ((next v).run answers).isOk = true := by
  rw [Reading.run]
  cases hq : answers q with
  | ok v => simp [Outcome.isOk]
  | fault e => simp [Outcome.isOk]
  | panic e => simp [Outcome.isOk]

/-- What is known of a procedure is found when its six queries are answered, and only then. -/
theorem isOk_run_procedureEntry {answers : Answers} {p : String} :
    ((procedureEntry p).run answers).isOk = true ↔ ∀ q ∈ queriesAbout p, (answers q).isOk = true := by
  have hentry : procedureEntry p =
      .ask (.offeringsForProcedure p) fun offerings => .ask (.propertiesForProcedure p) fun properties =>
        .ask (.parentProcedures p) fun parents => .ask (.childProcedures p) fun children =>
          .ask (.observationsForProcedure p) fun observations => .ask (.timeForProcedure p) fun time =>
            .done ⟨setOf offerings, setOf properties, setOf parents, setOf children, setOf observations,
              time⟩ :=
    rfl
  rw [hentry]
  simp only [isOk_run_ask, queriesAbout, List.forall_mem_cons]
  constructor
  · -- each query is asked after an answer to the one before it
    rintro ⟨h₁, h⟩
    obtain ⟨v₁, e₁⟩ := Outcome.isOk_iff.1 h₁
    obtain ⟨h₂, h⟩ := h v₁ e₁
    obtain ⟨v₂, e₂⟩ := Outcome.isOk_iff.1 h₂
    obtain ⟨h₃, h⟩ := h v₂ e₂
    obtain ⟨v₃, e₃⟩ := Outcome.isOk_iff.1 h₃
    obtain ⟨h₄, h⟩ := h v₃ e₃
    obtain ⟨v₄, e₄⟩ := Outcome.isOk_iff.1 h₄
    obtain ⟨h₅, h⟩ := h v₄ e₄
    obtain ⟨v₅, e₅⟩ := Outcome.isOk_iff.1 h₅
    obtain ⟨h₆, -⟩ := h v₅ e₅
    exact ⟨h₁, h₂, h₃, h₄, h₅, h₆, by simp⟩
  · rintro ⟨h₁, h₂, h₃, h₄, h₅, h₆, -⟩
    exact ⟨h₁, fun _ _ => ⟨h₂, fun _ _ => ⟨h₃, fun _ _ => ⟨h₄, fun _ _ => ⟨h₅, fun _ _ =>
      ⟨h₆, fun _ _ => rfl⟩⟩⟩⟩⟩⟩

/-- **What is known of a procedure**, answered from the data, is what they say of it. -/
theorem tells_procedureEntry {p : String} {s : Sensor} (hs : c.sensors.get? p = some s) :
    ∃ e, (procedureEntry p).run c.reply = .ok e ∧
      (∀ a ∈ Association.ofProcedures, Found (entryOf (e.part a)) (c.Relates a p)) ∧
      e.time = Period.union (c.times fun b => b.procedure == p) := by
  have hhas : c.Has .procedures p := ⟨s, hs⟩
  have hrun : (procedureEntry p).run c.reply = .ok
      ⟨setOf s.offerings.toList, setOf s.properties.toList, setOf s.parents.toList,
        setOf (c.sensorsWhere fun s => decide (p ∈ s.parents)).keys.toList,
        setOf (c.observationsWhere fun b => b.procedure == p).keys.toList,
        Content.timeOf (c.observationsWhere fun b => b.procedure == p)⟩ := by
    -- the six queries are answered from the data one after the other
    simp only [procedureEntry, Reading.query, Bind.bind, Reading.bind, Reading.run, Content.reply,
      Content.aboutSensor, Content.sensor, hs]
    rfl
  -- the sensor that is meant
  have hthis : ∀ {P : Sensor → Prop}, (∃ s, c.sensors.get? p = some s ∧ P s) ↔ P s := by
    intro P
    constructor
    · rintro ⟨s', hs', h⟩
      exact Option.some.inj (hs.symm.trans hs') ▸ h
    · exact fun h => ⟨s, hs, h⟩
  refine ⟨_, hrun, ?_, rfl⟩
  simp only [Association.ofProcedures, List.forall_mem_cons]
  refine ⟨found_entryOf fun o => ?_, found_entryOf fun x => ?_, found_entryOf fun q => ?_,
    found_entryOf fun q => ?_, found_entryOf fun i => ?_, by simp⟩
  -- what the sensor says of itself, and then what others say of it
  · exact SortedSet.mem_ofList.trans (hthis (P := fun s => o ∈ s.offerings)).symm
  · exact SortedSet.mem_ofList.trans (hthis (P := fun s => x ∈ s.properties)).symm
  · exact SortedSet.mem_ofList.trans (hthis (P := fun s => q ∈ s.parents)).symm
  · refine SortedSet.mem_ofList.trans ?_
    rw [Content.mem_keys_toList]
    simp only [Content.get?_sensorsWhere, decide_eq_true_eq]
    exact (and_iff_right hhas).symm
  · refine SortedSet.mem_ofList.trans ?_
    rw [Content.mem_keys_toList]
    simp only [Content.get?_observationsWhere, beq_iff_eq]
    exact (and_iff_right hhas).symm

/-- **The step that has work done side by side.** It forgets all procedures that are gone before it has the
work done, or it fails and does nothing. -/
theorem of_procedures {threads : Nat} {ws : List Write} {fs : List Fault} {e : Ending}
    (h : (procedures threads).Does B ws fs e) :
    (∃ ids : List String, ∃ ws₁, (query .procedureIdentifiers).Comes B (.ok ids) ∧
      ws = (.setIds .procedures (setOf ids) :: Write.retain (setOf ids)) ++ ws₁ ∧
      FanOut.Does B ids procedureWork ws₁ fs ∧ e = .done) ∨
    (∃ o, (query .procedureIdentifiers).Comes B o ∧ o.isOk = false) ∧ ws = [] ∧ fs = [] ∧
      e.isDone = false := by
  rcases Program.Does.of_reading h with ⟨ids, hids, h⟩ | h
  · have h : (Program.writes (.fanOut threads ids procedureWork .done)
        (.setIds .procedures (setOf ids) :: Write.retain (setOf ids))).Does B ws fs e := h
    obtain ⟨ws', rfl, hrest⟩ := h.of_writes
    cases hrest with
    -- after the pruning come the items, and after them nothing
    | fanOut hitems hdone =>
      cases hdone
      exact .inl ⟨ids, _, hids, by rw [List.append_nil], by rwa [List.append_nil], rfl⟩
  · exact .inr h

/-- **The deed of an item that enters a procedure.** Either everything about the procedure could be read
and is entered, or nothing is written. -/
theorem deed_of_item {p : String} {bs : List Backend} (hbs : ∀ b ∈ bs, B b)
    (h : (Deed.of (procedureWork p) bs).outcome.isSome) :
    (∃ e, (procedureEntry p).Comes B (.ok e) ∧ (Deed.of (procedureWork p) bs).writes = Write.entry p e) ∨
      (Deed.of (procedureWork p) bs).writes = [] ∧
        ((∃ b, B b ∧ b.opening.isOk = false) ∨ ∃ o, (procedureEntry p).Comes B o ∧ o.isOk = false) := by
  rcases Deed.of_reading hbs h with ⟨ws, hws, heq⟩ | ⟨-, hnone, hwhy⟩
  · obtain ⟨e, he, hdone⟩ := Reading.comes_ok_bind.1 hws
    cases hdone
    exact .inl ⟨e, he, congrArg Deed.writes heq⟩
  · refine .inr ⟨hnone, hwhy.imp_right ?_⟩
    rintro ⟨o, ho, hno⟩
    exact ho.of_map hno

/-- The writes of the items are the entries of procedures about which everything could be read. -/
theorem mem_writes_of_items {ids : List String} {ws : List Write} {fs : List Fault}
    (h : FanOut.Does B ids procedureWork ws fs) {x : Write} (hx : x ∈ ws) :
    ∃ p ∈ ids, ∃ e, (procedureEntry p).Comes B (.ok e) ∧ x ∈ Write.entry p e := by
  obtain ⟨moves, hmoves, hended, hinter, -⟩ := h
  obtain ⟨part, hpart, hxp⟩ := hinter.mem_iff.1 hx
  obtain ⟨d, hd, rfl⟩ := List.mem_map.1 hpart
  obtain ⟨i, hi⟩ := List.mem_iff_getElem?.1 hd
  rw [FanOut.getElem?_deeds, Option.map_eq_some_iff] at hi
  obtain ⟨p, hp, rfl⟩ := hi
  have hshare : ∀ b ∈ share i moves, B b := fun b hb => hmoves _ (mem_share.1 hb)
  -- an item that wrote has read everything
  rcases deed_of_item hshare (hended _ hd) with ⟨e, he, heq⟩ | ⟨hnone, -⟩
  · exact ⟨p, List.mem_of_getElem? hp, e, he, heq ▸ hxp⟩
  · rw [hnone] at hxp
    cases hxp

/-- An item enters its procedure unless it could not open a session or read something. -/
theorem entry_of_items {ids : List String} {ws : List Write} {fs : List Fault}
    (h : FanOut.Does B ids procedureWork ws fs) {p : String} (hp : p ∈ ids)
    (hopen : ∀ b, B b → b.opening.isOk = true)
    (hread : ∀ o, (procedureEntry p).Comes B o → o.isOk = true) :
    ∃ e, (procedureEntry p).Comes B (.ok e) ∧ ∀ x ∈ Write.entry p e, x ∈ ws := by
  obtain ⟨moves, hmoves, hended, hinter, -⟩ := h
  obtain ⟨i, hi⟩ := List.mem_iff_getElem?.1 hp
  have hd : (p, Deed.of (procedureWork p) (share i moves)) ∈ FanOut.deeds ids procedureWork moves :=
    List.mem_iff_getElem?.2 ⟨i, by rw [FanOut.getElem?_deeds, hi]; rfl⟩
  have hshare : ∀ b ∈ share i moves, B b := fun b hb => hmoves _ (mem_share.1 hb)
  -- the two ways to fail are ruled out
  rcases deed_of_item hshare (hended _ hd) with ⟨e, he, heq⟩ | ⟨-, ⟨b, hb, hno⟩ | ⟨o, ho, hno⟩⟩
  · exact ⟨e, he, fun x hx => hinter.mem_iff.2 ⟨_, List.mem_map.2 ⟨_, hd, rfl⟩, heq ▸ hx⟩⟩
  · rw [hopen b hb] at hno
    cases hno
  · rw [hread o ho] at hno
    cases hno

/-- **The step `procedures` prunes the procedures**, or it writes nothing. -/
theorem prunes_of_does {threads : Nat} {ws : List Write} {fs : List Fault} {e : Ending}
    (h : (procedures threads).Does B ws fs e) : ws = [] ∨ ∃ keep, Prunes keep ws := by
  rcases of_procedures h with ⟨ids, ws₁, -, rfl, hitems, -⟩ | ⟨-, hnone, -⟩
  · refine .inr ⟨setOf ids, fun x hx => ?_, by simp, fun x hx => by simp [hx]⟩
    rcases List.mem_append.1 hx with hx | hx
    · exact (List.mem_cons.1 hx).imp_right .inl
    · obtain ⟨p, hp, e, -, hx⟩ := mem_writes_of_items hitems hx
      exact .inr (.inr ⟨p, SortedSet.mem_ofList.2 hp, e, hx⟩)
  · exact .inl hnone

/-- What can be found of a procedure from some answers. -/
def foundFrom (answers : Answers) (p : String) : Option Entry :=
  match (procedureEntry p).run answers with
  | .ok e => some e
  | _ => none

/-- The entry of a procedure is found if all is answered, and only then. -/
theorem foundFrom_eq_some {answers : Answers} {p : String} {e : Entry} :
    foundFrom answers p = some e ↔ (procedureEntry p).run answers = .ok e := by
  rw [foundFrom]
  cases (procedureEntry p).run answers <;> simp

/-- **What the step `procedures` writes** when all that it meets is one backend. -/
theorem refreshes_of_backend {b : Backend} {threads : Nat} {ws : List Write} {fs : List Fault} {e : Ending}
    (h : (procedures threads).Does (· = b) ws fs e) (hopen : b.opening.isOk = true) :
    (∃ ids, b.answers .procedureIdentifiers = .ok ids ∧ Refreshes (setOf ids) (foundFrom b.answers) ws) ∨
      (b.answers .procedureIdentifiers).isOk = false ∧ ws = [] := by
  rcases of_procedures h with ⟨ids, ws₁, hids, rfl, hitems, -⟩ | ⟨⟨o, ho, hno⟩, hnone, -⟩
  · refine .inl ⟨ids, ?_, fun x hx => ?_, by simp, fun x hx => by simp [hx], fun p hp e he x hx => ?_⟩
    · exact (hids.eq_run.trans (Reading.run_query _ _)).symm
    · rcases List.mem_append.1 hx with hx | hx
      · exact (List.mem_cons.1 hx).imp_right .inl
      · obtain ⟨p, hp, e, he, hx⟩ := mem_writes_of_items hitems hx
        exact .inr (.inr ⟨p, SortedSet.mem_ofList.2 hp, e, foundFrom_eq_some.2 he.eq_run.symm, hx⟩)
    · -- an item cannot fail where everything can be read
      have hread : ∀ o, (procedureEntry p).Comes (· = b) o → o.isOk = true := by
        intro o ho
        rw [ho.eq_run, foundFrom_eq_some.1 he]
        rfl
      obtain ⟨e', he', hall⟩ :=
        entry_of_items hitems (SortedSet.mem_ofList.1 hp) (fun _ hb => hb ▸ hopen) hread
      have := he'.eq_run
      rw [foundFrom_eq_some.1 he] at this
      cases this
      exact List.mem_append_right _ (hall x hx)
  · -- the one query of the step is not answered
    rw [ho.eq_run, Reading.run_query] at hno
    exact .inr ⟨hno, hnone⟩

/-- To prune is to write into categories about procedures. -/
theorem owner_of_mem_retain {keep : SortedSet} {x : Write} (hx : x ∈ Write.retain keep) :
    ∀ k ∈ x.categories, owner k = "procedures" := by
  rcases Write.mem_retain.1 hx with ⟨a, ha, rfl⟩ | rfl
  · simpa [Write.categories] using owner_association.2 ha
  · simp [Write.categories, owner]

/-- To enter a procedure is to write into categories about procedures. -/
theorem owner_of_mem_entry {p : String} {e : Entry} {x : Write} (hx : x ∈ Write.entry p e) :
    ∀ k ∈ x.categories, owner k = "procedures" := by
  rcases Write.mem_entry.1 hx with ⟨a, ha, rfl⟩ | rfl
  · simpa [Write.categories] using owner_association.2 ha
  · simp [Write.categories, owner]

/-- **A step writes to its own categories only**, whatever backends it meets. -/
theorem owner_of_does {threads : Nat} {s : Step} (hs : s ∈ steps threads) {ws : List Write}
    {fs : List Fault} {e : Ending} (h : s.program.Does B ws fs e) :
    ∀ x ∈ ws, ∀ k ∈ x.categories, owner k = s.name := by
  rcases mem_steps.1 hs with rfl | ⟨r, hr, rfl⟩
  · -- it lists the procedures, forgets those that are gone, and enters what the items read
    rcases of_procedures h with ⟨ids, ws₁, -, rfl, hitems, -⟩ | ⟨-, rfl, -⟩
    · intro x hx
      rcases List.mem_append.1 hx with hx | hx
      · rcases List.mem_cons.1 hx with rfl | hx
        · simp [Write.categories, owner]
        · exact owner_of_mem_retain hx
      · obtain ⟨p, -, e, -, hx⟩ := mem_writes_of_items hitems hx
        exact owner_of_mem_entry hx
    · simp
  · rcases Program.Does.of_ofReading h with ⟨hws, -⟩ | ⟨-, rfl, -⟩
    · exact fun x hx => (writes_of_comes hr hws x hx).2
    · simp

end Standard

end SensorCatalog
