import SensorCatalog.Proofs.Service.Pending

/-!
# The catalog follows the data

In calm, with the standard steps, the catalog is true to the data whenever nobody has changed them since the
last rebuild began (`Current`) and no rebuild is running. While one is running, what it has done so far is a
story over the present data (`Keeper.Truthful`), since nobody else writes to the catalog.

Together with `Pending.step` this gives the main results about a relay between the archive and the keeper:

* `Service.no_change_lost` — when everything has come to rest, each change was followed by a rebuild that
  began after it, and once a change was told and all later edits are told as well, the catalog is true to the
  data, and so the same as after any standard rebuild.
-/

namespace SensorCatalog

/-! ### Rebuilds over sound data -/

/-- A standard rebuild over data about which nothing goes wrong makes the catalog true to them. -/
theorem Run.Story.shows {threads : Nat} {a : Archive} (hharmless : a.plan.IsHarmless) {firstRun : Bool}
    {c₀ c : Catalog} {r : Run} {result : Except Fault Report}
    (h : Run.Story (· = a.content.backend) (Standard.steps threads) firstRun c₀ r c)
    (hover : r.result? = some result) (k : Category) : a.content.Shows k (c.get k) := by
  rcases h.finished hover with ⟨-, b, rfl, hrefused⟩ | ⟨turns, hholds, hturns, rfl, -⟩
  · -- a session can be opened
    cases hrefused
  · rw [← Archive.backend_of_harmless hharmless] at hholds
    have hdetermined := Standard.determined_of_turns hholds hturns c₀ hharmless.opens
    exact hdetermined.shows (congrFun (Archive.answers_of_harmless hharmless)) k

/-- An edit that is to be told and has no change to tell changes nothing. -/
theorem ContentEdit.apply_of_untold {c : Content} {e : ContentEdit} (htold : e.isTold = true)
    (h : e.change? c = none) : c.apply e = c := by
  cases e with
  | deleteSensor id =>
    rw [change?] at h
    split at h
    · cases h
    · rename_i hnot
      rw [Content.apply, if_neg hnot]
  -- there is no such observation, so there is nothing to erase
  | deleteObservation id =>
    rw [change?, Option.map_eq_none_iff] at h
    have hsame : c.observations.erase id = c.observations := by
      refine SortedMap.ext fun i => ?_
      rw [SortedMap.get?_erase]
      split
      · rename_i heq
        rw [heq, h]
      · rfl
    rw [Content.apply, hsame]
  | insertSensor id s => cases h
  | insertObservation id o => cases h
  | insertTemplate id t => cases h
  | _ => cases htold

/-! ### The keeper -/

namespace Keeper

/-- **The catalog is true to the data**, or the rebuild that is running makes it so. -/
structure Truthful (k : Keeper) : Prop where
  /-- A rebuild has met no other data than the present ones. -/
  running : ∀ i r, k.phase? i = some (.running r) → ∃ firstRun c₀,
    Run.Story (· = k.world.archive.content.backend) k.steps firstRun c₀ r k.world.catalog
  /-- While none is running, each category has its true value. -/
  resting : (∀ i r, k.phase? i ≠ some (.running r)) → ∀ x,
    k.world.archive.content.Shows x (k.world.catalog.get x)

variable {b : Backend} {k k' : Keeper} {began : Bool}

/-- The truth of a catalog depends on the rebuilds, the data and the catalog only. -/
theorem Truthful.congr (h : k.Truthful) (hphases : ∀ i, k'.phase? i = k.phase? i)
    (hsteps : k'.steps = k.steps) (hcontent : k'.world.archive.content = k.world.archive.content)
    (hcatalog : k'.world.catalog = k.world.catalog) : k'.Truthful := by
  constructor
  · intro i r hi
    rw [hcontent, hsteps, hcatalog]
    exact h.running i r (hphases i ▸ hi)
  · intro hnone x
    rw [hcontent, hcatalog]
    exact h.resting (fun i r hi => hnone i r ((hphases i).trans hi)) x

/-- Whoever is woken was running no rebuild. -/
theorem running_of_woken {j : Nat} {r : Run}
    (h : k'.phase? j = k.phase? j ∨ k'.phase? j = (k.phase? j).map CallPhase.rouse) :
    k'.phase? j = some (.running r) ↔ k.phase? j = some (.running r) := by
  rcases h with hsame | hroused
  · rw [hsame]
  · rw [hroused, Option.map_eq_some_iff]
    constructor
    · rintro ⟨phase, hphase, hrouse⟩
      cases phase with
      | asleep p => cases hrouse
      | running r => cases hrouse; exact hphase
      | _ => cases hrouse
    · exact fun h => ⟨_, h, rfl⟩

/-- Who runs a rebuild after call `i` went on. -/
theorem running_iff_of_went {i j : Nat} {phase' : CallPhase} {r : Run} (hafter : k'.phase? i = some phase')
    (hothers : ∀ j, j ≠ i → k'.phase? j = k.phase? j ∨ k'.phase? j = (k.phase? j).map CallPhase.rouse) :
    k'.phase? j = some (.running r) ↔
      j = i ∧ phase' = .running r ∨ j ≠ i ∧ k.phase? j = some (.running r) := by
  by_cases hij : j = i
  · subst hij
    simp [hafter]
  · rw [running_of_woken (hothers j hij)]
    simp [hij]

/-- **No act spoils the catalog**, and a rebuild that begins sets out to make it true. -/
theorem Effect.truthful {threads : Nat} (hcalm : k.Calm) (hstandard : k.steps = Standard.steps threads)
    (ht : began = false → k.Truthful) (he : Effect b k k' began)
    (hb : b = k.world.archive.content.backend) (hsteps : k'.steps = k.steps) : k'.Truthful := by
  have hcontent := congrArg Archive.content (hcalm.archive_eq he).1
  cases he with
  | nothing hphases hworld => exact (ht rfl).congr hphases hsteps hcontent hworld.catalog
  | @arrived phase hrest hopen hphases hworld =>
    have hsame : ∀ i r, k'.phase? i = some (.running r) ↔ k.phase? i = some (.running r) := by
      intro i r
      rw [hphases]
      split
      · rename_i hi
        -- the call that arrives runs nothing, and there was none in its place
        have hnone : k.phase? i = none := by rw [phase?, hi, List.getElem?_eq_none le_rfl]; rfl
        rw [hnone]
        constructor
        · intro h
          cases h
          cases hrest
        · intro h
          cases h
      · rfl
    constructor
    · intro i r hi
      rw [hsteps, hworld]
      exact (ht rfl).running i r ((hsame i r).1 hi)
    · intro hnone x
      rw [hworld]
      exact (ht rfl).resting (fun i r hi => hnone i r ((hsame i r).2 hi)) x
  | @went i phase phase' w began hbefore hafter hothers hgoes hworld =>
    have hruns : ∀ {j r}, k'.phase? j = some (.running r) ↔ _ := running_iff_of_went hafter hothers
    cases hgoes with
    | began hidle =>
      -- nobody else runs a rebuild, and this one has done nothing yet
      refine ⟨fun j r hj => ?_, fun hnone => absurd hafter (hnone i _)⟩
      rcases hruns.1 hj with ⟨rfl, hphase⟩ | ⟨-, hj⟩
      · cases hphase
        rw [hsteps]
        exact ⟨_, _, .start _ _ _⟩
      · exact absurd hj (hcalm.not_running hidle j r)
    | ran hrun =>
      -- the story of the rebuild goes on, over the same data
      refine ⟨fun j r hj => ?_, fun hnone => absurd hafter (hnone i _)⟩
      rcases hruns.1 hj with ⟨rfl, hphase⟩ | ⟨hij, hj⟩
      · cases hphase
        obtain ⟨firstRun, c₀, hstory⟩ := (ht rfl).running j _ hbefore
        rw [hcontent, hsteps, hworld]
        exact ⟨firstRun, c₀, hstory.step hb hrun⟩
      · exact absurd (hcalm.alone hj hbefore) hij
    | ended hover =>
      -- the story has come to its end
      refine ⟨fun j r hj => ?_, fun _ x => ?_⟩
      · rcases hruns.1 hj with ⟨-, hphase⟩ | ⟨hij, hj⟩
        · cases hphase
        · exact absurd (hcalm.alone hj hbefore) hij
      · obtain ⟨firstRun, c₀, hstory⟩ := (ht rfl).running i _ hbefore
        rw [hstandard] at hstory
        rw [hworld]
        exact hstory.shows hcalm.harmless hover x
    | went hrest hrest' hopen hawaits =>
      -- the same rebuild runs as before, or none
      refine ⟨fun j r hj => ?_, fun hnone x => ?_⟩
      · rcases hruns.1 hj with ⟨-, rfl⟩ | ⟨-, hj⟩
        · cases hrest'
        · rw [hsteps, hworld]
          exact (ht rfl).running j r hj
      · rw [hworld]
        refine (ht rfl).resting (fun j r hj => ?_) x
        have hij : j ≠ i := by
          rintro rfl
          rw [hbefore] at hj
          cases hj
          cases hrest
        exact hnone j r (hruns.2 (.inr ⟨hij, hj⟩))

end Keeper

/-! ### The service -/

/-- **No edit since the last rebuild began.** -/
def Current (log : List Happening) : Prop :=
  ∃ earlier later : List Happening, log = earlier ++ .began :: later ∧ .changed ∉ later ∧ .silent ∉ later

/-- The log is current after an act if a rebuild began in it, or if it was current and nothing changed. -/
theorem Current.last {log : List Happening} {x : Happening} (h : Current (log ++ [x])) :
    x = .began ∨ x ≠ .changed ∧ x ≠ .silent ∧ Current log := by
  obtain ⟨earlier, later, hlog, hchanged, hsilent⟩ := h
  rcases List.eq_nil_or_concat later with rfl | ⟨later, y, rfl⟩
  · exact .inl (List.append_singleton_inj.1 hlog).2
  · rw [List.concat_eq_append, ← List.cons_append, ← List.append_assoc] at hlog
    obtain ⟨rfl, rfl⟩ := List.append_singleton_inj.1 hlog
    simp only [List.concat_eq_append, List.mem_append, List.mem_singleton, not_or] at hchanged hsilent
    exact .inr ⟨Ne.symm hchanged.2, Ne.symm hsilent.2, earlier, later, rfl, hchanged.1, hsilent.1⟩

/-- Before the first rebuild nothing is current. -/
theorem not_current_nil : ¬ Current [] := by
  rintro ⟨earlier, later, h, -⟩
  simp at h

namespace Service

variable {b : Backend} {s s' : Service} {a : ServiceAct} {log : List Happening} {threads : Nat}

/-- After an edit the log is current only if the edit changed nothing. -/
theorem current_of_edit {c : Content} {e : Edit} {plan : FaultPlan}
    (h : Current (log ++ e.happenings c)) :
    Current log ∧ ((⟨c, plan⟩ : Archive).apply e).content = c := by
  cases e with
  | content x =>
    rw [Edit.happenings] at h
    cases hx : x.change? c with
    -- a change makes the log out of date, and so does a silent edit
    | some d =>
      simp only [hx] at h
      rcases h.last with he | ⟨he, -⟩
      · cases he
      · exact absurd rfl he
    | none =>
      simp only [hx] at h
      split at h
      · rename_i htold
        rw [List.append_nil] at h
        exact ⟨h, ContentEdit.apply_of_untold htold hx⟩
      · rcases h.last with he | ⟨-, he, -⟩
        · cases he
        · exact absurd rfl he
  | _ => exact ⟨by simpa [Edit.happenings] using h, rfl⟩

/-- **Calm lasts**, and the steps are what they were. -/
theorem calm_step (hcalm : s.keeper.Calm) (ha : a.isCalm = true) (h : s.step b a = some s') :
    s'.keeper.Calm ∧ s'.keeper.steps = s.keeper.steps := by
  obtain ⟨log, hledger⟩ := hcalm.ledger
  have hledger : ∃ log, Ledger s'.keeper log := ⟨_, hledger.step_service h⟩
  cases Happens.of_step h ha with
  | @kept a k ha hk =>
    by_cases hedit : ∃ e, a = .edit e
    · obtain ⟨e, rfl⟩ := hedit
      cases hk
      exact ⟨hcalm.edit ha, rfl⟩
    · obtain ⟨heffect, hsteps, hopen⟩ := Keeper.Effect.of_step hk ha (fun e he => hedit ⟨e, he⟩)
        hcalm.isOpen hcalm.not_closing
      exact ⟨hcalm.of_effect heffect hledger hsteps hopen, hsteps⟩
  | @told i c t hc ht =>
    -- whoever listens, the keeper does not change
    have hkeeper : (if s.attached then t.publish c else t).keeper = t.keeper := by split <;> rfl
    rw [hkeeper] at hledger ⊢
    subst ht
    exact ⟨⟨hledger, hcalm.plain, hcalm.isOpen, hcalm.harmless, hcalm.phases⟩, rfl⟩
  | published c => exact ⟨hcalm, rfl⟩
  | called hphase hhook =>
    have heffect := Keeper.Effect.of_relay b s.keeper
    exact ⟨hcalm.of_effect heffect hledger rfl hcalm.isOpen, rfl⟩
  | answered hphase hhook hx => exact ⟨hcalm, rfl⟩
  | took hr => exact ⟨hcalm, rfl⟩

/-- **The catalog goes on to follow the data.** -/
theorem truthful_step (hcalm : s.keeper.Calm) (hstandard : s.keeper.steps = Standard.steps threads)
    (ht : Current log → s.keeper.Truthful) (h : Happens s.keeper.world.archive.backend s a s')
    (hcurrent : Current (log ++ s.happenings a s')) : s'.keeper.Truthful := by
  have hb := Archive.backend_of_harmless hcalm.harmless
  -- where an act has an effect on the keeper, either a rebuild begins or the log was current before
  have heffects : ∀ k began, Keeper.Effect s.keeper.world.archive.backend s.keeper k began →
      k.steps = s.keeper.steps → Current (log ++ if began then [.began] else []) → k.Truthful := by
    intro k began heffect hsteps hcurrent
    refine heffect.truthful hcalm hstandard (fun hbegan => ht ?_) hb hsteps
    rwa [hbegan, if_neg Bool.false_ne_true, List.append_nil] at hcurrent
  have htold : Current (log ++ [.told]) → s.keeper.Truthful := by
    intro hcurrent
    rcases hcurrent.last with he | ⟨-, -, hcurrent⟩
    · cases he
    · exact ht hcurrent
  cases h with
  | @kept a k ha hk =>
    by_cases hedit : ∃ e, a = .edit e
    · -- if the log is still current, the edit changed nothing
      obtain ⟨e, rfl⟩ := hedit
      cases hk
      obtain ⟨hlog, hsame⟩ := current_of_edit hcurrent
      exact (ht hlog).congr (fun _ => rfl) rfl hsame rfl
    · have hedit : ∀ e, a ≠ .edit e := fun e he => hedit ⟨e, he⟩
      obtain ⟨heffect, hsteps, -⟩ := Keeper.Effect.of_step hk ha hedit hcalm.isOpen hcalm.not_closing
      rw [happenings_keeper hedit] at hcurrent
      exact heffects k _ heffect hsteps hcurrent
  | @told i c t hc ht' =>
    have hkeeper : (if s.attached then t.publish c else t).keeper = t.keeper := by split <;> rfl
    rw [hkeeper]
    subst ht'
    exact (htold hcurrent).congr (fun _ => rfl) rfl rfl rfl
  | published c => exact htold hcurrent
  | called hphase hhook =>
    exact heffects _ _ (Keeper.Effect.of_relay _ s.keeper) rfl hcurrent
  | answered hphase hhook hx =>
    rw [happenings_relay, Keeper.seen_nothing rfl, List.any_nil] at hcurrent
    exact heffects _ false (.nothing (fun _ => rfl) ⟨rfl, rfl, rfl⟩) rfl hcurrent
  | took hr =>
    rw [happenings_relay, Keeper.seen_nothing rfl, List.any_nil] at hcurrent
    exact heffects _ false (.nothing (fun _ => rfl) ⟨rfl, rfl, rfl⟩) rfl hcurrent

/-! ### Courses in calm -/

/-- An act in calm, with the answers of the archive. -/
def calmStep (s : Service) (a : ServiceAct) : Option Service := if a.isCalm then s.act a else none

/-- **Courses in calm.** The log tells of changes, and of rebuilds that begin. -/
abbrev Calmly (s : Service) (log : List Happening) (t : Service) : Prop :=
  Course calmStep happenings s log t

/-- **Everything has come to rest.** -/
structure AtRest (s : Service) : Prop where
  /-- Whoever edited the data has told of it. -/
  told : s.keeper.world.untold = []
  /-- The queue of the relay is empty. -/
  emptied : s.relay.queue = []
  /-- The relay waits for a message. -/
  receiving : s.relay.phase = .receiving
  /-- No rebuild is running. -/
  idle : s.keeper.idle = true

/-- Calm lasts over a course. -/
theorem Calmly.calm {s₀ : Service} (h : Calmly s₀ log s) (hcalm : s₀.keeper.Calm) :
    s.keeper.Calm ∧ s.keeper.steps = s₀.keeper.steps := by
  induction h with
  | start => exact ⟨hcalm, rfl⟩
  | act before hstep ih =>
    rw [calmStep] at hstep
    split at hstep
    · rename_i ha
      obtain ⟨hcalm', hsteps⟩ := calm_step ih.1 ha hstep
      exact ⟨hcalm', hsteps.trans ih.2⟩
    · cases hstep

/-- What holds of the service with a relay, and of the log since the relay is there. -/
structure Follows (threads : Nat) (s : Service) (log : List Happening) : Prop where
  calm : s.keeper.Calm
  standard : s.keeper.steps = Standard.steps threads
  connected : s.Connected
  pending : Owed log → s.Pending
  truthful : Current log → s.keeper.Truthful

/-- A relay that was just attached has nothing to follow yet. -/
theorem Follows.attachRelay (hcalm : s.keeper.Calm) (hstandard : s.keeper.steps = Standard.steps threads) :
    Follows threads s.attachRelay [] where
  calm := hcalm
  standard := hstandard
  connected :=
    ⟨rfl, ⟨_, List.mem_append_right _ List.mem_cons_self, rfl, rfl⟩, by simp [Service.attachRelay, Relay.create],
      by simp [Service.attachRelay, Relay.create], nofun⟩
  pending h := by
    obtain ⟨earlier, later, hlog, -, howed⟩ := h
    rw [(List.append_eq_nil_iff.1 hlog.symm).2] at howed
    rcases howed with h | h <;> cases h
  truthful h := absurd h not_current_nil

/-- Each calm act is followed. -/
theorem Follows.step (h : Follows threads s log) (hstep : s.calmStep a = some s') :
    Follows threads s' (log ++ s.happenings a s') := by
  obtain ⟨hcalm, hstandard, hconnected, hpending, htruthful⟩ := h
  rw [calmStep] at hstep
  split at hstep
  · rename_i ha
    obtain ⟨hcalm', hsteps⟩ := calm_step hcalm ha hstep
    have hact := Happens.of_step hstep ha
    obtain ⟨hconnected', hpending'⟩ := Pending.step hcalm hconnected hpending hact
    exact ⟨hcalm', hsteps.trans hstandard, hconnected', hpending',
      truthful_step hcalm hstandard htruthful hact⟩
  · cases hstep

/-- Each calm course is followed. -/
theorem Follows.of_course {s₀ : Service} (hcalm : s₀.keeper.Calm)
    (hstandard : s₀.keeper.steps = Standard.steps threads) (h : Calmly s₀.attachRelay log s) :
    Follows threads s log := by
  induction h with
  | start => exact .attachRelay hcalm hstandard
  | act before hstep ih => exact ih.step hstep

/-- At rest, nothing is pending. -/
theorem AtRest.not_pending (h : s.AtRest) (hconnected : s.Connected) : ¬ s.Pending := by
  -- one place after the other
  rintro (huntold | hqueued | htaken | hdue | hhook)
  · exact huntold h.told
  · exact hqueued h.emptied
  · rw [h.receiving] at htaken; cases htaken
  · rw [h.receiving] at hdue; cases hdue
  · obtain ⟨c, hc⟩ := hconnected.calling (by rw [hhook]; rfl)
    rw [h.receiving] at hc
    cases hc

end Service

/-- What is behind the last rebuild that began. -/
theorem exists_last_began {log : List Happening} (h : .began ∈ log) :
    ∃ earlier later, log = earlier ++ .began :: later ∧ .began ∉ later := by
  obtain ⟨later, earlier, hlog, hnot⟩ := List.eq_append_cons_of_mem (List.mem_reverse.2 h)
  refine ⟨earlier.reverse, later.reverse, ?_, by rwa [List.mem_reverse]⟩
  rw [← List.reverse_reverse log, hlog]
  simp

/-- When nothing is owed, a rebuild began after each change, and after each was told. -/
theorem began_of_not_owed {log earlier later : List Happening} {x : Happening} (howed : ¬ Owed log)
    (hlog : log = earlier ++ x :: later) (hx : x = .changed ∨ x = .told) : .began ∈ later := by
  by_contra hbegan
  refine howed ⟨earlier, x :: later, hlog, ?_, ?_⟩
  · rw [List.mem_cons, not_or]
    exact ⟨by rcases hx with rfl | rfl <;> simp, hbegan⟩
  · rcases hx with rfl | rfl
    · exact .inl List.mem_cons_self
    · exact .inr List.mem_cons_self

/-- When nothing is owed and all edits since the first telling were told, there was no edit since the last
rebuild began. -/
theorem current_of_not_owed {log : List Happening} (howed : ¬ Owed log) (htold : .told ∈ log)
    (hsilent : ∀ earlier later, log = earlier ++ .silent :: later → .told ∉ earlier) : Current log := by
  obtain ⟨before, after, hsplit⟩ := List.append_of_mem htold
  -- a rebuild began, if only after what was told
  have hbegan : .began ∈ log := by
    rw [hsplit]
    exact List.mem_append_right _ (List.mem_cons_of_mem _ (began_of_not_owed howed hsplit (.inr rfl)))
  obtain ⟨earlier, later, hlog, hlast⟩ := exists_last_began hbegan
  have hnone : .changed ∉ later ∧ .told ∉ later := by
    constructor
    · exact fun h => howed ⟨earlier ++ [.began], later, by simp [hlog], hlast, .inl h⟩
    · exact fun h => howed ⟨earlier ++ [.began], later, by simp [hlog], hlast, .inr h⟩
  refine ⟨earlier, later, hlog, hnone.1, fun h => ?_⟩
  -- an edit that nobody tells would have to stand before all that is told, but that is behind it
  obtain ⟨l₁, l₂, rfl⟩ := List.append_of_mem h
  have hbefore := hsilent (earlier ++ .began :: l₁) l₂ (by simp [hlog])
  rw [hlog] at htold
  simp only [List.mem_append, List.mem_cons, not_or, reduceCtorEq, false_or] at htold hbefore hnone
  rcases htold with h | h | h
  · exact hbefore.1 h
  · exact hbefore.2 h
  · exact hnone.2.2 h

/-- **No change is lost.** When everything has come to rest, each change since the relay is there was
followed by a rebuild that began after it. If some change was told, and since then no data were changed by
an edit that is not told, then the catalog is true to the data in all categories, and any standard rebuild
over the present archive, on any number of threads and from any catalog, would leave the same catalog. -/
theorem Service.no_change_lost {threads : Nat} {steps : List Step} {interval : Nat} {world : World}
    {s₁ s₀ s : Service} {before log : List Happening} (hsteps : Standard.steps? threads = .ok steps)
    (hfresh : s₁.keeper = Keeper.create steps interval world) (hharmless : world.archive.plan.IsHarmless)
    (hbefore : Service.Calmly s₁ before s₀) (h : Service.Calmly s₀.attachRelay log s) (hrest : s.AtRest) :
    (∀ earlier later, log = earlier ++ .changed :: later → .began ∈ later) ∧
    (.told ∈ log → (∀ earlier later, log = earlier ++ .silent :: later → .told ∉ earlier) →
      (∀ k, s.keeper.world.archive.content.Shows k (s.keeper.world.catalog.get k)) ∧
      ∀ others otherSteps firstRun c moves r w, Standard.steps? others = .ok otherSteps →
        Run.Moves (Run.start otherSteps firstRun, { s.keeper.world with catalog := c }) moves (r, w) →
        (∀ m ∈ moves, m.2 = s.keeper.world.archive.backend) → r.result?.isSome = true →
        w.catalog = s.keeper.world.catalog) := by
  -- a number of threads with which the steps can be made
  have hstandard : ∀ {n l}, Standard.steps? n = .ok l → n ≠ 0 ∧ l = Standard.steps n := by
    intro n l hl
    rw [Standard.steps?] at hl
    split at hl
    · cases hl
    · rename_i hn
      exact ⟨hn, (Except.ok.inj hl).symm⟩
  obtain ⟨hthreads, rfl⟩ := hstandard hsteps
  have hcreated : s₁.keeper.Calm := by
    rw [hfresh]
    exact .create (fun x hx => Standard.plain_of_mem hthreads hx) interval hharmless
  obtain ⟨hcalm, hkept⟩ := hbefore.calm hcreated
  have hfollows := Service.Follows.of_course hcalm (by rw [hkept, hfresh]; rfl) h
  -- what is owed would be pending, and at rest nothing is
  have howed : ¬ Owed log := fun ho => hrest.not_pending hfollows.connected (hfollows.pending ho)
  refine ⟨fun earlier later hlog => began_of_not_owed howed hlog (.inl rfl), fun htold hsilent => ?_⟩
  have hshows := (hfollows.truthful (current_of_not_owed howed htold hsilent)).resting
    (hfollows.calm.not_running hrest.idle)
  refine ⟨hshows, ?_⟩
  intro others otherSteps firstRun c moves r w hother hmoves hfixed hover
  obtain ⟨-, rfl⟩ := hstandard hother
  rw [Archive.backend_of_harmless hfollows.calm.harmless] at hfixed
  have hstory := hmoves.story (B := (· = s.keeper.world.archive.content.backend)) hfixed
  obtain ⟨result, hresult⟩ := Option.isSome_iff_exists.1 hover
  -- both catalogs are true to the same data
  exact Catalog.ext fun k =>
    Content.Shows.unique (hstory.shows hfollows.calm.harmless hresult k) (hshows k)

/-- A relay over an empty archive, whose keeper has standard steps on one thread. -/
def emptyService : Service := Service.create (Keeper.create (Standard.steps 1) 60 World.initial)

/-- A sensor is added and told of, the relay takes the change and makes its call, and this call runs a
rebuild. -/
def insertionActs : List ServiceAct :=
  let sensor : Sensor := ⟨.ofList ["yard"], .ofList ["rain"], .empty, "plain"⟩
  List.flatten
    [[.keeper (.edit (.content (.insertSensor "gauge" sensor))), .tell 0, .relay, .relay, .relay],
      List.replicate 24 (.keeper (.move 0)), List.replicate 17 (.keeper (.item 0 0)),
      List.replicate 60 (.keeper (.move 0)), [.relay]]

/-- In the end everything is at rest, and the catalog is true to the data. -/
theorem Service.no_change_lost_insertion : ∃ log s,
    Service.Calmly emptyService.attachRelay log s ∧ s.AtRest ∧ .changed ∈ log ∧
      ∀ k, s.keeper.world.archive.content.Shows k (s.keeper.world.catalog.get k) := by
  have hcourse : (carryOut Service.calmStep Service.happenings insertionActs
      ([], emptyService.attachRelay)).map (fun r => (r.1, decide (r.2.keeper.world.untold = [] ∧
        r.2.relay.queue = [] ∧ r.2.relay.phase = .receiving ∧ r.2.keeper.idle = true))) =
      some ([.changed, .told, .began], true) := by
    decide +kernel
  -- at the end nothing is pending anywhere
  obtain ⟨⟨log, s⟩, hcarried, hend⟩ := Option.map_eq_some_iff.1 hcourse
  simp only [Prod.mk.injEq, decide_eq_true_eq] at hend
  obtain ⟨rfl, huntold, hqueue, hphase, hidle⟩ := hend
  have h := Course.of_carryOut insertionActs .start hcarried
  have hrest : s.AtRest := ⟨huntold, hqueue, hphase, hidle⟩
  have hsteps : Standard.steps? 1 = .ok (Standard.steps 1) := rfl
  refine ⟨_, s, h, hrest, by decide, ?_⟩
  refine ((Service.no_change_lost hsteps rfl ⟨rfl, rfl, rfl, rfl⟩ .start h hrest).2 (by decide) ?_).1
  intro earlier later hlog
  -- no edit is silent
  have hnone : Happening.silent ∉ [Happening.changed, .told, .began] := by decide
  exact absurd (hlog ▸ List.mem_append_right _ List.mem_cons_self) hnone

end SensorCatalog
