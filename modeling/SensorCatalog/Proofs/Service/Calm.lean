import SensorCatalog.Proofs.Keeper.Accounts
import SensorCatalog.Proofs.Rebuild.Determined

/-!
# The service in calm

The service is in calm while nobody closes anything and nothing is made to go wrong on purpose
(`ServiceAct.isCalm`). Threads may still move in any order, whoever wants a rebuild may ask for it, and the
archive may be edited at any time.

In calm an act does little to the calls of the keeper and to the world, and `Keeper.Effect` lists it: a call
arrives, a call goes on, or neither. What a call does when it goes on is `CallPhase.Goes`: it begins a
rebuild, has it run, ends it, or has nothing to do with one. Only a rebuild that runs touches the catalog,
and none touches the archive.

`Keeper.Calm` is what calm means for the state of the keeper, and `Keeper.Calm.step` carries it over each
act.
-/

namespace SensorCatalog

/-! ### Nothing goes wrong on purpose -/

/-- Whether an edit makes nothing go wrong. -/
def Edit.isHarmless : Edit → Bool
  | .content _ | .delay _ | .clearFaults => true
  | .refuseSessions on => !on
  | .failQuery _ | .failProcedure _ | .panicProcedure _ => false

/-- A plan that does no harm is still one after an edit that does none. -/
theorem FaultPlan.IsHarmless.apply {p : FaultPlan} (h : p.IsHarmless) {e : Edit} (he : e.isHarmless = true) :
    (p.apply e).IsHarmless := by
  cases e with
  | content e => exact h
  | delay ms => exact ⟨h.opens, h.queries, h.failing, h.panicking⟩
  | clearFaults => exact ⟨rfl, rfl, rfl, rfl⟩
  | refuseSessions on =>
    cases on with
    | false => exact ⟨rfl, h.queries, h.failing, h.panicking⟩
    | true => cases he
  | _ => cases he

/-- Whether an act of the keeper closes nothing and makes nothing go wrong. -/
def KeeperAct.isCalm : KeeperAct → Bool
  | .begin .cleanup => false
  | .edit e => e.isHarmless
  | _ => true

/-- Whether an act closes nothing and makes nothing go wrong. -/
def ServiceAct.isCalm : ServiceAct → Bool
  | .keeper a => a.isCalm
  | .tell _ | .publish _ | .relay => true
  | .beginClosing | .close _ => false

/-! ### What calls do in calm -/

namespace CallPhase

/-- Whether a call in this phase runs a rebuild. -/
def isRun : CallPhase → Bool
  | .running _ => true
  | _ => false

/-- A call in this phase will have a rebuild begin, or begins one now. -/
def Awaits : CallPhase → Prop
  | .looking (.trigger .runAfterCurrent) _ | .asleep (.trigger .runAfterCurrent) => True
  | _ => False

/-- What the phases of calls are like in calm. -/
def Calm : CallPhase → Prop
  | .closing => False
  | .running r => r.Plain
  | _ => True

/-- **How a call goes on in calm**, with the world after it. The first argument says whether a rebuild
begins. -/
inductive Goes (b : Backend) (k : Keeper) : Bool → CallPhase → CallPhase → World → Prop where
  | began {mode : TriggerMode} {again : Bool} (hidle : k.idle = true) :
    Goes b k true (.looking (.trigger mode) again) (.running (Run.start k.steps (!k.initialized))) k.world
  | ran {a : Actor} {r r' : Run} {w : World} (h : r.step b k.world a = some (r', w)) :
    Goes b k false (.running r) (.running r') w
  | ended {r : Run} {result : Except Fault Report} (h : r.result? = some result) :
    Goes b k false (.running r) (.recording result) k.world
  | went {phase phase' : CallPhase} (hbefore : phase.isRun = false) (hafter : phase'.isRun = false)
    (hopen : phase' ≠ .closing) (hawaits : phase.Awaits → phase'.Awaits) :
    Goes b k false phase phase' k.world

variable {b : Backend} {k k₁ : Keeper} {phase phase' : CallPhase} {onTimer : Bool} {w : World}

/-- Whoever awaits a rebuild still does so when it is woken. -/
theorem Awaits.rouse (h : phase.Awaits) : phase.rouse.Awaits := by
  cases phase with
  | asleep p =>
    cases p with
    | trigger mode => cases mode <;> exact h
    | _ => exact h
  | _ => exact h

/-- A calm call is calm when it is woken. -/
theorem Calm.rouse (h : phase.Calm) : phase.rouse.Calm := by
  cases phase with
  | asleep p => trivial
  | _ => exact h

/-- A call that runs no rebuild and closes nothing is calm. -/
theorem Calm.of_rest (hrest : phase.isRun = false) (hopen : phase ≠ .closing) : phase.Calm := by
  cases phase with
  | closing => exact absurd rfl hopen
  | running r => cases hrest
  | _ => trivial

/-- If no rebuild is running afterwards, none has begun. -/
theorem not_began (h : phase'.isRun = false) : (phase.passage phase').any CallEvent.isBegan = false := by
  unfold passage
  split <;> first | rfl | cases h

/-- A call that runs no rebuild before or after has gone on. -/
theorem Goes.of_rest (hbefore : phase.isRun = false) (hafter : phase'.isRun = false)
    (hopen : phase' ≠ .closing) (hawaits : phase.Awaits → phase'.Awaits) :
    phase.Goes b k ((phase.passage phase').any CallEvent.isBegan) phase' k.world := by
  rw [not_began hafter]
  exact .went hbefore hafter hopen hawaits

/-- In calm, an act of a call is one of these. -/
theorem Advance.goes (h : phase.Advance b k onTimer phase' k₁) (hopen : k.shuttingDown = false)
    (hcalm : phase ≠ .closing) :
    phase.Goes b k ((phase.passage phase').any CallEvent.isBegan) phase' k₁.world ∧
      k₁.steps = k.steps ∧ k₁.shuttingDown = false := by
  cases h with
  | refused hclosing hagain => rw [hopen] at hclosing; cases hclosing
  | @begun mode again hopen hidle hagain =>
    refine ⟨?_, rfl, hopen⟩
    have hseen : passage (.looking (.trigger mode) again)
        (.running (Run.start k.steps (!k.initialized))) = some .began := by cases again <;> rfl
    rw [hseen]
    exact .began hidle
  | @slept p again hidle =>
    -- whoever awaits a rebuild still does so asleep
    refine ⟨.of_rest rfl rfl (by simp) fun h => ?_, rfl, hopen⟩
    cases p with
    | trigger mode => cases mode <;> exact h
    | _ => exact h
  | ran h => exact ⟨.ran h, rfl, hopen⟩
  | ended h => exact ⟨.ended h, rfl, hopen⟩
  -- uses of the timer belong to calls that await nothing
  | @timed use =>
    exact ⟨.of_rest rfl (by cases use <;> rfl) (by cases use <;> simp [afterTiming]) nofun, rfl, hopen⟩
  | @turnedDown s rest use t f h =>
    exact ⟨.of_rest rfl (by cases use <;> rfl) (by cases use <;> simp [afterTiming]) nofun, rfl, hopen⟩
  | closing hopen => exact absurd rfl hcalm
  | _ => exact ⟨.of_rest rfl rfl (by simp) nofun, rfl, by assumption⟩

end CallPhase

/-! ### What acts do in calm -/

/-- The same for all that a rebuild and its readers see. -/
structure World.Agrees (w w' : World) : Prop where
  archive : w'.archive = w.archive
  catalog : w'.catalog = w.catalog
  untold : w'.untold = w.untold

namespace Keeper

/-- The phase of a call. -/
def phase? (k : Keeper) (i : Nat) : Option CallPhase := k.calls[i]?.map (·.phase)

/-- **What an act does in calm** to the calls and to the world, unless it is an edit. The last argument says
whether a rebuild begins. -/
inductive Effect (b : Backend) (k k' : Keeper) : Bool → Prop where
  -- nothing
  | nothing (hphases : ∀ i, k'.phase? i = k.phase? i) (hworld : k.world.Agrees k'.world) : Effect b k k' false
  -- a call arrives
  | arrived {phase : CallPhase} (hrest : phase.isRun = false) (hopen : phase ≠ .closing)
    (hphases : ∀ i, k'.phase? i = if i = k.calls.length then some phase else k.phase? i)
    (hworld : k'.world = k.world) : Effect b k k' false
  -- a call goes on, and others may be woken
  | went {i : Nat} {phase phase' : CallPhase} {w : World} {began : Bool} (hbefore : k.phase? i = some phase)
    (hafter : k'.phase? i = some phase')
    (hothers : ∀ j, j ≠ i → k'.phase? j = k.phase? j ∨ k'.phase? j = (k.phase? j).map CallPhase.rouse)
    (hgoes : phase.Goes b k began phase' w) (hworld : k'.world = w) : Effect b k k' began

variable {b : Backend} {k k' k₁ : Keeper} {i : Nat} {c : Call} {phase : CallPhase} {onTimer : Bool}

/-- A call in the list is in its phase. -/
theorem phase?_of_getElem? (hc : k.calls[i]? = some c) : k.phase? i = some c.phase := by
  rw [phase?, hc]
  rfl

/-- A call that is made is in its first phase, and the others are where they were. -/
theorem phase?_addCall (hcalls : k'.calls = k.calls ++ [⟨phase, onTimer⟩]) (i : Nat) :
    k'.phase? i = if i = k.calls.length then some phase else k.phase? i := by
  rw [phase?, hcalls, List.getElem?_append]
  split
  · rename_i hi
    rw [if_neg hi.ne]
    rfl
  · rename_i hi
    split
    · rename_i heq
      simp [heq]
    · rename_i hne
      have : k.calls.length < i := by omega
      rw [phase?, List.getElem?_eq_none (by simp; omega), List.getElem?_eq_none (by omega)]

/-- A call that acts is in its new phase, and the others are where they were or have been woken. -/
theorem phase?_setPhase (hc : k.calls[i]? = some c)
    (hcalls : k₁.calls = k.calls ∨ k₁.calls = k.rouseAll.calls) :
    (k₁.setPhase i phase).phase? i = some phase ∧
      ∀ j, j ≠ i → (k₁.setPhase i phase).phase? j = k.phase? j ∨
        (k₁.setPhase i phase).phase? j = (k.phase? j).map CallPhase.rouse := by
  constructor
  · rcases hcalls with hsame | hroused
    · simp [phase?, setPhase, hsame, hc]
    · simp [phase?, setPhase, hroused, rouseAll, hc]
  · intro j hj
    have hother : (k₁.setPhase i phase).phase? j = k₁.phase? j := by
      simp [phase?, setPhase, Ne.symm hj]
    rw [hother]
    rcases hcalls with hsame | hroused
    · exact .inl (by rw [phase?, hsame, phase?])
    · exact .inr (by simp [phase?, hroused, rouseAll, Function.comp_def])

/-- An act of a call has the effect that its phase says. -/
theorem Effect.of_goes (hc : k.calls[i]? = some c)
    (hcalls : k₁.calls = k.calls ∨ k₁.calls = k.rouseAll.calls)
    (hgoes : c.phase.Goes b k ((c.phase.passage phase).any CallEvent.isBegan) phase k₁.world) :
    Effect b k (k₁.setPhase i phase) ((k.seen i (k₁.setPhase i phase)).any (·.2.isBegan)) := by
  -- a rebuild is seen to begin when the passage of the call shows it
  have hbegan : (k.seen i (k₁.setPhase i phase)).any (·.2.isBegan) =
      (c.phase.passage phase).any CallEvent.isBegan := by
    rw [seen_setPhase hc hcalls]
    cases c.phase.passage phase <;> simp
  rw [hbegan]
  obtain ⟨hafter, hothers⟩ := phase?_setPhase hc hcalls
  exact .went (phase?_of_getElem? hc) hafter hothers hgoes rfl

/-- A call that is made has no effect on rebuilds yet. -/
theorem Effect.of_add (hcalls : k'.calls = k.calls ++ [⟨phase, onTimer⟩]) (hrest : phase.isRun = false)
    (hopen : phase ≠ .closing) (hworld : k'.world = k.world) :
    Effect b k k' ((k.seen k.calls.length k').any (·.2.isBegan)) := by
  -- of a call that arrives no more is seen than that it is made
  have hnone : (k.seen k.calls.length k').any (·.2.isBegan) = false := by
    rw [seen_add hcalls, List.any_eq_false]
    intro x hx
    obtain ⟨e, he, rfl⟩ := List.mem_map.1 hx
    have hcalled := CallPhase.isCalled_of_arrival (Option.mem_toList.1 he)
    cases e <;> simp_all [CallEvent.isCalled, CallEvent.isBegan]
  rw [hnone]
  exact .arrived hrest hopen (phase?_addCall hcalls) hworld

/-- The call that the relay makes has no effect on rebuilds yet. -/
theorem Effect.of_relay (b : Backend) (k : Keeper) :
    Effect b k (k.addCall ((Request.trigger .runAfterCurrent).phase k.now) false)
      ((k.seen k.calls.length (k.addCall ((Request.trigger .runAfterCurrent).phase k.now) false)).any
        (·.2.isBegan)) :=
  .of_add rfl rfl (by simp [Request.phase]) rfl

/-- An act without calls has no effect on them. -/
theorem Effect.of_nothing (hcalls : k'.calls = k.calls) (hworld : k.world.Agrees k'.world) :
    Effect b k k' ((k.seen k.calls.length k').any (·.2.isBegan)) := by
  rw [seen_nothing hcalls]
  exact .nothing (fun i => by rw [phase?, hcalls, phase?]) hworld

/-- In calm, a call that was just made neither runs a rebuild nor closes anything. -/
theorem isRun_request {r : Request} {now : Nat} (hr : KeeperAct.isCalm (.begin r) = true) :
    (r.phase now).isRun = false ∧ r.phase now ≠ .closing := by
  cases r with
  | cleanup => cases hr
  | setMinutes minutes => rw [Request.phase]; split <;> exact ⟨rfl, by simp⟩
  | waitIdleFor span => rw [Request.phase]; split <;> exact ⟨rfl, by simp⟩
  | _ => exact ⟨rfl, by simp [Request.phase]⟩

/-- **In calm, every act has one of these effects**, and the keeper stays open. -/
theorem Effect.of_step {a : KeeperAct} (h : k.step b a = some k') (ha : a.isCalm = true)
    (hedit : ∀ e, a ≠ .edit e) (hopen : k.shuttingDown = false)
    (hphases : ∀ i, k.phase? i ≠ some .closing) :
    Effect b k k' ((k.seen (k.subject a) k').any (·.2.isBegan)) ∧ k'.steps = k.steps ∧
      k'.shuttingDown = false := by
  cases Happens.of_step h with
  | began r =>
    obtain ⟨hrest, hcalm⟩ := isRun_request ha
    exact ⟨.of_add rfl hrest hcalm rfl, rfl, hopen⟩
  | @moved i c phase k₁ hc hadvance =>
    have hcalm : c.phase ≠ .closing := fun heq => hphases i (by rw [phase?_of_getElem? hc, heq])
    obtain ⟨hgoes, hsteps, hopen'⟩ := hadvance.goes hopen hcalm
    exact ⟨.of_goes hc hadvance.passes.calls hgoes, hsteps, hopen'⟩
  | itemMoved hc hrun => exact ⟨.of_goes hc (.inl rfl) (.ran hrun), rfl, hopen⟩
  | woke hc =>
    exact ⟨.of_goes hc (.inl rfl) (.of_rest rfl rfl (by simp) CallPhase.Awaits.rouse), rfl, hopen⟩
  -- the rest is done by the timer and the clock, which run no rebuild
  | expired hc hdue => exact ⟨.of_goes hc (.inl rfl) (.of_rest rfl rfl (by simp) nofun), rfl, hopen⟩
  | fired htick hlook hfiring => exact ⟨.of_add rfl rfl (by simp) rfl, rfl, hopen⟩
  | resumed htick hover => exact ⟨.of_nothing rfl ⟨rfl, rfl, rfl⟩, rfl, hopen⟩
  | looked htick hlook hfiring => exact ⟨.of_nothing rfl ⟨rfl, rfl, rfl⟩, rfl, hopen⟩
  | passed span => exact ⟨.of_nothing rfl ⟨rfl, rfl, rfl⟩, rfl, hopen⟩
  | edited e => exact absurd rfl (hedit e)
  | gated closed => exact ⟨.of_nothing rfl ⟨rfl, rfl, rfl⟩, rfl, hopen⟩

/-! ### The keeper in calm -/

/-- **The state of a keeper in calm.** -/
structure Calm (k : Keeper) : Prop where
  /-- The books are in order. -/
  ledger : ∃ log, Ledger k log
  /-- The steps leave the archive and the gate alone. -/
  plain : ∀ s ∈ k.steps, s.program.Plain
  /-- Nobody has closed the keeper. -/
  isOpen : k.shuttingDown = false
  /-- Nothing goes wrong on purpose. -/
  harmless : k.world.archive.plan.IsHarmless
  /-- Nobody is about to close the keeper, and a rebuild that runs is plain. -/
  phases : ∀ i phase, k.phase? i = some phase → phase.Calm

/-- A keeper that was just made over such an archive is calm. -/
theorem Calm.create {steps : List Step} (hplain : ∀ s ∈ steps, s.program.Plain) (interval : Nat)
    {world : World} (hharmless : world.archive.plan.IsHarmless) : (create steps interval world).Calm where
  ledger := ⟨[], Ledger.create steps interval world⟩
  plain := hplain
  isOpen := rfl
  harmless := hharmless
  phases _ _ h := by cases h

/-- In calm, nobody closes the keeper. -/
theorem Calm.not_closing (h : k.Calm) (i : Nat) : k.phase? i ≠ some .closing :=
  fun hi => h.phases i _ hi

/-- In calm, only one call runs a rebuild. -/
theorem Calm.alone (h : k.Calm) {j : Nat} {r r' : Run} (hi : k.phase? i = some (.running r))
    (hj : k.phase? j = some (.running r')) : i = j := by
  obtain ⟨log, hledger⟩ := h.ledger
  have hbusy : ∀ n x, k.phase? n = some (.running x) → k.Rebuilding n := by
    intro n x hn
    obtain ⟨c, hc, hphase⟩ := Option.map_eq_some_iff.1 hn
    exact ⟨c, hc, by rw [Call.isBusy, hphase]; rfl⟩
  exact hledger.unique (hbusy _ _ hi) (hbusy _ _ hj)

/-- When the keeper is idle, no call runs a rebuild. -/
theorem Calm.not_running (h : k.Calm) (hidle : k.idle = true) (i : Nat) (r : Run) :
    k.phase? i ≠ some (.running r) := by
  intro hi
  obtain ⟨log, hledger⟩ := h.ledger
  obtain ⟨c, hc, hphase⟩ := Option.map_eq_some_iff.1 hi
  exact hledger.idle_iff.1 hidle i ⟨c, hc, by rw [Call.isBusy, hphase]; rfl⟩

variable {began : Bool}

/-- **In calm, nobody but those who edit it touches the archive**, and nobody but those who tell of it the
changes to be told. -/
theorem Calm.archive_eq (h : k.Calm) (he : Effect b k k' began) :
    k'.world.archive = k.world.archive ∧ k'.world.untold = k.world.untold := by
  cases he with
  | nothing hphases hworld => exact ⟨hworld.archive, hworld.untold⟩
  | arrived hrest hopen hphases hworld => rw [hworld]; exact ⟨rfl, rfl⟩
  | went hbefore hafter hothers hgoes hworld =>
    rw [hworld]
    cases hgoes with
    -- a plain rebuild has no edits
    | ran hrun =>
      obtain ⟨-, harchive, -, huntold⟩ := Run.Plain.step (h.phases _ _ hbefore) hrun
      exact ⟨harchive, huntold⟩
    | _ => exact ⟨rfl, rfl⟩

/-- Each of the effects leaves the keeper calm. -/
theorem Calm.of_effect (h : k.Calm) (he : Effect b k k' began) (hledger : ∃ log, Ledger k' log)
    (hsteps : k'.steps = k.steps) (hopen : k'.shuttingDown = false) : k'.Calm := by
  refine ⟨hledger, hsteps ▸ h.plain, hopen, (h.archive_eq he).1 ▸ h.harmless, ?_⟩
  intro j phase' hj
  cases he with
  | nothing hphases hworld => exact h.phases j phase' (hphases j ▸ hj)
  | @arrived phase hrest hcalm hphases hworld =>
    rw [hphases] at hj
    split at hj
    · cases hj
      exact .of_rest hrest hcalm
    · exact h.phases j phase' hj
  | @went i phase phase₁ w began hbefore hafter hothers hgoes hworld =>
    by_cases hij : j = i
    · subst hij
      rw [hafter] at hj
      cases hj
      -- a rebuild that begins is made of the steps of the keeper
      cases hgoes with
      | began hidle => exact h.plain
      | ran hrun => exact (Run.Plain.step (h.phases _ _ hbefore) hrun).1
      | ended hover => trivial
      | went hrest hrest' hcalm hawaits => exact .of_rest hrest' hcalm
    -- the other calls are calm as they were, or after they were woken
    · rcases hothers j hij with hsame | hroused
      · exact h.phases j phase' (hsame ▸ hj)
      · rw [hroused] at hj
        obtain ⟨phase₂, hbefore₂, rfl⟩ := Option.map_eq_some_iff.1 hj
        exact (h.phases j phase₂ hbefore₂).rouse

/-- An edit that does no harm leaves the keeper calm. -/
theorem Calm.edit (h : k.Calm) {e : Edit} (he : e.isHarmless = true) :
    ({ k with world := k.world.edit e } : Keeper).Calm := by
  obtain ⟨log, hledger⟩ := h.ledger
  exact ⟨⟨log, hledger.congr rfl rfl rfl⟩, h.plain, h.isOpen, h.harmless.apply he, h.phases⟩

/-- **Whoever awaits a rebuild goes on to do so** until one begins. -/
theorem Effect.awaits (he : Effect b k k' false) (hi : k.phase? i = some phase) (hawaits : phase.Awaits) :
    ∃ phase', k'.phase? i = some phase' ∧ phase'.Awaits := by
  cases he with
  | nothing hphases hworld => exact ⟨phase, (hphases i).trans hi, hawaits⟩
  | arrived hrest hopen hphases hworld =>
    -- the new call has a number of its own
    have hlt : i ≠ k.calls.length := by
      rintro rfl
      rw [phase?, List.getElem?_eq_none le_rfl] at hi
      cases hi
    exact ⟨phase, by rw [hphases, if_neg hlt, hi], hawaits⟩
  | @went j phase₀ phase₁ w began hbefore hafter hothers hgoes hworld =>
    by_cases hij : i = j
    · subst hij
      rw [hbefore] at hi
      cases hi
      refine ⟨phase₁, hafter, ?_⟩
      -- only the end of the waiting could be a rebuild that begins
      cases hgoes with
      | ran hrun => exact hawaits.elim
      | ended hover => exact hawaits.elim
      | went hrest hrest' hcalm hkeeps => exact hkeeps hawaits
    · rcases hothers i hij with hsame | hroused
      · exact ⟨phase, hsame.trans hi, hawaits⟩
      · exact ⟨phase.rouse, by rw [hroused, hi]; rfl, hawaits.rouse⟩

end Keeper

end SensorCatalog
