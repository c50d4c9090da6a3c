import SensorCatalog.Proofs.Keeper.Unclosed

/-!
# The next rebuild is always seen to

Nobody but those who are done with a rebuild sets the timer for the next one. The thread of the timer does not do it
when it fires: if it finds a rebuild running then it waits for its end, and relies on the call that runs it. So the
next rebuild hangs on one deadline, which is handed from one thread to another and may be taken away in between by
somebody who changes the interval.

It is never lost. `Keeper.Attended` lists who may be in charge of it, and `Keeper.Attended.step` shows that each act
which ends the charge of one puts another in charge: a deadline that has come becomes a call of the timer, this call
begins a rebuild or finds one running, the end of a rebuild becomes a promise to set the timer, and so does a deadline
that is taken away to be changed (`CallPhase.Promises`).

This holds while nobody closes the keeper (`Keeper.Unclosed`) and the clock can show the deadlines.
-/

namespace SensorCatalog

variable {b : Backend} {k k' k₁ : Keeper} {i : Nat} {c : Call} {phase phase' : CallPhase} {onTimer : Bool}

/-! ### Who is in charge -/

namespace CallPhase

/-- **A call that is to set the timer after a rebuild.** -/
def Rearms : CallPhase → Prop
  | .announcing rearm _ => rearm = true
  | .timing sections (.rearm _) => .arm true ∈ sections
  | _ => False

/-- **A call that has taken the deadline away to change it**, and is to set the timer anew. -/
def Readjusts : CallPhase → Prop
  | .timing sections .adjust => .arm false ∈ sections ∧ .disarm ∉ sections
  | _ => False

/-- A call that is to set the timer for one reason or the other. -/
def Promises (phase : CallPhase) : Prop := phase.Rearms ∨ phase.Readjusts

/-- A call that promises to set the timer does so whether it is woken or not. -/
theorem Promises.rouse (h : phase.Promises) : phase.rouse.Promises := by
  cases phase with
  | asleep p => rcases h with h | h <;> exact h.elim
  | _ => exact h

/-- It is kept by setting the timer, and the sections before do not break it. -/
theorem Promises.of_timing {sections : List TimerSection} {use : TimerUse} (h : (timing sections use).Promises) :
    ∃ full, .arm full ∈ sections ∧
      ∀ rest, rest ⊆ sections → .arm full ∈ rest → (timing rest use).Promises := by
  rcases h with h | h
  · cases use with
    | rearm a => exact ⟨true, h, fun rest _ hrest => .inl hrest⟩
    | _ => exact h.elim
  · cases use with
    | adjust => exact ⟨false, h.1, fun rest hsub hrest => .inr ⟨hrest, fun hdisarm => h.2 (hsub hdisarm)⟩⟩
    | _ => exact h.elim

/-- **Whoever is to set the timer** sets it with this section, or it has still to do so after it. -/
theorem Advance.arms {sections : List TimerSection} {use : TimerUse} {full : Bool}
    (hadv : (timing sections use).Advance b k onTimer phase' k₁) (hopen : k.Unclosed) (hleaves : use.Leaves sections)
    (hclock : k.now + maxInterval < Clock.horizon) (harm : .arm full ∈ sections) :
    k₁.timer.isArmed = true ∨ ∃ s rest, sections = s :: rest ∧ phase' = .timing rest use ∧ .arm full ∈ rest := by
  -- by the outcome of the section that is carried out, which may be the one in question
  cases hadv with
  | timed => cases harm
  | turnedDown hperform =>
    rcases hopen.timer.arms hclock hleaves harm (.of_perform hperform) with harmed | ⟨hno, -⟩
    · exact .inl harmed
    · cases hno
  | @proceeded s rest more use t hperform =>
    rcases hopen.timer.arms hclock hleaves harm (.of_perform hperform) with harmed | ⟨hmore, hrest⟩
    · exact .inl harmed
    · cases hmore
      exact .inr ⟨s, rest, rfl, rfl, hrest⟩

/-- **A promise is kept.** The call sets the timer, or it is still to do so. -/
theorem Promises.advance (h : phase.Promises) (hopen : k.Unclosed) (hphase : phase.Unclosed)
    (hclock : k.now + maxInterval < Clock.horizon) (hadv : phase.Advance b k onTimer phase' k₁) :
    k₁.timer.isArmed = true ∨ phase'.Promises := by
  -- there are two kinds of calls that promise something, and each of them moves in its own way
  cases phase with
  | announcing rearm a =>
    have hrearm : rearm = true := h.resolve_right id
    subst hrearm
    cases hadv with
    | rearmed =>
      have harm : TimerSection.arm true ∈ TimerSection.scheduleInterval := by decide
      exact .inr (.inl harm)
  | timing sections use =>
    obtain ⟨full, harm, hkeep⟩ := h.of_timing
    rcases hadv.arms hopen hphase hclock harm with harmed | ⟨s, rest, rfl, rfl, hrest⟩
    · exact .inl harmed
    · exact .inr (hkeep rest (List.subset_cons_self s rest) hrest)
  | _ => rcases h with h | h <;> exact h.elim

/-- A promise is kept whoever moves. -/
theorem Promises.turns (h : phase.Promises) (hopen : k.Unclosed) (hphase : phase.Unclosed)
    (hclock : k.now + maxInterval < Clock.horizon) (hturns : phase.Turns b k i k' phase') :
    k'.timer.isArmed = true ∨ phase'.Promises := by
  cases hturns with
  | stayed => exact .inr h
  | woken => exact .inr h.rouse
  | advanced hadv hk =>
    have hnow := h.advance hopen hphase hclock hadv
    rw [hk]
    exact hnow
  | itemMoved hrun => rcases h with h | h <;> exact h.elim
  | expired => rcases h with h | h <;> exact h.elim

/-- A timer that is set remains so, or the call has taken the deadline away and promises to set it anew. -/
theorem Advance.keeps_armed (hadv : phase.Advance b k onTimer phase' k₁) (harmed : k.timer.isArmed = true)
    (hphase : phase.Unclosed) : k₁.timer.isArmed = true ∨ phase'.Promises := by
  -- only a use of the timer can take a deadline away
  cases hadv with
  | @turnedDown s rest use t f hperform =>
    have hplain := TimerUse.Leaves.plain hphase
    rcases Timer.Open.isArmed_performs harmed hplain (.of_perform hperform) with hstill | ⟨-, hno⟩
    · exact .inl hstill
    · cases hno
  | @proceeded s rest more use t hperform =>
    have hplain := TimerUse.Leaves.plain hphase
    rcases Timer.Open.isArmed_performs harmed hplain (.of_perform hperform) with hstill | ⟨rfl, hmore⟩
    · exact .inl hstill
    · -- only a change of the interval takes the deadline away
      cases hmore
      refine .inr ?_
      cases use with
      | rearm a => exact absurd (List.IsSuffix.subset hphase List.mem_cons_self) (by decide)
      | start => exact absurd (List.IsSuffix.subset hphase List.mem_cons_self) (by decide)
      | adjust =>
        rcases hphase with ⟨interval, heq⟩ | hsuffix
        · cases heq
        · have hrest : rest = [.start, .arm false] := by
            simpa [List.suffix_cons_iff] using hsuffix
          rw [hrest]
          exact .inr ⟨by simp, by simp⟩
      | close => exact hphase.elim
  | _ => exact .inl harmed

/-- A rebuild that runs goes on, or its end is recorded, and the call promises to set the timer. -/
theorem Advance.keeps_busy (hadv : phase.Advance b k onTimer phase' k₁) (hidle : k.idle = false)
    (hopen : k.shuttingDown = false) : k₁.idle = false ∨ phase'.Promises := by
  cases hadv with
  | recorded =>
    refine .inr (.inl ?_)
    rw [Rearms, hopen]
    rfl
  | begun hopen' hidle' hagain => exact .inl rfl
  | _ => exact .inl hidle

/-- A call that looks for the first time begins a rebuild, or finds one running. -/
theorem Advance.busy_of_looking (hadv : (looking (.trigger .coalesce) false).Advance b k onTimer phase' k₁)
    (hopen : k.shuttingDown = false) : k₁.idle = false := by
  cases hadv with
  | refused hclosing hagain =>
    rw [hopen] at hclosing
    cases hclosing
  | begun hopen' hidle hagain => rfl
  | slept hidle hopen' => exact hidle

/-- Only the clock itself goes on. -/
theorem Advance.now_eq (hadv : phase.Advance b k onTimer phase' k₁) : k₁.now = k.now := by
  cases hadv <;> rfl

end CallPhase

namespace Keeper

/-- **The next rebuild is seen to.** -/
inductive Attended (k : Keeper) : Prop where
  /-- The timer is set. -/
  | armed (h : k.timer.isArmed = true) : Attended k
  /-- A rebuild is running. -/
  | rebuilding (h : k.idle = false) : Attended k
  /-- A call that is done with a rebuild is to set the timer. -/
  | rearming {i : Nat} {phase : CallPhase} (h : k.phase? i = some phase) (hphase : phase.Rearms) : Attended k
  /-- The timer has fired, and the call that its thread makes has not yet looked whether a rebuild is running. -/
  | fired {i : Nat} (hfiring : k.timer.thread = .firing) (htick : k.tick = some i)
    (h : k.phase? i = some (.looking (.trigger .coalesce) false)) : Attended k
  /-- A call that changes the interval has taken the deadline away, and is to set the timer anew. -/
  | readjusting {i : Nat} {phase : CallPhase} (h : k.phase? i = some phase) (hphase : phase.Readjusts) : Attended k

/-- A call with a promise sees to the next rebuild. -/
theorem Attended.promised (h : k.phase? i = some phase) (hphase : phase.Promises) : k.Attended := by
  rcases hphase with hphase | hphase
  · exact .rearming h hphase
  · exact .readjusting h hphase

/-- **A deadline** that is not set any more has come, or a call has taken it away and promises to set it anew. -/
theorem Attended.of_armed {a : KeeperAct} (harmed : k.timer.isArmed = true) (hopen : k.Unclosed)
    (hstep : k.step b a = some k') : k'.Attended := by
  -- a deadline is lost only to the call that uses it, or to the timer when it fires
  cases Happens.of_step hstep with
  | moved hc hadv =>
    have hunclosed := hopen.phases _ _ (phase?_of_getElem? hc)
    rcases hadv.keeps_armed harmed hunclosed with hstill | hpromises
    · exact .armed hstill
    · exact .promised (phase?_moved hc hadv) hpromises
  | fired htick hlook hfiring =>
    refine .fired hfiring rfl ?_
    rw [phase?_addCall rfl, if_pos rfl]
  | looked htick hlook hfiring => exact absurd (hopen.timer.fires hlook).2 hfiring
  | _ => exact .armed harmed

/-- **A rebuild** goes on, or the call that has recorded its end promises to set the timer. -/
theorem Attended.of_rebuilding {a : KeeperAct} (hidle : k.idle = false) (hopen : k.Unclosed)
    (hstep : k.step b a = some k') : k'.Attended := by
  cases Happens.of_step hstep with
  | moved hc hadv =>
    rcases hadv.keeps_busy hidle hopen.shuttingDown with hstill | hpromises
    · exact .rebuilding hstill
    · exact .promised (phase?_moved hc hadv) hpromises
  | _ => exact .rebuilding hidle

/-- **A call that the timer makes** holds the thread of the timer up until it has looked whether a rebuild is
running. -/
theorem keeps_firing {a : KeeperAct} (hopen : k.Unclosed) (hclock : k.now + maxInterval < Clock.horizon)
    (hfiring : k.timer.thread = .firing) (htick : k.tick = some i)
    (hphase : k.phase? i = some (.looking (.trigger .coalesce) false)) (hstep : k.step b a = some k') :
    k'.timer.thread = .firing ∧ k'.tick = some i := by
  -- nobody else can be called by the timer while this call is there
  cases Happens.of_step hstep with
  | moved hc hadv =>
    have hunclosed := hopen.phases _ _ (phase?_of_getElem? hc)
    have hkeeps := hopen.keeps hunclosed hclock hadv
    exact ⟨hkeeps.firing hfiring, hkeeps.tick.trans htick⟩
  | resumed hsame hover =>
    -- the call is not over before it has looked
    rw [htick] at hsame
    cases hsame
    obtain ⟨a, ha⟩ := isOver_iff.1 hover
    rw [hphase] at ha
    cases ha
  | fired hnone hlook hfires =>
    rw [htick] at hnone
    cases hnone
  | looked hnone hlook hfires =>
    rw [htick] at hnone
    cases hnone
  | _ => exact ⟨hfiring, htick⟩

/-- **The next rebuild remains seen to** in each act, as long as nobody closes the keeper. -/
theorem Attended.step {a : KeeperAct} (h : k.Attended) (hopen : k.Unclosed)
    (hclock : k.now + maxInterval < Clock.horizon) (hstep : k.step b a = some k') : k'.Attended := by
  have hturns := Turns.of_step hstep
  -- whoever has promised to set the timer keeps to it, whoever moves
  have hpromise : ∀ j p, k.phase? j = some p → p.Promises → k'.Attended := by
    intro j p hp hpromises
    obtain ⟨p', hp', hturn⟩ := hturns.of_phase? hp
    rcases hpromises.turns hopen (hopen.phases j p hp) hclock hturn with harmed | hstill
    · exact .armed harmed
    · exact .promised hp' hstill
  -- each way in which the next rebuild is seen to is carried on in its own way
  cases h with
  | armed harmed => exact .of_armed harmed hopen hstep
  | rebuilding hidle => exact .of_rebuilding hidle hopen hstep
  | rearming hp hphase => exact hpromise _ _ hp (.inl hphase)
  | readjusting hp hphase => exact hpromise _ _ hp (.inr hphase)
  | fired hfiring htick hp =>
    have hkeeps := keeps_firing hopen hclock hfiring htick hp hstep
    obtain ⟨p', hp', hturn⟩ := hturns.of_phase? hp
    cases hturn with
    | stayed | woken => exact .fired hkeeps.1 hkeeps.2 hp'
    | advanced hadv hk =>
      -- it begins a rebuild, or it finds one running
      refine .rebuilding ?_
      rw [hk]
      exact hadv.busy_of_looking hopen.shuttingDown

/-- The clock does not run backwards. -/
theorem now_le_of_step {a : KeeperAct} (hstep : k.step b a = some k') : k.now ≤ k'.now := by
  cases Happens.of_step hstep with
  | moved hc hadv => exact hadv.now_eq.ge
  | passed span => exact Nat.le_add_right _ _
  | _ => exact le_refl _

end Keeper

/-! ### After the start -/

namespace CallPhase

/-- A call to start the keeper has found it started, or has marked it, when it is in this phase. -/
def StartedBy (started : Bool) : CallPhase → Prop
  | .returned .done | .timing _ .start => started = true
  | _ => True

/-- **A call on its way to set the timer for the first time.** -/
def Starts : CallPhase → Prop
  | .timing sections .start => .arm false ∈ sections
  | _ => False

/-- A call that begins has started nothing. -/
theorem startedBy_request (r : Request) (now : Nat) (started : Bool) : (r.phase now).StartedBy started := by
  cases r with
  | setMinutes minutes => rw [Request.phase]; split <;> trivial
  | waitIdleFor span => rw [Request.phase]; split <;> trivial
  | _ => trivial

/-- That a keeper was started is not forgotten by the calls. -/
theorem StartedBy.keep {started started' : Bool} (h : phase.StartedBy started)
    (hkeep : started = true → started' = true) : phase.StartedBy started' := by
  cases phase with
  | returned a =>
    cases a with
    | done => exact hkeep h
    | _ => trivial
  | timing sections use =>
    cases use with
    | start => exact hkeep h
    | _ => trivial
  | _ => trivial

/-- That a keeper was started is not forgotten by a call that is woken. -/
theorem StartedBy.rouse {started : Bool} (h : phase.StartedBy started) : phase.rouse.StartedBy started := by
  cases phase with
  | asleep p => trivial
  | _ => exact h

/-- The phases of a call that starts the keeper. -/
theorem Serves.of_start (h : phase.Serves .start) : phase = .starting ∨ (∃ f, phase = .unstarting f) ∨
    (∃ sections, phase = .timing sections .start) ∨ ∃ a, phase = .returned a := by
  -- the other phases are those of calls with other requests
  cases phase with
  | starting => exact .inl rfl
  | unstarting f => exact .inr (.inl ⟨f, rfl⟩)
  | returned a => exact .inr (.inr (.inr ⟨a, rfl⟩))
  | timing sections use =>
    cases use with
    | start => exact .inr (.inr (.inl ⟨sections, rfl⟩))
    | rearm a => obtain ⟨mode, hmode⟩ := h; cases hmode
    | adjust => rcases h with ⟨n, hn⟩ | ⟨n, hn⟩ <;> cases hn
    | close => cases h
  | looking p again | asleep p =>
    cases p with
    | idleUntil deadline => obtain ⟨span, hspan⟩ := h; cases hspan
    | _ => cases h
  | running r | recording result => obtain ⟨mode, hmode⟩ := h; cases hmode
  | announcing rearm a =>
    rcases h with ⟨⟨mode, hmode⟩, -⟩ | ⟨hcleanup, -⟩
    · cases hmode
    · cases hcleanup
  | closing => cases h

/-- A call that starts the keeper returns after the keeper was started. -/
theorem StartedBy.advance (h : phase.StartedBy k.started) (hserves : phase.Serves .start)
    (hadv : phase.Advance b k onTimer phase' k₁) : phase'.StartedBy k₁.started := by
  rcases hserves.of_start with rfl | ⟨f, rfl⟩ | ⟨sections, rfl⟩ | ⟨a, rfl⟩
  -- it is refused, it finds the keeper started, or it starts it
  · cases hadv with
    | unwelcome hclosing => trivial
    | startedBefore hopen hstarted => exact hstarted
    | started hopen hstarted => rfl
  · cases hadv with
    | unstarted => trivial
  · cases hadv with
    | timed => exact h
    | turnedDown hperform => trivial
    | proceeded hperform => exact h
  · cases hadv

/-- A call that starts the keeper and has still to set the timer is in the middle of using it. -/
theorem Starts.eq_timing (h : phase.Starts) : ∃ sections, phase = .timing sections .start := by
  cases phase with
  | timing sections use =>
    cases use with
    | start => exact ⟨sections, rfl⟩
    | _ => exact h.elim
  | _ => exact h.elim

/-- A call that starts the keeper sets the timer, or it is still to do so. -/
theorem Starts.advance (h : phase.Starts) (hopen : k.Unclosed) (hphase : phase.Unclosed)
    (hclock : k.now + maxInterval < Clock.horizon) (hadv : phase.Advance b k onTimer phase' k₁) :
    k₁.timer.isArmed = true ∨ phase'.Starts := by
  obtain ⟨sections, rfl⟩ := h.eq_timing
  rcases hadv.arms hopen hphase hclock h with harmed | ⟨s, rest, rfl, rfl, hrest⟩
  · exact .inl harmed
  · exact .inr hrest

/-- Whoever moves, a call that starts the keeper sets the timer, or it is still to do so. -/
theorem Starts.turns (h : phase.Starts) (hopen : k.Unclosed) (hphase : phase.Unclosed)
    (hclock : k.now + maxInterval < Clock.horizon) (hturns : phase.Turns b k i k' phase') :
    k'.timer.isArmed = true ∨ phase'.Starts := by
  obtain ⟨sections, rfl⟩ := h.eq_timing
  cases hturns with
  | stayed | woken => exact .inr h
  | advanced hadv hk =>
    have hnow := h.advance hopen hphase hclock hadv
    rw [hk]
    exact hnow

/-- A call that has returned after a start has been right, whoever moves. -/
theorem StartedBy.turns (h : phase.StartedBy k.started) (hserves : phase.Serves .start)
    (hkeep : k.started = true → k'.started = true) (hturns : phase.Turns b k i k' phase') :
    phase'.StartedBy k'.started := by
  cases hturns with
  | stayed => exact h.keep hkeep
  | woken => exact (h.keep hkeep).rouse
  | advanced hadv hk =>
    have hnow := h.advance hserves hadv
    rw [hk]
    exact hnow
  | itemMoved hrun => trivial
  | expired => trivial

end CallPhase

namespace Keeper

variable {log more : List Request}

/-- Nobody takes the mark of a started keeper away. -/
theorem Unclosed.started {a : KeeperAct} (h : k.Unclosed) (hclock : k.now + maxInterval < Clock.horizon)
    (hstep : k.step b a = some k') (hstarted : k.started = true) : k'.started = true := by
  cases Happens.of_step hstep with
  | moved hc hadv => exact (h.keeps (h.phases _ _ (phase?_of_getElem? hc)) hclock hadv).started hstarted
  | _ => exact hstarted

/-- Only a call that goes on to set the timer marks a keeper as started. -/
theorem started_or_starts {a : KeeperAct} (hstep : k.step b a = some k') (hstarted : k'.started = true) :
    k.started = true ∨ ∃ i phase, k'.phase? i = some phase ∧ phase.Starts := by
  cases Happens.of_step hstep with
  | @moved i c phase k₁ hc hadv =>
    have hself := phase?_moved hc hadv
    -- only the calls that start the keeper come near the mark
    obtain ⟨before, onTimer⟩ := c
    cases hadv with
    | started hopen hno =>
      have harm : TimerSection.arm false ∈ TimerSection.schedule := by decide
      exact .inr ⟨_, _, hself, harm⟩
    | unstarted => cases hstarted
    | startedBefore hopen hbefore => exact .inl hbefore
    | _ => exact .inl hstarted
  | _ => exact .inl hstarted

/-- Only a call that goes on to set the timer records the end of a rebuild. -/
theorem completed_or_attended {a : KeeperAct} (hstep : k.step b a = some k') (hopen : k.shuttingDown = false) :
    k'.completed = k.completed ∨ k'.Attended := by
  cases Happens.of_step hstep with
  | @moved i c phase k₁ hc hadv =>
    have hself := phase?_moved hc hadv
    obtain ⟨before, onTimer⟩ := c
    -- the end of a rebuild is recorded in one act, by the call that ran it
    cases hadv with
    | recorded =>
      refine .inr (.rearming hself ?_)
      rw [CallPhase.Rearms, hopen]
      rfl
    | _ => exact .inl rfl
  | _ => exact .inl rfl

/-- **What holds of an open keeper** and of the requests that were made to it. -/
structure Watched (k : Keeper) (log : List Request) : Prop where
  /-- Each call serves its request. -/
  serves : k.Serves log
  /-- Nobody closes it. -/
  unclosed : k.Unclosed
  /-- A call that has started the keeper, or found it started, finds it marked. -/
  started : ∀ i phase, k.phase? i = some phase → log[i]? = some .start → phase.StartedBy k.started
  /-- The call that has marked it sets the timer. -/
  starting : k.started = true → k.Attended ∨ ∃ i phase, k.phase? i = some phase ∧ phase.Starts
  /-- After a rebuild the next one is seen to. -/
  completed : 0 < k.completed → k.Attended

/-- A keeper is made if its interval is acceptable, and it is a new one. -/
theorem ofSteps_eq_ok_iff {steps : List Step} {interval : Nat} {world : World} {k₀ : Keeper} :
    ofSteps steps interval world = .ok k₀ ↔ checkInterval interval = .ok () ∧ k₀ = create steps interval world := by
  unfold ofSteps
  cases hcheck : checkInterval interval with
  | error f => exact iff_of_false nofun fun h => nomatch h.1
  | ok u => exact ⟨fun h => ⟨rfl, (Except.ok.inj h).symm⟩, fun h => congrArg Except.ok h.2.symm⟩

/-- A new keeper is watched. -/
theorem Watched.create {steps : List Step} {interval : Nat} {world : World} {k₀ : Keeper}
    (h : ofSteps steps interval world = .ok k₀) : k₀.Watched [] := by
  obtain ⟨hcheck, rfl⟩ := ofSteps_eq_ok_iff.1 h
  exact ⟨.create steps interval world, ⟨rfl, ⟨rfl, le_of_checkInterval hcheck, fun _ => rfl⟩, nofun, nofun⟩, nofun,
    nofun, nofun⟩

/-- **One act** of a keeper that nobody closes. -/
theorem Watched.step {a : KeeperAct} (h : k.Watched log) (ha : a ≠ .begin .cleanup)
    (hclock : k.now + maxInterval < Clock.horizon) (hstep : k.step b a = some k') :
    k'.Watched (log ++ k.asked (a, b) k') := by
  have hturns := Turns.of_step hstep
  have hattended : k.Attended → k'.Attended := fun hgood => hgood.step h.unclosed hclock hstep
  constructor
  case serves => exact h.serves.step hstep
  case unclosed => exact h.unclosed.step ha hclock hstep
  case started =>
    intro j p' hp' hlog
    rcases hturns.phases j p' hp' with ⟨p, hp, hturn⟩ | ⟨-, r, hr, rfl⟩
    · -- a call that was there before is one that starts the keeper
      rw [h.serves.getElem?_append hp] at hlog
      obtain ⟨r, hr, hserves⟩ := h.serves.phases j p hp
      rw [hlog] at hr
      cases hr
      exact (h.started j p hp hlog).turns hserves (h.unclosed.started hclock hstep) hturn
    · exact CallPhase.startedBy_request r k.now _
  case starting =>
    intro hmarked
    rcases started_or_starts hstep hmarked with hbefore | hnow
    · rcases h.starting hbefore with hgood | ⟨j, p, hp, hstarts⟩
      · exact .inl (hattended hgood)
      · -- the call that starts the keeper sets the timer, or is still to do so
        obtain ⟨p', hp', hturn⟩ := hturns.of_phase? hp
        rcases hstarts.turns h.unclosed (h.unclosed.phases j p hp) hclock hturn with harmed | hstill
        · exact .inl (.armed harmed)
        · exact .inr ⟨j, p', hp', hstill⟩
    · exact .inr hnow
  case completed =>
    intro hpos
    rcases completed_or_attended hstep h.unclosed.shuttingDown with hsame | hnow
    · exact hattended (h.completed (hsame ▸ hpos))
    · exact hnow

/-- The clock can show the deadlines as long as it can in the end. -/
theorem Reaches.now_le {k₀ : Keeper} (h : k₀.Reaches log k) : k₀.now ≤ k.now := by
  induction h with
  | start => exact le_refl _
  | act before hstep ih => exact ih.trans (now_le_of_step hstep)

/-- Where closing was not asked for, no act begins it. -/
theorem ne_cleanup {m : KeeperAct × Backend} (h : .cleanup ∉ k.asked m k') : m.1 ≠ .begin .cleanup := by
  intro hm
  rw [asked, hm] at h
  exact h (List.mem_singleton_self _)

/-- **Any number of acts** of a keeper that nobody closes. -/
theorem Reaches.watched {k₀ : Keeper} (h : k₀.Reaches more k) (h₀ : k₀.Watched log) (hopen : .cleanup ∉ more)
    (hclock : k.now + maxInterval < Clock.horizon) : k.Watched (log ++ more) := by
  induction h with
  | start => exact (List.append_nil log).symm ▸ h₀
  | @act before k k' m hbefore hstep ih =>
    rw [List.mem_append, not_or] at hopen
    have hnow := now_le_of_step hstep
    have hwatched := ih hopen.1 (by omega)
    rw [← List.append_assoc]
    exact hwatched.step (ne_cleanup hopen.2) (by omega) hstep

/-- Once the next rebuild is seen to, it remains so. -/
theorem Reaches.keeps_attended {k₀ : Keeper} (h : k₀.Reaches more k) (h₀ : k₀.Attended) (hunclosed : k₀.Unclosed)
    (hopen : .cleanup ∉ more) (hclock : k.now + maxInterval < Clock.horizon) : k.Unclosed ∧ k.Attended := by
  induction h with
  | start => exact ⟨hunclosed, h₀⟩
  | @act before k k' m hbefore hstep ih =>
    rw [List.mem_append, not_or] at hopen
    have hnow := now_le_of_step hstep
    obtain ⟨hunclosed, hattended⟩ := ih hopen.1 (by omega)
    exact ⟨hunclosed.step (ne_cleanup hopen.2) (by omega) hstep, hattended.step hunclosed (by omega) hstep⟩

variable {steps : List Step} {interval : Nat} {world : World} {k₀ k₂ : Keeper}

/-- After any call to start the keeper has returned, the next rebuild is seen to, or there is another such call that is
on its way to set the timer. -/
theorem Reaches.attended_or_starts (hcreate : ofSteps steps interval world = .ok k₀) (h : k₀.Reaches log k)
    (hstart : log[i]? = some .start) (hdone : k.phase? i = some (.returned .done)) (hopen : .cleanup ∉ log)
    (hclock : k.now + maxInterval < Clock.horizon) :
    k.Attended ∨ ∃ j phase, k.phase? j = some phase ∧ phase.Starts := by
  have hwatched := h.watched (.create hcreate) hopen hclock
  exact hwatched.starting (hwatched.started i _ hdone hstart)

/-- **The keeper is in operation**: a rebuild is over, or a call to start it has returned and none is on its way to
set the timer. A call that finds the keeper started returns at once, and then another one may still be on its way. -/
def Operates (k : Keeper) (log : List Request) : Prop :=
  0 < k.completed ∨ (∃ i, log[i]? = some .start ∧ k.phase? i = some (.returned .done)) ∧
    ∀ i sections, k.phase? i ≠ some (.timing sections .start)

/-- **The next rebuild is always seen to.** When a keeper is in operation that nobody closes, then at each moment from
then on the timer is set, or a rebuild is running, or somebody is about to set the timer or to have a rebuild run. It
does not matter how the rebuilds end, in which order the threads move, and how often the interval is changed or the
timer fires. -/
theorem Reaches.attended (hcreate : ofSteps steps interval world = .ok k₀) (h : k₀.Reaches log k)
    (hoperates : k.Operates log) (h' : k.Reaches more k₂) (hopen : .cleanup ∉ log ++ more)
    (hclock : k₂.now + maxInterval < Clock.horizon) : k₂.Attended := by
  rw [List.mem_append, not_or] at hopen
  have hnow := h'.now_le
  have hclock' : k.now + maxInterval < Clock.horizon := by omega
  have hwatched := h.watched (.create hcreate) hopen.1 hclock'
  -- at the first moment a rebuild is over, or a call has started the keeper and nobody else is about to
  have hattended : k.Attended := by
    rcases hoperates with hcompleted | ⟨⟨i, hstart, hdone⟩, hnobody⟩
    · exact hwatched.completed hcompleted
    · rcases h.attended_or_starts hcreate hstart hdone hopen.1 hclock' with hgood | ⟨j, phase, hphase, hstarts⟩
      · exact hgood
      · obtain ⟨sections, rfl⟩ := hstarts.eq_timing
        exact absurd hphase (hnobody j sections)
  exact (h'.keeps_attended hattended hwatched.unclosed hopen.2 hclock).2

/-- Somebody starts the keeper. -/
def startActs : List (KeeperAct × Backend) :=
  [.begin .start, .move 0, .move 0, .move 0, .move 0].map (·, World.initial.archive.backend)

/-- Somebody changes the interval, and has taken the deadline away. -/
def changeActs : List (KeeperAct × Backend) :=
  [.begin (.setInterval (seconds 60)), .move 1, .move 1].map (·, World.initial.archive.backend)

/-- At this moment the timer is not set and no rebuild is running. It is the call that changes the interval that has
to set the timer. -/
theorem Reaches.attended_changing : ∃ k₀ log k more k₂, ofSteps [] (seconds 3600) World.initial = .ok k₀ ∧
    k₀.Reaches log k ∧ k.Operates log ∧ k.Reaches more k₂ ∧ k₂.timer.isArmed = false ∧ k₂.idle = true ∧
    k₂.Attended := by
  have hcreate : ofSteps [] (seconds 3600) World.initial = .ok (create [] (seconds 3600) World.initial) := rfl
  obtain ⟨k, k₂, hk, hk₂, hdone, hlength, harmed, hidle, hnow⟩ : ∃ k k₂,
      carryOut act asked startActs ([], create [] (seconds 3600) World.initial) = some ([.start], k) ∧
      carryOut act asked changeActs ([], k) = some ([.setInterval (seconds 60)], k₂) ∧
      k.phase? 0 = some (.returned .done) ∧ k.calls.length = 1 ∧
      k₂.timer.isArmed = false ∧ k₂.idle = true ∧ k₂.now = 0 :=
    ⟨_, _, rfl, rfl, rfl, rfl, rfl, rfl, rfl⟩
  have h := Course.of_carryOut startActs .start hk
  have h' := Course.of_carryOut changeActs .start hk₂
  -- the only call that there is has returned
  have hoperates : k.Operates [.start] := by
    refine .inr ⟨⟨0, rfl, hdone⟩, fun i sections hi => ?_⟩
    have hlt := lt_of_phase? hi
    obtain rfl : i = 0 := by omega
    rw [hdone] at hi
    cases hi
  have hclock : k₂.now + maxInterval < Clock.horizon := by
    rw [hnow]
    decide
  exact ⟨_, _, k, _, k₂, hcreate, h, hoperates, h', harmed, hidle,
    Reaches.attended hcreate h hoperates h' (by simp) hclock⟩

end Keeper

end SensorCatalog
