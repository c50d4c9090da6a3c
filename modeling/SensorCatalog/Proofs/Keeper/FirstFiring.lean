import SensorCatalog.Proofs.Keeper.Attended

/-!
# The first firing

Whoever starts a keeper sets its timer for now, so that the first rebuild begins as soon as the thread of the timer
looks at the clock. Starting the keeper once more does not touch the timer, and neither does a change of the interval
that is refused or that asks for the interval as it is.

A change to another interval does, as it does at any other time: the deadline is taken away and set one new interval
ahead, and with it the first rebuild is put off (`Keeper.Reaches.put_off`).

`Keeper.Reaches.first_firing` says that there is nothing else. Until the first rebuild begins the deadline is not later
than the start, or the timer has fired; or somebody has asked for another interval, and then the deadline is no further
ahead than an interval that was asked for, or a call is about to set it.

Of the interval there are two cases, and each act keeps to one of them or leads from the first to the second. In the
first (`Keeper.Untouched`) it is what it was when the keeper was created. Then no call has anything to do with the
deadline but the one that starts the keeper, and this one finds a timer that was never set. In the second
(`Keeper.Touched`) it is another one, for which somebody has asked.
-/

namespace SensorCatalog

variable {b : Backend} {k k' k₁ : Keeper} {i : Nat} {c : Call} {phase phase' : CallPhase} {onTimer : Bool}
variable {log more : List Request} {interval n : Nat}

/-! ### Intervals that were asked for -/

/-- **The request asks for this interval**, which is acceptable. -/
def Request.Accepts : Request → Nat → Prop
  | .setInterval interval, n => interval = n ∧ checkInterval n = .ok ()
  | .setMinutes minutes, n => seconds (Settings.intervalSeconds minutes) = n ∧ checkInterval n = .ok ()
  | _, _ => False

/-- Somebody has asked for this interval, which is acceptable. -/
def IsAccepted (log : List Request) (n : Nat) : Prop := ∃ r ∈ log, r.Accepts n

/-- An interval that was asked for has been asked for. -/
theorem IsAccepted.append (h : IsAccepted log n) (more : List Request) : IsAccepted (log ++ more) n := by
  obtain ⟨r, hr, hn⟩ := h
  exact ⟨r, List.mem_append_left _ hr, hn⟩

/-! ### The timer in one act -/

namespace CallPhase

/-- **The interval changes** only when a call tries another one, which is acceptable. -/
theorem Advance.interval_cases (hadv : phase.Advance b k onTimer phase' k₁) (hphase : phase.Unclosed) :
    k₁.timer.interval = k.timer.interval ∨
      ∃ n, phase = .timing [.adjust n] .adjust ∧ checkInterval n = .ok () ∧ n ≠ k.timer.interval ∧
        k₁.timer = { k.timer with interval := n } := by
  cases hadv with
  | turnedDown hperform | proceeded hperform =>
    rcases Timer.interval_of_perform hperform with hsame | ⟨n, rfl, hcheck, hne, rfl⟩
    · exact .inl hsame
    · obtain ⟨rfl, rfl⟩ := TimerUse.Leaves.of_adjust hphase
      exact .inr ⟨n, rfl, hcheck, hne, rfl⟩
  | _ => exact .inl rfl

/-- **The deadline is set** by the last section of a call; otherwise it stays or is taken away. -/
theorem Advance.deadline_cases (hadv : phase.Advance b k onTimer phase' k₁) (hphase : phase.Unclosed) :
    (k₁.timer.initialized = k.timer.initialized ∧
      (k₁.timer.deadline = none ∨ k₁.timer.deadline = k.timer.deadline)) ∨
      ∃ full use, phase = .timing [.arm full] use ∧ phase' = .timing [] use ∧
        k₁.timer.deadline = some (k.now + k.timer.delay full) := by
  cases hadv with
  | turnedDown hperform =>
    -- a section that refuses leaves the timer as it is
    refine .inl ?_
    cases Timer.Performs.of_perform hperform <;> exact ⟨rfl, .inr rfl⟩
  | @proceeded s rest more use t hperform =>
    cases Timer.Performs.of_perform hperform with
    -- setting it is the last thing a call does, and so nothing of the call is left
    | @armed full deadline hopen hclock =>
      obtain rfl := TimerUse.Leaves.rest_of_arm hphase
      obtain rfl := Clock.eq_of_after? hclock
      exact .inr ⟨full, use, rfl, rfl, rfl⟩
    | disarmed | stopped => exact .inl ⟨rfl, .inl rfl⟩
    | _ => exact .inl ⟨rfl, .inr rfl⟩
  | _ => exact .inl ⟨rfl, .inr rfl⟩

end CallPhase

namespace Keeper

/-- **The interval is changed** by a call that tries one, if it is acceptable and another one. -/
theorem interval_of_step {a : KeeperAct} (h : k.Unclosed) (hstep : k.step b a = some k') :
    k'.timer.interval = k.timer.interval ∨
      ∃ i n, k.phase? i = some (.timing [.adjust n] .adjust) ∧ checkInterval n = .ok () ∧ n ≠ k.timer.interval ∧
        k'.timer = { k.timer with interval := n } := by
  cases Happens.of_step hstep with
  | @moved i c phase k₁ hc hadv =>
    have hphase := phase?_of_getElem? hc
    rcases hadv.interval_cases (h.phases _ _ hphase) with hsame | ⟨n, hchange, hrest⟩
    · exact .inl hsame
    · exact .inr ⟨i, n, hchange ▸ hphase, hrest⟩
  | fired htick hlook hfiring => exact .inl (Timer.look_settings hlook).1
  | looked htick hlook hfiring => exact .inl (Timer.look_settings hlook).1
  | _ => exact .inl rfl

/-- **The deadline is set** by the act of one call; otherwise it stays or is taken away. -/
theorem deadline_of_step {a : KeeperAct} (h : k.Unclosed) (hstep : k.step b a = some k') :
    (k'.timer.initialized = k.timer.initialized ∧
      (k'.timer.deadline = none ∨ k'.timer.deadline = k.timer.deadline)) ∨
      ∃ i full use, k.phase? i = some (.timing [.arm full] use) ∧ k'.phase? i = some (.timing [] use) ∧
        k'.timer.deadline = some (k.now + k.timer.delay full) := by
  cases Happens.of_step hstep with
  | @moved i c phase k₁ hc hadv =>
    have hphase := phase?_of_getElem? hc
    have hself := phase?_moved hc hadv
    rcases hadv.deadline_cases (h.phases _ _ hphase) with hkept | ⟨full, use, hbefore, rfl, hdeadline⟩
    · exact .inl hkept
    · exact .inr ⟨i, full, use, hbefore ▸ hphase, hself, hdeadline⟩
  | fired htick hlook hfiring => exact .inl (Timer.look_settings hlook).2
  | looked htick hlook hfiring => exact .inl (Timer.look_settings hlook).2
  | _ => exact .inl ⟨rfl, .inr rfl⟩

end Keeper

/-! ### Calls before the first rebuild is over -/

namespace CallPhase

/-- **A phase before the first rebuild is over.** Nobody is done with a rebuild, and an interval that is to be tried was
asked for. -/
def Early (log : List Request) : CallPhase → Prop
  | .announcing rearm _ => rearm = false
  | .timing _ (.rearm _) => False
  | .timing sections .adjust => ∀ n, .adjust n ∈ sections → checkInterval n = .ok () → IsAccepted log n
  | _ => True

/-- **A call that is to set the deadline anew** because of another interval. -/
def Resets : CallPhase → Prop
  | .timing sections .adjust => .arm false ∈ sections
  | _ => False

/-- Whoever has taken the deadline away is to set it anew. -/
theorem Readjusts.resets (h : phase.Readjusts) : phase.Resets := by
  cases phase with
  | timing sections use =>
    cases use with
    | adjust => exact h.1
    | _ => exact h
  | _ => exact h

/-- An interval that is to be tried was asked for, whatever is asked for later. -/
theorem Early.append (h : phase.Early log) (more : List Request) : phase.Early (log ++ more) := by
  cases phase with
  | timing sections use =>
    cases use with
    | adjust => exact fun n hn hcheck => (h n hn hcheck).append more
    | _ => exact h
  | _ => exact h

/-- A call that is woken has nothing to do with the timer. -/
theorem Early.rouse (h : phase.Early log) : phase.rouse.Early log := by
  cases phase with
  | asleep p => trivial
  | _ => exact h

/-- A call that begins tries at most the interval that it asks for. -/
theorem early_request {r : Request} (hr : r ∈ log) (now : Nat) : (r.phase now).Early log := by
  -- a change of the interval tries the interval that it asks for
  have hchange : ∀ interval, (checkInterval interval = .ok () → r.Accepts interval) →
      (timing (TimerSection.setInterval interval) .adjust).Early log := by
    intro interval haccepts n hn hcheck
    cases List.mem_singleton.1 hn
    exact ⟨r, hr, haccepts hcheck⟩
  cases r with
  | setInterval interval => exact hchange interval fun hcheck => ⟨rfl, hcheck⟩
  | setMinutes minutes =>
    rw [Request.phase]
    split
    · trivial
    · exact hchange _ fun hcheck => ⟨rfl, hcheck⟩
  | waitIdleFor span => rw [Request.phase]; split <;> trivial
  | _ => trivial

/-- A call in an early phase remains in one in its own acts, as long as no rebuild is over. -/
theorem Early.advance (h : phase.Early log) (hadv : phase.Advance b k onTimer phase' k₁)
    (hnone : k₁.completed = k.completed) : phase'.Early log := by
  -- only the end of a rebuild would bring a call beyond these phases
  cases hadv with
  | recorded => exact absurd hnone (Nat.succ_ne_self _)
  | rearmed => cases h
  | closed hidle => rfl
  | @timed use | @turnedDown s rest use t f hperform => cases use <;> trivial
  | @proceeded s rest more use t hperform =>
    cases use with
    | rearm a => exact h
    | adjust =>
      intro n hn hcheck
      -- what a section adds to those that are left is no further interval to try
      have hmore : .adjust n ∉ more := by
        have hp := Timer.Performs.of_perform hperform
        cases hp with
        | adjusted hcheck => split <;> simp
        | released hthread => split <;> simp
        | _ => exact List.not_mem_nil
      rcases List.mem_append.1 hn with hn | hn
      · exact absurd hn hmore
      · exact h n (List.mem_cons_of_mem _ hn) hcheck
    | _ => trivial
  | _ => trivial

/-- Whoever moves, a call in an early phase remains in one, as long as no rebuild is over. -/
theorem Early.turns (h : phase.Early log) (hturns : phase.Turns b k i k' phase')
    (hnone : k'.completed = k.completed) : phase'.Early log := by
  cases hturns with
  | stayed => exact h
  | woken => exact h.rouse
  | advanced hadv hk =>
    rw [hk] at hnone
    exact h.advance hadv hnone
  | itemMoved hrun => trivial
  | expired => trivial

/-- A call is not about to set the deadline because it is woken. -/
theorem resets_of_rouse (h : phase.rouse.Resets) : phase.Resets := by
  cases phase with
  | asleep p => exact h.elim
  | _ => exact h

/-- A call that is about to start the keeper after it was woken was so before. -/
theorem starts_of_rouse (h : phase.rouse.Starts) : phase.Starts := by
  cases phase with
  | asleep p => exact h.elim
  | _ => exact h

/-- A call that begins has not to set the deadline anew. -/
theorem not_resets_request (r : Request) (now : Nat) : ¬ (r.phase now).Resets := by
  cases r with
  | setInterval interval => simp [Request.phase, Resets, TimerSection.setInterval]
  | setMinutes minutes => rw [Request.phase]; split <;> simp [Resets, TimerSection.setInterval]
  | waitIdleFor span => rw [Request.phase]; split <;> exact id
  | _ => exact id

/-- A call that was just made has not yet to set the timer for the first time. -/
theorem not_starts_request (r : Request) (now : Nat) : ¬ (r.phase now).Starts := by
  cases r with
  | setMinutes minutes => rw [Request.phase]; split <;> exact id
  | waitIdleFor span => rw [Request.phase]; split <;> exact id
  | _ => exact id

/-- A call comes to set the deadline anew when it changes the interval. -/
theorem Turns.resets (hturns : phase.Turns b k i k' phase') (hphase : phase.Unclosed) (h : phase'.Resets) :
    phase.Resets ∨ k'.timer.interval ≠ k.timer.interval := by
  cases hturns with
  | stayed => exact .inl h
  | woken => exact .inl (resets_of_rouse h)
  | advanced hadv hk =>
    subst hk
    -- among the sections of the call there is one that sets the deadline, or one comes to be there
    cases hadv with
    | @timed use => cases use <;> exact h.elim
    | @turnedDown s rest use t f hperform => cases use <;> exact h.elim
    | @proceeded s rest more use t hperform =>
      cases use with
      | adjust =>
        rcases List.mem_append.1 h with hmore | hrest
        · -- it has just tried an interval
          obtain ⟨n, rfl⟩ := (Timer.Performs.of_perform hperform).eq_adjust_of_arm_mem hmore
          rcases Timer.perform_adjust hperform with ⟨rfl, hnothing⟩ | ⟨-, hne, rfl⟩
          · rw [hnothing more rfl] at hmore
            cases hmore
          · exact .inr hne
        · exact .inl (List.mem_cons_of_mem _ hrest)
      | _ => exact h.elim
    | _ => exact h.elim
  | itemMoved hrun => exact h.elim
  | expired => exact h.elim

/-- A call comes to set the timer for the first time when it marks the keeper as started. -/
theorem Turns.starts_before (hturns : phase.Turns b k i k' phase') (hphase : phase.Unclosed) (h : phase'.Starts) :
    phase.Starts ∨ (k.started = false ∧ k'.started = true) := by
  cases hturns with
  | stayed => exact .inl h
  | woken => exact .inl (starts_of_rouse h)
  | advanced hadv hk =>
    subst hk
    -- in the same way, but it is the start that adds such a section
    cases hadv with
    | @timed use => cases use <;> exact h.elim
    | @turnedDown s rest use t f hperform => cases use <;> exact h.elim
    | @proceeded s rest more use t hperform =>
      cases use with
      | start =>
        rcases List.mem_append.1 h with hmore | hrest
        · -- whoever starts the keeper changes no interval
          obtain ⟨n, rfl⟩ := (Timer.Performs.of_perform hperform).eq_adjust_of_arm_mem hmore
          have hleaves : TimerUse.Leaves .start (.adjust n :: rest) := hphase
          cases hleaves.of_adjust.1
        · exact .inl (List.mem_cons_of_mem _ hrest)
      | _ => exact h.elim
    | started hopen hstarted => exact .inr ⟨hstarted, rfl⟩
    | _ => exact h.elim
  | itemMoved hrun => exact h.elim
  | expired => exact h.elim

end CallPhase

/-! ### Two cases of the interval -/

namespace Keeper

variable {T T' : Nat}

/-- **Only one call starts the keeper.** The others that set the timer for the first time did so before. -/
theorem starts_of_step {a : KeeperAct} (h : k.Unclosed) (hstep : k.step b a = some k') :
    (∀ j p', k'.phase? j = some p' → p'.Starts → ∃ p, k.phase? j = some p ∧ p.Starts) ∨
      (k.started = false ∧ k'.started = true ∧ ∃ i, ∀ j p', k'.phase? j = some p' → p'.Starts →
        j = i ∨ ∃ p, k.phase? j = some p ∧ p.Starts) := by
  -- the call that marks the keeper as started is the one that is new
  by_cases hmarks : k.started = false ∧ k'.started = true
  · refine .inr ⟨hmarks.1, hmarks.2, ?_⟩
    cases Happens.of_step hstep with
    | @moved i c phase k₁ hc hadv =>
      refine ⟨i, fun j p' hp' hstarts => ?_⟩
      by_cases hj : j = i
      · exact .inl hj
      · -- the other calls have at most been woken
        rcases (phase?_setPhase hc hadv.passes.calls).2 j hj with hsame | hroused
        · exact .inr ⟨p', hsame.symm.trans hp', hstarts⟩
        · rw [hroused] at hp'
          obtain ⟨p, hp, rfl⟩ := Option.map_eq_some_iff.1 hp'
          exact .inr ⟨p, hp, CallPhase.starts_of_rouse hstarts⟩
    | _ => exact absurd (hmarks.1.symm.trans hmarks.2) nofun
  · refine .inl fun j p' hp' hstarts => ?_
    rcases (Turns.of_step hstep).phases j p' hp' with ⟨p, hp, hturns⟩ | ⟨-, r, -, rfl⟩
    · exact ⟨p, hp, (hturns.starts_before (h.phases j p hp) hstarts).resolve_right hmarks⟩
    · exact absurd hstarts (CallPhase.not_starts_request r k.now)

/-- **Nobody has changed the interval.** The deadline is no later than `T`. -/
structure Untouched (interval T : Nat) (k : Keeper) : Prop where
  interval : k.timer.interval = interval
  /-- No call has to set the deadline anew. -/
  quiet : ∀ i p, k.phase? i = some p → ¬ p.Resets
  /-- The call that starts the keeper finds a timer that was never set. -/
  fresh : ∀ i p, k.phase? i = some p → p.Starts → k.timer.initialized = false
  /-- There is only one such call. -/
  lone : ∀ i j p q, k.phase? i = some p → k.phase? j = some q → p.Starts → q.Starts → i = j
  unstarted : k.started = false → k.timer.initialized = false ∧ ∀ i p, k.phase? i = some p → ¬ p.Starts
  due : ∀ d, k.timer.deadline = some d → d ≤ T

/-- **Somebody has changed the interval.** The deadline is no later than `T`, or no further ahead than an interval that
was asked for. -/
structure Touched (interval T : Nat) (log : List Request) (k : Keeper) : Prop where
  changed : ∃ n, n ≠ interval ∧ IsAccepted log n
  /-- Somebody has asked for the interval as it is. -/
  interval : IsAccepted log k.timer.interval
  due : ∀ d, k.timer.deadline = some d → d ≤ T ∨ ∃ n, IsAccepted log n ∧ d ≤ k.now + n

/-- **A keeper before its first rebuild is over.** -/
structure Early (interval T : Nat) (log : List Request) (k : Keeper) : Prop where
  unclosed : k.Unclosed
  phases : ∀ i p, k.phase? i = some p → p.Early log
  either : k.Untouched interval T ∨ k.Touched interval T log

/-- An interval that a call has to try was asked for. -/
theorem Early.isAccepted (h : k.Early interval T log) (hphase : k.phase? i = some (.timing [.adjust n] .adjust))
    (hcheck : checkInterval n = .ok ()) : IsAccepted log n :=
  h.phases i _ hphase n List.mem_cons_self hcheck

/-- While nobody changes the interval, it is the call that starts the keeper that sets the deadline. -/
theorem Untouched.of_arm (h : k.Untouched interval T) (hearly : k.Early interval T log) {full : Bool} {use : TimerUse}
    (hphase : k.phase? i = some (.timing [.arm full] use)) : full = false ∧ use = .start := by
  have hunclosed := hearly.unclosed.phases i _ hphase
  -- by what the timer is used for; only a start gets that far while nobody changes the interval
  cases use with
  | rearm a => exact (hearly.phases i _ hphase).elim
  | start =>
    have hsuffix : [TimerSection.arm full] <:+ TimerSection.schedule := hunclosed
    have hmem := hsuffix.subset List.mem_cons_self
    simp only [TimerSection.schedule, List.mem_cons, TimerSection.arm.injEq, List.not_mem_nil, or_false, reduceCtorEq,
      false_or] at hmem
    exact ⟨hmem, rfl⟩
  | adjust =>
    rcases hunclosed with ⟨n, heq⟩ | hsuffix
    · cases heq
    · have hmem := hsuffix.subset List.mem_cons_self
      simp only [List.mem_cons, TimerSection.arm.injEq, List.not_mem_nil, or_false, reduceCtorEq, false_or] at hmem
      subst hmem
      exact absurd List.mem_cons_self (h.quiet i _ hphase)
  | close => exact hunclosed.elim

/-- **While nobody changes the interval**, the deadline is set for now, and then nobody is left to set it again. -/
theorem Untouched.deadline_of_step {a : KeeperAct} (h : k.Untouched interval T) (hearly : k.Early interval T log)
    (hstep : k.step b a = some k') :
    (k'.timer.initialized = k.timer.initialized ∧
      (k'.timer.deadline = none ∨ k'.timer.deadline = k.timer.deadline)) ∨
      (k.started = true ∧ (∃ i p, k.phase? i = some p ∧ p.Starts) ∧ k'.timer.deadline = some k.now ∧
        ∀ j p', k'.phase? j = some p' → ¬ p'.Starts) := by
  rcases Keeper.deadline_of_step hearly.unclosed hstep with hkept | ⟨i, full, use, hbefore, hafter, hset⟩
  · exact .inl hkept
  · obtain ⟨rfl, rfl⟩ := h.of_arm hearly hbefore
    -- the call that sets the deadline is the one that starts the keeper
    have hi : CallPhase.Starts (.timing [.arm false] .start) := List.mem_cons_self
    have hdelay : k.timer.delay false = 0 := by
      simp [Timer.delay, h.fresh i _ hbefore hi]
    have hmarked : k.started = true := by
      by_contra hno
      exact (h.unstarted (by simpa using hno)).2 i _ hbefore hi
    refine .inr ⟨hmarked, ⟨i, _, hbefore, hi⟩, by rw [hset, hdelay, Nat.add_zero], fun j p' hp' hj => ?_⟩
    -- and it was the only one, so that nobody is left
    rcases starts_of_step hearly.unclosed hstep with hold | ⟨hno, -⟩
    · obtain ⟨p, hp, hp₀⟩ := hold j p' hp' hj
      obtain rfl := h.lone j i p _ hp hbefore hp₀ hi
      rw [hafter] at hp'
      cases hp'
      cases hj
    · rw [hmarked] at hno
      cases hno

/-- As long as nobody changes the interval, it stays so. -/
theorem Untouched.step_same {a : KeeperAct} (h : k.Untouched interval T) (hearly : k.Early interval T log)
    (hclock : k.now + maxInterval < Clock.horizon) (hT : T ≤ T')
    (hstarts : ∀ i p, k.phase? i = some p → p.Starts → k.now ≤ T') (hstep : k.step b a = some k')
    (hsame : k'.timer.interval = k.timer.interval) : k'.Untouched interval T' := by
  have hbegins := starts_of_step hearly.unclosed hstep
  have hdeadline := h.deadline_of_step hearly hstep
  constructor
  case interval => exact hsame.trans h.interval
  case quiet =>
    intro j p' hp' hresets
    -- a call is to set the deadline because it was so before, or because the interval has changed
    rcases (Turns.of_step hstep).phases j p' hp' with ⟨p, hp, hturns⟩ | ⟨-, r, -, rfl⟩
    · rcases hturns.resets (hearly.unclosed.phases j p hp) hresets with hbefore | hchanged
      · exact h.quiet j p hp hbefore
      · exact hchanged hsame
    · exact CallPhase.not_resets_request r k.now hresets
  case fresh =>
    intro j p' hp' hj
    -- the timer counts as used once the deadline has been set, and then nobody starts the keeper any more
    rcases hdeadline with ⟨hinit, -⟩ | ⟨-, -, -, hnobody⟩
    · rw [hinit]
      rcases hbegins with hold | ⟨hno, -⟩
      · obtain ⟨p, hp, hp₀⟩ := hold j p' hp' hj
        exact h.fresh j p hp hp₀
      · exact (h.unstarted hno).1
    · exact absurd hj (hnobody j p' hp')
  case lone =>
    intro i j p' q' hp' hq' hi hj
    rcases hbegins with hold | ⟨hno, -, l, hnew⟩
    · obtain ⟨p, hp, hp₀⟩ := hold i p' hp' hi
      obtain ⟨q, hq, hq₀⟩ := hold j q' hq' hj
      exact h.lone i j p q hp hq hp₀ hq₀
    · -- before there was none, so both are the one that begins
      have hlone : ∀ m r', k'.phase? m = some r' → r'.Starts → m = l := by
        intro m r' hr' hm
        refine (hnew m r' hr' hm).resolve_right ?_
        rintro ⟨r, hr, hr₀⟩
        exact (h.unstarted hno).2 m r hr hr₀
      exact (hlone i p' hp' hi).trans (hlone j q' hq' hj).symm
  case unstarted =>
    intro hno'
    -- a keeper that is not started now was not started before
    have hno : k.started = false := by
      by_contra hyes
      rw [hearly.unclosed.started hclock hstep (by simpa using hyes)] at hno'
      cases hno'
    refine ⟨?_, fun j p' hp' hj => ?_⟩
    · rcases hdeadline with ⟨hinit, -⟩ | ⟨hmarked, -⟩
      · exact hinit.trans (h.unstarted hno).1
      · rw [hmarked] at hno
        cases hno
    · rcases hbegins with hold | ⟨-, hyes, -⟩
      · obtain ⟨p, hp, hp₀⟩ := hold j p' hp' hj
        exact (h.unstarted hno).2 j p hp hp₀
      · rw [hno'] at hyes
        cases hyes
  case due =>
    intro d hd
    -- the deadline stays, or it is set for now
    rcases hdeadline with ⟨-, hnone | hkept⟩ | ⟨-, ⟨i, p, hp, hi⟩, hset, -⟩
    · rw [hnone] at hd
      cases hd
    · exact (h.due d (hkept ▸ hd)).trans hT
    · rw [hset] at hd
      cases hd
      exact hstarts i p hp hi

/-- **One act**, after which the interval is untouched or has just been changed. -/
theorem Untouched.step {a : KeeperAct} (h : k.Untouched interval T) (hearly : k.Early interval T log)
    (hclock : k.now + maxInterval < Clock.horizon) (hT : T ≤ T')
    (hstarts : ∀ i p, k.phase? i = some p → p.Starts → k.now ≤ T') (hstep : k.step b a = some k') :
    k'.Untouched interval T' ∨ k'.Touched interval T' log := by
  rcases interval_of_step hearly.unclosed hstep with hsame | ⟨i, n, hphase, hcheck, hne, htimer⟩
  · exact .inl (h.step_same hearly hclock hT hstarts hstep hsame)
  · -- the deadline is still where it was
    have haccepted := hearly.isAccepted hphase hcheck
    refine .inr ⟨⟨n, h.interval ▸ hne, haccepted⟩, ?_, fun d hd => .inl ?_⟩
    · rw [htimer]
      exact haccepted
    · rw [htimer] at hd
      exact (h.due d hd).trans hT

/-- What has been asked for is not withdrawn. -/
theorem Touched.append (h : k.Touched interval T log) (more : List Request) : k.Touched interval T (log ++ more) := by
  obtain ⟨n, hne, hn⟩ := h.changed
  refine ⟨⟨n, hne, hn.append more⟩, h.interval.append more, fun d hd => ?_⟩
  rcases h.due d hd with hle | ⟨m, hm, hle⟩
  · exact .inl hle
  · exact .inr ⟨m, hm.append more, hle⟩

/-- **After the interval was changed**, a deadline that is set is one interval ahead. -/
theorem Touched.step {a : KeeperAct} (h : k.Touched interval T log) (hearly : k.Early interval T log) (hT : T ≤ T')
    (hstep : k.step b a = some k') : k'.Touched interval T' log := by
  have hnow := now_le_of_step hstep
  refine ⟨h.changed, ?_, fun d hd => ?_⟩
  -- the interval is the one that the call has tried, and this one was asked for
  · rcases interval_of_step hearly.unclosed hstep with hsame | ⟨i, n, hphase, hcheck, -, htimer⟩
    · rw [hsame]
      exact h.interval
    · rw [htimer]
      exact hearly.isAccepted hphase hcheck
  -- a deadline that is set now is one interval ahead, or none at all
  · rcases deadline_of_step hearly.unclosed hstep with ⟨-, hnone | hkept⟩ | ⟨i, full, use, -, -, hset⟩
    · rw [hnone] at hd
      cases hd
    · rw [hkept] at hd
      rcases h.due d hd with hle | ⟨n, hn, hle⟩
      · exact .inl (hle.trans hT)
      · exact .inr ⟨n, hn, by omega⟩
    · rw [hset] at hd
      cases hd
      refine .inr ⟨_, h.interval, ?_⟩
      unfold Timer.delay
      split <;> omega

/-- **Each act keeps to one of the cases**, or leads from the first to the second. -/
theorem Early.step {a : KeeperAct} (h : k.Early interval T log) (ha : a ≠ .begin .cleanup)
    (hclock : k.now + maxInterval < Clock.horizon) (hnone : k'.completed = k.completed) (hT : T ≤ T')
    (hstarts : ∀ i p, k.phase? i = some p → p.Starts → k.now ≤ T') (hstep : k.step b a = some k') :
    k'.Early interval T' (log ++ k.asked (a, b) k') := by
  refine ⟨h.unclosed.step ha hclock hstep, fun j p' hp' => ?_, ?_⟩
  -- the calls remain what they are, and the interval is untouched or it is touched
  · rcases (Turns.of_step hstep).phases j p' hp' with ⟨p, hp, hturns⟩ | ⟨-, r, hr, rfl⟩
    · exact ((h.phases j p hp).turns hturns hnone).append _
    · refine CallPhase.early_request (List.mem_append_right _ ?_) k.now
      rw [hr]
      exact List.mem_singleton_self r
  · rcases h.either with huntouched | htouched
    · exact (huntouched.step h hclock hT hstarts hstep).imp_right fun htouched => htouched.append _
    · exact .inr ((htouched.step h hT hstep).append _)

end Keeper

/-! ### Until the first rebuild begins -/

/-- Rebuilds that are over are counted. -/
theorem CallPhase.Advance.completed_le (hadv : phase.Advance b k onTimer phase' k₁) : k.completed ≤ k₁.completed := by
  cases hadv with
  | recorded => exact Nat.le_succ _
  | _ => exact Nat.le_refl _

namespace Keeper

variable {T : Nat} {steps : List Step} {world : World} {k₀ k₂ : Keeper}

/-- Rebuilds that are over remain so in each act. -/
theorem completed_le_of_step {a : KeeperAct} (hstep : k.step b a = some k') : k.completed ≤ k'.completed := by
  cases Happens.of_step hstep with
  | moved hc hadv => exact hadv.completed_le
  | _ => exact Nat.le_refl _

/-- And so they do in any number of acts. -/
theorem Reaches.completed_le (h : k₀.Reaches log k) : k₀.completed ≤ k.completed := by
  induction h with
  | start => exact Nat.le_refl _
  | act _ hstep ih => exact ih.trans (completed_le_of_step hstep)

/-- At first there are no calls. -/
theorem Untouched.create : (Keeper.create steps interval world).Untouched interval T := by
  have hnobody : ∀ i p, (Keeper.create steps interval world).phase? i ≠ some p := nofun
  constructor
  case interval => rfl
  case quiet => exact fun i p hp => absurd hp (hnobody i p)
  case fresh => exact fun i p hp => absurd hp (hnobody i p)
  case lone => exact fun i j p q hp => absurd hp (hnobody i p)
  case unstarted => exact fun _ => ⟨rfl, fun i p hp => absurd hp (hnobody i p)⟩
  case due => exact nofun

/-- A new keeper has neither a deadline nor a call. -/
theorem Early.create (h : ofSteps steps interval world = .ok k₀) : k₀.Early interval T [] := by
  have hwatched := Watched.create h
  obtain ⟨-, rfl⟩ := ofSteps_eq_ok_iff.1 h
  exact ⟨hwatched.unclosed, nofun, .inl .create⟩

/-- Up to any moment before, the deadline is not ahead unless somebody has changed the interval. -/
theorem Reaches.early (hcreate : ofSteps steps interval world = .ok k₀) (h : k₀.Reaches log k) (hopen : .cleanup ∉ log)
    (hclock : k.now + maxInterval < Clock.horizon) (hnone : k.completed = 0) : k.Early interval k.now log := by
  induction h with
  | start => exact .create hcreate
  | @act log k k' m hbefore hstep ih =>
    rw [List.mem_append, not_or] at hopen
    have hnow := now_le_of_step hstep
    have hcompleted := completed_le_of_step hstep
    have hearly := ih hopen.1 (by omega) (by omega)
    exact hearly.step (ne_cleanup hopen.2) (by omega) (by omega) hnow (fun _ _ _ _ => hnow) hstep

/-- The keeper is started, and nobody is on his way to set the timer for the first time. -/
def Settled (k : Keeper) : Prop := k.started = true ∧ ∀ i p, k.phase? i = some p → ¬ p.Starts

/-- **One act** of a settled keeper, which nobody starts again. -/
theorem Settled.step {a : KeeperAct} (h : k.Settled) (hopen : k.Unclosed)
    (hclock : k.now + maxInterval < Clock.horizon) (hstep : k.step b a = some k') : k'.Settled := by
  refine ⟨hopen.started hclock hstep h.1, fun j p' hp' hj => ?_⟩
  rcases starts_of_step hopen hstep with hold | ⟨hno, -⟩
  · obtain ⟨p, hp, hp₀⟩ := hold j p' hp' hj
    exact h.2 j p hp hp₀
  · rw [h.1] at hno
    cases hno

/-- From then on it does not matter any more what time it is. -/
theorem Reaches.keeps_early (h : k.Reaches more k₂) (hearly : k.Early interval T log) (hsettled : k.Settled)
    (hopen : .cleanup ∉ more) (hclock : k₂.now + maxInterval < Clock.horizon) (hnone : k₂.completed = 0) :
    k₂.Settled ∧ k₂.Early interval T (log ++ more) := by
  -- over the course; that nothing is asked of the clock is due to the keeper being settled
  induction h with
  | start => exact ⟨hsettled, (List.append_nil log).symm ▸ hearly⟩
  | @act before k k' m hbefore hstep ih =>
    rw [List.mem_append, not_or] at hopen
    have hnow := now_le_of_step hstep
    have hcompleted := completed_le_of_step hstep
    obtain ⟨hsettled, hearly⟩ := ih hopen.1 (by omega) (by omega)
    rw [← List.append_assoc]
    exact ⟨hsettled.step hearly.unclosed (by omega) hstep, hearly.step (ne_cleanup hopen.2) (by omega) (by omega)
      le_rfl (fun i p hp hstarts => absurd hstarts (hsettled.2 i p hp)) hstep⟩

/-- **The first rebuild is due**: the deadline is no later than `T`, or the timer has fired and the call that its thread
makes has not yet looked whether a rebuild is running. -/
def Due (T : Nat) (k : Keeper) : Prop :=
  (∃ d, k.timer.deadline = some d ∧ d ≤ T) ∨
    (k.timer.thread = .firing ∧ ∃ i, k.tick = some i ∧ k.phase? i = some (.looking (.trigger .coalesce) false))

/-- **The first rebuild was put off.** Somebody has asked for another interval than at first, and the deadline is no
further ahead than an interval that was asked for, or a call is about to set it. -/
structure PutOff (interval : Nat) (log : List Request) (k : Keeper) : Prop where
  changed : ∃ n, n ≠ interval ∧ IsAccepted log n
  ahead : (∃ d n, k.timer.deadline = some d ∧ IsAccepted log n ∧ d ≤ k.now + n) ∨
    ∃ i p, k.phase? i = some p ∧ p.Readjusts

/-- A keeper that is attended, and has not begun a rebuild, is about to have the first one. -/
theorem Early.due_or_putOff (h : k.Early interval T log) (hattended : k.Attended) (hidle : k.idle = true) :
    k.Due T ∨ k.PutOff interval log := by
  -- the next rebuild is seen to in one of several ways, of which some are not possible yet
  cases hattended with
  | armed harmed =>
    obtain ⟨d, hd⟩ := Option.isSome_iff_exists.1 harmed
    rcases h.either with huntouched | htouched
    · exact .inl (.inl ⟨d, hd, huntouched.due d hd⟩)
    · rcases htouched.due d hd with hle | ⟨n, hn, hle⟩
      · exact .inl (.inl ⟨d, hd, hle⟩)
      · exact .inr ⟨htouched.changed, .inl ⟨d, n, hd, hn, hle⟩⟩
  | rebuilding hbusy =>
    rw [hidle] at hbusy
    cases hbusy
  | @rearming i phase hphase hrearms =>
    -- nobody is done with a rebuild
    have hearly := h.phases i phase hphase
    cases phase with
    | announcing rearm a => exact absurd (hrearms.symm.trans hearly) nofun
    | timing sections use =>
      cases use with
      | rearm a => exact hearly.elim
      | _ => exact hrearms.elim
    | _ => exact hrearms.elim
  | fired hfiring htick hphase => exact .inl (.inr ⟨hfiring, _, htick, hphase⟩)
  | @readjusting i phase hphase hreadjusts =>
    rcases h.either with huntouched | htouched
    · exact absurd hreadjusts.resets (huntouched.quiet i phase hphase)
    · exact .inr ⟨htouched.changed, .inr ⟨i, phase, hphase, hreadjusts⟩⟩

/-- **The first rebuild is due at once** from the start of the keeper until it begins, unless somebody asks for another
interval than the keeper has. It does not matter who starts the keeper once more, or which changes of the interval are
refused. If somebody does ask for another interval, the first rebuild is put off by no more than an interval that was
asked for. -/
theorem Reaches.first_firing (hcreate : ofSteps steps interval world = .ok k₀) (h : k₀.Reaches log k)
    (hoperates : k.Operates log) (h' : k.Reaches more k₂) (hopen : .cleanup ∉ log ++ more)
    (hclock : k₂.now + maxInterval < Clock.horizon) (hidle : k₂.idle = true) (hnone : k₂.completed = 0) :
    k₂.Due k.now ∨ k₂.PutOff interval (log ++ more) := by
  rw [List.mem_append, not_or] at hopen
  have hnow := h'.now_le
  have hclock' : k.now + maxInterval < Clock.horizon := by omega
  have hcompleted : k.completed = 0 := Nat.le_zero.1 (hnone ▸ h'.completed_le)
  have hwatched := h.watched (.create hcreate) hopen.1 hclock'
  -- no rebuild is over, so it is by a start that the keeper operates
  obtain ⟨⟨i, hstart, hdone⟩, hnobody⟩ := hoperates.resolve_left (by omega)
  have hsettled : k.Settled := by
    refine ⟨hwatched.started i _ hdone hstart, fun j p hp hstarts => ?_⟩
    obtain ⟨sections, rfl⟩ := hstarts.eq_timing
    exact hnobody j sections hp
  have hattended : k.Attended := by
    rcases hwatched.starting hsettled.1 with hgood | ⟨j, p, hp, hstarts⟩
    · exact hgood
    · exact absurd hstarts (hsettled.2 j p hp)
  -- up to the first moment the deadline is no later than the clock, and from there on it is carried along
  have hearly := h.early hcreate hopen.1 hclock' hcompleted
  have hearly' := (h'.keeps_early hearly hsettled hopen.2 hclock hnone).2
  exact hearly'.due_or_putOff (h'.keeps_attended hattended hwatched.unclosed hopen.2 hclock).2 hidle

/-- The keeper is started once more, and asked for an interval that is refused and for the one that it has. -/
def insistentActs : List (KeeperAct × Backend) :=
  [.pass 1, .begin .start, .move 1, .begin (.setInterval 0), .move 2, .begin (.setMinutes 60), .move 3, .move 3].map
    (·, World.initial.archive.backend)

/-- Time has passed, and the deadline is still that of the start. -/
theorem Reaches.first_firing_insistent : ∃ k₀ log k more k₂, ofSteps [] (seconds 3600) World.initial = .ok k₀ ∧
    k₀.Reaches log k ∧ k.Operates log ∧ k.Reaches more k₂ ∧ .cleanup ∉ log ++ more ∧ k₂.idle = true ∧
    k₂.completed = 0 ∧ (k₂.Due k.now ∨ k₂.PutOff (seconds 3600) (log ++ more)) ∧
    more = [.start, .setInterval 0, .setMinutes 60] ∧ k.now < k₂.now ∧ k₂.timer.deadline = some 0 := by
  have hcreate : ofSteps [] (seconds 3600) World.initial = .ok (create [] (seconds 3600) World.initial) := rfl
  obtain ⟨k, k₂, hk, hk₂, hdone, hlength, hnow, hnow₂, hidle, hnone, hdeadline⟩ : ∃ k k₂,
      carryOut act asked startActs ([], create [] (seconds 3600) World.initial) = some ([.start], k) ∧
      carryOut act asked insistentActs ([], k) = some ([.start, .setInterval 0, .setMinutes 60], k₂) ∧
      k.phase? 0 = some (.returned .done) ∧ k.calls.length = 1 ∧ k.now = 0 ∧ k₂.now = 1 ∧ k₂.idle = true ∧
      k₂.completed = 0 ∧ k₂.timer.deadline = some 0 :=
    ⟨_, _, rfl, rfl, rfl, rfl, rfl, rfl, rfl, rfl, rfl⟩
  have h := Course.of_carryOut startActs .start hk
  have h' := Course.of_carryOut insistentActs .start hk₂
  -- the only call that there is has returned
  have hoperates : k.Operates [.start] := by
    refine .inr ⟨⟨0, rfl, hdone⟩, fun i sections hi => ?_⟩
    have hlt := lt_of_phase? hi
    obtain rfl : i = 0 := by omega
    rw [hdone] at hi
    cases hi
  have hclock : k₂.now + maxInterval < Clock.horizon := by
    rw [hnow₂]
    decide
  exact ⟨_, _, k, _, k₂, hcreate, h, hoperates, h', by simp, hidle, hnone,
    Reaches.first_firing hcreate h hoperates h' (by simp) hclock hidle hnone, rfl, by omega, hdeadline⟩

/-- The keeper is asked for another interval before the thread of the timer has looked at the clock. -/
def delayingActs : List (KeeperAct × Backend) :=
  [.begin (.setInterval (seconds 7200)), .move 1, .move 1, .move 1, .move 1, .move 1].map
    (·, World.initial.archive.backend)

/-- **The first rebuild may be put off.** The keeper was started, no rebuild has begun, all calls are over, and the
deadline is two hours ahead. -/
theorem Reaches.put_off : ∃ k₀ log k more k₂, ofSteps [] (seconds 3600) World.initial = .ok k₀ ∧ k₀.Reaches log k ∧
    log = [.start] ∧ k.phase? 0 = some (.returned .done) ∧ k.Reaches more k₂ ∧ more = [.setInterval (seconds 7200)] ∧
    k₂.phase? 1 = some (.returned .done) ∧ k₂.idle = true ∧ k₂.completed = 0 ∧ k₂.tick = none ∧
    k₂.timer.deadline = some (k.now + seconds 7200) := by
  obtain ⟨k, k₂, hk, hk₂, hdone, hdone₂, hidle, hnone, htick, hdeadline⟩ : ∃ k k₂,
      carryOut act asked startActs ([], create [] (seconds 3600) World.initial) = some ([.start], k) ∧
      carryOut act asked delayingActs ([], k) = some ([.setInterval (seconds 7200)], k₂) ∧
      k.phase? 0 = some (.returned .done) ∧ k₂.phase? 1 = some (.returned .done) ∧ k₂.idle = true ∧
      k₂.completed = 0 ∧ k₂.tick = none ∧ k₂.timer.deadline = some (k.now + seconds 7200) :=
    ⟨_, _, rfl, rfl, rfl, rfl, rfl, rfl, rfl, rfl⟩
  exact ⟨_, _, k, _, k₂, rfl, Course.of_carryOut startActs .start hk, rfl, hdone,
    Course.of_carryOut delayingActs .start hk₂, rfl, hdone₂, hidle, hnone, htick, hdeadline⟩

end Keeper

end SensorCatalog
