import SensorCatalog.Proofs.Keeper.Attended
import SensorCatalog.Proofs.Keeper.Closing

/-!
# Intervals in minutes

A number of minutes is checked in three places before it becomes the interval of the timer: in the settings, when a
keeper is made, and when a keeper is asked to change the interval. Only the settings compare minutes. The others compare
spans of time, after a multiplication that stops at the greatest number of seconds, and the last one has a case of its
own for no minutes at all. They agree nevertheless (`checkInterval_minutes`): where the multiplication stops, the
minutes are far beyond the greatest interval, and below it nothing is lost (`seconds_intervalSeconds`).

What a call to change the interval does to the timer consists of sections between which others may come in.
`Timer.Uses` is the course that they take if nobody does, and `Timer.Open.uses_setInterval` says what comes of it:
nothing if the interval is refused, or else the interval, with a deadline that is set anew (`Timer.Adjusted`). If others
come in they may change the timer, but not the answer (`CallPhase.Changes`). For this the keeper must not be marked as
being closed, while there may be a call that is about to mark it (`Keeper.Unmarked`).
-/

namespace SensorCatalog

variable {b : Backend} {k k' k₁ : Keeper} {i m : Nat} {c : Call} {phase phase' : CallPhase} {onTimer : Bool}
variable {log : List Request}

/-! ### Minutes and spans of time -/

/-- **The minutes that are acceptable** as an interval. -/
def Settings.Allows (minutes : Nat) : Prop := 1 ≤ minutes ∧ minutes ≤ maxIntervalMinutes

instance (minutes : Nat) : Decidable (Settings.Allows minutes) := inferInstanceAs (Decidable (_ ∧ _))

/-- **Nothing is lost** by counting acceptable minutes in seconds. -/
theorem seconds_intervalSeconds (h : Settings.Allows m) : seconds (Settings.intervalSeconds m) = seconds (60 * m) := by
  have hend : wordEnd = 18446744073709551616 := rfl
  have hword : m * 60 ≤ wordEnd - 1 := by
    -- so many minutes fit into a word of seconds, so the multiplication does not stop short
    have hle := h.2
    unfold maxIntervalMinutes at hle
    omega
  rw [Settings.intervalSeconds, Nat.min_eq_left hword, Nat.mul_comm]

/-- **A span of time is acceptable if the minutes are.** Where the multiplication stops neither is. -/
theorem checkInterval_minutes (m : Nat) :
    checkInterval (seconds (Settings.intervalSeconds m)) = .ok () ↔ Settings.Allows m := by
  have hend : wordEnd = 18446744073709551616 := rfl
  rw [checkInterval_eq_ok_iff]
  unfold Settings.Allows maxInterval Settings.intervalSeconds seconds maxIntervalMinutes
  omega

/-- Settings are accepted exactly if the minutes, the workers and the level are. -/
theorem Settings.check_eq_ok_iff {s : Settings} :
    s.check = .ok () ↔
      Settings.Allows s.minutes ∧ 0 < s.workers ∧ (LogLevel.ofName? s.level).isSome = true := by
  unfold check Allows
  -- the checks are tried in the order of the program, and the first one that fails decides
  split
  · rename_i hzero
    exact iff_of_false nofun fun h => absurd h.1.1 (by omega)
  rename_i hzero
  split
  · rename_i hgreat
    exact iff_of_false nofun fun h => absurd h.1.2 (by omega)
  rename_i hgreat
  split
  · rename_i hworkers
    exact iff_of_false nofun fun h => absurd h.2.1 (by omega)
  rename_i hworkers
  -- only the level is left, and the checks before it have passed
  cases hlevel : LogLevel.ofName? s.level with
  | none => exact iff_of_false nofun fun h => Bool.noConfusion h.2.2
  | some level => exact iff_of_true rfl ⟨⟨by omega, by omega⟩, by omega, rfl⟩

/-! ### A use of the timer that nobody interrupts -/

namespace Timer

variable {now : Nat} {onThread : Bool} {t t' u : Timer} {sections rest more : List TimerSection} {s : TimerSection}
variable {outcome : Except Fault Unit}

/-- **Sections one after the other**, with nobody coming in between. -/
inductive Uses (now : Nat) (onThread : Bool) : Timer → List TimerSection → Timer → Except Fault Unit → Prop where
  | nothing {t : Timer} : Uses now onThread t [] t (.ok ())
  | refused {t t' : Timer} {s : TimerSection} {rest : List TimerSection} {f : Fault}
    (h : t.perform now onThread s = some (t', .refuse f)) : Uses now onThread t (s :: rest) t' (.error f)
  | proceeds {t t' u : Timer} {s : TimerSection} {rest more : List TimerSection} {outcome : Except Fault Unit}
    (h : t.perform now onThread s = some (t', .proceed more))
    (hrest : Uses now onThread t' (more ++ rest) u outcome) : Uses now onThread t (s :: rest) u outcome

/-- **What becomes of a timer** whose interval is changed to `n` at a time. -/
structure Adjusted (now n : Nat) (t u : Timer) : Prop where
  interval : u.interval = n
  /-- Where this was the interval, nothing changes. -/
  same : t.interval = n → u = t
  /-- A timer that was not armed is not armed by it. -/
  unarmed : t.deadline = none → u.deadline = none
  /-- One that was armed is armed anew if the interval is another one. -/
  rearmed : t.isArmed = true → t.interval ≠ n → u.deadline = some (now + n)

/-- **A timer that was armed before**, if it is armed. -/
def Known (t : Timer) : Prop := t.isArmed = true → t.initialized = true

/-- An open timer that was armed before takes its interval as its delay, so that it is armed one interval ahead. -/
theorem Open.uses_rearm (h : t.Open) (hinitialized : t.initialized = true)
    (hclock : now + maxInterval < Clock.horizon) (onThread : Bool) :
    ∃ u, Uses now onThread t [.disarm, .start, .arm false] u (.ok ()) ∧ u.interval = t.interval ∧
      u.deadline = some (now + t.interval) := by
  -- the clock can show the deadline, as the interval is at most the greatest one
  have hinterval := h.interval
  have hafter : Clock.after? now t.interval = some (now + t.interval) := Clock.after?_eq_some (by omega)
  have hdisarm : t.perform now onThread .disarm = some ({ t with deadline := none }, .proceed []) := rfl
  -- whether there is a thread makes a difference to the second section only
  cases hthread : t.hasThread with
  | true =>
    have hstart : perform now onThread { t with deadline := none } .start =
        some ({ t with deadline := none }, .proceed []) := by
      simp [perform, hthread]
    have harm : perform now onThread { t with deadline := none } (.arm false) =
        some ({ t with deadline := some (now + t.interval) }, .proceed []) := by
      simp [perform, h.shutDown, delay, hinitialized, hafter]
    exact ⟨_, .proceeds hdisarm (.proceeds hstart (.proceeds harm .nothing)), rfl, rfl⟩
  | false =>
    have hstart : perform now onThread { t with deadline := none } .start =
        some ({ t with deadline := none, thread := .waiting, hasThread := true }, .proceed []) := by
      simp [perform, hthread, h.shutDown]
    have harm : perform now onThread { t with deadline := none, thread := .waiting, hasThread := true } (.arm false) =
        some ({ t with deadline := some (now + t.interval), thread := .waiting, hasThread := true },
          .proceed []) := by
      simp [perform, h.shutDown, delay, hinitialized, hafter]
    exact ⟨_, .proceeds hdisarm (.proceeds hstart (.proceeds harm .nothing)), rfl, rfl⟩

/-- **Changing the interval.** A refusal leaves the timer as it is. -/
theorem Open.uses_setInterval (h : t.Open) (hknown : t.Known)
    (hclock : now + maxInterval < Clock.horizon) (onThread : Bool) (n : Nat) :
    (∃ f, checkInterval n = .error f ∧ Uses now onThread t (TimerSection.setInterval n) t (.error f)) ∨
      (checkInterval n = .ok () ∧
        ∃ u, Uses now onThread t (TimerSection.setInterval n) u (.ok ()) ∧ Adjusted now n t u) := by
  cases hcheck : checkInterval n with
  | error f => exact .inl ⟨f, rfl, .refused (by simp [perform, hcheck])⟩
  | ok accepted =>
    refine .inr ⟨rfl, ?_⟩
    by_cases hsame : t.interval = n
    · -- the interval is this one already, so the call is over after one section
      have hkept : t.perform now onThread (.adjust n) = some (t, .proceed []) := by simp [perform, hcheck, hsame]
      exact ⟨t, .proceeds hkept .nothing, hsame, fun _ => rfl, id, fun _ hother => absurd hsame hother⟩
    -- from here on the interval is another one, and only an armed timer is armed anew
    have hopen : Open { t with interval := n } := ⟨h.shutDown, le_of_checkInterval hcheck, h.thread⟩
    cases hisArmed : t.isArmed with
    -- nothing is pending, so only the interval is changed
    | false =>
      have hchanged : t.perform now onThread (.adjust n) = some ({ t with interval := n }, .proceed []) := by
        simp [perform, hcheck, hsame, hisArmed]
      refine ⟨_, .proceeds hchanged .nothing, rfl, fun hn => absurd hn hsame, id, fun hyes => ?_⟩
      rw [hisArmed] at hyes
      cases hyes
    | true =>
      -- the three sections that follow are those of arming anew
      have hchanged : t.perform now onThread (.adjust n) =
          some ({ t with interval := n }, .proceed [.disarm, .start, .arm false]) := by
        simp [perform, hcheck, hsame, hisArmed]
      obtain ⟨u, huses, hinterval, hdeadline⟩ := hopen.uses_rearm (hknown hisArmed) hclock onThread
      refine ⟨u, .proceeds hchanged huses, hinterval, fun hn => absurd hn hsame, fun hnone => ?_,
        fun _ _ => hdeadline⟩
      rw [isArmed, hnone] at hisArmed
      cases hisArmed

end Timer

namespace Keeper

/-- The last call is put into another phase. -/
theorem setPhase_addCall (k : Keeper) (phase phase' : CallPhase) (onTimer : Bool) :
    (k.addCall phase onTimer).setPhase k.calls.length phase' = k.addCall phase' onTimer := by
  -- the call that was just added stands last
  have hcalls : (k.calls ++ [Call.mk phase onTimer]).modify k.calls.length (fun c => { c with phase := phase' }) =
      k.calls ++ [Call.mk phase' onTimer] := by
    simp [List.modify_eq_set_getElem?]
  unfold addCall setPhase
  rw [hcalls]

section Last

variable {t u : Timer} {s : TimerSection} {sections rest more : List TimerSection} {use : TimerUse} {f : Fault}

/-- What the last call does next is what it makes of the timer. -/
theorem step_last (k : Keeper) (b : Backend) (sections : List TimerSection) (use : TimerUse) (onTimer : Bool) :
    (k.addCall (.timing sections use) onTimer).step b (.move k.calls.length) =
      (k.addCall (.timing sections use) onTimer).useTimer k.calls.length onTimer sections use := by
  have hcall : (k.addCall (.timing sections use) onTimer).calls[k.calls.length]? =
      some ⟨.timing sections use, onTimer⟩ := List.getElem?_concat_length
  simp only [step, hcall, Option.bind_some, moveCall]

/-- A call that has no section left gives its answer. -/
theorem step_last_over : (k.addCall (.timing [] use) onTimer).step b (.move k.calls.length) =
    some (k.addCall (CallPhase.afterTiming use (.ok ())) onTimer) := by
  rw [step_last, useTimer, setPhase_addCall]

/-- A call whose section is refused goes on with the fault, and the rest of its sections is left out. -/
theorem step_last_refused (h : k.timer.perform k.now onTimer s = some (t, .refuse f)) :
    (k.addCall (.timing (s :: rest) use) onTimer).step b (.move k.calls.length) =
      some ({ k with timer := t }.addCall (CallPhase.afterTiming use (.error f)) onTimer) := by
  rw [step_last, useTimer]
  simp only [addCall, h]
  exact congrArg some (setPhase_addCall { k with timer := t } _ _ _)

/-- A call whose section succeeds has those sections before it that come of it. -/
theorem step_last_proceeds (h : k.timer.perform k.now onTimer s = some (t, .proceed more)) :
    (k.addCall (.timing (s :: rest) use) onTimer).step b (.move k.calls.length) =
      some ({ k with timer := t }.addCall (.timing (more ++ rest) use) onTimer) := by
  rw [step_last, useTimer]
  simp only [addCall, h]
  exact congrArg some (setPhase_addCall { k with timer := t } _ _ _)

/-- The same act again and again, if nobody asks for anything in it. -/
theorem carryOut_replicate_succ {x : KeeperAct × Backend} (hstep : k.step x.2 x.1 = some k')
    (hasked : k.asked x k' = []) (n : Nat) (log : List Request) :
    carryOut act asked (List.replicate (n + 1) x) (log, k) = carryOut act asked (List.replicate n x) (log, k') := by
  have hact : act k x = some k' := hstep
  simp only [List.replicate_succ, carryOut, hact, hasked, List.append_nil]

/-- **The last call uses the timer**, one section after the other, and nobody interrupts it. -/
theorem carryOut_uses {outcome : Except Fault Unit} (h : t.Uses k.now onTimer sections u outcome) (b : Backend)
    (use : TimerUse) (log : List Request) :
    ∃ n, carryOut act asked (List.replicate n (.move k.calls.length, b))
        (log, { k with timer := t }.addCall (.timing sections use) onTimer) =
      some (log, { k with timer := u }.addCall (CallPhase.afterTiming use outcome) onTimer) := by
  -- along the sections of the use, each of which is one act of the call
  induction h with
  | @nothing t => exact ⟨1, carryOut_replicate_succ (step_last_over (k := { k with timer := t })) rfl 0 log⟩
  | @refused t t' s rest f hperform =>
    exact ⟨1, carryOut_replicate_succ (step_last_refused (k := { k with timer := t }) hperform) rfl 0 log⟩
  | @proceeds t t' u s rest more outcome hperform hrest ih =>
    obtain ⟨n, hn⟩ := ih
    have hfirst : ({ k with timer := t }.addCall (.timing (s :: rest) use) onTimer).step b (.move k.calls.length) =
        some ({ k with timer := t' }.addCall (.timing (more ++ rest) use) onTimer) :=
      step_last_proceeds (k := { k with timer := t }) hperform
    exact ⟨n + 1, (carryOut_replicate_succ hfirst rfl n log).trans hn⟩

end Last

end Keeper

/-! ### A call that others interrupt -/

/-- No section leaves a timer armed that was never armed before. -/
theorem Timer.Known.performs {now : Nat} {t t' : Timer} {s : TimerSection} {e : SectionEnd} (h : t.Known)
    (hperform : t.Performs now onTimer s t' e) : t'.Known := by
  cases hperform with
  -- to arm the timer is what marks it as armed once
  | armed hopen hclock => exact fun _ => rfl
  | disarmed | stopped => exact nofun
  | _ => exact h

/-- A look of the thread only takes a deadline away, so it leaves no timer armed that was never armed before. -/
theorem Timer.Known.look {now : Nat} {t t' : Timer} (h : t.Known) (hlook : t.look now = some t') : t'.Known := by
  obtain ⟨-, hinitialized, hdeadline⟩ := look_settings hlook
  intro harmed
  rw [isArmed] at harmed
  rcases hdeadline with hnone | hsame
  · rw [hnone] at harmed
    cases harmed
  · rw [hinitialized]
    rw [hsame] at harmed
    exact h harmed

/-- No act of a call leaves a timer armed that was never armed before. -/
theorem CallPhase.Advance.known (hadv : phase.Advance b k onTimer phase' k₁) (h : k.timer.Known) : k₁.timer.Known := by
  cases hadv with
  | turnedDown hperform | proceeded hperform => exact h.performs (.of_perform hperform)
  | _ => exact h

namespace CallPhase

/-- **A call that changes the interval to so many minutes**: it has to try the interval, or has tried it, or it has
returned. -/
def Changes (m : Nat) : CallPhase → Prop
  | .timing sections use => use = .adjust ∧
    (sections = TimerSection.setInterval (seconds (Settings.intervalSeconds m)) ∨
      (Settings.Allows m ∧ sections <:+ [.disarm, .start, .arm false]))
  | .returned a => (Settings.Allows m ∧ a = .done) ∨ (¬ Settings.Allows m ∧ ∃ f, a = .refused f)
  | _ => False

/-- A call that asks for so many minutes is refused at once, or it has to try the interval. -/
theorem changes_request (m now : Nat) : ((Request.setMinutes m).phase now).Changes m := by
  rw [Request.phase]
  split
  · rename_i hzero
    exact .inr ⟨fun h => absurd h.1 (by omega), _, rfl⟩
  · exact ⟨rfl, .inl rfl⟩

/-- **The answer is decided by the minutes**, whatever others do with an open timer in between. -/
theorem Changes.advance (h : phase.Changes m) (htimer : k.timer.Open) (hclock : k.now + maxInterval < Clock.horizon)
    (hadv : phase.Advance b k onTimer phase' k₁) : phase'.Changes m := by
  cases hadv with
  -- no section is left, so the interval was accepted
  | timed =>
    obtain ⟨rfl, hempty | ⟨hallows, -⟩⟩ := h
    · cases hempty
    · exact .inl ⟨hallows, rfl⟩
  | @turnedDown s rest use t f hperform =>
    have hp := Timer.Performs.of_perform hperform
    obtain ⟨rfl, hfirst | ⟨hallows, hsuffix⟩⟩ := h
    · -- only the first section can refuse, and only a span of time that is not acceptable
      cases hfirst
      cases hp with
      | unacceptable hcheck =>
        refine .inr ⟨fun hallows => ?_, f, rfl⟩
        rw [(checkInterval_minutes m).2 hallows] at hcheck
        cases hcheck
    · -- once the interval is accepted, an open timer refuses nothing
      obtain ⟨interval, rfl⟩ := htimer.refuses hclock hp
      exact absurd (hsuffix.subset List.mem_cons_self) (by simp)
  -- acceptance of the interval decides the minutes, and the sections that follow are fixed then
  | @proceeded s rest more use t hperform =>
    obtain ⟨rfl, hfirst | ⟨hallows, hsuffix⟩⟩ := h
    · cases hfirst
      obtain ⟨hcheck, hmore⟩ := Timer.perform_adjust_proceeds hperform
      rw [List.append_nil]
      exact ⟨rfl, .inr ⟨(checkInterval_minutes m).1 hcheck, hmore⟩⟩
    · have hs := hsuffix.subset List.mem_cons_self
      -- none of the three has further sections come of it
      have hmore : more = [] := by
        have hp := Timer.Performs.of_perform hperform
        simp only [List.mem_cons, List.not_mem_nil, or_false] at hs
        rcases hs with rfl | rfl | rfl <;> cases hp <;> rfl
      rw [hmore]
      exact ⟨rfl, .inr ⟨hallows, (List.suffix_cons s rest).trans hsuffix⟩⟩
  | _ => exact h.elim

/-- Turns of others change nothing about it, as such a call neither sleeps nor waits. -/
theorem Changes.turns (h : phase.Changes m) (htimer : k.timer.Open) (hclock : k.now + maxInterval < Clock.horizon)
    (hturns : phase.Turns b k i k' phase') : phase'.Changes m := by
  cases hturns with
  | stayed => exact h
  | woken =>
    cases phase with
    | asleep p => exact h.elim
    | _ => exact h
  | advanced hadv hk => exact h.advance htimer hclock hadv
  | itemMoved hrun => exact h.elim
  | expired => exact h.elim

end CallPhase

namespace Keeper

/-- **A keeper that is not being closed.** A call that is to close it may have begun, but has not marked it. -/
structure Unmarked (k : Keeper) (log : List Request) : Prop where
  timer : k.timer.Open
  known : k.timer.Known
  /-- When the thread of the timer makes a call, it has fired. -/
  firing : k.tick.isSome = true → k.timer.thread = .firing
  phases : ∀ j p, k.phase? j = some p → p = .closing ∨ p.Unclosed
  /-- A call that changes the interval by minutes is on its way to do so, or has its answer. -/
  minutes : ∀ j p m, k.phase? j = some p → log[j]? = some (.setMinutes m) → p.Changes m

/-- Whatever is done to a keeper, its timer is armed only if it was before. -/
theorem known_of_step {a : KeeperAct} (h : k.timer.Known) (hstep : k.step b a = some k') : k'.timer.Known := by
  cases Happens.of_step hstep with
  | moved hc hadv => exact hadv.known h
  | fired htick hlook hfiring | looked htick hlook hfiring => exact h.look hlook
  | _ => exact h

/-- The mark of a keeper that is closed is never taken away, so it was not there before. -/
theorem shuttingDown_of_step {a : KeeperAct} (hstep : k.step b a = some k') (hunmarked : k'.shuttingDown = false) :
    k.shuttingDown = false := by
  refine Bool.eq_false_iff.2 fun hmarked => ?_
  rw [(Endures.of_step hstep).shuttingDown hmarked] at hunmarked
  cases hunmarked

/-- A new keeper is not being closed. -/
theorem Unmarked.create {steps : List Step} {interval : Nat} {world : World} (hinterval : interval ≤ maxInterval) :
    (create steps interval world).Unmarked [] where
  timer := ⟨rfl, hinterval, fun _ => rfl⟩
  known := nofun
  firing := nofun
  phases := nofun
  minutes := nofun

/-- An act of a call that does not mark the keeper. -/
theorem Unmarked.advance (h : k.Unmarked log) (hunmarked : k.shuttingDown = false)
    (hclock : k.now + maxInterval < Clock.horizon) (hphase : k.phase? i = some phase)
    (hadv : phase.Advance b k onTimer phase' k₁) (hstill : k₁.shuttingDown = false) : Unclosed.Keeps k k₁ phase' := by
  rcases h.phases i phase hphase with rfl | hunclosed
  · -- a call that is to close the keeper would mark it now, or would have found the mark
    cases hadv with
    | closedBefore hclosing =>
      rw [hunmarked] at hclosing
      cases hclosing
    | closing hopen => cases hstill
  · exact .of_advance hunmarked h.timer hunclosed hclock hadv

/-- **It remains one** in each act that does not mark it. -/
theorem Unmarked.step {a : KeeperAct} (h : k.Unmarked log) (hserves : k.Serves log)
    (hclock : k.now + maxInterval < Clock.horizon) (hstep : k.step b a = some k') (hstill : k'.shuttingDown = false) :
    k'.Unmarked (log ++ k.asked (a, b) k') := by
  have hunmarked := shuttingDown_of_step hstep hstill
  have hturns := Turns.of_step hstep
  have hphases : ∀ j p, k'.phase? j = some p → p = .closing ∨ p.Unclosed := by
    intro j p' hp'
    rcases hturns.phases j p' hp' with ⟨p, hp, hturn⟩ | ⟨-, r, -, rfl⟩
    -- the call is one from before, and it has had its turn or has been let be
    · cases hturn with
      | stayed => exact h.phases j _ hp
      | woken =>
        refine (h.phases j _ hp).imp ?_ CallPhase.Unclosed.rouse
        rintro rfl
        rfl
      | advanced hadv hk =>
        subst hk
        exact .inr (h.advance hunmarked hclock hp hadv hstill).phase
      | itemMoved hrun => exact .inr trivial
      | expired => exact .inr trivial
    · -- the call is new, and only one that is asked to clean up is to close the keeper
      by_cases hr : r = .cleanup
      · subst hr
        exact .inl rfl
      · exact .inr (CallPhase.unclosed_request hr k.now)
  have hminutes : ∀ j p m, k'.phase? j = some p → (log ++ k.asked (a, b) k')[j]? = some (.setMinutes m) →
      p.Changes m := by
    intro j p' m hp' hlog
    rcases hturns.phases j p' hp' with ⟨p, hp, hturn⟩ | ⟨rfl, r, hr, rfl⟩
    -- a call from before asks for what it has asked for, and the log grows at its end only
    · rw [hserves.getElem?_append hp] at hlog
      exact (h.minutes j p m hp hlog).turns h.timer hclock hturn
    -- a new call asks for what stands last in the log
    · rw [hr, ← hserves.length_eq, List.getElem?_concat_length] at hlog
      cases hlog
      exact CallPhase.changes_request m k.now
  obtain ⟨htimer, hfiring⟩ := timer_of_step h.timer h.firing hstep fun i c phase k₁ hc hadv hk =>
    h.advance hunmarked hclock (phase?_of_getElem? hc) hadv (by rw [hk] at hstill; exact hstill)
  exact ⟨htimer, known_of_step h.known hstep, hfiring, hphases, hminutes⟩

variable {steps : List Step} {interval : Nat} {world : World} {k₀ : Keeper}

/-- A keeper that is not marked has been neither closed nor about to be closed since it was made. -/
theorem Reaches.unmarked (hcreate : ofSteps steps interval world = .ok k₀) (h : k₀.Reaches log k)
    (hunmarked : k.shuttingDown = false) (hclock : k.now + maxInterval < Clock.horizon) :
    k.Serves log ∧ k.Unmarked log := by
  -- over the course; the clock never goes back, so the bound on it holds at each act before
  induction h with
  | start =>
    obtain ⟨hcheck, rfl⟩ := ofSteps_eq_ok_iff.1 hcreate
    exact ⟨.create steps interval world, .create (le_of_checkInterval hcheck)⟩
  | @act before k k' m hbefore hstep ih =>
    have hnow := now_le_of_step hstep
    obtain ⟨hserves, h⟩ := ih (shuttingDown_of_step hstep hunmarked) (by omega)
    exact ⟨hserves.step hstep, h.step hserves (by omega) hstep hunmarked⟩

/-! ### Calls to change the interval -/

/-- What a call does next is what it makes of the timer. -/
theorem timer_of_move {s : TimerSection} {rest : List TimerSection} {use : TimerUse}
    (hphase : k.phase? i = some (.timing (s :: rest) use)) (hstep : k.step b (.move i) = some k') :
    ∃ onTimer e, k.timer.perform k.now onTimer s = some (k'.timer, e) ∧
      ∀ more, e = .proceed more → k'.phase? i = some (.timing (more ++ rest) use) := by
  cases Happens.of_step hstep with
  | @moved i c phase k₁ hc hadv =>
    have hself := phase?_moved hc hadv
    obtain ⟨before, onTimer⟩ := c
    cases Option.some.inj ((phase?_of_getElem? hc).symm.trans hphase)
    cases hadv with
    | turnedDown hperform => exact ⟨onTimer, _, hperform, nofun⟩
    | proceeded hperform =>
      refine ⟨onTimer, _, hperform, fun more hmore => ?_⟩
      cases hmore
      exact hself

/-- A call that has returned does nothing more. -/
theorem step_of_returned {a : Answer} (hphase : k.phase? i = some (.returned a)) (b : Backend) :
    k.step b (.move i) = none := by
  obtain ⟨⟨p, onTimer⟩, hc, rfl⟩ := Option.map_eq_some_iff.1 hphase
  simp only [step, hc, Option.bind_some, moveCall]

/-- A call that changes the interval never has to wait. -/
theorem step_of_changes (hphase : k.phase? i = some phase) (h : phase.Changes m)
    (hstill : ∀ a, phase ≠ .returned a) (b : Backend) : ∃ k', k.step b (.move i) = some k' := by
  obtain ⟨⟨p, onTimer⟩, hc, rfl⟩ := Option.map_eq_some_iff.1 hphase
  refine Option.isSome_iff_exists.1 ?_
  simp only [step, hc, Option.bind_some, moveCall]
  cases p with
  | timing sections use =>
    cases sections with
    | nil => rfl
    | cons s rest =>
      -- only the end of the thread would have to be waited for
      have hs : s ≠ .join := by
        rintro rfl
        rcases h.2 with hfirst | ⟨-, hsuffix⟩
        · cases hfirst
        · exact absurd (hsuffix.subset List.mem_cons_self) (by simp)
      obtain ⟨⟨t, e⟩, hperform⟩ : ∃ x, k.timer.perform k.now onTimer s = some x := Timer.perform_of_ne_join hs
      simp only [useTimer, hperform]
      cases e <;> rfl
  | returned a => exact absurd rfl (hstill a)
  | _ => exact h.elim

/-- **What becomes of a call** that changes the interval to so many minutes, whoever comes in between. -/
structure Decides (k : Keeper) (i m : Nat) : Prop where
  /-- The answer is that of the minutes. -/
  answer : ∀ a, k.phase? i = some (.returned a) →
    (Settings.Allows m ∧ a = .done) ∨ (¬ Settings.Allows m ∧ ∃ f, a = .refused f)
  /-- It never has to wait. -/
  moves : (∀ a, k.phase? i ≠ some (.returned a)) → ∀ b, ∃ k', k.step b (.move i) = some k'
  /-- If it is to be refused it leaves the timer as it is. -/
  untouched : ¬ Settings.Allows m → ∀ b k', k.step b (.move i) = some k' → k'.timer = k.timer
  /-- Or else it changes the interval, and if the timer is armed it goes on to arm it anew. -/
  adopts : Settings.Allows m → k.phase? i = some (.timing (TimerSection.setInterval (seconds (60 * m))) .adjust) →
    ∀ b k', k.step b (.move i) = some k' → k'.timer.interval = seconds (60 * m) ∧
      (k.timer.isArmed = true → k.timer.interval ≠ seconds (60 * m) →
        k'.phase? i = some (.timing [.disarm, .start, .arm false] .adjust))

/-- What becomes of such a call, read off the phase it is in. -/
theorem Unmarked.decides (h : k.Unmarked log) (hserves : k.Serves log) (hlog : log[i]? = some (.setMinutes m)) :
    k.Decides i m := by
  have hlength : i < k.calls.length := hserves.length_eq ▸ (List.getElem?_eq_some_iff.1 hlog).1
  obtain ⟨phase, hphase⟩ : ∃ phase, k.phase? i = some phase :=
    ⟨_, phase?_of_getElem? (List.getElem?_eq_getElem hlength)⟩
  have hchanges := h.minutes i phase m hphase hlog
  constructor
  case answer =>
    intro a ha
    rw [ha] at hphase
    cases hphase
    exact hchanges
  case moves =>
    refine fun hstill b => step_of_changes hphase hchanges (fun a ha => hstill a ?_) b
    rw [hphase, ha]
  case untouched =>
    intro hno b k' hstep
    cases phase with
    | timing sections use =>
      obtain ⟨-, rfl | ⟨hallows, -⟩⟩ := hchanges
      · -- the first section tries the interval, and it fails as the minutes are not acceptable
        obtain ⟨onTimer, e, hperform, -⟩ := timer_of_move hphase hstep
        rcases Timer.perform_adjust hperform with ⟨hsame, -⟩ | ⟨hcheck, -⟩
        · exact hsame
        · exact absurd ((checkInterval_minutes m).1 hcheck) hno
      · exact absurd hallows hno
    | returned a =>
      rw [step_of_returned hphase b] at hstep
      cases hstep
    | _ => exact hchanges.elim
  case adopts =>
    intro hallows hfirst b k' hstep
    -- the minutes are acceptable, so the first section cannot be refused
    have hcheck := (checkInterval_minutes m).2 hallows
    rw [seconds_intervalSeconds hallows] at hcheck
    obtain ⟨onTimer, e, hperform, hnext⟩ := timer_of_move hfirst hstep
    generalize k'.timer = t at hperform
    cases Timer.Performs.of_perform hperform with
    | unacceptable hno => exact absurd (hcheck.symm.trans hno) nofun
    | unchanged hsame => exact ⟨hsame, fun _ hother => absurd hsame hother⟩
    -- what it has to do next depends on whether the timer was armed
    | adjusted hyes =>
      refine ⟨rfl, fun harmed _ => ?_⟩
      have hphase' := hnext _ rfl
      rwa [harmed] at hphase'

/-- **A call that nobody interrupts**: it asks for so many minutes, its answer is `a`, and the timer is `u` then. -/
def Answers (b : Backend) (k : Keeper) (m : Nat) (a : Answer) (u : Timer) : Prop :=
  ∃ n, carryOut act asked ((.begin (.setMinutes m), b) :: List.replicate n (.move k.calls.length, b)) ([], k) =
    some ([.setMinutes m], { k with timer := u }.addCall (.returned a) false)

/-- A keeper that is not being closed gives the answer of the minutes. -/
theorem Unmarked.answers (h : k.Unmarked log) (hclock : k.now + maxInterval < Clock.horizon) (b : Backend) (m : Nat) :
    (Settings.Allows m ∧ ∃ u, Answers b k m .done u ∧ k.timer.Adjusted k.now (seconds (60 * m)) u) ∨
      (¬ Settings.Allows m ∧ ∃ f, Answers b k m (.refused f) k.timer) := by
  by_cases hzero : m = 0
  · subst hzero
    -- without a minute the call is refused as it is made
    exact .inr ⟨fun hallows => absurd hallows.1 (by omega), _, 0, rfl⟩
  have hbegin : ∀ n, carryOut act asked
      ((.begin (.setMinutes m), b) :: List.replicate n (.move k.calls.length, b)) ([], k) =
      carryOut act asked (List.replicate n (.move k.calls.length, b)) ([.setMinutes m],
        k.addCall (.timing (TimerSection.setInterval (seconds (Settings.intervalSeconds m))) .adjust) false) := by
    -- the call is made, and all its acts are sections of the timer
    intro n
    have hphase : (Request.setMinutes m).phase k.now =
        .timing (TimerSection.setInterval (seconds (Settings.intervalSeconds m))) .adjust := if_neg hzero
    rw [← hphase]
    rfl
  have huses := h.timer.uses_setInterval h.known hclock false (seconds (Settings.intervalSeconds m))
  rcases huses with ⟨f, hcheck, huses⟩ | ⟨hcheck, u, huses, hadjusted⟩
  · -- the span of time is refused, so the minutes are not acceptable
    refine .inr ⟨fun hallows => ?_, f, ?_⟩
    · rw [(checkInterval_minutes m).2 hallows] at hcheck
      cases hcheck
    · obtain ⟨n, hn⟩ := carryOut_uses huses b .adjust [.setMinutes m]
      exact ⟨n, (hbegin n).trans hn⟩
  · have hallows := (checkInterval_minutes m).1 hcheck
    rw [seconds_intervalSeconds hallows] at hadjusted
    obtain ⟨n, hn⟩ := carryOut_uses huses b .adjust [.setMinutes m]
    exact .inl ⟨hallows, u, ⟨n, (hbegin n).trans hn⟩, hadjusted⟩

/-- **All agree on the minutes.** Settings are accepted, a keeper is made and a call succeeds if the minutes are between
one and the greatest number of them, and not otherwise. Then the interval of the timer is just that of the minutes. A
call that nobody interrupts arms the timer anew if it was armed with another interval, and leaves it as it is if it is
refused. This holds in each state of a keeper that is not being closed, as long as the clock can show what is one
greatest interval ahead; and if others come in between, the answer is the same. -/
theorem gates_agree (m : Nat) :
    (∀ workers level, 0 < workers → (LogLevel.ofName? level).isSome = true →
      (Settings.check ⟨m, workers, level⟩ = .ok () ↔ Settings.Allows m)) ∧
    (∀ steps world,
      ((∃ k, ofSteps steps (seconds (Settings.intervalSeconds m)) world = .ok k) ↔ Settings.Allows m) ∧
      ∀ k, ofSteps steps (seconds (Settings.intervalSeconds m)) world = .ok k →
        k.timer.interval = seconds (60 * m)) ∧
    ∀ steps interval world k₀ log k, ofSteps steps interval world = .ok k₀ → k₀.Reaches log k →
      k.shuttingDown = false → k.now + maxInterval < Clock.horizon →
      (∀ b, (Settings.Allows m ∧ ∃ u, Answers b k m .done u ∧ k.timer.Adjusted k.now (seconds (60 * m)) u) ∨
        (¬ Settings.Allows m ∧ ∃ f, Answers b k m (.refused f) k.timer)) ∧
      ∀ i, log[i]? = some (.setMinutes m) → k.Decides i m := by
  refine ⟨fun workers level hworkers hlevel => ?_, fun steps world => ⟨?_, fun k hcreate => ?_⟩,
    fun steps interval world k₀ log k hcreate h hunmarked hclock => ?_⟩
  · rw [Settings.check_eq_ok_iff]
    exact and_iff_left ⟨hworkers, hlevel⟩
  · simp only [ofSteps_eq_ok_iff, checkInterval_minutes, exists_and_left, exists_eq, and_true]
  · obtain ⟨hcheck, rfl⟩ := ofSteps_eq_ok_iff.1 hcreate
    exact seconds_intervalSeconds ((checkInterval_minutes m).1 hcheck)
  · obtain ⟨hserves, h⟩ := h.unmarked hcreate hunmarked hclock
    exact ⟨fun b => h.answers hclock b m, fun i hlog => h.decides hserves hlog⟩

/-- The keeper is started, and somebody is about to change the interval to half an hour. -/
def shorteningActs : List (KeeperAct × Backend) :=
  startActs ++ [(.begin (.setMinutes 30), World.initial.archive.backend)]

/-- The timer is armed for an hour, and whoever is asked for half an hour next arms it for this. -/
theorem gates_agree_half_hour : ∃ k₀ k u, ofSteps [] (seconds 3600) World.initial = .ok k₀ ∧
    k₀.Reaches [.start, .setMinutes 30] k ∧ k.shuttingDown = false ∧ k.now + maxInterval < Clock.horizon ∧
    k.timer.isArmed = true ∧ Settings.check ⟨30, 4, "info"⟩ = .ok () ∧ k.Decides 1 30 ∧
    Answers World.initial.archive.backend k 30 .done u ∧ u.interval = seconds 1800 ∧
    u.deadline = some (k.now + seconds 1800) := by
  have hallows : Settings.Allows 30 := by decide
  obtain ⟨k, hk, hunmarked, hnow, harmed, hinterval⟩ : ∃ k,
      carryOut act asked shorteningActs ([], create [] (seconds 3600) World.initial) =
        some ([.start, .setMinutes 30], k) ∧
      k.shuttingDown = false ∧ k.now = 0 ∧ k.timer.isArmed = true ∧ k.timer.interval = seconds 3600 :=
    ⟨_, rfl, rfl, rfl, rfl, rfl⟩
  have h := Course.of_carryOut shorteningActs .start hk
  have hclock : k.now + maxInterval < Clock.horizon := by
    rw [hnow]
    decide
  obtain ⟨hsettings, -, hkeepers⟩ := gates_agree 30
  obtain ⟨hanswers, hdecides⟩ := hkeepers [] (seconds 3600) World.initial _ _ k rfl h hunmarked hclock
  rcases hanswers World.initial.archive.backend with ⟨-, u, hu, hadjusted⟩ | ⟨hno, -⟩
  · have hdeadline := hadjusted.rearmed harmed (by rw [hinterval]; decide)
    exact ⟨_, k, u, rfl, h, hunmarked, hclock, harmed, (hsettings 4 "info" (by decide) (by decide +kernel)).2 hallows,
      hdecides 1 rfl, hu, hadjusted.interval, hdeadline⟩
  · exact absurd hallows hno

end Keeper

end SensorCatalog
