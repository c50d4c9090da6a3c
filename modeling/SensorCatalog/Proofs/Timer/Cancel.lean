import SensorCatalog.Proofs.Timer.History

/-!
# Cancelling a timer that others use

To cancel is one section, which takes the deadline away. Whoever changes the interval afterwards finds the timer without
a deadline and leaves it so. In every order in which such calls come one after the other, the timer stays cancelled.

A call that changes the interval of an armed timer finds it armed in its first section, though, and arms it in its last
one. It does not look again. If the timer is cancelled in between, it comes back, although each of the calls was
answered (`Scheduler.cancelled_comes_back`).

There is no other way back. `Scheduler.Arms` tells the calls that have still to arm the timer, and
`Scheduler.armed_after_cancel` says that a timer that was cancelled is armed again only by a call that had to do so at
that very moment, unless somebody asks for a new deadline. The invariant is `Scheduler.Cancelled`: as long as none of
these calls has armed the timer there is no deadline, and no other call gets to arm it.
-/

namespace SensorCatalog

/-- The operation arms only a timer that it finds armed. -/
def TimerOperation.OnlyRearms (o : TimerOperation) : Prop := o ≠ .schedule ∧ o ≠ .scheduleInterval

/-- It has no part at first in which it arms the timer. -/
theorem TimerOperation.OnlyRearms.arm_notMem {o : TimerOperation} (h : o.OnlyRearms) (full : Bool) :
    .arm full ∉ o.sections := by
  cases o with
  | schedule => exact absurd rfl h.1
  | scheduleInterval => exact absurd rfl h.2
  | start | setInterval | cancel | cleanup => simp [sections, TimerSection.setInterval, TimerSection.cancel,
      TimerSection.cleanup]

namespace Scheduler

variable {s u v : Scheduler} {a : SchedulerAct} {log ns : List TimerNote} {i j : Nat}

/-- **The call in this place has still to arm the timer.** -/
def Arms (s : Scheduler) (i : Nat) : Prop := ∃ c full, s.calls[i]? = some c ∧ .arm full ∈ c.sections

/-- A call that goes on has still to arm the timer only if it had to do so before. -/
theorem arms_of_set {c : TimerCall} (c' : TimerCall) {t : Timer} (hc : s.calls[i]? = some c)
    (hsections : ∀ full, .arm full ∈ c'.sections → .arm full ∈ c.sections)
    (h : Arms { s with timer := t, calls := s.calls.set i c' } j) : s.Arms j := by
  obtain ⟨d, full, hd, hfull⟩ := h
  obtain ⟨hi, rfl⟩ := List.getElem?_eq_some_iff.1 hc
  by_cases hj : i = j
  · subst hj
    obtain rfl : c' = d := by simpa [hi] using hd
    exact ⟨_, full, hc, hsections full hfull⟩
  · have hsame : (s.calls.set i c')[j]? = s.calls[j]? := List.getElem?_set_ne hj
    exact ⟨d, full, hsame.symm.trans hd, hfull⟩

/-- So has a call that begins, if it does not ask for a new deadline. -/
theorem arms_of_begin {o : TimerOperation} (ho : o.OnlyRearms) {onThread : Bool}
    (h : Arms { s with calls := s.calls ++ [TimerCall.create o onThread] } j) : s.Arms j := by
  obtain ⟨d, full, hd, hfull⟩ := h
  change (s.calls ++ [TimerCall.create o onThread])[j]? = some d at hd
  rcases Nat.lt_or_ge j s.calls.length with hj | hj
  · rw [List.getElem?_append_left hj] at hd
    exact ⟨d, full, hd, hfull⟩
  · rw [List.getElem?_append_right hj] at hd
    obtain rfl := List.mem_singleton.1 (List.mem_of_getElem? hd)
    exact absurd hfull (ho.arm_notMem full)

/-- **The timer was cancelled** when the calls in the places `P` had still to arm it. Since then, one of them has done
so, or the timer has no deadline and it is still they alone. -/
def Cancelled (P : Nat → Prop) (s : Scheduler) (log : List TimerNote) : Prop :=
  (∃ a ∈ armings log, P a.call) ∨ (s.timer.deadline = none ∧ ∀ j, s.Arms j → P j)

/-- A section of a call while the timer has no deadline. -/
theorem Cancelled.proceed {P : Nat → Prop} {c : TimerCall} {x : TimerSection} {rest more : List TimerSection}
    {t : Timer} (hdeadline : s.timer.deadline = none) (harms : ∀ j, s.Arms j → P j) (hc : s.calls[i]? = some c)
    (hnext : c.sections = x :: rest) (hperform : s.timer.Performs s.now c.onThread x t (.proceed more)) :
    Cancelled P { s with timer := t, calls := s.calls.set i { c with sections := more ++ rest } }
      (log ++ x.notes i s.now t) := by
  -- what is left of the call was left before, unless it finds the timer armed
  have hleft : (∀ full, .arm full ∉ more) → ∀ full, .arm full ∈ more ++ rest → .arm full ∈ c.sections := by
    intro hmore full hfull
    rw [hnext]
    rcases List.mem_append.1 hfull with hfull | hfull
    · exact absurd hfull (hmore full)
    · exact List.mem_cons_of_mem _ hfull
  have hquiet : (∀ full, .arm full ∉ more) → t.deadline = none →
      Cancelled P { s with timer := t, calls := s.calls.set i { c with sections := more ++ rest } }
        (log ++ x.notes i s.now t) := fun hmore ht =>
    .inr ⟨ht, fun j hj => harms j (arms_of_set _ hc (hleft hmore) hj)⟩
  cases hperform with
  | @armed full deadline hopen hclock =>
    -- this is one of the calls that had to do so
    have hi : P i := harms i ⟨c, full, hc, hnext ▸ List.mem_cons_self⟩
    refine .inl ⟨⟨i, s.now, deadline⟩, ?_, hi⟩
    show _ ∈ armings (log ++ [.armed ⟨i, s.now, deadline⟩])
    rw [armings_concat]
    exact List.mem_append_right _ List.mem_cons_self
  | adjusted hcheck =>
    -- the call finds the timer unarmed
    have hunarmed : s.timer.isArmed = false := by rw [Timer.isArmed, hdeadline]; rfl
    refine hquiet (fun full => ?_) hdeadline
    rw [hunarmed]
    exact List.not_mem_nil
  | released hthread =>
    refine hquiet (fun full => ?_) hdeadline
    split <;> simp
  | disarmed | stopped => exact hquiet (fun _ => List.not_mem_nil) rfl
  | runs | spawned | unchanged | releasedBefore | joined => exact hquiet (fun _ => List.not_mem_nil) hdeadline

/-- **No act brings the deadline back** but those of the calls that had to arm the timer. -/
theorem Cancelled.step {P : Nat → Prop} (h : s.Cancelled P log) (hstep : Happens s a ns u)
    (hbegins : ∀ o onThread, a = .begin o onThread → o.OnlyRearms) : u.Cancelled P (log ++ ns) := by
  -- some call has armed the timer since, or the deadline is still away
  rcases h with ⟨m, hm, hcall⟩ | ⟨hdeadline, harms⟩
  · refine .inl ⟨m, ?_, hcall⟩
    rw [armings, List.filterMap_append]
    exact List.mem_append_left _ hm
  cases hstep with
  -- a call that begins only re-arms, so it does not arm the timer by itself
  | began o onThread =>
    exact .inr ⟨hdeadline, fun j hj => harms j (arms_of_begin (hbegins o onThread rfl) hj)⟩
  | answered hc hopen hthrough =>
    refine .inr ⟨hdeadline, fun j hj => harms j (arms_of_set _ hc ?_ hj)⟩
    exact fun _ hfull => hfull
  | refused hc hopen hnext hperform =>
    exact .inr ⟨hdeadline, fun j hj => harms j (arms_of_set _ hc (fun _ hfull => absurd hfull List.not_mem_nil) hj)⟩
  | proceeded hc hopen hnext hperform => exact proceed hdeadline harms hc hnext hperform
  | closed | passed | ended => exact .inr ⟨hdeadline, harms⟩
  | fired hopen hsome hdue =>
    rw [hdeadline] at hsome
    cases hsome

/-- The section that takes the deadline away. -/
theorem cancelled_of_step (hstep : s.step (.move i) = some u) (hcancel : s.note (.move i) u = [.disarmed]) :
    u.Cancelled s.Arms [] := by
  have hhappens := Happens.of_step hstep
  rw [hcancel] at hhappens
  generalize hns : [TimerNote.disarmed] = ns at hhappens
  -- only this section is noted in this way
  cases hhappens with
  | answered | refused => cases hns
  | @proceeded i c x rest more t hc hopen hnext hperform =>
    cases hperform with
    | disarmed =>
      refine .inr ⟨rfl, fun j hj => arms_of_set _ hc (fun full hfull => ?_) hj⟩
      exact hnext ▸ List.mem_cons_of_mem _ hfull
    | _ => cases hns

/-- So it goes on, as long as nobody who begins later asks for a new deadline. -/
theorem Cancelled.of_course {P : Nat → Prop} (hfirst : u.Cancelled P [])
    (h : Course Scheduler.step Scheduler.note u log v)
    (hothers : ∀ j o, u.operation? j = none → v.operation? j = some o → o.OnlyRearms) : v.Cancelled P log := by
  induction h with
  | start => exact hfirst
  | @act log t w a before hact ih =>
    have hhappens := Happens.of_step hact
    refine (ih fun j o hj ho => hothers j o hj (hhappens.operation?_eq ho)).step hhappens ?_
    rintro o onThread rfl
    cases hact
    -- the call that begins was not there when the timer was cancelled
    refine hothers t.calls.length o ?_ (by simp [operation?, TimerCall.create])
    by_contra hthere
    obtain ⟨o', ho'⟩ := Option.ne_none_iff_exists'.1 hthere
    have hlater := operation?_of_course before ho'
    simp [operation?] at hlater

/-- **A timer that was cancelled is armed again only by a call that had still to arm it when it was cancelled**, unless
someone who begins later asks for a new deadline. The timer may fire meanwhile, and time may pass. -/
theorem armed_after_cancel (hstep : s.step (.move i) = some u) (hcancel : s.note (.move i) u = [.disarmed])
    (h : Course Scheduler.step Scheduler.note u log v)
    (hothers : ∀ j o, u.operation? j = none → v.operation? j = some o → o.OnlyRearms)
    (harmed : v.timer.isArmed = true) : ∃ a ∈ armings log, s.Arms a.call := by
  rcases (cancelled_of_step hstep hcancel).of_course h hothers with harming | ⟨hdeadline, -⟩
  · exact harming
  · rw [Timer.isArmed, hdeadline] at harmed
    cases harmed

/-- The timer is armed for an hour from now, and nobody is using it. -/
def armedActs : List SchedulerAct := [.begin .scheduleInterval false, .move 0, .move 0, .move 0]

/-- A call changes the interval. It has seen that the timer is armed, when another call comes in. -/
def hesitantActs : List SchedulerAct := [.begin (.setInterval (seconds 60)) false, .begin .cancel false, .move 1]

/-- That call cancels the timer and is answered, and then the first one goes on. -/
def overtakingActs : List SchedulerAct := [.move 2, .move 2, .move 1, .move 1, .move 1, .move 1]

/-- Between the two another call changes the interval, which finds the timer unarmed. The first call is the one that
arms it, with the interval as it is by then. -/
theorem armed_after_cancel_overtaken : ∃ (s u : Scheduler) (more : List TimerNote) (v : Scheduler),
    s.step (.move 2) = some u ∧ s.note (.move 2) u = [.disarmed] ∧ Course Scheduler.step Scheduler.note u more v ∧
    (∀ j o, u.operation? j = none → v.operation? j = some o → o.OnlyRearms) ∧ v.timer.isArmed = true ∧
    (∃ a ∈ armings more, s.Arms a.call) ∧ armings more = [⟨1, 0, seconds 120⟩] := by
  obtain ⟨log, s, hs, u, hstep, hcancel, more, v, hv, hbefore, hafter, harmed, harmings⟩ : ∃ log s,
      carryOut Scheduler.step Scheduler.note (armedActs ++ hesitantActs) ([], create (seconds 3600)) = some (log, s) ∧
      ∃ u, s.step (.move 2) = some u ∧ s.note (.move 2) u = [.disarmed] ∧ ∃ more v,
      carryOut Scheduler.step Scheduler.note ([.begin (.setInterval (seconds 120)) false, .move 3, .move 3] ++
        overtakingActs.drop 1) ([], u) = some (more, v) ∧
      u.calls.length = 3 ∧ v.calls.map (·.operation) = [.scheduleInterval, .setInterval (seconds 60), .cancel,
        .setInterval (seconds 120)] ∧ v.timer.isArmed = true ∧ armings more = [⟨1, 0, seconds 120⟩] :=
    ⟨_, _, rfl, _, rfl, rfl, _, _, rfl, rfl, rfl, rfl, rfl⟩
  have hcourse : Course Scheduler.step Scheduler.note u more v := Course.of_carryOut _ .start hv
  have hothers : ∀ j o, u.operation? j = none → v.operation? j = some o → o.OnlyRearms := by
    intro j o hj ho
    have hlater : 3 ≤ j := by
      rw [← hbefore]
      simpa [operation?] using hj
    obtain ⟨j, rfl⟩ := Nat.exists_eq_add_of_le' hlater
    rw [operation?, ← List.getElem?_map, hafter] at ho
    cases j with
    | zero =>
      cases ho
      simp [TimerOperation.OnlyRearms]
    | succ j => cases ho
  exact ⟨s, u, more, v, hstep, hcancel, hcourse, hothers, harmed,
    armed_after_cancel hstep hcancel hcourse hothers harmed, harmings⟩

/-- **A timer that was cancelled may come back.** All calls are over, the timer was cancelled, and it is armed. -/
theorem cancelled_comes_back : ∃ log s more u, Runs (seconds 3600) log s ∧ s.timer.isArmed = true ∧
    (∀ c ∈ s.calls, c.result.isSome = true) ∧ Course Scheduler.step Scheduler.note s more u ∧
    u.calls.map (·.operation) = s.calls.map (·.operation) ++ [.setInterval (seconds 60), .cancel] ∧
    (∀ c ∈ u.calls, c.result.isSome = true) ∧ u.timer.isArmed = true := by
  obtain ⟨log, s, hs, harmed, hover, more, u, hu, hcalls, hall, hback⟩ : ∃ log s,
      carryOut Scheduler.step Scheduler.note armedActs ([], create (seconds 3600)) = some (log, s) ∧
      s.timer.isArmed = true ∧ (∀ c ∈ s.calls, c.result.isSome = true) ∧ ∃ more u,
      carryOut Scheduler.step Scheduler.note (hesitantActs ++ overtakingActs) ([], s) = some (more, u) ∧
      u.calls.map (·.operation) = s.calls.map (·.operation) ++ [.setInterval (seconds 60), .cancel] ∧
      (∀ c ∈ u.calls, c.result.isSome = true) ∧ u.timer.isArmed = true :=
    ⟨_, _, rfl, rfl, by decide, _, _, rfl, rfl, by decide, rfl⟩
  exact ⟨log, s, more, u, Course.of_carryOut _ .start hs, harmed, hover, Course.of_carryOut _ .start hu, hcalls, hall,
    hback⟩

end Scheduler

end SensorCatalog
