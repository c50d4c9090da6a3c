import SensorCatalog.Proofs.Timer.History

/-!
# A timer fires once for each arming

The timer fires when the deadline of the arming in force has come, and uses this arming up
(`Scheduler.Runs.fired`). So it does not fire again before it is armed again, neither after a firing nor after it was
disarmed (`Arming.InForce.since`), an arming that was replaced by a later one is not what it fires for, and after it
was shut down it does not fire at all.

Whether what the timer called returns or breaks off makes no difference: the thread goes on, and it ends only when the
timer is shut down (`Scheduler.fires_once`).
-/

namespace SensorCatalog

namespace Scheduler

variable {s u : Scheduler} {a : SchedulerAct} {log : List TimerNote} {interval : Nat}

/-- **A firing** happens when the thread looks at the clock, not before the deadline, which is taken away. -/
theorem Runs.fired {before after : List TimerNote} {time deadline : Nat}
    (h : Runs interval (before ++ .fired time deadline :: after) s) :
    ∃ t u, Runs interval before t ∧ t.step .look = some u ∧ t.now = time ∧ t.timer.shutDown = false ∧
      t.timer.deadline = some deadline ∧ deadline ≤ time ∧ u.timer.deadline = none ∧
      u.timer.fired = t.timer.fired + 1 := by
  obtain ⟨t, a, u, hbefore, hstep, hnote, -⟩ := h.cut length_note_le
  have hhappens := Happens.of_step hstep
  rw [hnote] at hhappens
  generalize hns : [TimerNote.fired time deadline] = ns at hhappens
  cases hhappens with
  | fired hopen hdeadline hdue =>
    cases hns
    exact ⟨t, _, hbefore, hstep, rfl, hopen, hdeadline, hdue, rfl, rfl⟩
  | @proceeded i c x rest more t' hc hopen hnext hperform =>
    -- no section of a call is a firing
    cases x with
    | arm full => cases hd : t'.deadline <;> simp [TimerSection.notes, hd] at hns
    | start | adjust | disarm | stop | release | join => cases hns
  | began | answered | refused | closed | ended | passed => cases hns

/-- The thread ends only when the timer is shut down. -/
theorem Runs.shutDown_of_ended (h : Runs interval log s) (hended : s.timer.thread = .ended) :
    s.timer.shutDown = true := by
  -- over the course; the thread takes its leave in one act only
  induction h with
  | start => cases hended
  | act _ hstep ih =>
    have hhappens := Happens.of_step hstep
    generalize Scheduler.note _ _ _ = ns at hhappens
    cases hhappens with
    | began | answered | refused | passed => exact ih hended
    | proceeded hc hopen hnext hperform =>
      cases hperform with
      | spawned hopen hthread => cases hended
      | stopped => rfl
      | _ => exact ih hended
    | closed hclosed => exact hclosed
    | fired hopen hdeadline hdue => cases hended
    | ended outcome => cases hended

/-- **How a timer fires.** -/
structure FiresOnce (interval : Nat) (s : Scheduler) (log : List TimerNote) : Prop where
  /-- Each firing comes when the thread looks at the clock and the deadline is not ahead. The deadline is that of the
  arming in force, and is taken away. -/
  due : ∀ before time deadline after, log = before ++ .fired time deadline :: after →
    deadline ≤ time ∧ (∃ a : Arming, a.InForce before ∧ a.deadline = deadline) ∧
      ∃ t u, Runs interval before t ∧ t.step .look = some u ∧ t.now = time ∧ t.timer.deadline = some deadline ∧
        u.timer.deadline = none ∧ u.timer.fired = t.timer.fired + 1
  /-- What the timer fires for is the last of all armings so far, so one that was replaced never fires. -/
  latest : ∀ before time deadline after, log = before ++ .fired time deadline :: after →
    ∃ a, (armings before).getLast? = some a ∧ a.deadline = deadline
  /-- Between two firings the timer is armed. -/
  apart : ∀ before time deadline between time' deadline' after,
    log = before ++ .fired time deadline :: (between ++ .fired time' deadline' :: after) → ∃ a, .armed a ∈ between
  counted : s.timer.fired = log.countP TimerNote.isFired
  /-- There are no more firings than armings. -/
  fired_le : s.timer.fired ≤ (armings log).length
  /-- After it was disarmed the timer does not fire until it is armed again. -/
  disarmed : ∀ before between time deadline after,
    log = before ++ .disarmed :: (between ++ .fired time deadline :: after) → ∃ a, .armed a ∈ between
  /-- After it was shut down it does not fire. -/
  stopped : ∀ before after, log = before ++ .stopped :: after → ∀ n ∈ after, n.isFired = false
  /-- However it ends what the timer called, the thread goes on with the timer as it is by then. -/
  resumes : ∀ outcome, s.timer.thread = .firing →
    ∃ u, s.step (.resume outcome) = some u ∧ u.timer = { s.timer with thread := .waiting }
  /-- The thread ends only when the timer is shut down. -/
  lasts : s.timer.thread = .ended → s.timer.shutDown = true
  /-- While the thread waits, nothing but time is missing for the next firing. -/
  fires : ∀ deadline, s.timer.thread = .waiting → s.timer.deadline = some deadline → deadline ≤ s.now →
    ∃ u, s.step .look = some u ∧ s.note .look u = [.fired s.now deadline]

/-- **A timer fires once for each arming**, whatever those who use it do meanwhile. -/
theorem fires_once (hinterval : checkInterval interval = .ok ()) (h : Runs interval log s) :
    FiresOnce interval s log := by
  have htracks := h.tracks hinterval
  -- a firing uses up what is in force, and a note that ends this cannot lie in between
  have hsince : ∀ before n between time deadline after,
      log = before ++ n :: (between ++ .fired time deadline :: after) → n.keepsDeadline = false → n.armed? = none →
      ∃ a, .armed a ∈ between := by
    rintro before n between time deadline after rfl hends hn
    rw [← List.cons_append, ← List.append_assoc] at h
    obtain ⟨t, -, hbefore, -, -, -, hdeadline, -⟩ := h.fired
    obtain ⟨a, ha, -⟩ := (Runs.tracks hinterval hbefore).deadline deadline hdeadline
    obtain ⟨earlier, later, rfl, -⟩ := ha.since hends hn
    exact ⟨a, List.mem_append_right _ List.mem_cons_self⟩
  constructor
  -- a firing is an act of the thread, which looks at the deadline that is in force
  case due =>
    rintro before time deadline after rfl
    obtain ⟨t, u, hbefore, hstep, hnow, -, hdeadline, hdue, hafter, hfired⟩ := h.fired
    exact ⟨hdue, (Runs.tracks hinterval hbefore).deadline deadline hdeadline, t, u, hbefore, hstep, hnow, hdeadline,
      hafter, hfired⟩
  case latest =>
    rintro before time deadline after rfl
    obtain ⟨t, -, hbefore, -, -, -, hdeadline, -⟩ := h.fired
    obtain ⟨a, ha, had⟩ := (Runs.tracks hinterval hbefore).deadline deadline hdeadline
    exact ⟨a, ha.getLast?_armings, had⟩
  case apart =>
    intro before time deadline between time' deadline' after hlog
    exact hsince before (.fired time deadline) between time' deadline' after hlog rfl rfl
  case counted => exact htracks.fired
  case fired_le => exact Nat.le_trans (Nat.le_add_right _ _) htracks.armings_le
  case disarmed =>
    intro before between time deadline after hlog
    exact hsince before .disarmed between time deadline after hlog rfl rfl
  -- after the timer is shut down its thread does not fire any more
  case stopped =>
    rintro before after rfl n hn
    cases n with
    | armed | adjusted | disarmed | stopped | ended => rfl
    | fired time deadline =>
      obtain ⟨between, rest, rfl⟩ := List.append_of_mem hn
      rw [← List.cons_append, ← List.append_assoc] at h
      obtain ⟨t, -, hbefore, -, -, hopen, -⟩ := h.fired
      have hclosed := (Runs.tracks hinterval hbefore).shutDown.2 (by simp)
      rw [hopen] at hclosed
      cases hclosed
  case resumes =>
    intro outcome hfiring
    exact ⟨{ s with timer := s.timer.resume }, by rw [step, if_pos hfiring], rfl⟩
  case lasts => exact h.shutDown_of_ended
  -- an open timer that waits with a deadline that is due can fire at once
  case fires =>
    intro deadline hwaiting hdeadline hdue
    have hopen : s.timer.shutDown = false := by
      by_contra hclosed
      rw [htracks.unarmed (by simpa using hclosed)] at hdeadline
      cases hdeadline
    refine ⟨_, by simp only [step, Timer.look, hwaiting, hopen, hdeadline, hdue]; rfl, ?_⟩
    simp [note, hdeadline]

/-- The timer fires, and what it called arms it and breaks off. This arming is replaced when the interval changes, and
the timer fires for the other one. Then it is shut down. -/
def replacingActs : List SchedulerAct :=
  [.begin .schedule false, .move 0, .move 0, .look, .begin .scheduleInterval true, .move 1, .move 1,
    .resume (.panicked .untyped), .begin (.setInterval (seconds 60)) false, .move 2, .move 2, .move 2, .move 2,
    .pass (seconds 60), .look, .resume .returned, .begin .cleanup false, .move 3, .look]

/-- There are three armings and two firings. -/
theorem fires_once_replaced : ∃ log s, checkInterval (seconds 3600) = .ok () ∧ Runs (seconds 3600) log s ∧
    FiresOnce (seconds 3600) s log ∧ s.timer.fired = 2 ∧ s.timer.thread = .ended ∧
    log = [.armed ⟨0, 0, 0⟩, .fired 0 0, .armed ⟨1, 0, seconds 3600⟩, .ended (.panicked .untyped),
      .adjusted (seconds 60), .disarmed, .armed ⟨2, 0, seconds 60⟩, .fired (seconds 60) (seconds 60),
      .ended .returned, .stopped] := by
  have hcourse : (carryOut Scheduler.step Scheduler.note replacingActs ([], create (seconds 3600))).map (fun x =>
      (x.2.timer.fired, x.2.timer.thread, x.1)) =
      some (2, .ended, [.armed ⟨0, 0, 0⟩, .fired 0 0, .armed ⟨1, 0, seconds 3600⟩, .ended (.panicked .untyped),
        .adjusted (seconds 60), .disarmed, .armed ⟨2, 0, seconds 60⟩, .fired (seconds 60) (seconds 60),
        .ended .returned, .stopped]) := rfl
  obtain ⟨⟨log, s⟩, hcarried, hends⟩ := Option.map_eq_some_iff.1 hcourse
  have h : Runs (seconds 3600) log s := Course.of_carryOut replacingActs .start hcarried
  simp only [Prod.mk.injEq] at hends
  exact ⟨log, s, rfl, h, fires_once rfl h, hends⟩

end Scheduler

end SensorCatalog
