import SensorCatalog.Proofs.Course
import SensorCatalog.Proofs.Timer.Step
import SensorCatalog.Timer.Scheduler

/-!
# The history of a timer

The log of a scheduler says which calls set the deadline, and when and for when (`Arming`), which intervals were
accepted, when the deadline was taken away without a firing, and when the timer fired (`TimerNote`).
`Scheduler.Happens` has one rule for each thing that can happen, with its note.

An arming is in force as long as the deadline has not been set anew, taken away or used up by a firing
(`Arming.InForce`). The state of the timer is a view of the log (`Scheduler.Tracks`): it has a deadline just in case
an arming is in force, and its interval is the one that was accepted last.
-/

namespace SensorCatalog

/-- **Armings**: a call sets the deadline. -/
structure Arming where
  /-- The place of the call among all calls. -/
  call : Nat
  /-- When it did so. -/
  time : Nat
  deadline : Nat
  deriving DecidableEq

/-- What is worth noting of a scheduler. -/
inductive TimerNote where
  | armed (a : Arming)
  /-- An interval is accepted. -/
  | adjusted (interval : Nat)
  /-- The deadline is taken away, if there is one. -/
  | disarmed
  /-- The timer is shut down. -/
  | stopped
  | fired (time deadline : Nat)
  /-- What the timer called comes to its end. -/
  | ended (outcome : CallbackEnd)
  deriving DecidableEq

namespace TimerNote

/-- The arming that is noted. -/
@[simp] def armed? : TimerNote → Option Arming
  | .armed a => some a
  | _ => none

/-- The interval that was accepted. -/
@[simp] def adjusted? : TimerNote → Option Nat
  | .adjusted interval => some interval
  | _ => none

/-- Whether the timer fired. -/
@[simp] def isFired : TimerNote → Bool
  | .fired _ _ => true
  | _ => false

/-- Whether the deadline stays what it was. -/
@[simp] def keepsDeadline : TimerNote → Bool
  | .adjusted _ | .ended _ => true
  | .armed _ | .disarmed | .stopped | .fired _ _ => false

end TimerNote

/-- The armings in a log. -/
def armings (log : List TimerNote) : List Arming := log.filterMap TimerNote.armed?

/-- The interval after everything in a log, if it was `interval` at first. -/
def intervalAfter (interval : Nat) (log : List TimerNote) : Nat :=
  (log.filterMap TimerNote.adjusted?).getLast?.getD interval

/-- **The arming in force.** Since then the deadline has been neither set anew nor taken away, and the timer has not
fired. -/
def Arming.InForce (a : Arming) (log : List TimerNote) : Prop :=
  ∃ earlier later, log = earlier ++ .armed a :: later ∧ ∀ n ∈ later, n.keepsDeadline = true

/-- One more note adds the arming that is noted, if one is. -/
@[simp] theorem armings_concat (log : List TimerNote) (n : TimerNote) :
    armings (log ++ [n]) = armings log ++ n.armed?.toList := by
  cases n <;> simp [armings]

/-- One more note changes the interval if it says so. -/
@[simp] theorem intervalAfter_concat (interval : Nat) (log : List TimerNote) (n : TimerNote) :
    intervalAfter interval (log ++ [n]) = n.adjusted?.getD (intervalAfter interval log) := by
  cases n <;> simp [intervalAfter]

namespace Arming.InForce

variable {a : Arming} {log before after : List TimerNote} {n : TimerNote}

/-- What has just been set is in force. -/
theorem now (a : Arming) (log : List TimerNote) : a.InForce (log ++ [.armed a]) := ⟨log, [], rfl, nofun⟩

/-- An arming stays in force through notes that leave the deadline alone. -/
theorem keep (h : a.InForce log) (hn : n.keepsDeadline = true) : a.InForce (log ++ [n]) := by
  obtain ⟨earlier, later, rfl, hlater⟩ := h
  refine ⟨earlier, later ++ [n], by simp, fun m hm => ?_⟩
  rcases List.mem_append.1 hm with hm | hm
  · exact hlater m hm
  · exact List.mem_singleton.1 hm ▸ hn

/-- The arming in force is the last of all armings. -/
theorem getLast?_armings (h : a.InForce log) : (armings log).getLast? = some a := by
  obtain ⟨earlier, later, rfl, hlater⟩ := h
  -- what was noted since has no arming among it
  have hnone : armings later = [] := by
    refine List.filterMap_eq_nil_iff.2 fun n hn => ?_
    have := hlater n hn
    cases n with
    | armed => cases this
    | adjusted | disarmed | stopped | fired | ended => rfl
  show (List.filterMap _ _).getLast? = _
  rw [List.filterMap_append, List.filterMap_cons]
  show (_ ++ a :: armings later).getLast? = some a
  rw [hnone, List.getLast?_concat]

/-- **Nothing stays in force beyond a note that ends it.** What is in force afterwards was set afterwards. -/
theorem since (h : a.InForce (before ++ n :: after)) (hends : n.keepsDeadline = false) (hn : n.armed? = none) :
    a.InForce after := by
  obtain ⟨earlier, later, hlog, hlater⟩ := h
  rcases List.append_eq_append_iff.1 hlog with ⟨between, rfl, hafter⟩ | ⟨between, rfl, hbetween⟩
  · -- the arming comes after the note, or it is the note itself
    cases between with
    | nil => cases hafter; cases hn
    | cons m between =>
      obtain ⟨rfl, rfl⟩ := List.cons.inj hafter
      exact ⟨between, later, rfl, hlater⟩
  · -- the note would come after the arming
    cases between with
    | nil => cases hbetween; cases hn
    | cons m between =>
      obtain ⟨rfl, rfl⟩ := List.cons.inj hbetween
      have := hlater n (List.mem_append_right _ List.mem_cons_self)
      rw [hends] at this
      cases this

end Arming.InForce

/-- The note of a section that went through, of a call in place `i`. The timer is taken as it is afterwards. -/
def TimerSection.notes (i now : Nat) (t : Timer) : TimerSection → List TimerNote
  | .arm _ => t.deadline.toList.map fun deadline => .armed ⟨i, now, deadline⟩
  | .adjust interval => [.adjusted interval]
  | .disarm => [.disarmed]
  | .stop => [.stopped]
  | .start | .release | .join => []

/-- What is refused leaves the timer alone. -/
theorem Timer.Performs.eq_of_refuse {t t' : Timer} {now : Nat} {onThread : Bool} {x : TimerSection} {f : Fault}
    (h : t.Performs now onThread x t' (.refuse f)) : t' = t := by
  cases h <;> rfl

/-- To disarm the timer is never refused. -/
theorem Timer.Performs.ne_disarm {t t' : Timer} {now : Nat} {onThread : Bool} {x : TimerSection} {f : Fault}
    (h : t.Performs now onThread x t' (.refuse f)) : x ≠ .disarm := by
  rintro rfl
  cases h

/-- No section has more than one note. -/
theorem TimerSection.length_notes_le (i now : Nat) (t : Timer) (x : TimerSection) : (x.notes i now t).length ≤ 1 := by
  cases x with
  | arm full => cases h : t.deadline <;> simp [notes, h]
  | start | adjust | disarm | stop | release | join => exact Nat.le_of_ble_eq_true rfl

namespace Scheduler

/-- What a call in this place is to do. -/
def operation? (s : Scheduler) (i : Nat) : Option TimerOperation := s.calls[i]?.map (·.operation)

/-- The note of an act. -/
def note (s : Scheduler) (a : SchedulerAct) (u : Scheduler) : List TimerNote :=
  match a with
  | .move i =>
    match s.calls[i]?, u.result? i with
    | some ⟨_, x :: _, _, _⟩, none => x.notes i s.now u.timer
    | _, _ => []
  | .look =>
    if u.timer.thread = .firing then s.timer.deadline.toList.map fun deadline => .fired s.now deadline else []
  | .resume outcome => [.ended outcome]
  | .begin _ _ | .pass _ => []

/-- **What can happen to a scheduler**, with the note of it. -/
inductive Happens (s : Scheduler) : SchedulerAct → List TimerNote → Scheduler → Prop where
  | began (o : TimerOperation) (onThread : Bool) :
    Happens s (.begin o onThread) [] { s with calls := s.calls ++ [TimerCall.create o onThread] }
  | answered {i : Nat} {c : TimerCall} (hc : s.calls[i]? = some c) (hopen : c.result = none)
    (hthrough : c.sections = []) :
    Happens s (.move i) [] { s with calls := s.calls.set i { c with result := some (.ok ()) } }
  | refused {i : Nat} {c : TimerCall} {x : TimerSection} {rest : List TimerSection} {f : Fault}
    (hc : s.calls[i]? = some c) (hopen : c.result = none) (hnext : c.sections = x :: rest)
    (hperform : s.timer.Performs s.now c.onThread x s.timer (.refuse f)) :
    Happens s (.move i) [] { s with calls := s.calls.set i { c with sections := [], result := some (.error f) } }
  | proceeded {i : Nat} {c : TimerCall} {x : TimerSection} {rest more : List TimerSection} {t : Timer}
    (hc : s.calls[i]? = some c) (hopen : c.result = none) (hnext : c.sections = x :: rest)
    (hperform : s.timer.Performs s.now c.onThread x t (.proceed more)) :
    Happens s (.move i) (x.notes i s.now t)
      { s with timer := t, calls := s.calls.set i { c with sections := more ++ rest } }
  | closed (hclosed : s.timer.shutDown = true) :
    Happens s .look [] { s with timer := { s.timer with thread := .ended } }
  | fired {deadline : Nat} (hopen : s.timer.shutDown = false) (hdeadline : s.timer.deadline = some deadline)
    (hdue : deadline ≤ s.now) :
    Happens s .look [.fired s.now deadline]
      { s with timer := { s.timer with deadline := none, fired := s.timer.fired + 1, thread := .firing } }
  | ended (outcome : CallbackEnd) :
    Happens s (.resume outcome) [.ended outcome] { s with timer := s.timer.resume }
  | passed (span : Nat) : Happens s (.pass span) [] { s with now := s.now + span }

variable {s u : Scheduler} {a : SchedulerAct} {log : List TimerNote} {interval i : Nat}

/-- **Everything that happens is one of these.** -/
theorem Happens.of_step (h : s.step a = some u) : Happens s a (s.note a u) u := by
  cases a with
  | begin o onThread =>
    cases h
    exact .began o onThread
  | move i =>
    rw [step] at h
    split at h
    · cases h
    rename_i c hc
    have hi : i < s.calls.length := (List.getElem?_eq_some_iff.1 hc).1
    -- a call that is over does nothing more
    split at h
    · cases h
    rename_i t c' hadvance
    cases h
    have hresult : Scheduler.result? { s with timer := t, calls := s.calls.set i c' } i = c'.result := by
      simp [result?, hi]
    obtain ⟨o, sections, onThread, result⟩ := c
    unfold note
    rw [TimerCall.advance] at hadvance
    cases result with
    | some r => cases hadvance
    -- it goes through its sections one by one, and answers after the last of them
    | none =>
      cases sections with
      | nil =>
        cases hadvance
        simp only [hc, hresult]
        exact .answered hc rfl rfl
      | cons x rest =>
        simp only at hadvance
        split at hadvance
        · cases hadvance
        · rename_i t' f hperform
          cases hadvance
          have hperforms := Timer.Performs.of_perform hperform
          have ht := hperforms.eq_of_refuse
          subst ht
          simp only [hc, hresult]
          exact .refused hc rfl rfl hperforms
        · rename_i t' more hperform
          cases hadvance
          simp only [hc, hresult]
          exact .proceeded hc rfl rfl (.of_perform hperform)
  -- the thread of the timer ends, or it fires
  | look =>
    obtain ⟨t, hlook, rfl⟩ := Option.map_eq_some_iff.1 h
    obtain ⟨-, ⟨hclosed, rfl⟩ | ⟨hopen, deadline, hdeadline, hdue, rfl⟩⟩ := Timer.look_cases hlook
    · exact .closed hclosed
    · have hfired := Happens.fired hopen hdeadline hdue
      unfold note
      simpa [hdeadline] using hfired
  | resume outcome =>
    rw [step] at h
    split at h
    · cases h
      exact .ended outcome
    · cases h
  | pass span =>
    cases h
    exact .passed span

/-- No act has more than one note. -/
theorem length_note_le (s : Scheduler) (a : SchedulerAct) (u : Scheduler) : (s.note a u).length ≤ 1 := by
  cases a with
  | begin | pass => exact Nat.zero_le _
  | resume outcome => exact Nat.le_refl _
  | look =>
    rw [note]
    split
    · cases s.timer.deadline <;> simp
    · exact Nat.zero_le _
  | move i =>
    rw [note]
    split
    · exact TimerSection.length_notes_le ..
    · exact Nat.zero_le _

/-- Everything that is done with a timer since it was created, with the notes. -/
abbrev Runs (interval : Nat) (log : List TimerNote) (s : Scheduler) : Prop :=
  Course Scheduler.step Scheduler.note (create interval) log s

/-! ### What a call is to do -/

/-- What a call was asked for does not change as it goes on. -/
theorem operation?_set {c : TimerCall} (hc : s.calls[i]? = some c) (t : Timer) (c' : TimerCall)
    (hsame : c'.operation = c.operation) (j : Nat) :
    operation? { s with timer := t, calls := s.calls.set i c' } j = s.operation? j := by
  obtain ⟨hi, rfl⟩ := List.getElem?_eq_some_iff.1 hc
  by_cases hj : i = j
  · subst hj
    simp [operation?, hi, hsame]
  · simp [operation?, List.getElem?_set_ne hj]

/-- What a call was asked for does not change in an act. -/
theorem Happens.operation?_eq {ns : List TimerNote} {o : TimerOperation} (h : Happens s a ns u)
    (ho : s.operation? i = some o) : u.operation? i = some o := by
  cases h with
  | began o' onThread =>
    obtain ⟨c, hc, rfl⟩ := Option.map_eq_some_iff.1 ho
    have hi : i < s.calls.length := (List.getElem?_eq_some_iff.1 hc).1
    -- the new call stands behind all others
    simp [operation?, List.getElem?_append_left hi, hc]
  | answered hc hopen hthrough => exact (operation?_set hc _ _ (by rfl) i).trans ho
  | refused hc hopen hnext hperform => exact (operation?_set hc _ _ (by rfl) i).trans ho
  | proceeded hc hopen hnext hperform => exact (operation?_set hc _ _ (by rfl) i).trans ho
  | closed | fired | ended | passed => exact ho

/-- What a call was asked for does not change over a course. -/
theorem operation?_of_course {o : TimerOperation} (h : Course Scheduler.step Scheduler.note s log u)
    (ho : s.operation? i = some o) : u.operation? i = some o := by
  induction h with
  | start => exact ho
  | act _ hstep ih => exact (Happens.of_step hstep).operation?_eq ih

end Scheduler

/-! ### The state as a view of the log -/

namespace Timer

variable {interval i now : Nat} {t t' : Timer} {log : List TimerNote}

/-- **What is seen of the log in the timer**, if its interval was `interval` at first. -/
structure Tracks (interval : Nat) (t : Timer) (log : List TimerNote) : Prop where
  /-- The interval is acceptable. -/
  accepted : checkInterval t.interval = .ok ()
  /-- It is the one that was accepted last. -/
  current : t.interval = intervalAfter interval log
  initialized : t.initialized = true ↔ armings log ≠ []
  shutDown : t.shutDown = true ↔ .stopped ∈ log
  /-- A timer that is shut down has no deadline. -/
  unarmed : t.shutDown = true → t.deadline = none
  /-- The deadline is that of the arming in force. -/
  deadline : ∀ d, t.deadline = some d → ∃ a : Arming, a.InForce log ∧ a.deadline = d
  fired : t.fired = log.countP TimerNote.isFired
  /-- Each firing has used up an arming, and the one in force is still there. -/
  armings_le : t.fired + (if t.deadline.isSome then 1 else 0) ≤ (armings log).length

namespace Tracks

/-- A new timer has an empty log. -/
theorem create (hinterval : checkInterval interval = .ok ()) : (Timer.create interval).Tracks interval [] :=
  ⟨hinterval, rfl, by simp [Timer.create, armings], by simp [Timer.create], fun _ => rfl, nofun, rfl, Nat.le_refl _⟩

/-- A timer that has a deadline was armed. -/
theorem initialized_of_deadline (h : t.Tracks interval log) {d : Nat} (hd : t.deadline = some d) :
    t.initialized = true := by
  obtain ⟨a, ha, -⟩ := h.deadline d hd
  refine h.initialized.2 fun hnone => ?_
  have := ha.getLast?_armings
  rw [hnone] at this
  cases this

/-- The thread does not matter. -/
theorem congr (h : t.Tracks interval log) (thread : TimerThread) (hasThread : Bool) :
    Timer.Tracks interval { t with thread, hasThread } log :=
  ⟨h.accepted, h.current, h.initialized, h.shutDown, h.unarmed, h.deadline, h.fired, h.armings_le⟩

/-- The deadline is taken away. -/
theorem disarm (h : t.Tracks interval log) : Timer.Tracks interval { t with deadline := none } (log ++ [.disarmed]) where
  accepted := h.accepted
  current := by simpa using h.current
  initialized := by simpa using h.initialized
  shutDown := by simpa using h.shutDown
  unarmed _ := rfl
  deadline := nofun
  fired := by simpa using h.fired
  armings_le := by simpa using Nat.le_trans (Nat.le_add_right _ _) h.armings_le

/-- When the timer is stopped, its deadline is taken away for good. -/
theorem stop (h : t.Tracks interval log) :
    Timer.Tracks interval { t with deadline := none, shutDown := true } (log ++ [.stopped]) where
  accepted := h.accepted
  current := by simpa using h.current
  initialized := by simpa using h.initialized
  shutDown := by simp
  unarmed _ := rfl
  deadline := nofun
  fired := by simpa using h.fired
  armings_le := by simpa using Nat.le_trans (Nat.le_add_right _ _) h.armings_le

/-- The timer fires, and that uses up the arming in force. -/
theorem fire (h : t.Tracks interval log) {deadline : Nat} (hdeadline : t.deadline = some deadline) (thread : TimerThread) :
    Timer.Tracks interval { t with deadline := none, fired := t.fired + 1, thread }
      (log ++ [.fired now deadline]) where
  accepted := h.accepted
  current := by simpa using h.current
  initialized := by simpa using h.initialized
  shutDown := by simpa using h.shutDown
  unarmed _ := rfl
  deadline := nofun
  fired := by simpa using h.fired
  armings_le := by simpa [hdeadline] using h.armings_le

/-- An interval is accepted, which may be the one that the timer has. -/
theorem adjust (h : t.Tracks interval log) {interval' : Nat} (hcheck : checkInterval interval' = .ok ()) :
    Timer.Tracks interval { t with interval := interval' } (log ++ [.adjusted interval']) where
  accepted := hcheck
  current := by simp
  initialized := by simpa using h.initialized
  shutDown := by simpa using h.shutDown
  unarmed := h.unarmed
  deadline d hd := by
    obtain ⟨a, ha, had⟩ := h.deadline d hd
    exact ⟨a, ha.keep rfl, had⟩
  fired := by simpa using h.fired
  armings_le := by simpa using h.armings_le

/-- An arming comes into force. -/
theorem arm (h : t.Tracks interval log) (hopen : t.shutDown = false) (deadline : Nat) :
    Timer.Tracks interval { t with initialized := true, deadline := some deadline }
      (log ++ [.armed ⟨i, now, deadline⟩]) where
  accepted := h.accepted
  current := by simpa using h.current
  initialized := by simp
  shutDown := by simpa using h.shutDown
  -- an open timer is not one that was shut down
  unarmed hclosed := by
    rw [show t.shutDown = true from hclosed] at hopen
    cases hopen
  deadline d hd := by
    cases hd
    exact ⟨_, .now _ _, rfl⟩
  fired := by simpa using h.fired
  armings_le := by
    have := h.armings_le
    simp only [armings_concat, TimerNote.armed?, Option.toList_some, List.length_append, List.length_singleton,
      Option.isSome_some, if_true]
    omega

/-- What the timer called comes to its end. -/
theorem ended (h : t.Tracks interval log) (outcome : CallbackEnd) : t.Tracks interval (log ++ [.ended outcome]) where
  accepted := h.accepted
  current := by simpa using h.current
  initialized := by simpa using h.initialized
  shutDown := by simpa using h.shutDown
  unarmed := h.unarmed
  deadline d hd := by
    obtain ⟨a, ha, had⟩ := h.deadline d hd
    exact ⟨a, ha.keep rfl, had⟩
  fired := by simpa using h.fired
  armings_le := by simpa using h.armings_le

/-- A section that went through. -/
theorem performs {onThread : Bool} {x : TimerSection} {more : List TimerSection} (h : t.Tracks interval log)
    (hperform : t.Performs now onThread x t' (.proceed more)) : t'.Tracks interval (log ++ x.notes i now t') := by
  cases hperform with
  -- these sections note nothing and leave the settings alone
  | runs | spawned | released | releasedBefore | joined =>
    rw [show TimerSection.notes _ _ _ _ = [] from rfl, List.append_nil]
    exact h.congr _ _
  | armed hopen hclock => exact h.arm hopen _
  | disarmed => exact h.disarm
  | unchanged hsame =>
    subst hsame
    exact h.adjust h.accepted
  | adjusted hcheck => exact h.adjust hcheck
  | stopped => exact h.stop

end Tracks

end Timer

namespace Scheduler

variable {s u : Scheduler} {a : SchedulerAct} {log : List TimerNote} {interval i : Nat}

/-- Each act keeps the timer and the log together. -/
theorem Happens.tracks {ns : List TimerNote} (hstep : Happens s a ns u) (h : s.timer.Tracks interval log) :
    u.timer.Tracks interval (log ++ ns) := by
  cases hstep with
  -- calls that begin or end do not touch the timer
  | began | answered | refused | passed =>
    rw [List.append_nil]
    exact h
  | proceeded hc hopen hnext hperform => exact h.performs hperform
  | closed hclosed =>
    rw [List.append_nil]
    exact h.congr _ _
  | fired hopen hdeadline hdue => exact h.fire hdeadline _
  | ended outcome => exact (h.ended outcome).congr _ _

/-- In every course the timer and the log keep together. -/
theorem Runs.tracks (hinterval : checkInterval interval = .ok ()) (h : Runs interval log s) :
    s.timer.Tracks interval log := by
  induction h with
  | start => exact .create hinterval
  | act _ hstep ih => exact (Happens.of_step hstep).tracks ih

end Scheduler

end SensorCatalog
