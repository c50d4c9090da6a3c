import SensorCatalog.Proofs.Timer.History

/-!
# The deadline follows the interval

An arming sets the deadline one interval ahead, except for the very first one of a timer, which is for now if it is
made by `schedule` (`Scheduler.Runs.armed`). A change of the interval that finds the timer armed takes three more
sections to arm it anew. In between the deadline may still be that of the old interval, and others may arm or disarm the
timer.

The deadline can be out of date only before the change has disarmed the timer (`TimerCall.Outdates`): whoever arms it
later takes the interval as it is then. `Scheduler.Orderly.step` carries this over each act. It needs to know which
sections may be left of a call (`TimerOperation.Leaves`).
-/

namespace SensorCatalog

variable {t t' : Timer} {now : Nat} {onThread : Bool} {o : TimerOperation} {x : TimerSection}
  {rest more : List TimerSection}

/-! ### What is left of a call -/

/-- The sections that may be left of an operation that is not over. -/
def TimerOperation.Leaves : TimerOperation → List TimerSection → Prop
  | .setInterval interval, sections =>
    sections = TimerSection.setInterval interval ∨
      checkInterval interval = .ok () ∧ sections <:+ [.disarm, .start, .arm false]
  | .cleanup, sections => sections <:+ TimerSection.cleanup ∨ sections <:+ [.join]
  | o, sections => sections <:+ o.sections

namespace TimerOperation

/-- At first all the sections of an operation are left. -/
theorem leaves_sections (o : TimerOperation) : o.Leaves o.sections := by
  cases o with
  | setInterval interval => exact .inl rfl
  | cleanup => exact .inl (List.suffix_refl _)
  | start | schedule | scheduleInterval | cancel => exact List.suffix_refl _

/-- A section that has nothing to put in front of what is left. -/
theorem more_eq_nil (hperform : t.Performs now onThread x t' (.proceed more))
    (hx : ∀ interval, x ≠ .adjust interval) (hrelease : x ≠ .release) : more = [] := by
  cases hperform with
  | unchanged hsame | adjusted hcheck => exact absurd rfl (hx _)
  | released hthread => exact absurd rfl hrelease
  | runs | spawned | armed | disarmed | stopped | releasedBefore | joined => rfl

/-- What is left after a section is left of the same operation. -/
theorem Leaves.proceed (h : o.Leaves (x :: rest)) (haccepted : checkInterval t.interval = .ok ())
    (hperform : t.Performs now onThread x t' (.proceed more)) : o.Leaves (more ++ rest) := by
  -- in a suffix of a list of plain sections each section is simply left out
  have hshort : ∀ l : List TimerSection, (∀ y ∈ l, y = .start ∨ y = .disarm ∨ y = .stop ∨ y = .join ∨
      ∃ full, y = .arm full) → (x :: rest) <:+ l → (more ++ rest) <:+ l := by
    intro l hplain hl
    have hmore : more = [] := by
      rcases hplain x (hl.subset List.mem_cons_self) with rfl | rfl | rfl | rfl | ⟨full, rfl⟩ <;>
        exact more_eq_nil hperform nofun nofun
    rw [hmore]
    exact (List.suffix_cons x rest).trans hl
  -- the operations without a change of the interval leave a suffix of what they had
  cases o with
  | start => exact hshort _ (by simp [sections]) h
  | schedule => exact hshort _ (by simp [sections, TimerSection.schedule]) h
  | scheduleInterval => exact hshort _ (by simp [sections, TimerSection.scheduleInterval]) h
  | cancel => exact hshort _ (by simp [sections, TimerSection.cancel]) h
  | setInterval interval =>
    rcases h with heq | ⟨hcheck, h⟩
    · -- the change itself, which may be followed by arming the timer anew
      cases heq
      cases hperform with
      | unchanged hsame => exact .inr ⟨hsame ▸ haccepted, List.nil_suffix⟩
      | adjusted hcheck =>
        refine .inr ⟨hcheck, ?_⟩
        split
        · exact List.suffix_refl _
        · exact List.nil_suffix
    · exact .inr ⟨hcheck, hshort _ (by simp) h⟩
  | cleanup =>
    rcases h with h | h
    · -- the thread is waited for at the end, if it was not waited for before
      rcases List.suffix_cons_iff.1 h with heq | h
      · cases heq
        rw [more_eq_nil hperform nofun nofun]
        exact .inl (List.suffix_cons _ _)
      · rcases List.suffix_cons_iff.1 h with heq | h
        · cases heq
          cases hperform with
          | released hthread =>
            cases onThread with
            | false => exact .inr (List.suffix_refl _)
            | true => exact .inr List.nil_suffix
          | releasedBefore hthread => exact .inr List.nil_suffix
        · exact absurd (List.suffix_nil.1 h) nofun
    · exact .inr (hshort _ (by simp) h)

/-- Only a change of the interval has this section, and nothing behind it. -/
theorem Leaves.of_adjust {interval : Nat} (h : o.Leaves (.adjust interval :: rest)) :
    o = .setInterval interval ∧ rest = [] := by
  have hnot : ∀ l : List TimerSection, (.adjust interval :: rest) <:+ l → .adjust interval ∈ l :=
    fun l hl => hl.subset List.mem_cons_self
  -- of all the lists of sections only one has a change of the interval in it
  cases o with
  | setInterval interval' =>
    rcases h with heq | ⟨-, h⟩
    · cases heq
      exact ⟨rfl, rfl⟩
    · exact absurd (hnot _ h) (by simp)
  | cleanup =>
    rcases h with h | h
    · exact absurd (hnot _ h) (by simp [TimerSection.cleanup])
    · exact absurd (hnot _ h) (by simp)
  | start => exact absurd (hnot _ h) (by simp [sections])
  | schedule => exact absurd (hnot _ h) (by simp [sections, TimerSection.schedule])
  | scheduleInterval => exact absurd (hnot _ h) (by simp [sections, TimerSection.scheduleInterval])
  | cancel => exact absurd (hnot _ h) (by simp [sections, TimerSection.cancel])

/-- Without a full interval the timer is armed by `schedule`, or anew by a change of the interval. -/
theorem Leaves.of_arm {sections : List TimerSection} (h : o.Leaves sections) (harm : .arm false ∈ sections) :
    o = .schedule ∨ ∃ interval, o = .setInterval interval := by
  cases o with
  | schedule => exact .inl rfl
  | setInterval interval => exact .inr ⟨interval, rfl⟩
  | cleanup => rcases h with h | h <;> exact absurd (h.subset harm) (by simp [TimerSection.cleanup])
  | start => exact absurd (List.IsSuffix.subset h harm) (by simp [TimerOperation.sections])
  | scheduleInterval =>
    exact absurd (List.IsSuffix.subset h harm) (by simp [TimerOperation.sections, TimerSection.scheduleInterval])
  | cancel => exact absurd (List.IsSuffix.subset h harm) (by simp [TimerOperation.sections, TimerSection.cancel])

end TimerOperation

/-- **A call that changes the interval and has still to arm the timer anew.** -/
def TimerCall.Rearms (c : TimerCall) : Prop :=
  (∃ interval, c.operation = .setInterval interval) ∧ .arm false ∈ c.sections

/-- **A call that has changed the interval of an armed timer and is about to disarm it.** -/
def TimerCall.Outdates (c : TimerCall) : Prop :=
  (∃ interval, c.operation = .setInterval interval) ∧ c.sections = [.disarm, .start, .arm false]

/-- A call that leaves the deadline out of date has to arm the timer. -/
theorem TimerCall.Outdates.rearms {c : TimerCall} (h : c.Outdates) : c.Rearms := ⟨h.1, by simp [h.2]⟩

/-- **An arming sets the deadline one interval ahead.** The first one of all is for now if it is made by `schedule`. -/
def Arming.Follows (a : Arming) (s : Scheduler) (interval : Nat) (earlier : List Arming) : Prop :=
  a.deadline = a.time + interval ∨ a.deadline = a.time ∧ earlier = [] ∧ s.operation? a.call = some .schedule

namespace Scheduler

variable {s u : Scheduler} {a : SchedulerAct} {ns log : List TimerNote} {interval i : Nat}

/-! ### Deadlines -/

/-- **The deadline is up to date**: the last arming set it, and would set it like this with the present interval. -/
def Fresh (s : Scheduler) (log : List TimerNote) : Prop :=
  ∀ d, s.timer.deadline = some d →
    ∃ a earlier, armings log = earlier ++ [a] ∧ a.deadline = d ∧ a.Follows s s.timer.interval earlier

/-- **What holds between two acts.** -/
structure Orderly (interval : Nat) (s : Scheduler) (log : List TimerNote) : Prop where
  tracks : s.timer.Tracks interval log
  leaves : ∀ c ∈ s.calls, c.result = none → c.operation.Leaves c.sections
  /-- Only a timer that was armed is armed anew. -/
  rearms : ∀ c ∈ s.calls, c.Rearms → s.timer.initialized = true
  fresh : (∃ c ∈ s.calls, c.Outdates) ∨ s.Fresh log

/-- A new timer is in order. -/
theorem Orderly.create (hinterval : checkInterval interval = .ok ()) : Orderly interval (create interval) [] :=
  ⟨.create hinterval, nofun, nofun, .inr nofun⟩

/-- What is in force stays in force where neither the deadline nor the interval changes. -/
theorem Fresh.congr (h : s.Fresh log) (hdeadline : u.timer.deadline = s.timer.deadline)
    (hinterval : u.timer.interval = s.timer.interval) (harmings : armings (log ++ ns) = armings log)
    (hoperation : ∀ i o, s.operation? i = some o → u.operation? i = some o) : u.Fresh (log ++ ns) := by
  intro d hd
  obtain ⟨a, earlier, ha, had, hfollows⟩ := h d (hdeadline ▸ hd)
  refine ⟨a, earlier, harmings.trans ha, had, ?_⟩
  rw [hinterval]
  exact hfollows.imp id fun ⟨hnow, hfirst, hcall⟩ => ⟨hnow, hfirst, hoperation _ _ hcall⟩

/-- A call that is about to disarm the timer stays so while others go on. -/
theorem outdates_set {c c' : TimerCall} (hc : s.calls[i]? = some c) (hnot : ¬ c.Outdates)
    (h : ∃ d ∈ s.calls, d.Outdates) : ∃ d ∈ s.calls.set i c', d.Outdates := by
  obtain ⟨d, hd, houtdates⟩ := h
  obtain ⟨j, hj⟩ := List.mem_iff_getElem?.1 hd
  have hij : i ≠ j := by
    rintro rfl
    rw [hc] at hj
    cases hj
    exact hnot houtdates
  exact ⟨d, List.mem_of_getElem? ((List.getElem?_set_ne hij).trans hj), houtdates⟩

/-- **A call that arms the timer** takes the interval as it is now. -/
theorem Orderly.follows {c : TimerCall} {full : Bool} {rest : List TimerSection} {deadline : Nat}
    (h : s.Orderly interval log) (hc : s.calls[i]? = some c) (hopen : c.result = none)
    (hnext : c.sections = .arm full :: rest) (hclock : Clock.after? s.now (s.timer.delay full) = some deadline) :
    Arming.Follows ⟨i, s.now, deadline⟩ s s.timer.interval (armings log) := by
  have hmem := List.mem_of_getElem? hc
  -- the clock can show the deadline, so it is the sum of the two
  have hdeadline : deadline = s.now + s.timer.delay full := by
    unfold Clock.after? at hclock
    split at hclock
    · exact (Option.some.inj hclock).symm
    · cases hclock
  -- the delay is the interval, except for a call that arms a timer for the first time and at once
  by_cases hdelay : s.timer.initialized || full
  · refine .inl ?_
    rw [hdeadline, Timer.delay, if_pos hdelay]
  · obtain ⟨hfirst, rfl⟩ : s.timer.initialized = false ∧ full = false := by simpa using hdelay
    refine .inr ⟨?_, ?_, ?_⟩
    · -- without a delay the deadline is now
      show deadline = s.now
      rw [hdeadline, Timer.delay, if_neg hdelay, Nat.add_zero]
    · -- a timer that was armed before would know it
      by_contra hsome
      rw [h.tracks.initialized.2 hsome] at hfirst
      cases hfirst
    · -- a change of the interval would have found the timer armed
      have harm : .arm false ∈ c.sections := hnext ▸ List.mem_cons_self
      rcases (h.leaves c hmem hopen).of_arm harm with ho | hinterval
      · simp [operation?, hc, ho]
      · rw [h.rearms c hmem ⟨hinterval, harm⟩] at hfirst
        cases hfirst

/-- What holds of all calls still holds when one of them goes on. -/
theorem forall_set {p : TimerCall → Prop} {c' : TimerCall} (h : ∀ c ∈ s.calls, p c) (hc' : p c') :
    ∀ c ∈ s.calls.set i c', p c := by
  intro c hc
  rcases List.mem_or_eq_of_mem_set hc with hc | rfl
  · exact h c hc
  · exact hc'

/-- Arming the timer anew is put in front of what is left only by a change of the interval. -/
theorem mem_of_mem_more {t t' : Timer} {now : Nat} {onThread : Bool} {x : TimerSection} {more : List TimerSection}
    (hperform : t.Performs now onThread x t' (.proceed more)) (harm : .arm false ∈ more) : ∃ d, t.deadline = some d := by
  cases hperform with
  | adjusted hcheck =>
    split at harm
    · rename_i harmed
      exact Option.isSome_iff_exists.1 harmed
    · cases harm
  | released hthread => split at harm <;> simp at harm
  | runs | spawned | armed | disarmed | unchanged | stopped | releasedBefore | joined => cases harm

/-- **A section that went through.** -/
theorem Orderly.proceed {c : TimerCall} {x : TimerSection} {rest more : List TimerSection} {t : Timer}
    (h : s.Orderly interval log) (hc : s.calls[i]? = some c) (hopen : c.result = none) (hnext : c.sections = x :: rest)
    (hperform : s.timer.Performs s.now c.onThread x t (.proceed more)) :
    Orderly interval { s with timer := t, calls := s.calls.set i { c with sections := more ++ rest } }
      (log ++ x.notes i s.now t) := by
  have hmem := List.mem_of_getElem? hc
  have hleaves : c.operation.Leaves (x :: rest) := hnext ▸ h.leaves c hmem hopen
  have hoperation := fun j o (ho : s.operation? j = some o) =>
    (operation?_set hc t { c with sections := more ++ rest } rfl j).trans ho
  constructor
  case tracks => exact h.tracks.performs hperform
  -- the call goes on with what comes of the section, and all others have what they had
  case leaves => exact forall_set h.leaves fun _ => hleaves.proceed h.tracks.accepted hperform
  case rearms =>
    -- a timer that was armed once stays so
    have hkeep : s.timer.initialized = true → t.initialized = true := by
      intro hinitialized
      cases hperform <;> first | exact hinitialized | rfl
    refine forall_set (fun d hd hd' => hkeep (h.rearms d hd hd')) fun hrearms => hkeep ?_
    rcases List.mem_append.1 hrearms.2 with harm | harm
    · -- what comes of a section arms the timer only if it was armed
      obtain ⟨d, hd⟩ := mem_of_mem_more hperform harm
      exact h.tracks.initialized_of_deadline hd
    · exact h.rearms c hmem ⟨hrearms.1, hnext ▸ List.mem_cons_of_mem _ harm⟩
  case fresh =>
    -- a section that touches neither deadline nor interval
    have hidle : x ≠ .disarm → t.deadline = s.timer.deadline → t.interval = s.timer.interval →
        armings (log ++ x.notes i s.now t) = armings log →
        (∃ d ∈ s.calls.set i { c with sections := more ++ rest }, d.Outdates) ∨
          Fresh { s with timer := t, calls := s.calls.set i { c with sections := more ++ rest } }
            (log ++ x.notes i s.now t) := by
      intro hx hdeadline hinterval harmings
      refine h.fresh.imp (outdates_set hc fun houtdates => hx ?_) fun hfresh =>
        hfresh.congr hdeadline hinterval harmings hoperation
      exact (List.cons.inj (hnext.symm.trans houtdates.2)).1
    -- one case for each section, by what it does to the deadline and the interval
    cases hperform with
    | runs | spawned | released | releasedBefore | joined =>
      exact hidle nofun rfl rfl (by rw [show TimerSection.notes _ _ _ _ = [] from rfl, List.append_nil])
    | @unchanged interval' hsame =>
      exact hidle nofun rfl rfl ((armings_concat log (.adjusted interval')).trans (List.append_nil _))
    | @armed full deadline hopen' hclock =>
      -- whoever arms the timer takes the interval as it is
      refine .inr fun d hd => ?_
      cases hd
      have hfollows := h.follows hc hopen hnext hclock
      refine ⟨⟨i, s.now, deadline⟩, armings log, armings_concat .., rfl, ?_⟩
      exact hfollows.imp id fun ⟨hnow, hfirst, hcall⟩ => ⟨hnow, hfirst, hoperation _ _ hcall⟩
    -- without a deadline there is nothing to be out of date
    | disarmed => exact .inr nofun
    | stopped => exact .inr nofun
    | adjusted hcheck =>
      obtain ⟨ho, rfl⟩ := hleaves.of_adjust
      by_cases harmed : s.timer.isArmed
      · -- the deadline is out of date until the call goes on
        have hi : i < s.calls.length := (List.getElem?_eq_some_iff.1 hc).1
        rw [if_pos harmed]
        exact .inl ⟨_, List.mem_set hi _, ⟨_, ho⟩, rfl⟩
      · refine .inr fun d hd => absurd ?_ harmed
        exact Option.isSome_iff_exists.2 ⟨d, hd⟩

/-- An act that neither arms the timer nor changes the interval. The deadline may go. -/
theorem Orderly.keep (h : s.Orderly interval log) (htracks : u.timer.Tracks interval (log ++ ns))
    (hinitialized : u.timer.initialized = s.timer.initialized) (hinterval : u.timer.interval = s.timer.interval)
    (hdeadline : u.timer.deadline = s.timer.deadline ∨ u.timer.deadline = none)
    (harmings : armings (log ++ ns) = armings log)
    (hoperation : ∀ i o, s.operation? i = some o → u.operation? i = some o)
    (hcalls : ∀ c ∈ u.calls, c ∈ s.calls ∨ (c.result = none → c.operation.Leaves c.sections) ∧ ¬ c.Rearms)
    (houtdates : (∃ c ∈ s.calls, c.Outdates) → ∃ c ∈ u.calls, c.Outdates) : u.Orderly interval (log ++ ns) where
  tracks := htracks
  leaves c hc := by
    -- a call is as it was, or it has a state of which this is known
    rcases hcalls c hc with hc | ⟨hleaves, -⟩
    · exact h.leaves c hc
    · exact hleaves
  rearms c hc hrearms := by
    rcases hcalls c hc with hc | ⟨-, hnot⟩
    · exact hinitialized ▸ h.rearms c hc hrearms
    · exact absurd hrearms hnot
  fresh := by
    -- the deadline is the same as before, or it is gone
    rcases hdeadline with hdeadline | hdeadline
    · exact h.fresh.imp houtdates fun hfresh => hfresh.congr hdeadline hinterval harmings hoperation
    · refine .inr fun d hd => ?_
      rw [hdeadline] at hd
      cases hd

/-- A new call has nothing to arm anew. -/
theorem not_rearms_create (o : TimerOperation) (onThread : Bool) : ¬ (TimerCall.create o onThread).Rearms := by
  rintro ⟨⟨interval, ho⟩, harm⟩
  cases ho
  simp [TimerCall.create, TimerOperation.sections, TimerSection.setInterval] at harm

/-- **One act.** -/
theorem Orderly.step (h : s.Orderly interval log) (hstep : Happens s a ns u) : u.Orderly interval (log ++ ns) := by
  have htracks := hstep.tracks h.tracks
  have hoperation := fun j o => hstep.operation?_eq (i := j) (o := o)
  cases hstep with
  -- a call that begins has its sections before it, and does not have to arm the timer yet
  | began o onThread =>
    refine h.keep htracks rfl rfl (.inl rfl) (by rw [List.append_nil]) hoperation (fun c hc => ?_) ?_
    · rcases List.mem_append.1 hc with hc | hc
      · exact .inl hc
      · cases List.mem_singleton.1 hc
        exact .inr ⟨fun _ => o.leaves_sections, not_rearms_create o onThread⟩
    · rintro ⟨c, hc, houtdates⟩
      exact ⟨c, List.mem_append_left _ hc, houtdates⟩
  -- a call that is through has no sections left, so it leaves nothing out of date
  | answered hc hopen hthrough =>
    refine h.keep htracks rfl rfl (.inl rfl) (by rw [List.append_nil]) hoperation (fun d hd => ?_) ?_
    · rcases List.mem_or_eq_of_mem_set hd with hd | rfl
      · exact .inl hd
      · exact .inr ⟨nofun, fun hrearms => by simp [TimerCall.Rearms, hthrough] at hrearms⟩
    · exact outdates_set hc fun houtdates => by simp [TimerCall.Outdates, hthrough] at houtdates
  | refused hc hopen hnext hperform =>
    refine h.keep htracks rfl rfl (.inl rfl) (by rw [List.append_nil]) hoperation (fun d hd => ?_) ?_
    · rcases List.mem_or_eq_of_mem_set hd with hd | rfl
      · exact .inl hd
      · exact .inr ⟨nofun, fun hrearms => by simp [TimerCall.Rearms] at hrearms⟩
    · -- to disarm the timer is never refused
      refine outdates_set hc fun houtdates => ?_
      exact hperform.ne_disarm (List.cons.inj (hnext.symm.trans houtdates.2)).1
  | proceeded hc hopen hnext hperform => exact h.proceed hc hopen hnext hperform
  -- the thread does not touch the interval, and takes away the deadline at most
  | closed hclosed =>
    exact h.keep htracks rfl rfl (.inl rfl) (by rw [List.append_nil]) hoperation (fun _ => .inl) id
  | fired hopen hdeadline hdue =>
    exact h.keep htracks rfl rfl (.inr rfl) (by simp) hoperation (fun _ => .inl) id
  | ended outcome =>
    exact h.keep htracks rfl rfl (.inl rfl) (by simp) hoperation (fun _ => .inl) id
  | passed span =>
    exact h.keep htracks rfl rfl (.inl rfl) (by rw [List.append_nil]) hoperation (fun _ => .inl) id

/-- Every course leaves the timer in order. -/
theorem Runs.orderly (hinterval : checkInterval interval = .ok ()) (h : Runs interval log s) :
    s.Orderly interval log := by
  induction h with
  | start => exact .create hinterval
  | act _ hstep ih => exact ih.step (.of_step hstep)

/-- **Each arming** takes the interval that was accepted last. -/
theorem Runs.armed {before after : List TimerNote} {a : Arming} (hinterval : checkInterval interval = .ok ())
    (h : Runs interval (before ++ .armed a :: after) s) :
    a.Follows s (intervalAfter interval before) (armings before) := by
  obtain ⟨t, act, u, hbefore, hstep, hnote, hafter⟩ := h.cut length_note_le
  have horderly := Runs.orderly hinterval hbefore
  have hhappens := Happens.of_step hstep
  have hoperation := fun o (ho : t.operation? a.call = some o) =>
    operation?_of_course hafter (hhappens.operation?_eq ho)
  rw [hnote] at hhappens
  generalize hns : [TimerNote.armed a] = ns at hhappens
  -- only a section that arms the timer is noted in this way
  cases hhappens with
  | @proceeded i c x rest more t' hc hopen hnext hperform =>
    cases hperform with
    -- what is known of the timer before this act decides the deadline
    | @armed full deadline hopen' hclock =>
      cases hns
      have hfollows := horderly.follows hc hopen hnext hclock
      rw [horderly.tracks.current] at hfollows
      exact hfollows.imp id fun ⟨hnow, hfirst, hcall⟩ => ⟨hnow, hfirst, hoperation _ hcall⟩
    | runs | spawned | disarmed | unchanged | adjusted | stopped | released | releasedBefore | joined => cases hns
  | began | answered | refused | closed | fired | ended | passed => cases hns

/-- **How the deadline and the interval of a timer belong together.** -/
structure Regular (interval : Nat) (s : Scheduler) (log : List TimerNote) : Prop where
  positive : 0 < s.timer.interval
  bounded : s.timer.interval ≤ maxInterval
  /-- A timer with a deadline has been initialized and is not shut down. -/
  armed : s.timer.isArmed = true → s.timer.initialized = true ∧ s.timer.shutDown = false
  /-- Unless somebody has changed the interval and not yet armed the timer anew, the deadline is one interval after the
  last arming. If this is the first one, and made by `schedule`, the deadline may be the time of the arming itself. -/
  deadline : (∀ c ∈ s.calls, ¬ c.Rearms) → ∀ d, s.timer.deadline = some d →
    ∃ a earlier, armings log = earlier ++ [a] ∧ a.deadline = d ∧
      (d = a.time + s.timer.interval ∨ d = a.time ∧ earlier = [] ∧ s.operation? a.call = some .schedule)
  /-- The interval is the one that was accepted last. -/
  current : s.timer.interval = intervalAfter interval log
  /-- Each arming took the interval that had been accepted last by then. -/
  used : ∀ before a after, log = before ++ .armed a :: after →
    a.deadline = a.time + intervalAfter interval before ∨
      a.deadline = a.time ∧ armings before = [] ∧ s.operation? a.call = some .schedule
  /-- A change to an unacceptable interval is refused, and leaves the timer alone. -/
  refused : ∀ i c interval' f, s.calls[i]? = some c → c.operation = .setInterval interval' →
    checkInterval interval' = .error f → c.result = none →
    ∃ u, s.step (.move i) = some u ∧ u.timer = s.timer ∧ u.result? i = some (.error f)

/-- **The deadline follows the interval**, whoever arms and disarms the timer meanwhile. -/
theorem follows_interval (hinterval : checkInterval interval = .ok ()) (h : Runs interval log s) :
    Regular interval s log := by
  have horderly := h.orderly hinterval
  have htracks := horderly.tracks
  constructor
  case positive => exact pos_of_checkInterval htracks.accepted
  case bounded => exact le_of_checkInterval htracks.accepted
  case armed =>
    intro harmed
    obtain ⟨d, hd⟩ := Option.isSome_iff_exists.1 harmed
    refine ⟨htracks.initialized_of_deadline hd, ?_⟩
    by_contra hclosed
    rw [htracks.unarmed (by simpa using hclosed)] at hd
    cases hd
  case deadline =>
    intro hnot d hd
    -- a call that has still to arm the timer is excluded, so the deadline is that of the last arming
    rcases horderly.fresh with ⟨c, hc, houtdates⟩ | hfresh
    · exact absurd houtdates.rearms (hnot c hc)
    · obtain ⟨a, earlier, ha, rfl, hfollows⟩ := hfresh d hd
      exact ⟨a, earlier, ha, rfl, hfollows⟩
  case current => exact htracks.current
  case used =>
    rintro before a after rfl
    exact h.armed hinterval
  case refused =>
    intro i c interval' f hc ho hcheck hopen
    -- the call has its first section before it, and this is where the interval is tried
    have hi : i < s.calls.length := (List.getElem?_eq_some_iff.1 hc).1
    have hleaves := horderly.leaves c (List.mem_of_getElem? hc) hopen
    rw [ho] at hleaves
    rcases hleaves with hsections | ⟨haccepted, -⟩
    · have hstep : s.step (.move i) =
          some { s with calls := s.calls.set i { c with sections := [], result := some (.error f) } } := by
        simp only [step, hc, TimerCall.advance, hopen, hsections, TimerSection.setInterval, Timer.perform, hcheck]
      exact ⟨_, hstep, rfl, by simp [result?, hi]⟩
    · -- past this section the interval would have been accepted
      rw [hcheck] at haccepted
      cases haccepted

/-- While what the timer called is at work, the interval is changed, and somebody tries to change it to nothing. The next
arming takes the new one. Then the interval is changed once more, and the timer not yet disarmed. -/
def changingActs : List SchedulerAct :=
  [.begin .schedule false, .move 0, .move 0, .look, .begin (.setInterval (seconds 60)) false, .move 1,
    .begin (.setInterval 0) false, .move 2, .begin .scheduleInterval true, .move 3, .move 3,
    .begin (.setInterval (seconds 30)) false, .move 4]

/-- The deadline is that of the interval before. -/
theorem follows_interval_changing : ∃ log s, checkInterval (seconds 3600) = .ok () ∧ Runs (seconds 3600) log s ∧
    Regular (seconds 3600) s log ∧ armings log = [⟨0, 0, 0⟩, ⟨3, 0, seconds 60⟩] ∧
    s.timer.deadline = some (seconds 60) ∧ s.timer.interval = seconds 30 ∧
    s.result? 2 = some (.error (.setting "update interval must be greater than 0")) := by
  have hcourse : (carryOut Scheduler.step Scheduler.note changingActs ([], create (seconds 3600))).map (fun x =>
      (armings x.1, x.2.timer.deadline, x.2.timer.interval, x.2.result? 2)) =
      some ([⟨0, 0, 0⟩, ⟨3, 0, seconds 60⟩], some (seconds 60), seconds 30,
        some (.error (.setting "update interval must be greater than 0"))) := rfl
  obtain ⟨⟨log, s⟩, hcarried, hends⟩ := Option.map_eq_some_iff.1 hcourse
  have h : Runs (seconds 3600) log s := Course.of_carryOut changingActs .start hcarried
  simp only [Prod.mk.injEq] at hends
  exact ⟨log, s, rfl, h, follows_interval rfl h, hends⟩

end Scheduler

end SensorCatalog
