import SensorCatalog.Timer.Basic

/-!
# The acts of a timer

`Timer.Performs` lists what a section of an operation can do, and `Timer.look_cases` what the thread of the timer does
when it looks at the clock. What is proved by cases on these needs no look at `Timer.perform` and `Timer.look`
themselves.
-/

namespace SensorCatalog

/-- An instant that the clock can show is shown. -/
theorem Clock.after?_eq_some {now span : Nat} (h : now + span < horizon) : after? now span = some (now + span) :=
  if_pos h

/-- A deadline that the clock can show. -/
theorem Clock.eq_of_after? {now span deadline : Nat} (h : after? now span = some deadline) :
    deadline = now + span := by
  unfold after? at h
  split at h
  · cases h
    rfl
  · cases h

/-- An acceptable interval is at most the greatest one. -/
theorem le_of_checkInterval {interval : Nat} (h : checkInterval interval = .ok ()) : interval ≤ maxInterval := by
  unfold checkInterval at h
  split at h
  · cases h
  · split at h
    · cases h
    · rename_i hle
      exact Nat.le_of_not_lt hle

/-- An acceptable interval is not empty. -/
theorem pos_of_checkInterval {interval : Nat} (h : checkInterval interval = .ok ()) : 0 < interval := by
  unfold checkInterval at h
  split at h
  · cases h
  · rename_i hne
    exact Nat.pos_of_ne_zero hne

/-- **An interval is acceptable** if it is not empty and at most the greatest one. -/
theorem checkInterval_eq_ok_iff {interval : Nat} :
    checkInterval interval = .ok () ↔ 0 < interval ∧ interval ≤ maxInterval := by
  refine ⟨fun h => ⟨pos_of_checkInterval h, le_of_checkInterval h⟩, fun ⟨hpos, hle⟩ => ?_⟩
  rw [checkInterval, if_neg (Nat.ne_of_gt hpos), if_neg (Nat.not_lt.2 hle)]

namespace Timer

variable {now : Nat} {onThread : Bool} {t t' : Timer} {s : TimerSection} {e : SectionEnd}

/-- **The sections of operations**, with the timer after them and what comes of them. -/
inductive Performs (now : Nat) (onThread : Bool) (t : Timer) : TimerSection → Timer → SectionEnd → Prop where
  -- the thread
  | runs (hthread : t.hasThread = true) : Performs now onThread t .start t (.proceed [])
  | closedBeforeStart (hclosed : t.shutDown = true) : Performs now onThread t .start t (.refuse .closing)
  | spawned (hopen : t.shutDown = false) (hthread : t.hasThread = false) :
    Performs now onThread t .start { t with thread := .waiting, hasThread := true } (.proceed [])
  -- the deadline
  | closedBeforeArming {full : Bool} (hclosed : t.shutDown = true) :
    Performs now onThread t (.arm full) t (.refuse .closing)
  | outOfRange {full : Bool} {f : Fault} (hopen : t.shutDown = false)
    (hclock : Clock.after? now (t.delay full) = none) : Performs now onThread t (.arm full) t (.refuse f)
  | armed {full : Bool} {deadline : Nat} (hopen : t.shutDown = false)
    (hclock : Clock.after? now (t.delay full) = some deadline) :
    Performs now onThread t (.arm full) { t with initialized := true, deadline := some deadline } (.proceed [])
  | disarmed : Performs now onThread t .disarm { t with deadline := none } (.proceed [])
  -- the interval
  | unacceptable {interval : Nat} {f : Fault} (hcheck : checkInterval interval = .error f) :
    Performs now onThread t (.adjust interval) t (.refuse f)
  | unchanged {interval : Nat} (hsame : t.interval = interval) :
    Performs now onThread t (.adjust interval) t (.proceed [])
  | adjusted {interval : Nat} (hcheck : checkInterval interval = .ok ()) :
    Performs now onThread t (.adjust interval) { t with interval := interval }
      (.proceed (if t.isArmed then [.disarm, .start, .arm false] else []))
  -- the end
  | stopped : Performs now onThread t .stop { t with deadline := none, shutDown := true } (.proceed [])
  | released (hthread : t.hasThread = true) :
    Performs now onThread t .release { t with hasThread := false } (.proceed (if onThread then [] else [.join]))
  | releasedBefore (hthread : t.hasThread = false) : Performs now onThread t .release t (.proceed [])
  | joined (hended : t.thread = .ended) : Performs now onThread t .join t (.proceed [])

/-- **Every section is one of these.** -/
theorem Performs.of_perform (h : t.perform now onThread s = some (t', e)) : Performs now onThread t s t' e := by
  -- each section looks at the same few fields as the program does, in the same order
  unfold perform at h
  cases s with
  | start =>
    simp only at h
    split at h
    · rename_i hthread
      cases h
      exact .runs hthread
    rename_i hthread
    split at h
    · rename_i hclosed
      cases h
      exact .closedBeforeStart hclosed
    · rename_i hopen
      cases h
      exact .spawned (by simpa using hopen) (by simpa using hthread)
  | arm full =>
    simp only at h
    split at h
    · rename_i hclosed
      cases h
      exact .closedBeforeArming hclosed
    rename_i hopen
    have hopen : t.shutDown = false := by simpa using hopen
    -- a deadline beyond the clock is refused
    cases hclock : Clock.after? now (t.delay full) with
    | none =>
      rw [hclock] at h
      cases h
      exact .outOfRange hopen hclock
    | some deadline =>
      rw [hclock] at h
      cases h
      exact .armed hopen hclock
  | adjust interval =>
    simp only at h
    cases hcheck : checkInterval interval with
    | error f =>
      rw [hcheck] at h
      cases h
      exact .unacceptable hcheck
    | ok u =>
      rw [hcheck] at h
      simp only at h
      split at h
      · rename_i hsame
        cases h
        exact .unchanged hsame
      · cases h
        exact .adjusted hcheck
  | disarm => cases h; exact .disarmed
  | stop => cases h; exact .stopped
  | release =>
    simp only at h
    split at h
    · rename_i hthread
      cases h
      exact .released hthread
    · rename_i hthread
      cases h
      exact .releasedBefore (by simpa using hthread)
  | join =>
    simp only at h
    split at h
    · rename_i hended
      cases h
      exact .joined hended
    · cases h

/-- Nobody has to wait for anything but the end of the thread. -/
theorem perform_of_ne_join (hs : s ≠ .join) : ∃ x, t.perform now onThread s = some x := by
  cases s with
  | join => exact absurd rfl hs
  | disarm | stop => exact ⟨_, rfl⟩
  | start | arm full | adjust interval | release =>
    simp only [perform]
    repeat' split
    all_goals exact ⟨_, rfl⟩

/-- **The thread looks at the clock** while it waits. It ends, or it takes the deadline away and fires. -/
theorem look_cases (h : t.look now = some t') :
    t.thread = .waiting ∧
      ((t.shutDown = true ∧ t' = { t with thread := .ended }) ∨
        t.shutDown = false ∧ ∃ deadline, t.deadline = some deadline ∧ deadline ≤ now ∧
          t' = { t with deadline := none, fired := t.fired + 1, thread := .firing }) := by
  unfold look at h
  split at h
  · cases h
  rename_i hwaiting
  refine ⟨Decidable.of_not_not hwaiting, ?_⟩
  -- the mark of being shut down is looked at before the deadline
  split at h
  · rename_i hclosed
    cases h
    exact .inl ⟨hclosed, rfl⟩
  · rename_i hopen
    cases hdeadline : t.deadline with
    | none =>
      rw [hdeadline] at h
      cases h
    | some deadline =>
      rw [hdeadline] at h
      simp only at h
      split at h
      · rename_i hdue
        cases h
        exact .inr ⟨by simpa using hopen, deadline, rfl, hdue, rfl⟩
      · cases h

/-- An interval that the timer has already is not changed, and then there is nothing left to do. -/
theorem perform_adjust {n : Nat} (h : t.perform now onThread (.adjust n) = some (t', e)) :
    (t' = t ∧ ∀ more, e = .proceed more → more = []) ∨
      (checkInterval n = .ok () ∧ n ≠ t.interval ∧ t' = { t with interval := n }) := by
  -- the interval is not acceptable, or it is the same, or it is another one
  cases hcheck : checkInterval n with
  | error f =>
    simp only [perform, hcheck] at h
    cases h
    exact .inl ⟨rfl, nofun⟩
  | ok u =>
    by_cases hsame : t.interval = n
    · simp only [perform, hcheck, if_pos hsame] at h
      cases h
      exact .inl ⟨rfl, fun more hmore => (SectionEnd.proceed.inj hmore).symm⟩
    · simp only [perform, hcheck, if_neg hsame] at h
      cases h
      exact .inr ⟨rfl, fun heq => hsame heq.symm, rfl⟩

/-- What follows an interval that is accepted sets the deadline anew. -/
theorem perform_adjust_proceeds {n : Nat} {more : List TimerSection}
    (h : t.perform now onThread (.adjust n) = some (t', .proceed more)) :
    checkInterval n = .ok () ∧ more <:+ [.disarm, .start, .arm false] := by
  cases hcheck : checkInterval n with
  | error f => simp [perform, hcheck] at h
  | ok accepted =>
    refine ⟨rfl, ?_⟩
    cases Performs.of_perform h with
    | unchanged hsame => exact List.nil_suffix
    -- whether something follows depends on whether the timer was armed
    | adjusted =>
      split
      · exact List.suffix_refl _
      · exact List.nil_suffix

/-- All other sections leave the interval alone. -/
theorem interval_of_perform (h : t.perform now onThread s = some (t', e)) :
    t'.interval = t.interval ∨
      ∃ n, s = .adjust n ∧ checkInterval n = .ok () ∧ n ≠ t.interval ∧ t' = { t with interval := n } := by
  cases s with
  | adjust n =>
    rcases perform_adjust h with ⟨rfl, -⟩ | ⟨hcheck, hne, rfl⟩
    · exact .inl rfl
    · exact .inr ⟨n, rfl, hcheck, hne, rfl⟩
  | _ => cases Performs.of_perform h <;> exact .inl rfl

/-- Nothing else is followed by setting the deadline. -/
theorem Performs.eq_adjust_of_arm_mem {more : List TimerSection} {full : Bool}
    (h : t.Performs now onThread s t' (.proceed more)) (harm : .arm full ∈ more) : ∃ n, s = .adjust n := by
  cases h with
  | adjusted hcheck => exact ⟨_, rfl⟩
  | released hthread => split at harm <;> simp at harm
  | _ => cases harm

/-- Firing uses the deadline up and leaves all else as it was set. -/
theorem look_settings (h : t.look now = some t') :
    t'.interval = t.interval ∧ t'.initialized = t.initialized ∧
      (t'.deadline = none ∨ t'.deadline = t.deadline) := by
  obtain ⟨-, ⟨-, rfl⟩ | ⟨-, deadline, -, -, rfl⟩⟩ := look_cases h
  · exact ⟨rfl, rfl, .inr rfl⟩
  · exact ⟨rfl, rfl, .inl rfl⟩

end Timer

end SensorCatalog
