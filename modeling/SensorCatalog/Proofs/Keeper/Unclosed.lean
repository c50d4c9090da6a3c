import SensorCatalog.Proofs.Keeper.Requests
import SensorCatalog.Proofs.Timer.Step

/-!
# Keepers that nobody closes

As long as nobody asks for it, no call closes the keeper or shuts its timer down (`Keeper.Unclosed`), and
`Keeper.Unclosed.step` carries this over each act. `Keeper.Unclosed.Keeps` says what it means for an act of a call.

What is left of a use of the timer is one of a few lists of sections (`TimerUse.Leaves`). So it is known what an open
timer does (`Timer.Open`): while the clock can show the deadlines nothing but an unacceptable interval is refused, and
who is to set the timer gets to it (`Timer.Open.arms`).
-/

namespace SensorCatalog

variable {b : Backend} {k k' k₁ : Keeper} {i : Nat} {c : Call} {phase phase' : CallPhase} {onTimer : Bool}

/-! ### Uses of an open timer -/

/-- The sections that may be left of a use of the timer, if it is not for closing the keeper. -/
def TimerUse.Leaves : TimerUse → List TimerSection → Prop
  | .rearm _, sections => sections <:+ TimerSection.scheduleInterval
  | .start, sections => sections <:+ TimerSection.schedule
  | .adjust, sections =>
    (∃ interval, sections = TimerSection.setInterval interval) ∨ sections <:+ [.disarm, .start, .arm false]
  | .close, _ => False

/-- What is left after a section is of the same kind. -/
theorem TimerUse.Leaves.proceed {use : TimerUse} {s : TimerSection} {rest more : List TimerSection} {now : Nat}
    {t t' : Timer} (h : use.Leaves (s :: rest)) (hperform : t.Performs now onTimer s t' (.proceed more)) :
    use.Leaves (more ++ rest) := by
  -- in a suffix of a list without changes of the interval each section is simply left out
  have hshort : ∀ l : List TimerSection, (s :: rest) <:+ l →
      (∀ x ∈ l, x = .start ∨ x = .disarm ∨ ∃ full, x = .arm full) → (more ++ rest) <:+ l := by
    intro l hl hplain
    have hmore : more = [] := by
      rcases hplain s (hl.subset List.mem_cons_self) with rfl | rfl | ⟨full, rfl⟩
      · cases hperform <;> rfl
      · cases hperform; rfl
      · cases hperform; rfl
    rw [hmore]
    exact (List.suffix_cons s rest).trans hl
  cases use with
  | rearm a => exact hshort _ h (by simp [TimerSection.scheduleInterval])
  | start => exact hshort _ h (by simp [TimerSection.schedule])
  | adjust =>
    rcases h with ⟨interval, heq⟩ | h
    · -- the change itself may be followed by setting the deadline anew
      cases heq
      cases hperform with
      | unchanged hsame => exact .inr (List.nil_suffix)
      | adjusted hcheck =>
        refine .inr ?_
        split
        · exact List.suffix_refl _
        · exact List.nil_suffix
    · exact .inr (hshort _ h (by simp))
  | close => exact h.elim

/-- None of these sections shuts the timer down. -/
theorem TimerUse.Leaves.plain {use : TimerUse} {s : TimerSection} {rest : List TimerSection}
    (h : use.Leaves (s :: rest)) : s ≠ .stop ∧ s ≠ .release := by
  have hshort : ∀ l : List TimerSection, (s :: rest) <:+ l → .stop ∉ l → .release ∉ l → s ≠ .stop ∧ s ≠ .release := by
    intro l hl hstop hrelease
    have hs := hl.subset List.mem_cons_self
    exact ⟨fun hs' => hstop (hs' ▸ hs), fun hs' => hrelease (hs' ▸ hs)⟩
  -- neither of the lists has a section that stops or releases
  cases use with
  | rearm a => exact hshort _ h (by decide) (by decide)
  | start => exact hshort _ h (by decide) (by decide)
  | adjust =>
    rcases h with ⟨interval, heq⟩ | h
    · cases heq
      exact ⟨nofun, nofun⟩
    · exact hshort _ h (by decide) (by decide)
  | close => exact h.elim

/-- A change of the interval is the last section that is left, or else there would be none. -/
theorem TimerUse.Leaves.rest_of_adjust {use : TimerUse} {interval : Nat} {rest : List TimerSection}
    (h : use.Leaves (.adjust interval :: rest)) : rest = [] := by
  cases use with
  -- there is no change of the interval among these sections
  | rearm a => exact absurd (List.IsSuffix.subset h List.mem_cons_self) (by simp [TimerSection.scheduleInterval])
  | start => exact absurd (List.IsSuffix.subset h List.mem_cons_self) (by simp [TimerSection.schedule])
  | adjust =>
    rcases h with ⟨interval', heq⟩ | h
    · cases heq
      rfl
    · exact absurd (h.subset List.mem_cons_self) (by simp)
  | close => exact h.elim

/-- To set the deadline is the last section of each use. -/
theorem TimerUse.Leaves.rest_of_arm {use : TimerUse} {full : Bool} {rest : List TimerSection}
    (h : use.Leaves (.arm full :: rest)) : rest = [] := by
  cases use with
  | rearm a =>
    -- `arm` stands at the end of the list, so the suffix that begins with it has nothing else
    have hsuffix : TimerSection.arm full :: rest <:+ TimerSection.scheduleInterval := h
    simp_all [TimerSection.scheduleInterval, List.suffix_cons_iff]
  | start =>
    have hsuffix : TimerSection.arm full :: rest <:+ TimerSection.schedule := h
    simp_all [TimerSection.schedule, List.suffix_cons_iff]
  | adjust =>
    rcases h with ⟨interval, heq⟩ | hsuffix
    · cases heq
    · simp_all [List.suffix_cons_iff]
  | close => exact h.elim

/-- Only who changes the interval tries one, and then this is all that is left. -/
theorem TimerUse.Leaves.of_adjust {use : TimerUse} {n : Nat} {rest : List TimerSection}
    (h : use.Leaves (.adjust n :: rest)) : use = .adjust ∧ rest = [] := by
  refine ⟨?_, h.rest_of_adjust⟩
  cases use with
  | rearm a => exact absurd (List.IsSuffix.subset h List.mem_cons_self) (by simp [TimerSection.scheduleInterval])
  | start => exact absurd (List.IsSuffix.subset h List.mem_cons_self) (by simp [TimerSection.schedule])
  | adjust => rfl
  | close => exact h.elim

/-- **A timer that nobody shuts down.** -/
structure Timer.Open (t : Timer) : Prop where
  shutDown : t.shutDown = false
  /-- The interval is acceptable. -/
  interval : t.interval ≤ maxInterval
  /-- The thread is kept. -/
  thread : t.hasThread = false → t.thread = .absent

namespace Timer.Open

variable {t t' : Timer} {now : Nat} {s : TimerSection} {rest : List TimerSection} {e : SectionEnd} {use : TimerUse}

/-- A section that is not for closing leaves the timer open, and its thread firing if it was. -/
theorem performs (h : t.Open) (hplain : s ≠ .stop ∧ s ≠ .release) (hperform : t.Performs now onTimer s t' e) :
    t'.Open ∧ (t.thread = .firing → t'.thread = .firing) := by
  cases hperform with
  | spawned hopen hthread =>
    -- a timer without a thread does not fire
    refine ⟨⟨h.shutDown, h.interval, nofun⟩, fun hfiring => ?_⟩
    rw [h.thread hthread] at hfiring
    cases hfiring
  | armed hopen hclock => exact ⟨⟨h.shutDown, h.interval, h.thread⟩, id⟩
  | disarmed => exact ⟨⟨h.shutDown, h.interval, h.thread⟩, id⟩
  | adjusted hcheck => exact ⟨⟨h.shutDown, le_of_checkInterval hcheck, h.thread⟩, id⟩
  | stopped => exact absurd rfl hplain.1
  | released hthread => exact absurd rfl hplain.2
  | _ => exact ⟨h, id⟩

/-- The deadline is taken away only for the sake of a change. -/
theorem isArmed_performs (harmed : t.isArmed = true) (hplain : s ≠ .stop ∧ s ≠ .release)
    (hperform : t.Performs now onTimer s t' e) : t'.isArmed = true ∨ s = .disarm ∧ e = .proceed [] := by
  cases hperform with
  | disarmed => exact .inr ⟨rfl, rfl⟩
  | armed hopen hclock => exact .inl rfl
  | stopped => exact absurd rfl hplain.1
  | _ => exact .inl harmed

/-- The thread that looks at the clock fires, or there is nothing to do for it. -/
theorem fires (h : t.Open) (hlook : t.look now = some t') : t'.Open ∧ t'.thread = .firing := by
  obtain ⟨hwaiting, ⟨hclosed, -⟩ | ⟨-, deadline, -, -, rfl⟩⟩ := Timer.look_cases hlook
  -- the timer is not shut down, so a deadline was due
  · rw [h.shutDown] at hclosed
    cases hclosed
  · refine ⟨⟨h.shutDown, h.interval, fun hthread => ?_⟩, rfl⟩
    rw [h.thread hthread] at hwaiting
    cases hwaiting

/-- What it called returns. -/
theorem resume (h : t.Open) (hfiring : t.thread = .firing) : t.resume.Open := by
  refine ⟨h.shutDown, h.interval, fun hthread => ?_⟩
  -- the thread that made the call is still there
  rw [h.thread hthread] at hfiring
  cases hfiring

/-- Only a change of the interval can be refused. -/
theorem refuses (h : t.Open) (hclock : now + maxInterval < Clock.horizon) {f : Fault}
    (hperform : t.Performs now onTimer s t' (.refuse f)) : ∃ interval, s = .adjust interval := by
  cases hperform with
  | unacceptable hcheck => exact ⟨_, rfl⟩
  | closedBeforeStart hclosed | closedBeforeArming hclosed =>
    rw [h.shutDown] at hclosed
    cases hclosed
  | @outOfRange full f hopen hnone =>
    -- an interval ahead is within the range of the clock
    have hdelay : now + t.delay full < Clock.horizon := by
      have hinterval := h.interval
      unfold Timer.delay
      split <;> omega
    rw [Clock.after?_eq_some hdelay] at hnone
    cases hnone

/-- **Whoever is to set the timer sets it**, or has still to do it after another section. -/
theorem arms (h : t.Open) (hclock : now + maxInterval < Clock.horizon) {full : Bool}
    (hleaves : use.Leaves (s :: rest)) (harm : .arm full ∈ s :: rest) (hperform : t.Performs now onTimer s t' e) :
    t'.isArmed = true ∨ e = .proceed [] ∧ .arm full ∈ rest := by
  -- a change of the interval would stand alone, and there is an `arm` among the sections
  have hchange : ∀ interval, s ≠ .adjust interval := by
    rintro interval rfl
    rw [hleaves.rest_of_adjust] at harm
    cases List.mem_singleton.1 harm
  have hrest : s ≠ .arm full → .arm full ∈ rest := fun hs =>
    (List.mem_cons.1 harm).resolve_left fun heq => hs heq.symm
  cases e with
  | refuse f =>
    obtain ⟨interval, hs⟩ := h.refuses hclock hperform
    exact absurd hs (hchange interval)
  | proceed more =>
    cases hperform with
    | armed hopen hclock => exact .inl rfl
    | runs hthread => exact .inr ⟨rfl, hrest nofun⟩
    | spawned hopen hthread => exact .inr ⟨rfl, hrest nofun⟩
    | disarmed => exact .inr ⟨rfl, hrest nofun⟩
    | joined hended => exact .inr ⟨rfl, hrest nofun⟩
    | unchanged hsame => exact absurd rfl (hchange _)
    | adjusted hcheck => exact absurd rfl (hchange _)
    | stopped => exact absurd rfl hleaves.plain.1
    | released hthread | releasedBefore hthread => exact absurd rfl hleaves.plain.2

end Timer.Open

/-! ### Open keepers -/

/-- No call in this phase closes the keeper, or gives up its start. -/
def CallPhase.Unclosed : CallPhase → Prop
  | .closing | .unstarting _ => False
  | .timing sections use => use.Leaves sections
  | _ => True

/-- To be woken is not to be asked to close the keeper. -/
theorem CallPhase.Unclosed.rouse (h : phase.Unclosed) : phase.rouse.Unclosed := by
  cases phase with
  | asleep p => trivial
  | _ => exact h

/-- A call does not close the keeper unless it is asked to clean up. -/
theorem CallPhase.unclosed_request {r : Request} (hr : r ≠ .cleanup) (now : Nat) : (r.phase now).Unclosed := by
  cases r with
  | cleanup => exact absurd rfl hr
  | setInterval interval => exact .inl ⟨interval, rfl⟩
  -- it is refused at once, or it has an interval to try
  | setMinutes minutes =>
    rw [Request.phase]
    split
    · trivial
    · exact .inl ⟨_, rfl⟩
  | waitIdleFor span => rw [Request.phase]; split <;> trivial
  | _ => trivial

namespace Keeper

/-- **A keeper that nobody closes.** -/
structure Unclosed (k : Keeper) : Prop where
  shuttingDown : k.shuttingDown = false
  timer : k.timer.Open
  /-- When the thread of the timer makes a call, it has fired. -/
  firing : k.tick.isSome = true → k.timer.thread = .firing
  /-- No call closes it. -/
  phases : ∀ j p, k.phase? j = some p → p.Unclosed

/-- What an act of a call leaves as it is, if it does not close the keeper. -/
structure Unclosed.Keeps (k k₁ : Keeper) (phase' : CallPhase) : Prop where
  shuttingDown : k₁.shuttingDown = false
  timer : k₁.timer.Open
  firing : k.timer.thread = .firing → k₁.timer.thread = .firing
  tick : k₁.tick = k.tick
  /-- The call does not close it either. -/
  phase : phase'.Unclosed
  /-- A keeper that was started remains so. -/
  started : k.started = true → k₁.started = true

/-- Of the other calls nothing has to be known. -/
theorem Unclosed.Keeps.of_advance (hunmarked : k.shuttingDown = false) (htimer : k.timer.Open)
    (hphase : phase.Unclosed) (hclock : k.now + maxInterval < Clock.horizon)
    (hadv : phase.Advance b k onTimer phase' k₁) : Keeps k k₁ phase' := by
  have hsame : ∀ {phase'}, CallPhase.Unclosed phase' → Keeps k k phase' := fun hp =>
    ⟨hunmarked, htimer, id, rfl, hp, id⟩
  cases hadv with
  | begun hopen hidle hagain => exact ⟨hunmarked, htimer, id, rfl, trivial, id⟩
  | ran hrun => exact ⟨hunmarked, htimer, id, rfl, trivial, id⟩
  | recorded => exact ⟨hunmarked, htimer, id, rfl, trivial, id⟩
  | announced => exact ⟨hunmarked, htimer, id, rfl, trivial, id⟩
  | rearmed => exact ⟨hunmarked, htimer, id, rfl, List.suffix_refl _, id⟩
  -- a use of the timer that is over was not for closing
  | @timed use =>
    refine hsame ?_
    cases use with
    | close => exact hphase.elim
    | _ => trivial
  | @turnedDown s rest use t f hperform =>
    have hp := Timer.Performs.of_perform hperform
    obtain ⟨hstill, hfiring⟩ := htimer.performs (TimerUse.Leaves.plain hphase) hp
    refine ⟨hunmarked, hstill, hfiring, rfl, ?_, id⟩
    -- only a refused start is given up, and an open timer refuses no start
    cases use with
    | start =>
      -- whoever starts the keeper changes no interval
      obtain ⟨interval, rfl⟩ := htimer.refuses hclock hp
      exact absurd (List.IsSuffix.subset hphase List.mem_cons_self) (by simp [TimerSection.schedule])
    | close => exact hphase.elim
    | _ => trivial
  | @proceeded s rest more use t hperform =>
    have hp := Timer.Performs.of_perform hperform
    obtain ⟨hstill, hfiring⟩ := htimer.performs (TimerUse.Leaves.plain hphase) hp
    exact ⟨hunmarked, hstill, hfiring, rfl, TimerUse.Leaves.proceed hphase hp, id⟩
  | started hopen hstarted => exact ⟨hunmarked, htimer, id, rfl, List.suffix_refl _, fun _ => rfl⟩
  | unstarted => exact hphase.elim
  | closing hopen => exact hphase.elim
  | _ => exact hsame trivial

/-- In a keeper that nobody closes the act of a call leaves all this as it is. -/
theorem Unclosed.keeps (h : k.Unclosed) (hphase : phase.Unclosed)
    (hclock : k.now + maxInterval < Clock.horizon) (hadv : phase.Advance b k onTimer phase' k₁) :
    Keeps k k₁ phase' :=
  .of_advance h.shuttingDown h.timer hphase hclock hadv

/-- After its turn a call does not close the keeper either. -/
theorem Unclosed.turns (h : k.Unclosed) (hphase : phase.Unclosed) (hclock : k.now + maxInterval < Clock.horizon)
    (hturns : phase.Turns b k i k' phase') : phase'.Unclosed := by
  cases hturns with
  | stayed => exact hphase
  | woken => exact hphase.rouse
  | advanced hadv hk => exact (h.keeps hphase hclock hadv).phase
  | itemMoved hrun => trivial
  | expired => trivial

/-- **The timer stays open**, whoever acts, if no act of a call closes the keeper. -/
theorem timer_of_step {a : KeeperAct} (htimer : k.timer.Open)
    (hfiring : k.tick.isSome = true → k.timer.thread = .firing) (hstep : k.step b a = some k')
    (hkeeps : ∀ i c phase k₁, k.calls[i]? = some c → c.phase.Advance b k c.onTimer phase k₁ →
      k' = k₁.setPhase i phase → Unclosed.Keeps k k₁ phase) :
    k'.timer.Open ∧ (k'.tick.isSome = true → k'.timer.thread = .firing) := by
  cases Happens.of_step hstep with
  | moved hc hadv =>
    have hkept := hkeeps _ _ _ _ hc hadv rfl
    exact ⟨hkept.timer, fun htick => hkept.firing (hfiring (hkept.tick ▸ htick))⟩
  -- the call of the timer is over, and its thread goes on waiting
  | resumed htick hover => exact ⟨htimer.resume (hfiring (by rw [htick]; rfl)), nofun⟩
  | fired htick hlook hthread =>
    obtain ⟨htimer, hfires⟩ := htimer.fires hlook
    exact ⟨htimer, fun _ => hfires⟩
  -- an open timer is looked at in vain or fires
  | looked htick hlook hthread => exact absurd (htimer.fires hlook).2 hthread
  | _ => exact ⟨htimer, hfiring⟩

/-- **It remains one** in each act that does not ask to clean up. -/
theorem Unclosed.step {a : KeeperAct} (h : k.Unclosed) (ha : a ≠ .begin .cleanup)
    (hclock : k.now + maxInterval < Clock.horizon) (hstep : k.step b a = some k') : k'.Unclosed := by
  have hkeeps : ∀ i c phase k₁, k.calls[i]? = some c → c.phase.Advance b k c.onTimer phase k₁ →
      k' = k₁.setPhase i phase → Keeps k k₁ phase := fun i c phase k₁ hc hadv _ =>
    h.keeps (h.phases _ _ (phase?_of_getElem? hc)) hclock hadv
  obtain ⟨htimer, hfiring⟩ := timer_of_step h.timer h.firing hstep hkeeps
  refine ⟨?_, htimer, hfiring, fun j p' hp' => ?_⟩
  -- only an act of a call could mark the keeper
  · cases Happens.of_step hstep with
    | moved hc hadv => exact (hkeeps _ _ _ _ hc hadv rfl).shuttingDown
    | _ => exact h.shuttingDown
  · rcases (Turns.of_step hstep).phases j p' hp' with ⟨p, hp, hturns⟩ | ⟨-, r, hr, rfl⟩
    · exact h.turns (h.phases j p hp) hclock hturns
    -- the call is new, and it is not asked to clean up
    · refine CallPhase.unclosed_request ?_ k.now
      rintro rfl
      exact ha (eq_cleanup_of_asked hr)

end Keeper

end SensorCatalog
