import SensorCatalog.Proofs.Waiting.Wakeups

/-!
# Waiting for a span of time

A wait with a deadline comes to its end, and what one is told then is how things are at that moment. The clock may
wake the one who waits just when the count becomes zero, or when one rebuild has ended and the next one has begun.
None of this matters, since the answer is given in the act of coming back: it is what the latch or the keeper says
then, and not how the wait was ended (`LatchWait.InTime.told`).

A call that waits for the end of a rebuild until a deadline is a wait like one at a latch, with its phases for the
states (`CallPhase.wait?`). So the accounts of `LatchWait.InTime` serve both.

All this is about deadlines that the clock can show. The deadline is added up before anything else is done, and where
the sum is beyond the clock the call breaks off, even if there was nothing to wait for (`wait_breaks_off`).
-/

namespace SensorCatalog

/-! ### Latches -/

namespace Latch

variable {l l' : Latch} {i deadline : Nat} {log : List WaitNote}

/-- What is noted of one wait at a latch. -/
def noted (i : Nat) (l : Latch) (_ : LatchAct) (l' : Latch) : List WaitNote := WaitNote.of l.waits[i]? l'.waits[i]?

/-- **One who waits at a latch until a deadline.** -/
structure Timely (i deadline : Nat) (log : List WaitNote) (l : Latch) : Prop where
  /-- The wait goes on or is over. It has not broken off, and all turns but two are owed to being woken. -/
  wait : ∃ w, l.waits[i]? = some w ∧ w.InTime deadline log
  /-- One who looks has a turn at once. -/
  looks : l.waits[i]? = some (.looking (some deadline)) → ∃ l', l.step (.look i) = some l'
  /-- One who sleeps comes back once the deadline has passed. -/
  expires : l.waits[i]? = some (.asleep (some deadline)) → deadline ≤ l.now →
    ∃ l' z, l.step (.expire i) = some l' ∧ l'.waits[i]? = some (.returned z)
  /-- One who comes back is told whether the count is zero then, and does not come back before the deadline unless it
  is. -/
  told : ∀ a l' z, l.step a = some l' → (∀ z', l.waits[i]? ≠ some (.returned z')) →
    l'.waits[i]? = some (.returned z) → (z = true ↔ l'.count = 0) ∧ (z = false → deadline ≤ l'.now)

/-- The clock never goes back. -/
theorem now_le_of_step {a : LatchAct} (h : l.step a = some l') : l.now ≤ l'.now := by
  cases Happens.of_step h with
  | passed span => exact Nat.le_add_right _ _
  | _ => exact le_rfl

/-- Counting down to zero wakes those who sleep, so it is not the act in which one of them comes back. -/
theorem count_of_returned {a : LatchAct} {w : LatchWait} {z : Bool} (hstep : l.step a = some l')
    (hw : l.waits[i]? = some w) (hwaits : ∀ z', w ≠ .returned z') (hreturned : l'.waits[i]? = some (.returned z)) :
    l'.count = 0 ↔ l.count = 0 := by
  cases Happens.of_step hstep with
  -- those who slept are looking then, and nobody has come back
  | letGo hlast =>
    rw [List.getElem?_map, hw] at hreturned
    have hroused : rouse w = .returned z := Option.some.inj hreturned
    cases w with
    | returned z' => exact absurd rfl (hwaits z')
    | _ => cases hroused
  -- the count stays above zero
  | counted hmore =>
    show l.count - 1 = 0 ↔ l.count = 0
    omega
  | _ => exact Iff.rfl

/-- A wait that is in time so far is timely, as its next move can only be one of a few. -/
theorem Timely.of_inTime (h : ∃ w, l.waits[i]? = some w ∧ w.InTime deadline log) : l.Timely i deadline log where
  wait := h
  looks hlooking := by
    unfold step
    simp only [hlooking]
    exact ⟨_, rfl⟩
  expires hasleep hdue := by
    obtain ⟨hi, -⟩ := List.getElem?_eq_some_iff.1 hasleep
    unfold step
    simp only [hasleep, if_pos hdue]
    exact ⟨_, _, rfl, List.getElem?_set_self hi⟩
  told a l' z hstep hwaits hreturned := by
    -- the move that brings it back is its last one, and the count is the same before and after it
    obtain ⟨w, hw, htime⟩ := h
    have hw' : ∀ z', w ≠ .returned z' := fun z' hz' => hwaits z' (hz' ▸ hw)
    obtain ⟨v, hv, hmoves⟩ := (Turns.of_step hstep).of_getElem? hw
    rw [hreturned] at hv
    obtain rfl := Option.some.inj hv
    obtain ⟨hz, hdue⟩ := htime.told hmoves hw'
    have hcount := count_of_returned hstep hw hw' hreturned
    refine ⟨?_, fun hno => (hdue hno).trans (now_le_of_step hstep)⟩
    rw [hcount, hz, beq_iff_eq]

/-- Whoever comes to wait for a span of time that ends before the clock does gets a deadline. -/
theorem begin_eq_looking {span : Nat} (h : l.now + span < Clock.horizon) :
    l.begin (some span) = .looking (some (l.now + span)) := by
  unfold begin
  simp only [Clock.after?_eq_some h]

/-- **Whoever comes to wait for a span of time.** -/
theorem timely {span : Nat} (hclock : l.now + span < Clock.horizon) (h : l.step (.arrive (some span)) = some l')
    {l'' : Latch} (hcourse : Course step (noted l.waits.length) l' log l'') :
    l''.Timely l.waits.length (l.now + span) log := by
  have hbegin : l'.waits[l.waits.length]? = some (.looking (some (l.now + span))) := by
    obtain rfl := Option.some.inj h
    rw [← begin_eq_looking hclock]
    exact List.getElem?_concat_length
  refine .of_inTime (LatchWait.InTime.course (fun l => l.count == 0) Latch.now ?_ hcourse hbegin)
  intro l a l' w hstep hw
  exact (Turns.of_step hstep).of_getElem? hw

end Latch

/-! ### Keepers -/

variable {b : Backend} {k k' : Keeper} {i deadline : Nat} {phase phase' : CallPhase} {w : LatchWait}
  {log : List WaitNote}

namespace CallPhase

/-- **A call that waits until a deadline**, as a wait. -/
def wait? : CallPhase → Option LatchWait
  | .looking (.idleUntil deadline) _ => some (.looking (some deadline))
  | .asleep (.idleUntil deadline) => some (.asleep (some deadline))
  | .returned (.idle z) => some (.returned z)
  | .returned .broken => some .broken
  | _ => none

/-- **What a call is whose wait is known.** -/
theorem cases_of_wait? (hw : phase.wait? = some w) :
    (∃ deadline again, phase = .looking (.idleUntil deadline) again ∧ w = .looking (some deadline)) ∨
      (∃ deadline, phase = .asleep (.idleUntil deadline) ∧ w = .asleep (some deadline)) ∨
        ∃ answer, phase = .returned answer ∧ (w = .broken ∨ ∃ z, w = .returned z) := by
  -- of all phases only three are those of such a wait
  cases phase with
  | looking p again =>
    cases p with
    | idleUntil deadline => exact .inl ⟨deadline, again, rfl, (Option.some.inj hw).symm⟩
    | _ => cases hw
  | asleep p =>
    cases p with
    | idleUntil deadline => exact .inr (.inl ⟨deadline, rfl, (Option.some.inj hw).symm⟩)
    | _ => cases hw
  | returned answer =>
    right
    right
    cases answer with
    | idle z => exact ⟨_, rfl, .inr ⟨z, (Option.some.inj hw).symm⟩⟩
    | broken => exact ⟨_, rfl, .inl (Option.some.inj hw).symm⟩
    | _ => cases hw
  | _ => cases hw

/-- Whatever turn the call takes, its wait makes one of the moves. -/
theorem Turns.wait? (hturns : phase.Turns b k i k' phase') (hw : phase.wait? = some w)
    (hdue : ∀ deadline answer, phase = .asleep (.idleUntil deadline) → phase' = .returned answer → deadline ≤ k.now) :
    ∃ w', phase'.wait? = some w' ∧ w.Moves k.idle k.now w' := by
  cases hturns with
  | stayed => exact ⟨w, hw, .stayed⟩
  | woken =>
    -- to be woken from such a wait is to look again
    cases phase with
    | asleep p =>
      cases p with
      | idleUntil deadline =>
        cases hw
        exact ⟨_, rfl, .woken⟩
      | _ => cases hw
    | _ => exact ⟨w, hw, .stayed⟩
  -- of its own acts it falls asleep or sees that nothing runs
  | advanced hadv hk =>
    cases hadv with
    | @slept p again hbusy hopen =>
      cases p with
      | idleUntil deadline =>
        cases hw
        exact ⟨_, rfl, .slept hbusy⟩
      | _ => cases hw
    | sawIdleInTime hidle =>
      cases hw
      exact ⟨_, rfl, .saw hidle⟩
    | _ => cases hw
  | itemMoved hrun => cases hw
  | expired =>
    cases hw
    exact ⟨_, rfl, .expired (hdue _ _ rfl rfl)⟩

end CallPhase

namespace Keeper

/-- In an act of another call, a call may be woken but does not come back. -/
theorem eq_of_back {j : Nat} {c : Call} {k₁ : Keeper} {answer : Answer} (hc : k.calls[j]? = some c)
    (hcalls : k₁.calls = k.calls ∨ k₁.calls = k.rouseAll.calls) (hphase : k.phase? i = some phase)
    (hwaits : ∀ answer, phase ≠ .returned answer)
    (hback : (k₁.setPhase j phase').phase? i = some (.returned answer)) : i = j := by
  by_contra hij
  rcases (phase?_setPhase hc hcalls).2 i hij with hsame | hroused
  · rw [hsame, hphase] at hback
    exact hwaits answer (Option.some.inj hback)
  · rw [hroused, hphase] at hback
    cases phase with
    | returned answer' => exact hwaits answer' rfl
    | _ => cases hback

/-- **A call that comes back** does so in an act of its own, which changes nothing else, and from sleep only once the
deadline has passed. -/
theorem eq_of_returned {a : KeeperAct} {answer : Answer} (hstep : k.step b a = some k')
    (hphase : k.phase? i = some phase) (hw : phase.wait? = some w) (hwaits : ∀ answer, phase ≠ .returned answer)
    (hreturned : k'.phase? i = some (.returned answer)) :
    k' = k.setPhase i (.returned (.idle k.idle)) ∧
      ∀ deadline, phase = .asleep (.idleUntil deadline) → deadline ≤ k.now := by
  have hlt := lt_of_phase? hphase
  have hquiet : k'.phase? i ≠ k.phase? i := by
    rw [hreturned, hphase]
    exact fun h => hwaits answer (Option.some.inj h).symm
  -- the act has to be one of the call itself, as others leave it where it is or have it look again
  cases Happens.of_step hstep with
  | moved hc hadv =>
    obtain rfl := eq_of_back hc hadv.passes.calls hphase hwaits hreturned
    rw [phase?_moved hc hadv] at hreturned
    obtain rfl := Option.some.inj hreturned
    rw [phase?_of_getElem? hc] at hphase
    rw [Option.some.inj hphase] at hadv
    rcases CallPhase.cases_of_wait? hw with ⟨deadline, again, rfl, -⟩ | ⟨deadline, rfl, -⟩ | ⟨answer, rfl, -⟩
    · cases hadv with
      | sawIdleInTime hidle => exact ⟨by rw [hidle], nofun⟩
    · cases hadv
    · exact absurd rfl (hwaits answer)
  | itemMoved hc hrun =>
    -- a call that runs a rebuild does not wait
    obtain rfl := eq_of_back hc (.inl rfl) hphase hwaits hreturned
    rw [phase?_of_getElem? hc] at hphase
    obtain rfl := Option.some.inj hphase
    cases hw
  | woke hc =>
    obtain rfl := eq_of_back hc (.inl rfl) hphase hwaits hreturned
    rw [(phase?_setPhase hc (.inl rfl)).1] at hreturned
    cases hreturned
  | expired hc hdue =>
    obtain rfl := eq_of_back hc (.inl rfl) hphase hwaits hreturned
    rw [phase?_of_getElem? hc] at hphase
    obtain rfl := Option.some.inj hphase
    refine ⟨rfl, fun deadline' h => ?_⟩
    cases h
    exact hdue
  -- a new call has another number
  | began r =>
    rw [phase?_addCall rfl, if_neg (Nat.ne_of_lt hlt)] at hquiet
    exact absurd rfl hquiet
  | fired htick hlook hfiring =>
    rw [phase?_addCall rfl, if_neg (Nat.ne_of_lt hlt)] at hquiet
    exact absurd rfl hquiet
  | _ => exact absurd rfl hquiet

/-- What a call waits for until a deadline. -/
def wait? (k : Keeper) (i : Nat) : Option LatchWait := (k.phase? i).bind CallPhase.wait?

/-- What is noted of one call that waits until a deadline. -/
def waited (i : Nat) (k : Keeper) (_ : KeeperAct × Backend) (k' : Keeper) : List WaitNote :=
  WaitNote.of (k.wait? i) (k'.wait? i)

/-- Whatever is done, the wait of a call makes one of the moves. -/
theorem wait?_of_step {a : KeeperAct} (hstep : k.step b a = some k') (hw : k.wait? i = some w) :
    ∃ w', k'.wait? i = some w' ∧ w.Moves k.idle k.now w' := by
  obtain ⟨phase, hphase, hwait⟩ := Option.bind_eq_some_iff.1 hw
  obtain ⟨phase', hphase', hturns⟩ := (Turns.of_step hstep).of_phase? hphase
  have hdue : ∀ deadline answer, phase = .asleep (.idleUntil deadline) → phase' = .returned answer →
      deadline ≤ k.now := by
    rintro deadline answer rfl rfl
    exact (eq_of_returned hstep hphase hwait nofun hphase').2 deadline rfl
  obtain ⟨w', hw', hmoves⟩ := hturns.wait? hwait hdue
  exact ⟨w', Option.bind_eq_some_iff.2 ⟨phase', hphase', hw'⟩, hmoves⟩

/-- **A call that waits until a deadline** for that no rebuild is running. -/
structure Timely (i deadline : Nat) (log : List WaitNote) (k : Keeper) : Prop where
  /-- The call goes on or is over. It has not broken off, and all turns but two are owed to being woken. -/
  wait : ∃ w, k.wait? i = some w ∧ w.InTime deadline log
  /-- A call that looks has a turn at once. -/
  looks : ∀ b, k.wait? i = some (.looking (some deadline)) → ∃ k', k.step b (.move i) = some k'
  /-- A call that sleeps comes back once the deadline has passed. -/
  expires : ∀ b, k.wait? i = some (.asleep (some deadline)) → deadline ≤ k.now →
    ∃ k' z, k.step b (.expire i) = some k' ∧ k'.phase? i = some (.returned (.idle z))
  /-- A call that comes back is told whether no rebuild is running then, and does not come back before the deadline
  unless none is. -/
  told : ∀ b a k' answer, k.step b a = some k' → (∀ answer', k.phase? i ≠ some (.returned answer')) →
    k'.phase? i = some (.returned answer) →
    ∃ z, answer = .idle z ∧ (z = true ↔ ∀ j, ¬ k'.Rebuilding j) ∧ (z = false → deadline ≤ k'.now)

/-- A wait that is in time so far is timely, as the keeper is idle exactly if no rebuild is running. -/
theorem Timely.of_inTime (h : ∃ w, k.wait? i = some w ∧ w.InTime deadline log)
    (hidle : ∀ b a k', k.step b a = some k' → (k'.idle = true ↔ ∀ j, ¬ k'.Rebuilding j)) :
    k.Timely i deadline log where
  wait := h
  looks b hlooking := by
    -- the call looks for idleness, so this is what it can do next
    obtain ⟨phase, hphase, hwait⟩ := Option.bind_eq_some_iff.1 hlooking
    obtain ⟨c, hc, rfl⟩ := Option.map_eq_some_iff.1 hphase
    rcases CallPhase.cases_of_wait? hwait with ⟨d, again, hlook, -⟩ | ⟨d, -, h⟩ | ⟨answer, -, h | ⟨z, h⟩⟩
    · unfold step
      simp only [hc, Option.bind_some, moveCall, hlook]
      exact ⟨_, rfl⟩
    all_goals cases h
  expires b hasleep hdue := by
    -- it sleeps until its deadline, which is due
    obtain ⟨phase, hphase, hwait⟩ := Option.bind_eq_some_iff.1 hasleep
    obtain ⟨c, hc, rfl⟩ := Option.map_eq_some_iff.1 hphase
    rcases CallPhase.cases_of_wait? hwait with ⟨d, again, -, h⟩ | ⟨d, hsleep, h⟩ | ⟨answer, -, h | ⟨z, h⟩⟩
    case inr.inl =>
      cases h
      obtain ⟨phase, onTimer⟩ := c
      obtain rfl : phase = _ := hsleep
      refine ⟨_, k.idle, ?_, (phase?_setPhase hc (.inl rfl)).1⟩
      unfold step
      simp only [hc, if_pos hdue]
    all_goals cases h
  told b a k' answer hstep hwaits hreturned := by
    -- the act that brings it back is one of its own, and it takes its answer from the keeper
    obtain ⟨w, hw, htime⟩ := h
    obtain ⟨phase, hphase, hwait⟩ := Option.bind_eq_some_iff.1 hw
    have hphase' : ∀ answer', phase ≠ .returned answer' := fun answer' h => hwaits answer' (h ▸ hphase)
    have hw' : ∀ z, w ≠ .returned z := by
      rintro z rfl
      rcases CallPhase.cases_of_wait? hwait with ⟨d, again, -, h⟩ | ⟨d, -, h⟩ | ⟨answer', h, -⟩
      · cases h
      · cases h
      · exact hphase' answer' h
    obtain ⟨rfl, -⟩ := eq_of_returned hstep hphase hwait hphase' hreturned
    obtain ⟨c, hc, -⟩ := Option.map_eq_some_iff.1 hphase
    have hback : (k.setPhase i (.returned (.idle k.idle))).phase? i = some (.returned (.idle k.idle)) :=
      (phase?_setPhase hc (.inl rfl)).1
    obtain ⟨v, hv, hmoves⟩ := wait?_of_step hstep hw
    rw [Keeper.wait?, hback] at hv
    obtain rfl := Option.some.inj hv
    rw [hback] at hreturned
    cases hreturned
    exact ⟨k.idle, rfl, hidle b a _ hstep, (htime.told hmoves hw').2⟩

/-- The books are kept in every course, whatever is noted of it. -/
theorem exists_ledger {ε : Type} {note : Keeper → KeeperAct × Backend → Keeper → List ε} {notes : List ε}
    (h : Course act note k notes k') (hledger : ∃ books, Ledger k books) : ∃ books, Ledger k' books := by
  induction h with
  | start => exact hledger
  | act before hstep ih =>
    obtain ⟨books, hbooks⟩ := ih
    exact ⟨_, hbooks.step hstep⟩

/-- **A call that comes to wait for a span of time.** -/
theorem Reaches.timely {steps : List Step} {interval span : Nat} {world : World} {requests : List Request}
    {k₁ : Keeper} (h : (create steps interval world).Reaches requests k) (hclock : k.now + span < Clock.horizon)
    (hstep : k.step b (.begin (.waitIdleFor span)) = some k₁)
    (hcourse : Course act (waited k.calls.length) k₁ log k') : k'.Timely k.calls.length (k.now + span) log := by
  -- the call begins by looking, with its deadline before it
  have hbegin : k₁.wait? k.calls.length = some (.looking (some (k.now + span))) := by
    obtain rfl := Option.some.inj hstep
    rw [wait?, phase?_addCall rfl, if_pos rfl, Request.phase, Clock.after?_eq_some hclock]
    rfl
  have hledger : ∃ books, Ledger k' books := by
    obtain ⟨books, hbooks⟩ := exists_ledger h ⟨[], .create steps interval world⟩
    exact exists_ledger hcourse ⟨_, hbooks.step hstep⟩
  refine .of_inTime (LatchWait.InTime.course idle now ?_ hcourse hbegin) ?_
  · intro k m k' w hstep hw
    exact wait?_of_step hstep hw
  · intro b a k'' hstep
    obtain ⟨books, hbooks⟩ := hledger
    exact (hbooks.step hstep).idle_iff

end Keeper

/-! ### Beyond the clock -/

/-- An instant beyond the clock cannot be shown. -/
theorem Clock.after?_eq_none {now span : Nat} (h : horizon ≤ now + span) : after? now span = none :=
  if_neg (Nat.not_lt.2 h)

/-- The deadline is added up before the thread looks at the count. -/
theorem Latch.begin_eq_broken {l : Latch} {span : Nat} (h : Clock.horizon ≤ l.now + span) :
    l.begin (some span) = .broken := by
  unfold begin
  simp only [Clock.after?_eq_none h]

/-- And so it is before the call looks whether a rebuild is running. -/
theorem Request.phase_eq_broken {now span : Nat} (h : Clock.horizon ≤ now + span) :
    (waitIdleFor span).phase now = .returned .broken := by
  unfold phase
  simp only [Clock.after?_eq_none h]

/-! ### Both -/

/-- **Waiting for a span of time.** Whoever comes to a latch, whatever its count, or to a keeper, whatever it is doing,
waits until the deadline at most, and is told how things are on coming back. This is so if the clock can show the
deadline, and otherwise the call breaks off. -/
theorem waits_in_time (span : Nat) :
    (∀ l : Latch, ∃ l₁, l.step (.arrive (some span)) = some l₁ ∧
      (l.now + span < Clock.horizon → ∀ log l', Course Latch.step (Latch.noted l.waits.length) l₁ log l' →
        l'.Timely l.waits.length (l.now + span) log) ∧
      (Clock.horizon ≤ l.now + span → l₁.waits[l.waits.length]? = some .broken)) ∧
    ∀ steps interval world requests k b, (Keeper.create steps interval world).Reaches requests k →
      ∃ k₁, k.step b (.begin (.waitIdleFor span)) = some k₁ ∧
        (k.now + span < Clock.horizon → ∀ log k', Course Keeper.act (Keeper.waited k.calls.length) k₁ log k' →
          k'.Timely k.calls.length (k.now + span) log) ∧
        (Clock.horizon ≤ k.now + span → k₁.phase? k.calls.length = some (.returned .broken)) := by
  constructor
  · intro l
    refine ⟨_, rfl, fun hclock log l' hcourse => Latch.timely hclock rfl hcourse, fun hbeyond => ?_⟩
    rw [← Latch.begin_eq_broken hbeyond]
    exact List.getElem?_concat_length
  · intro steps interval world requests k b h
    refine ⟨_, rfl, fun hclock log k' hcourse => h.timely (b := b) hclock rfl hcourse, fun hbeyond => ?_⟩
    rw [Keeper.phase?_addCall rfl, if_pos rfl, Request.phase_eq_broken hbeyond]

/-- One waits for a latch. The deadline passes before the count is zero. -/
def lateActs : List LatchAct := [.look 0, .wake 0, .look 0, .pass 5, .expire 0, .countDown]

/-- A call runs a rebuild. -/
def busyCourse : List (KeeperAct × Backend) :=
  [.begin (.trigger .coalesce), .move 0].map (·, World.initial.archive.backend)

/-- Another one waits for its end. The rebuild ends just before the clock wakes the one who waits, which has not been
woken by anybody else. -/
def racedCourse : List (KeeperAct × Backend) :=
  let acts : List KeeperAct := [.move 1, .pass 5] ++ List.replicate 6 (.move 0) ++ [.expire 1]
  acts.map (·, World.initial.archive.backend)

/-- The first one is told that the count was not zero, and the second one that no rebuild is running. -/
theorem waits_in_time_raced :
    (∃ l₁ log l, (Latch.create 1).step (.arrive (some 5)) = some l₁ ∧ Course Latch.step (Latch.noted 0) l₁ log l ∧
      l.count = 0 ∧ l.waits[0]? = some (.returned false) ∧ l.Timely 0 5 log) ∧
    ∃ requests k k₁ log k', (Keeper.create [] (seconds 3600) World.initial).Reaches requests k ∧ k.idle = false ∧
      k.step World.initial.archive.backend (.begin (.waitIdleFor 5)) = some k₁ ∧
      Course Keeper.act (Keeper.waited 1) k₁ log k' ∧ k'.phase? 1 = some (.returned (.idle true)) ∧
      k'.Timely 1 5 log := by
  constructor
  · obtain ⟨l₁, hl₁, htimely, -⟩ := (waits_in_time 5).1 (Latch.create 1)
    obtain rfl := Option.some.inj hl₁
    obtain ⟨log, l, hl, hzero, hreturned⟩ : ∃ log l,
        carryOut Latch.step (Latch.noted 0) lateActs ([], ⟨1, [.looking (some 5)], 0⟩) = some (log, l) ∧
        l.count = 0 ∧ l.waits[0]? = some (.returned false) :=
      ⟨_, _, rfl, rfl, rfl⟩
    have hcourse := Course.of_carryOut lateActs .start hl
    exact ⟨_, log, l, hl₁, hcourse, hzero, hreturned, htimely (by decide) log l hcourse⟩
  · obtain ⟨requests, k, k₁, log, k', hk, hnow, hlength, hbusy, hk₁, hk', hreturned⟩ : ∃ requests k k₁ log k',
        carryOut Keeper.act Keeper.asked busyCourse ([], Keeper.create [] (seconds 3600) World.initial) =
          some (requests, k) ∧ k.now = 0 ∧ k.calls.length = 1 ∧ k.idle = false ∧
        k.step World.initial.archive.backend (.begin (.waitIdleFor 5)) = some k₁ ∧
        carryOut Keeper.act (Keeper.waited 1) racedCourse ([], k₁) = some (log, k') ∧
        k'.phase? 1 = some (.returned (.idle true)) :=
      ⟨_, _, _, _, _, rfl, rfl, rfl, rfl, rfl, rfl, rfl⟩
    have h := Course.of_carryOut busyCourse .start hk
    have hcourse := Course.of_carryOut racedCourse .start hk'
    obtain ⟨k₂, hk₂, htimely, -⟩ := (waits_in_time 5).2 _ _ _ requests k World.initial.archive.backend h
    obtain rfl := Option.some.inj (hk₁.symm.trans hk₂)
    rw [hlength, hnow] at htimely
    exact ⟨requests, k, k₁, log, k', h, hbusy, hk₁, hcourse, hreturned, htimely (by decide) log k' hcourse⟩

/-- **A wait that breaks off**, with nothing to wait for: the count is zero, and no rebuild is running. -/
theorem wait_breaks_off :
    (∃ l, (Latch.create 0).step (.arrive (some (seconds 18446744073709551615))) = some l ∧ l.count = 0 ∧
      l.waits[0]? = some .broken) ∧
    ∃ k, (Keeper.create [] (seconds 3600) World.initial).step World.initial.archive.backend
        (.begin (.waitIdleFor (seconds 18446744073709551615))) = some k ∧ k.idle = true ∧
      k.phase? 0 = some (.returned .broken) := by
  have hbeyond : Clock.horizon ≤ 0 + seconds 18446744073709551615 := by decide
  constructor
  · refine ⟨_, rfl, rfl, ?_⟩
    show some ((Latch.create 0).begin _) = _
    rw [Latch.begin_eq_broken hbeyond]
  · refine ⟨_, rfl, rfl, ?_⟩
    rw [Keeper.phase?_addCall rfl]
    exact congrArg some (Request.phase_eq_broken hbeyond)

end SensorCatalog
