import SensorCatalog.Proofs.Keeper.Requests
import SensorCatalog.Proofs.Waiting.Latch

/-!
# No wake-up is lost

Nobody sleeps for longer than there is something to wait for. At a latch this is plain, because whoever counts down to
zero wakes the others in the same act, and whoever looks later does not fall asleep (`Latch.Watchful`).

At a keeper the end of a rebuild and the waking are two acts, and others come in between. The next rebuild may begin
there, and it may even be over before those who sleep are woken for the first one. What always holds is that somebody
is still going to wake them, as long as no rebuild is running: there is a call which has recorded its rebuild, and has
its waking to do (`CallPhase.OwesWaking`). An act that ends a rebuild makes such a call (`Keeper.owes_of_ended`),
nobody falls asleep while no rebuild is running (`CallPhase.Turns.asleep_before`), and a call keeps what it owes until
nobody sleeps any more (`CallPhase.OwesWaking.turns`). So the invariant is carried over each act, whatever the order.
-/

namespace SensorCatalog

/-! ### Latches -/

namespace Latch

variable {count : Nat} {acts : List LatchAct} {l l' : Latch} {a : LatchAct} {w : LatchWait}

/-- Nobody sleeps once the count is zero. -/
def Watchful (l : Latch) : Prop := l.count = 0 → ∀ w ∈ l.waits, ∀ deadline, w ≠ .asleep deadline

/-- Nobody begins with sleep. -/
theorem begin_ne_asleep (span deadline : Option Nat) : l.begin span ≠ .asleep deadline := by
  unfold begin
  split
  · nofun
  · split <;> nofun

/-- Nobody sleeps on after being woken. -/
theorem rouse_ne_asleep (w : LatchWait) (deadline : Option Nat) : rouse w ≠ .asleep deadline := by
  cases w <;> nofun

/-- One of those who wait does not fall asleep. -/
theorem Watchful.put (h : l.Watchful) {i : Nat} (hw : ∀ deadline, w ≠ .asleep deadline) : (l.put i w).Watchful := by
  intro hzero v hv
  rcases List.mem_or_eq_of_mem_set hv with hv | rfl
  · exact h hzero v hv
  · exact hw

/-- Nobody sleeps while the count is zero, whatever is done. -/
theorem Watchful.step (h : l.Watchful) (hstep : l.step a = some l') : l'.Watchful := by
  cases Happens.of_step hstep with
  | countedNothing hzero => exact h
  -- the last count wakes all who sleep
  | letGo hlast =>
    intro hzero w hw
    obtain ⟨v, -, rfl⟩ := List.mem_map.1 hw
    exact rouse_ne_asleep v
  | counted hmore =>
    intro hzero
    have hlast : l.count - 1 = 0 := hzero
    omega
  -- who comes now looks before it sleeps, and finds the count at zero
  | came span =>
    intro hzero w hw
    rcases List.mem_append.1 hw with hw | hw
    · exact h hzero w hw
    · obtain rfl := List.mem_singleton.1 hw
      exact begin_ne_asleep span
  | saw hw hzero => exact h.put nofun
  | slept hw hpos => exact fun hzero => absurd hzero hpos
  | woke hw => exact h.put nofun
  | expired hw hdue => exact h.put nofun
  | passed span => exact h

/-- **A wait without a deadline** goes on, or the count is zero. -/
def Patient (l : Latch) (w : LatchWait) : Prop :=
  w = .looking none ∨ w = .asleep none ∨ w = .returned true ∧ l.count = 0

/-- A wait without a deadline stays patient. -/
theorem Patient.moves {w' : LatchWait} (h : l.Patient w) (hmoves : w.Moves (l.count == 0) l.now w')
    (hcount : l.count = 0 → l'.count = 0) : l'.Patient w' := by
  cases hmoves with
  | stayed => exact h.imp_right (.imp_right (.imp_right hcount))
  | woken =>
    rcases h with h | h | ⟨h, -⟩ <;> cases h
    exact .inl rfl
  | slept hcome =>
    rcases h with h | h | ⟨h, -⟩ <;> cases h
    exact .inr (.inl rfl)
  | saw hcome => exact .inr (.inr ⟨rfl, hcount (beq_iff_eq.1 hcome)⟩)
  | expired hdue => rcases h with h | h | ⟨h, -⟩ <;> cases h

/-- **What holds of a latch at any time.** -/
structure Attends (count : Nat) (acts : List LatchAct) (l : Latch) : Prop where
  /-- The count is what those who count down have left of it, and never less than nothing. -/
  count_eq : l.count = count - acts.count .countDown
  /-- Nobody sleeps once it is zero. -/
  awake : l.count = 0 → ∀ w ∈ l.waits, ∀ deadline, w ≠ .asleep deadline
  /-- Whoever came to wait without a deadline still waits, or is back and the count is zero. -/
  patient : ∀ i : Nat, (LatchAct.spans acts)[i]? = some none → ∃ w, l.waits[i]? = some w ∧ l.Patient w

/-- In every course all waits are attended to. -/
theorem Reaches.attends (h : (create count).Reaches acts l) : l.Attends count acts := by
  -- over the course; the count never goes up, so who has seen zero has seen it for good
  induction h with
  | start => exact ⟨rfl, nofun, nofun⟩
  | @act acts l l' a before hstep ih =>
    have hcount := count_of_step hstep
    have hwatchful : l'.Watchful := Watchful.step ih.awake hstep
    have hlength := Reaches.length_eq before
    refine ⟨Reaches.count_eq (before.act hstep), hwatchful, fun i hi => ?_⟩
    rw [LatchAct.spans_append] at hi
    have hturns := Turns.of_step hstep
    by_cases hlt : i < l.waits.length
    · rw [List.getElem?_append_left (hlength ▸ hlt)] at hi
      obtain ⟨w, hw, hpatient⟩ := ih.patient i hi
      obtain ⟨w', hw', hmoves⟩ := hturns.of_getElem? hw
      exact ⟨w', hw', hpatient.moves hmoves fun hzero => by rw [hcount, hzero, Nat.zero_sub]⟩
    · -- the wait begins in this very act
      have hi' : i < l'.waits.length := by
        obtain ⟨hi', -⟩ := List.getElem?_eq_some_iff.1 hi
        rw [hturns.length, hlength, ← List.length_append]
        exact hi'
      have hw' := List.getElem?_eq_getElem hi'
      rcases hturns.waits i _ hw' with ⟨w, hw, -⟩ | ⟨rfl, span, hspan, hbegin⟩
      · exact absurd (List.getElem?_eq_some_iff.1 hw).1 hlt
      · rw [hspan, hlength, List.getElem?_concat_length] at hi
        cases hi
        exact ⟨_, hw', .inl hbegin⟩

end Latch

/-! ### Keepers -/

variable {b : Backend} {k k' : Keeper} {i : Nat} {phase phase' : CallPhase} {a : KeeperAct}

namespace Keeper

/-- Whoever wakes all others does not fall asleep with that. -/
theorem not_asleep_of_rouseAll (hphase : ∀ p, phase ≠ .asleep p) (j : Nat) (p : Purpose) :
    (k.rouseAll.setPhase i phase).phase? j ≠ some (.asleep p) := by
  -- a sleeper that is woken looks again
  have hrouse : ∀ q : CallPhase, q.rouse ≠ .asleep p := by
    intro q
    cases q <;> nofun
  intro hasleep
  rw [phase?, setPhase, List.getElem?_modify, rouseAll, List.getElem?_map] at hasleep
  cases hc : k.calls[j]? with
  | none =>
    rw [hc] at hasleep
    cases hasleep
  | some c =>
    rw [hc] at hasleep
    have hphase' : (if i = j then ⟨phase, c.onTimer⟩ else ⟨c.phase.rouse, c.onTimer⟩ : Call).phase = .asleep p :=
      Option.some.inj hasleep
    by_cases hij : i = j
    · rw [if_pos hij] at hphase'
      exact hphase p hphase'
    · rw [if_neg hij] at hphase'
      exact hrouse c.phase hphase'

end Keeper

namespace CallPhase

/-- **A call that has to wake those who sleep**: it has recorded its rebuild, so another one may begin. -/
def OwesWaking : CallPhase → Prop
  | .announcing _ a => ∃ result, a = Keeper.answerOf result
  | _ => False

/-- **A call that waits, however long it takes**, for that no rebuild is running. A call that wants a rebuild and comes
when none is running does not wait. -/
def Waits : CallPhase → Prop
  | .looking p again => (∀ deadline, p ≠ .idleUntil deadline) ∧ ∀ mode, p = .trigger mode → again = true
  | .asleep p => ∀ deadline, p ≠ .idleUntil deadline
  | _ => False

/-- Nobody falls asleep while no rebuild is running. -/
theorem Turns.asleep_before {p : Purpose} (hturns : phase.Turns b k i k' (.asleep p)) (hidle : k'.idle = true) :
    phase = .asleep p := by
  generalize hphase : CallPhase.asleep p = phase' at hturns
  cases hturns with
  | stayed => rfl
  | woken => cases phase <;> cases hphase
  | advanced hadv hk =>
    subst hk
    cases hadv with
    | slept hbusy hopen =>
      rw [show k.idle = true from hidle] at hbusy
      cases hbusy
    | @timed use | @turnedDown s rest use t f hperform => cases use <;> cases hphase
    | _ => cases hphase
  | itemMoved hrun => cases hphase
  | expired => cases hphase

/-- Nobody begins with sleep. -/
theorem request_ne_asleep (r : Request) (now : Nat) (p : Purpose) : r.phase now ≠ .asleep p := by
  intro hasleep
  cases r with
  | setMinutes minutes =>
    rw [Request.phase] at hasleep
    split at hasleep <;> cases hasleep
  | waitIdleFor span =>
    rw [Request.phase] at hasleep
    split at hasleep <;> cases hasleep
  | _ => cases hasleep

/-- Only a rebuild that is over makes the keeper idle. -/
theorem Advance.owesWaking {onTimer : Bool} {k₁ : Keeper} (hadv : phase.Advance b k onTimer phase' k₁)
    (hbusy : k.idle = false) (hidle : k₁.idle = true) : phase'.OwesWaking := by
  cases hadv with
  | @recorded result => exact ⟨result, rfl⟩
  | begun => cases hidle
  | _ => exact absurd (hbusy.symm.trans hidle) nofun

/-- **What a call owes it keeps on owing**, until nobody sleeps any more. -/
theorem OwesWaking.turns (h : phase.OwesWaking) (hturns : phase.Turns b k i k' phase') :
    phase'.OwesWaking ∨ ∀ j p, k'.phase? j ≠ some (.asleep p) := by
  cases phase with
  | announcing rearm a =>
    cases hturns with
    | stayed => exact .inl h
    | woken => exact .inl h
    | advanced hadv hk =>
      right
      subst hk
      cases hadv with
      | announced => exact Keeper.not_asleep_of_rouseAll nofun
      | rearmed => exact Keeper.not_asleep_of_rouseAll nofun
  | _ => cases h

/-- Whoever waits goes on waiting, or no rebuild is running. -/
theorem Waits.turns (h : phase.Waits) (hturns : phase.Turns b k i k' phase') : phase'.Waits ∨ k.idle = true := by
  cases hturns with
  | stayed => exact .inl h
  | woken =>
    left
    cases phase with
    | asleep p => exact ⟨h, fun _ _ => rfl⟩
    -- an answer would mean that it found the keeper idle, or waited for nothing
    | _ => exact h
  | advanced hadv hk =>
    cases hadv with
    | @refused mode again hclosing hagain => exact .inr (hagain (h.2 mode rfl)).1
    | slept hbusy hopen => exact .inl h.1
    | begun hopen hidle hagain => exact .inr hidle
    | coalesced hidle => exact .inr hidle
    | sawIdle hidle => exact .inr hidle
    | sawIdleInTime hidle => exact .inr hidle
    | closed hidle => exact .inr hidle
    | _ => cases h
  | itemMoved hrun => cases h
  | expired => exact absurd rfl (h _)

/-- A call that only waits for the end of a rebuild does nothing else. -/
theorem Serves.cases_waitIdle (h : phase.Serves .waitIdle) :
    (∃ again, phase = .looking .idle again) ∨ phase = .asleep .idle ∨ ∃ a, phase = .returned a := by
  -- it has but one thing to wait for, and it wants no rebuild
  have hpurpose : ∀ p : Purpose, p.Serves .waitIdle → p = .idle := by
    intro p hp
    cases p with
    | idle => rfl
    | idleUntil deadline => obtain ⟨span, hspan⟩ := hp; cases hspan
    | _ => cases hp
  have htrigger : ¬ Request.waitIdle.IsTrigger := by
    rintro ⟨mode, hmode⟩
    cases hmode
  cases phase with
  | looking p again =>
    obtain rfl := hpurpose p h
    exact .inl ⟨again, rfl⟩
  | asleep p =>
    obtain rfl := hpurpose p h
    exact .inr (.inl rfl)
  | returned a => exact .inr (.inr ⟨a, rfl⟩)
  | running r => exact absurd h htrigger
  | recording result => exact absurd h htrigger
  | announcing rearm a =>
    rcases h with ⟨h, -⟩ | ⟨h, -⟩
    · exact absurd h htrigger
    · cases h
  | timing sections use =>
    cases use with
    | rearm a => exact absurd h htrigger
    | adjust => rcases h with ⟨n, h⟩ | ⟨n, h⟩ <;> cases h
    | _ => cases h
  | _ => cases h

/-- It comes back when no rebuild is running. -/
theorem Serves.told_waitIdle (h : phase.Serves .waitIdle) (hwaits : ∀ a, phase ≠ .returned a) {answer : Answer}
    (hturns : phase.Turns b k i k' (.returned answer)) : k.idle = true ∧ answer = .done := by
  rcases h.cases_waitIdle with ⟨again, rfl⟩ | rfl | ⟨a, rfl⟩
  · cases hturns with
    | advanced hadv hk =>
      cases hadv with
      | sawIdle hidle => exact ⟨hidle, rfl⟩
  · cases hturns with
    | advanced hadv hk => cases hadv
  · exact absurd rfl (hwaits a)

end CallPhase

namespace Keeper

variable {log : List Request} {steps : List Step} {interval : Nat} {world : World}

/-- Whoever sleeps while no rebuild is running is going to be woken. -/
def Watchful (k : Keeper) : Prop :=
  k.idle = true → ∀ i p, k.phase? i = some (.asleep p) → ∃ j phase, k.phase? j = some phase ∧ phase.OwesWaking

/-- When the keeper becomes idle, some call owes it to the others to wake them. -/
theorem owes_of_ended (hstep : k.step b a = some k') (hbusy : k.idle = false) (hidle : k'.idle = true) :
    ∃ i phase, k'.phase? i = some phase ∧ phase.OwesWaking := by
  cases Happens.of_step hstep with
  | moved hc hadv => exact ⟨_, _, phase?_moved hc hadv, hadv.owesWaking hbusy hidle⟩
  | _ => exact absurd (hbusy.symm.trans hidle) nofun

/-- Each act leaves somebody who will wake those who sleep. -/
theorem Watchful.step (h : k.Watchful) (hstep : k.step b a = some k') : k'.Watchful := by
  intro hidle i p hasleep
  have hturns := Turns.of_step hstep
  cases hbusy : k.idle with
  | false => exact owes_of_ended hstep hbusy hidle
  | true =>
    -- whoever sleeps now slept before, and whoever was going to wake it still is
    have hbefore : k.phase? i = some (.asleep p) := by
      rcases hturns.phases i _ hasleep with ⟨phase, hphase, hturn⟩ | ⟨-, r, -, hr⟩
      · rw [hphase, hturn.asleep_before hidle]
      · exact absurd hr.symm (CallPhase.request_ne_asleep r k.now p)
    obtain ⟨j, phase, hphase, howes⟩ := h hbusy i p hbefore
    obtain ⟨phase', hphase', hturn⟩ := hturns.of_phase? hphase
    rcases howes.turns hturn with howes' | hnobody
    · exact ⟨j, phase', hphase', howes'⟩
    · exact absurd hasleep (hnobody i p)

/-- In every course somebody is left who will wake those who sleep. -/
theorem Reaches.watchful (h : (create steps interval world).Reaches log k) : k.Watchful := by
  induction h with
  | start => exact fun _ i p hasleep => absurd hasleep nofun
  | act before hstep ih => exact ih.step hstep

/-- In every course the calls serve their requests. -/
theorem Reaches.serves (h : (create steps interval world).Reaches log k) : k.Serves log := by
  induction h with
  | start => exact .create steps interval world
  | act before hstep ih => exact ih.step hstep

/-- **What holds of a keeper at any time.** -/
structure Attends (k : Keeper) (log : List Request) : Prop where
  /-- Nobody sleeps when no rebuild is running and nobody has to wake the others. -/
  awake : k.idle = true → (∀ i phase, k.phase? i = some phase → ¬ phase.OwesWaking) →
    ∀ i p, k.phase? i ≠ some (.asleep p)
  /-- Whoever waits without a deadline goes on waiting until no rebuild is running. -/
  patient : ∀ b a k' i phase phase', k.step b a = some k' → k.phase? i = some phase → k'.phase? i = some phase' →
    phase.Waits → phase'.Waits ∨ k.idle = true
  /-- Whoever came only to wait for the end of a rebuild comes back when none is running. -/
  told : ∀ b a k' i phase answer, log[i]? = some .waitIdle → k.step b a = some k' → k.phase? i = some phase →
    (∀ a, phase ≠ .returned a) → k'.phase? i = some (.returned answer) → k.idle = true ∧ answer = .done

/-- In every course those who wait are attended to. -/
theorem Reaches.attends (h : (create steps interval world).Reaches log k) : k.Attends log := by
  have hturn : ∀ {b a k' i phase phase'}, k.step b a = some k' → k.phase? i = some phase → k'.phase? i = some phase' →
      phase.Turns b k i k' phase' := by
    intro b a k' i phase phase' hstep hphase hphase'
    obtain ⟨q, hq, hturns⟩ := (Turns.of_step hstep).of_phase? hphase
    rw [hphase'] at hq
    cases hq
    exact hturns
  constructor
  -- the three parts are read off what holds after each act
  case awake =>
    intro hidle hnobody i p hasleep
    obtain ⟨j, phase, hphase, howes⟩ := h.watchful hidle i p hasleep
    exact hnobody j phase hphase howes
  case patient =>
    intro b a k' i phase phase' hstep hphase hphase' hwaits
    exact hwaits.turns (hturn hstep hphase hphase')
  case told =>
    intro b a k' i phase answer hlog hstep hphase hwaits hphase'
    obtain ⟨r, hr, hserves⟩ := h.serves.phases i phase hphase
    rw [hlog] at hr
    cases hr
    exact hserves.told_waitIdle hwaits (hturn hstep hphase hphase')

end Keeper

/-! ### Both -/

/-- **No wake-up is lost**, in whatever order the threads may move: at a latch with any count, nobody sleeps once it is
zero, and at a keeper with any steps, nobody sleeps once no rebuild is running and the waking is done. Nobody who waits
without a deadline comes back too early, and the count is what those who count down have left of it. -/
theorem no_wakeup_lost :
    (∀ count acts l, (Latch.create count).Reaches acts l → l.Attends count acts) ∧
      ∀ steps interval world log k, (Keeper.create steps interval world).Reaches log k → k.Attends log :=
  ⟨fun _ _ _ h => h.attends, fun _ _ _ _ _ h => h.attends⟩

/-- Two wait for a latch, and one of them wakes for no reason in between. -/
def wakefulActs : List LatchAct :=
  [.arrive none, .arrive (some 5), .look 0, .look 1, .countDown, .wake 0, .look 0, .countDown, .look 0]

/-- A rebuild is over. Before those who sleep are woken, the next one begins, and so they fall asleep again. They are
woken when that one is over as well. -/
def overtakenCourse : List (KeeperAct × Backend) :=
  let acts : List KeeperAct := List.flatten
    [[.begin (.trigger .coalesce), .move 0, .begin .waitIdle, .move 1, .begin (.trigger .runAfterCurrent), .move 2],
      List.replicate 6 (.move 0), [.begin (.trigger .coalesce), .move 3, .move 0, .move 1, .move 2],
      List.replicate 7 (.move 3), [.move 1]]
  acts.map (·, World.initial.archive.backend)

/-- Both have been woken, and one of them knows it. -/
theorem no_wakeup_lost_overtaken :
    (∃ acts l, (Latch.create 2).Reaches acts l ∧ l.count = 0 ∧ l.waits = [.returned true, .looking (some 5)] ∧
      l.Attends 2 acts) ∧
    ∃ log k, (Keeper.create [] (seconds 3600) World.initial).Reaches log k ∧ k.idle = true ∧
      k.phase? 1 = some (.returned .done) ∧ ∀ i p, k.phase? i ≠ some (.asleep p) := by
  constructor
  -- in the first course the waiting ends by the last count, and in the second by the end of a rebuild
  · obtain ⟨acts, l, hl, hzero, hwaits⟩ : ∃ acts l,
        carryOut Latch.step (fun _ a _ => [a]) wakefulActs ([], Latch.create 2) = some (acts, l) ∧ l.count = 0 ∧
        l.waits = [.returned true, .looking (some 5)] :=
      ⟨_, _, rfl, rfl, rfl⟩
    have h := Course.of_carryOut wakefulActs .start hl
    exact ⟨acts, l, h, hzero, hwaits, no_wakeup_lost.1 2 acts l h⟩
  · obtain ⟨log, k, hk, hidle, hdone, s₀, u₀, s₃, u₃, hphases⟩ : ∃ log k,
        carryOut Keeper.act Keeper.asked overtakenCourse ([], Keeper.create [] (seconds 3600) World.initial) =
          some (log, k) ∧ k.idle = true ∧ k.phase? 1 = some (.returned .done) ∧ ∃ s₀ u₀ s₃ u₃,
        k.calls.map (·.phase) = [.timing s₀ u₀, .returned .done, .looking (.trigger .runAfterCurrent) true,
          .timing s₃ u₃] :=
      ⟨_, _, rfl, rfl, rfl, _, _, _, _, rfl⟩
    have h := Course.of_carryOut overtakenCourse .start hk
    refine ⟨log, k, h, hidle, hdone, (no_wakeup_lost.2 _ _ _ log k h).awake hidle fun i phase hphase howes => ?_⟩
    -- nobody is left who has to wake the others
    have hmem : phase ∈ k.calls.map (·.phase) := by
      obtain ⟨c, hc, rfl⟩ := Option.map_eq_some_iff.1 hphase
      exact List.mem_map_of_mem (List.mem_of_getElem? hc)
    rw [hphases] at hmem
    simp only [List.mem_cons, List.not_mem_nil, or_false] at hmem
    rcases hmem with rfl | rfl | rfl | rfl <;> exact howes

end SensorCatalog
