import SensorCatalog.Keeper.Step
import SensorCatalog.Proofs.Course

/-!
# The acts of a keeper

`CallPhase.Advance` lists what a call can do: how it gets from one phase to the next, under which condition,
and what else of the keeper it changes. `Keeper.Happens` lists all acts, of calls and of everybody else.
Every step of a keeper is one of them (`Keeper.Happens.of_step`), so what is proved by cases on these lists
needs no look at `Keeper.step` itself.
-/

namespace SensorCatalog

open Keeper (answerOf)

namespace CallPhase

/-- **The acts of a call**, from one phase to the next. The last argument is the keeper after the act, but
for the phase of the call. -/
inductive Advance (b : Backend) (k : Keeper) (onTimer : Bool) : CallPhase → CallPhase → Keeper → Prop where
  -- a call that wants a rebuild
  | refused {mode : TriggerMode} {again : Bool} (hclosing : k.shuttingDown = true)
    (hagain : again = true → k.idle = true ∧ mode = .runAfterCurrent) :
    Advance b k onTimer (.looking (.trigger mode) again) (.returned (.refused .closing)) k
  | begun {mode : TriggerMode} {again : Bool} (hopen : k.shuttingDown = false) (hidle : k.idle = true)
    (hagain : again = true → mode = .runAfterCurrent) :
    Advance b k onTimer (.looking (.trigger mode) again)
      (.running (Run.start k.steps (!k.initialized))) { k with idle := false }
  | coalesced (hidle : k.idle = true) :
    Advance b k onTimer (.looking (.trigger .coalesce) true) (.returned .coalesced) k
  -- any call that finds a rebuild running
  | slept {p : Purpose} {again : Bool} (hidle : k.idle = false)
    (hopen : ∀ mode, p = .trigger mode → again = false → k.shuttingDown = false) :
    Advance b k onTimer (.looking p again) (.asleep p) k
  -- a call that only waits for the end of a rebuild
  | sawIdle {again : Bool} (hidle : k.idle = true) :
    Advance b k onTimer (.looking .idle again) (.returned .done) k
  | sawIdleInTime {deadline : Nat} {again : Bool} (hidle : k.idle = true) :
    Advance b k onTimer (.looking (.idleUntil deadline) again) (.returned (.idle true)) k
  | closed {again : Bool} (hidle : k.idle = true) :
    Advance b k onTimer (.looking .close again) (.announcing false .done) k
  -- a rebuild
  | ran {r r' : Run} {w : World} (h : r.step b k.world .main = some (r', w)) :
    Advance b k onTimer (.running r) (.running r') { k with world := w }
  | ended {r : Run} {result : Except Fault Report} (h : r.result? = some result) :
    Advance b k onTimer (.running r) (.recording result) k
  | recorded {result : Except Fault Report} :
    Advance b k onTimer (.recording result) (.announcing (!k.shuttingDown) (answerOf result))
      (k.record result)
  | announced {a : Answer} : Advance b k onTimer (.announcing false a) (.returned a) k.rouseAll
  | rearmed {a : Answer} :
    Advance b k onTimer (.announcing true a) (.timing TimerSection.scheduleInterval (.rearm a)) k.rouseAll
  -- the timer
  | timed {use : TimerUse} :
    Advance b k onTimer (.timing [] use) (afterTiming use (.ok ())) k
  | turnedDown {s : TimerSection} {rest : List TimerSection} {use : TimerUse} {t : Timer} {f : Fault}
    (h : k.timer.perform k.now onTimer s = some (t, .refuse f)) :
    Advance b k onTimer (.timing (s :: rest) use) (afterTiming use (.error f)) { k with timer := t }
  | proceeded {s : TimerSection} {rest more : List TimerSection} {use : TimerUse} {t : Timer}
    (h : k.timer.perform k.now onTimer s = some (t, .proceed more)) :
    Advance b k onTimer (.timing (s :: rest) use) (.timing (more ++ rest) use) { k with timer := t }
  -- starting and closing the keeper
  | unwelcome (hclosing : k.shuttingDown = true) :
    Advance b k onTimer .starting (.returned (.refused .closing)) k
  | startedBefore (hopen : k.shuttingDown = false) (hstarted : k.started = true) :
    Advance b k onTimer .starting (.returned .done) k
  | started (hopen : k.shuttingDown = false) (hstarted : k.started = false) :
    Advance b k onTimer .starting (.timing TimerSection.schedule .start) { k with started := true }
  | unstarted {f : Fault} :
    Advance b k onTimer (.unstarting f) (.returned (.refused f)) { k with started := false }
  | closedBefore (hclosing : k.shuttingDown = true) : Advance b k onTimer .closing (.returned .done) k
  | closing (hopen : k.shuttingDown = false) :
    Advance b k onTimer .closing (.timing TimerSection.cleanup .close) { k with shuttingDown := true }

end CallPhase

namespace Keeper

variable {b : Backend} {k k' : Keeper} {i : Nat} {c : Call}

/-- There are but two modes. -/
theorem mode_eq_runAfterCurrent {mode : TriggerMode} (h : ¬ mode = .coalesce) : mode = .runAfterCurrent := by
  cases mode with
  | coalesce => exact absurd rfl h
  | runAfterCurrent => rfl

/-- A look is one of these acts, whatever it finds. -/
theorem advance_of_look (p : Purpose) (again : Bool) (onTimer : Bool) :
    ∃ phase k₁, (CallPhase.looking p again).Advance b k onTimer phase k₁ ∧
      k.look i p again = k₁.setPhase i phase := by
  cases p with
  | trigger mode =>
    cases again with
    -- at the first look the keeper is asked whether it is being closed, then whether it is idle
    | false =>
      by_cases hclosing : k.shuttingDown = true
      · exact ⟨_, _, .refused hclosing (by simp), by simp [look, hclosing]⟩
      have hopen : k.shuttingDown = false := by simpa using hclosing
      by_cases hidle : k.idle = true
      · exact ⟨_, _, .begun hopen hidle (by simp), by simp [look, hopen, hidle, beginRun]⟩
      · have hbusy : k.idle = false := by simpa using hidle
        exact ⟨_, _, .slept hbusy fun _ _ _ => hopen, by simp [look, hopen, hbusy]⟩
    -- one that was woken asks the other way round, and may be content
    | true =>
      by_cases hidle : k.idle = true
      · by_cases hmode : mode = .coalesce
        · subst hmode
          exact ⟨_, _, .coalesced hidle, by simp [look, hidle]⟩
        have hafter := mode_eq_runAfterCurrent hmode
        by_cases hclosing : k.shuttingDown = true
        · exact ⟨_, _, .refused hclosing fun _ => ⟨hidle, hafter⟩, by simp [look, hidle, hmode, hclosing]⟩
        · have hopen : k.shuttingDown = false := by simpa using hclosing
          exact ⟨_, _, .begun hopen hidle fun _ => hafter,
            by simp [look, hidle, hmode, hopen, beginRun]⟩
      · have hbusy : k.idle = false := by simpa using hidle
        exact ⟨_, _, .slept hbusy (by simp), by simp [look, hbusy]⟩
  -- a call that only waits asks for idleness and nothing else
  | idle =>
    by_cases hidle : k.idle = true
    · exact ⟨_, _, .sawIdle hidle, by simp [look, hidle]⟩
    · have hbusy : k.idle = false := by simpa using hidle
      exact ⟨_, _, .slept hbusy (by simp), by simp [look, hbusy]⟩
  | idleUntil deadline =>
    by_cases hidle : k.idle = true
    · exact ⟨_, _, .sawIdleInTime hidle, by simp [look, hidle]⟩
    · have hbusy : k.idle = false := by simpa using hidle
      exact ⟨_, _, .slept hbusy (by simp), by simp [look, hbusy]⟩
  | close =>
    by_cases hidle : k.idle = true
    · exact ⟨_, _, .closed hidle, by simp [look, hidle]⟩
    · have hbusy : k.idle = false := by simpa using hidle
      exact ⟨_, _, .slept hbusy (by simp), by simp [look, hbusy]⟩

/-- What the thread of a call does in a lock section is one of these acts. -/
theorem advance_of_moveCall (h : k.moveCall b i c = some k') :
    ∃ phase k₁, c.phase.Advance b k c.onTimer phase k₁ ∧ k' = k₁.setPhase i phase := by
  unfold moveCall at h
  cases hphase : c.phase with
  | looking p again =>
    simp only [hphase, Option.some.injEq] at h
    obtain ⟨phase, k₁, hadv, hk⟩ := advance_of_look (b := b) (k := k) (i := i) p again c.onTimer
    exact ⟨phase, k₁, hadv, h.symm.trans hk⟩
  -- a sleeper does nothing until it is woken
  | asleep p => simp [hphase] at h
  | running r =>
    simp only [hphase] at h
    cases hr : r.result? with
    | some result =>
      simp only [hr, Option.some.injEq] at h
      exact ⟨_, _, .ended hr, h.symm⟩
    -- the thread of the call moves its own rebuild, the items are moved by others
    | none =>
      simp only [hr, moveRun] at h
      cases hstep : r.step b k.world .main with
      | none => simp [hstep] at h
      | some x =>
        simp only [hstep, Option.some.injEq] at h
        exact ⟨_, _, .ran hstep, h.symm⟩
  | recording result =>
    simp only [hphase, Option.some.injEq] at h
    exact ⟨_, _, .recorded, h.symm⟩
  | announcing rearm a =>
    simp only [hphase, Option.some.injEq] at h
    cases rearm with
    | true => exact ⟨_, _, .rearmed, h.symm⟩
    | false => exact ⟨_, _, .announced, h.symm⟩
  | timing sections use =>
    -- what becomes of a section is up to the timer: it may have to wait, it may succeed, or it is refused
    simp only [hphase] at h
    cases sections with
    | nil =>
      simp only [useTimer, Option.some.injEq] at h
      exact ⟨_, _, .timed, h.symm⟩
    | cons s rest =>
      simp only [useTimer] at h
      cases hperform : k.timer.perform k.now c.onTimer s with
      | none => simp [hperform] at h
      | some x =>
        obtain ⟨t, e⟩ := x
        cases e with
        | proceed more =>
          simp only [hperform, Option.some.injEq] at h
          exact ⟨_, _, .proceeded hperform, h.symm⟩
        | refuse f =>
          simp only [hperform, Option.some.injEq] at h
          exact ⟨_, _, .turnedDown hperform, h.symm⟩
  | starting =>
    -- the mark of being closed is looked at first, then that of being started
    simp only [hphase] at h
    split at h
    · rename_i hclosing
      cases h
      exact ⟨_, _, .unwelcome hclosing, rfl⟩
    rename_i hopen
    have hopen : k.shuttingDown = false := by simpa using hopen
    split at h
    · rename_i hstarted
      cases h
      exact ⟨_, _, .startedBefore hopen hstarted, rfl⟩
    · rename_i hstarted
      cases h
      exact ⟨_, _, .started hopen (by simpa using hstarted), rfl⟩
  | unstarting f =>
    simp only [hphase, Option.some.injEq] at h
    exact ⟨_, _, .unstarted, h.symm⟩
  | closing =>
    simp only [hphase] at h
    split at h
    · rename_i hclosing
      cases h
      exact ⟨_, _, .closedBefore hclosing, rfl⟩
    · rename_i hopen
      cases h
      exact ⟨_, _, .closing (by simpa using hopen), rfl⟩
  | returned a => simp [hphase] at h

/-- **What can happen.** -/
inductive Happens (b : Backend) (k : Keeper) : KeeperAct → Keeper → Prop where
  | began (r : Request) : Happens b k (.begin r) (k.addCall (r.phase k.now) false)
  | moved {i : Nat} {c : Call} {phase : CallPhase} {k₁ : Keeper} (hc : k.calls[i]? = some c)
    (h : c.phase.Advance b k c.onTimer phase k₁) : Happens b k (.move i) (k₁.setPhase i phase)
  | itemMoved {i j : Nat} {r r' : Run} {onTimer : Bool} {w : World}
    (hc : k.calls[i]? = some ⟨.running r, onTimer⟩) (h : r.step b k.world (.item j) = some (r', w)) :
    Happens b k (.item i j) ({ k with world := w }.setPhase i (.running r'))
  | woke {i : Nat} {p : Purpose} {onTimer : Bool} (hc : k.calls[i]? = some ⟨.asleep p, onTimer⟩) :
    Happens b k (.wake i) (k.setPhase i (.looking p true))
  | expired {i deadline : Nat} {onTimer : Bool}
    (hc : k.calls[i]? = some ⟨.asleep (.idleUntil deadline), onTimer⟩) (h : deadline ≤ k.now) :
    Happens b k (.expire i) (k.setPhase i (.returned (.idle k.idle)))
  | resumed {i : Nat} (htick : k.tick = some i) (hover : k.isOver i = true) :
    Happens b k .tick { k with timer := k.timer.resume, tick := none }
  | fired {t : Timer} (htick : k.tick = none) (hlook : k.timer.look k.now = some t)
    (hfiring : t.thread = .firing) :
    Happens b k .tick
      { ({ k with timer := t }.addCall (.looking (.trigger .coalesce) false) true) with
        tick := some k.calls.length }
  | looked {t : Timer} (htick : k.tick = none) (hlook : k.timer.look k.now = some t)
    (hfiring : t.thread ≠ .firing) : Happens b k .tick { k with timer := t }
  | passed (span : Nat) : Happens b k (.pass span) { k with now := k.now + span }
  | edited (e : Edit) : Happens b k (.edit e) { k with world := k.world.edit e }
  | gated (closed : Bool) :
    Happens b k (.gate closed) { k with world := { k.world with gate := { k.world.gate with closed } } }

/-- **Every step is one of these.** -/
theorem Happens.of_step {a : KeeperAct} (h : k.step b a = some k') : Happens b k a k' := by
  unfold step at h
  cases a with
  | «begin» r =>
    cases h
    exact .began r
  | move i =>
    simp only at h
    cases hc : k.calls[i]? with
    | none => simp [hc] at h
    | some c =>
      rw [hc, Option.bind_some] at h
      obtain ⟨phase, k₁, hadv, rfl⟩ := advance_of_moveCall h
      exact .moved hc hadv
  | item i j =>
    simp only at h
    -- only a call that is in the middle of a rebuild has items to move
    split at h
    · rename_i r onTimer hc
      rw [moveRun] at h
      cases hstep : r.step b k.world (.item j) with
      | none => simp [hstep] at h
      | some x =>
        simp only [hstep, Option.some.injEq] at h
        subst h
        exact .itemMoved hc hstep
    · cases h
  | wake i =>
    simp only at h
    split at h
    · rename_i p onTimer hc
      cases h
      exact .woke hc
    · cases h
  | expire i =>
    -- only a wait with a deadline that is due expires
    simp only at h
    split at h
    · rename_i deadline onTimer hc
      split at h
      · rename_i hdue
        cases h
        exact .expired hc hdue
      · cases h
    · cases h
  | tick =>
    -- a call of the timer that is out holds its thread up
    simp only [moveTimer] at h
    split at h
    · rename_i i htick
      split at h
      · rename_i hover
        cases h
        exact .resumed htick hover
      · cases h
    rename_i htick
    split at h
    · cases h
    rename_i t hlook
    split at h
    · rename_i hfiring
      cases h
      exact .fired htick hlook hfiring
    · rename_i hfiring
      cases h
      exact .looked htick hlook hfiring
  | pass span => cases h; exact .passed span
  | edit e => cases h; exact .edited e
  | gate closed => cases h; exact .gated closed

/-! ### Calls after an act -/

/-- The other calls stay in their phases. -/
theorem calls_setPhase (hc : k.calls[i]? = some c) (phase : CallPhase) :
    (k.setPhase i phase).calls = k.calls.set i { c with phase := phase } := by
  show k.calls.modify i _ = _
  rw [List.modify_eq_set_getElem?, hc]
  rfl

end Keeper

end SensorCatalog
