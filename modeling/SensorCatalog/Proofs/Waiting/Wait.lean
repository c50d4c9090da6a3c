import SensorCatalog.Latch
import SensorCatalog.Proofs.Course

/-!
# One who waits

Whoever waits looks whether what is waited for has come, falls asleep if it has not, and looks again when woken. With a
deadline, the clock may do the waking, and then the answer is given without another look. Those who wait for a latch do
this, and so do those who wait for the end of a rebuild, so what happens to one of them is said here once, for any
system of threads: `LatchWait.Moves` lists what an act of anybody can mean for a wait.

A wait could be kept from coming to its end by being woken for no reason again and again. Nothing else costs it
anything: each turn that it takes itself brings it nearer to the end (`LatchWait.rank`), and only being woken takes it
back, by one turn. `LatchWait.InTime` keeps these accounts for a wait that has a deadline, and `LatchWait.InTime.course`
carries them along any course of a system whose acts mean for the wait what they may mean.
-/

namespace SensorCatalog

/-- What is noted of a wait. -/
inductive WaitNote where
  /-- The one who waits took a turn. -/
  | turn
  /-- Somebody else woke the one who waits, or nobody did. -/
  | woken
  deriving DecidableEq

/-- What is to be noted of a wait, given its states before and after an act. -/
def WaitNote.of : Option LatchWait → Option LatchWait → List WaitNote
  | some (.asleep _), some (.looking _) => [.woken]
  | some (.looking _), some (.asleep _) | some (.looking _), some (.returned _)
  | some (.asleep _), some (.returned _) => [.turn]
  | _, _ => []

namespace LatchWait

variable {come : Bool} {now deadline : Nat} {log : List WaitNote} {w w' : LatchWait} {z : Bool}

/-- **What an act can mean for a wait**, when it is known whether what is waited for has come. -/
inductive Moves (come : Bool) (now : Nat) : LatchWait → LatchWait → Prop where
  | stayed {w : LatchWait} : Moves come now w w
  | woken {deadline : Option Nat} : Moves come now (.asleep deadline) (.looking deadline)
  | slept {deadline : Option Nat} (hcome : come = false) : Moves come now (.looking deadline) (.asleep deadline)
  | saw {deadline : Option Nat} (hcome : come = true) : Moves come now (.looking deadline) (.returned true)
  | expired {deadline : Nat} (hdue : deadline ≤ now) : Moves come now (.asleep (some deadline)) (.returned come)

/-- How many turns are left, if nobody wakes the one who waits. -/
def rank : LatchWait → Nat
  | .looking _ => 2
  | .asleep _ => 1
  | .returned _ | .broken => 0

/-- **Turns are paid for.** A turn of its own brings a wait nearer to the end, and being woken takes it back by one. -/
theorem Moves.rank_le (h : w.Moves come now w') :
    (WaitNote.of (some w) (some w')).count .turn + w'.rank ≤
      (WaitNote.of (some w) (some w')).count .woken + w.rank := by
  cases h with
  | stayed => cases w <;> exact le_rfl
  | woken => exact le_rfl
  | slept hcome => exact le_rfl
  | saw hcome => exact Nat.le_succ 1
  | expired hdue => exact le_rfl

/-- The one who waits looks or sleeps until the deadline, or is back. -/
def Lasts (deadline : Nat) (w : LatchWait) : Prop :=
  w = .looking (some deadline) ∨ w = .asleep (some deadline) ∨ ∃ z, w = .returned z

/-- A wait without an answer goes on looking or sleeping, until it is told. -/
theorem Lasts.moves (h : Lasts deadline w) (hmoves : w.Moves come now w') : Lasts deadline w' := by
  -- it looks, or it sleeps, or it has its answer and keeps it
  rcases h with rfl | rfl | ⟨z, rfl⟩
  · cases hmoves with
    | stayed => exact .inl rfl
    | slept hcome => exact .inr (.inl rfl)
    | saw hcome => exact .inr (.inr ⟨true, rfl⟩)
  · cases hmoves with
    | stayed => exact .inr (.inl rfl)
    | woken => exact .inl rfl
    | expired hdue => exact .inr (.inr ⟨come, rfl⟩)
  · cases hmoves with
    | stayed => exact .inr (.inr ⟨z, rfl⟩)

/-- **A wait with a deadline.** -/
structure InTime (deadline : Nat) (log : List WaitNote) (w : LatchWait) : Prop where
  /-- It goes on until the deadline, or is over. In particular it has not broken off. -/
  lasts : Lasts deadline w
  /-- All turns but the first two are owed to being woken. -/
  paid : log.count .turn + w.rank ≤ log.count .woken + 2

/-- A wait that begins is in time. -/
theorem InTime.begin (deadline : Nat) : InTime deadline [] (.looking (some deadline)) :=
  ⟨.inl rfl, le_rfl⟩

/-- **One act.** -/
theorem InTime.moves (h : InTime deadline log w) (hmoves : w.Moves come now w') :
    InTime deadline (log ++ WaitNote.of (some w) (some w')) w' := by
  refine ⟨h.lasts.moves hmoves, ?_⟩
  have hpaid := h.paid
  have hrank := hmoves.rank_le
  rw [List.count_append, List.count_append]
  omega

/-- **Any course** of a system of threads, one of whom waits. -/
theorem InTime.course {σ α : Type} {step : σ → α → Option σ} {wait : σ → Option LatchWait} (come : σ → Bool)
    (now : σ → Nat) (hmoves : ∀ s a s' w, step s a = some s' → wait s = some w →
      ∃ w', wait s' = some w' ∧ w.Moves (come s) (now s) w')
    {s s' : σ} (h : Course step (fun s _ s' => WaitNote.of (wait s) (wait s')) s log s')
    (hbegin : wait s = some (.looking (some deadline))) : ∃ w, wait s' = some w ∧ InTime deadline log w := by
  induction h with
  | start => exact ⟨_, hbegin, .begin deadline⟩
  | @act log t u a before hstep ih =>
    obtain ⟨w, hw, htime⟩ := ih
    obtain ⟨w', hw', hmove⟩ := hmoves t a u w hstep hw
    rw [hw, hw']
    exact ⟨w', rfl, htime.moves hmove⟩

/-- **What one is told who comes back** is whether what was waited for has come, and nobody is told before the deadline
that it has not. -/
theorem InTime.told (h : InTime deadline log w) (hmoves : w.Moves come now (.returned z))
    (hwaits : ∀ z', w ≠ .returned z') : z = come ∧ (z = false → deadline ≤ now) := by
  cases hmoves with
  | stayed => exact absurd rfl (hwaits z)
  | saw hcome => exact ⟨hcome.symm, nofun⟩
  | expired hdue =>
    rcases h.lasts with hw | hw | ⟨z', hw⟩ <;> cases hw
    exact ⟨rfl, fun _ => hdue⟩

end LatchWait

end SensorCatalog
