import SensorCatalog.Proofs.Timer.Step
import SensorCatalog.Proofs.Waiting.Wait

/-!
# The acts of a latch

`Latch.Happens` lists what can happen at a latch, and `Latch.Turns` says what it means for those who wait: each of them
was there before and makes one of the moves of a wait, or comes in this act. What is waited for is that the count is
zero.

A `Latch.Reaches` is a course of a latch, whose log has all acts. The count is what the log leaves of the first one
(`Latch.Reaches.count_eq`), and so a count that is zero remains zero.
-/

namespace SensorCatalog

/-- The spans of time for which threads came to wait, in the order in which they came. -/
def LatchAct.spans (acts : List LatchAct) : List (Option Nat) :=
  acts.filterMap fun a =>
    match a with
    | .arrive span => some span
    | _ => none

/-- The waits of a list of acts are those of its parts. -/
theorem LatchAct.spans_append (acts more : List LatchAct) : spans (acts ++ more) = spans acts ++ spans more :=
  List.filterMap_append

namespace Latch

variable {l l' : Latch} {a : LatchAct} {i : Nat} {w w' : LatchWait}

/-- **What can happen.** -/
inductive Happens (l : Latch) : LatchAct → Latch → Prop where
  | countedNothing (hzero : l.count = 0) : Happens l .countDown l
  | letGo (hlast : l.count = 1) : Happens l .countDown { l with count := 0, waits := l.waits.map rouse }
  | counted (hmore : 1 < l.count) : Happens l .countDown { l with count := l.count - 1 }
  | came (span : Option Nat) : Happens l (.arrive span) { l with waits := l.waits ++ [l.begin span] }
  | saw {i : Nat} {deadline : Option Nat} (hw : l.waits[i]? = some (.looking deadline)) (hzero : l.count = 0) :
    Happens l (.look i) (l.put i (.returned true))
  | slept {i : Nat} {deadline : Option Nat} (hw : l.waits[i]? = some (.looking deadline)) (hpos : l.count ≠ 0) :
    Happens l (.look i) (l.put i (.asleep deadline))
  | woke {i : Nat} {deadline : Option Nat} (hw : l.waits[i]? = some (.asleep deadline)) :
    Happens l (.wake i) (l.put i (.looking deadline))
  | expired {i deadline : Nat} (hw : l.waits[i]? = some (.asleep (some deadline))) (hdue : deadline ≤ l.now) :
    Happens l (.expire i) (l.put i (.returned (l.count == 0)))
  | passed (span : Nat) : Happens l (.pass span) { l with now := l.now + span }

/-- **Every step is one of these.** -/
theorem Happens.of_step (h : l.step a = some l') : Happens l a l' := by
  unfold step at h
  cases a with
  | countDown =>
    obtain rfl := Option.some.inj h
    obtain ⟨count, waits, now⟩ := l
    match count with
    | 0 => exact .countedNothing rfl
    -- nothing is left to count down, or one is left, or more than one
    | 1 => exact .letGo rfl
    | n + 2 => exact .counted (by simp)
  | arrive span =>
    obtain rfl := Option.some.inj h
    exact .came span
  | look i =>
    simp only at h
    split at h
    · rename_i deadline hw
      -- who looks finds the count at zero or goes to sleep
      obtain rfl := Option.some.inj h
      by_cases hzero : l.count = 0
      · rw [if_pos hzero]
        exact .saw hw hzero
      · rw [if_neg hzero]
        exact .slept hw hzero
    · cases h
  | wake i =>
    simp only at h
    split at h
    · rename_i deadline hw
      obtain rfl := Option.some.inj h
      exact .woke hw
    · cases h
  | expire i =>
    simp only at h
    split at h
    · rename_i deadline hw
      split at h
      · rename_i hdue
        obtain rfl := Option.some.inj h
        exact .expired hw hdue
      · cases h
    · cases h
  | pass span =>
    obtain rfl := Option.some.inj h
    exact .passed span

/-! ### Those who wait -/

/-- **What an act means for those who wait.** -/
structure Turns (l : Latch) (a : LatchAct) (l' : Latch) : Prop where
  /-- One of them was there before and makes a move, or it is the one that comes. -/
  waits : ∀ i w', l'.waits[i]? = some w' →
    (∃ w, l.waits[i]? = some w ∧ w.Moves (l.count == 0) l.now w') ∨
      i = l.waits.length ∧ ∃ span, LatchAct.spans [a] = [span] ∧ w' = l.begin span
  length : l'.waits.length = l.waits.length + (LatchAct.spans [a]).length

/-- To be woken is one of the moves of a wait. -/
theorem moves_rouse (w : LatchWait) : w.Moves (l.count == 0) l.now (rouse w) := by
  cases w with
  | asleep deadline => exact .woken
  | _ => exact .stayed

/-- One of those who wait makes a move. -/
theorem Turns.of_put (hw : l.waits[i]? = some w) (hmoves : w.Moves (l.count == 0) l.now w')
    (hspans : LatchAct.spans [a] = []) : Turns l a (l.put i w') where
  waits j v hv := by
    -- the others stay where they are
    left
    by_cases hj : i = j
    · subst hj
      obtain ⟨hi, -⟩ := List.getElem?_eq_some_iff.1 hw
      rw [put, List.getElem?_set_self hi] at hv
      cases hv
      exact ⟨w, hw, hmoves⟩
    · rw [put, List.getElem?_set_ne hj] at hv
      exact ⟨v, hv, .stayed⟩
  length := by
    rw [hspans]
    exact List.length_set

/-- Nobody makes a move. -/
theorem Turns.of_waits (hwaits : l'.waits = l.waits) (hspans : LatchAct.spans [a] = []) : Turns l a l' where
  waits j v hv := by
    rw [hwaits] at hv
    exact .inl ⟨v, hv, .stayed⟩
  length := by
    rw [hwaits, hspans]
    rfl

/-- In each act every wait makes one of its moves, or stays. -/
theorem Turns.of_step (h : l.step a = some l') : Turns l a l' := by
  cases Happens.of_step h with
  | countedNothing hzero => exact .of_waits rfl rfl
  | counted hmore => exact .of_waits rfl rfl
  | passed span => exact .of_waits rfl rfl
  | letGo hlast =>
    refine ⟨fun j v hv => ?_, List.length_map _⟩
    rw [List.getElem?_map] at hv
    obtain ⟨w, hw, rfl⟩ := Option.map_eq_some_iff.1 hv
    exact .inl ⟨w, hw, moves_rouse w⟩
  | came span =>
    refine ⟨fun j v hv => ?_, List.length_append⟩
    -- those who waited before have their places, and the new one has the last
    by_cases hj : j < l.waits.length
    · rw [List.getElem?_append_left hj] at hv
      exact .inl ⟨v, hv, .stayed⟩
    · obtain ⟨hlt, -⟩ := List.getElem?_eq_some_iff.1 hv
      rw [List.length_append] at hlt
      obtain rfl : j = l.waits.length := by simp at hlt; omega
      rw [List.getElem?_concat_length] at hv
      cases hv
      exact .inr ⟨rfl, span, rfl, rfl⟩
  | saw hw hzero => exact .of_put hw (.saw (by simp [hzero])) rfl
  | slept hw hpos => exact .of_put hw (.slept (by simp [hpos])) rfl
  | woke hw => exact .of_put hw .woken rfl
  | expired hw hdue => exact .of_put hw (.expired hdue) rfl

/-- Nobody is lost. -/
theorem Turns.of_getElem? (h : Turns l a l') (hw : l.waits[i]? = some w) :
    ∃ w', l'.waits[i]? = some w' ∧ w.Moves (l.count == 0) l.now w' := by
  obtain ⟨hi, -⟩ := List.getElem?_eq_some_iff.1 hw
  -- a wait that is there after the act was there before it
  have hi' : i < l'.waits.length := by
    rw [h.length]
    omega
  have hw' := List.getElem?_eq_getElem hi'
  rcases h.waits i _ hw' with ⟨v, hv, hmoves⟩ | ⟨heq, -⟩
  · rw [hw] at hv
    cases hv
    exact ⟨_, hw', hmoves⟩
  · omega

/-! ### Courses -/

/-- **Courses of a latch.** The log has all acts. -/
abbrev Reaches (l : Latch) (acts : List LatchAct) (l' : Latch) : Prop := Course step (fun _ a _ => [a]) l acts l'

/-- Nothing but counting down changes the count. -/
theorem count_of_step (h : l.step a = some l') : l'.count = l.count - [a].count .countDown := by
  cases Happens.of_step h with
  | countedNothing hzero => simp [hzero]
  | letGo hlast => simp [hlast]
  | counted hmore => rfl
  | _ => rfl

/-- **The count** is what is left of the first one, and never less than nothing. -/
theorem Reaches.count_eq {acts : List LatchAct} (h : l.Reaches acts l') :
    l'.count = l.count - acts.count .countDown := by
  induction h with
  | start => rfl
  | act before hstep ih => rw [count_of_step hstep, ih, List.count_append, Nat.sub_sub]

/-- There is one wait for each that has begun. -/
theorem Reaches.length_eq {count : Nat} {acts : List LatchAct} (h : (create count).Reaches acts l) :
    l.waits.length = (LatchAct.spans acts).length := by
  induction h with
  | start => rfl
  | act before hstep ih =>
    rw [(Turns.of_step hstep).length, ih, LatchAct.spans_append, List.length_append]

end Latch

end SensorCatalog
