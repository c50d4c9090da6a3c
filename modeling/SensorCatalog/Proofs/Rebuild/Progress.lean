import SensorCatalog.Proofs.Rebuild.Bulkhead
import SensorCatalog.Proofs.Rebuild.Run
import SensorCatalog.Proofs.Rebuild.Standard

/-!
# A rebuild comes to its end

As long as the archive stays as it is, the number of acts that a rebuild still needs is known from the
beginning: each act of anybody lowers `Run.left` by one (`Run.left_of_step`), whatever the order.

A rebuild that is not over can go on, unless it stands at a closed gate or has items and no thread for them
(`Run.exists_step_or_heldUp`). A program is `Plain` when it does not edit the archive and has nothing to do with
the gate. A rebuild made of plain programs is never held up (`Run.exists_step`) and leaves the archive alone
(`Run.Plain.step`). The standard steps are plain (`Standard.plain_of_mem`).
-/

namespace SensorCatalog

variable {B : Backend → Prop} {b : Backend}

/-! ### What is left to do -/

/-- The acts of work that meets the backend `b` again and again. -/
def Work.left (b : Backend) : Work → Nat
  | .done | .fail _ | .panic _ => 1
  | .query q next => (next (b.answers q)).left b + 1
  | .write _ next => next.left b + 1

/-- Work that is at its end has one act left. -/
theorem Work.left_of_ending {rest : Work} {o : Outcome Unit} (h : rest.ending? = some o) :
    rest.left b = 1 := by
  cases rest <;> first | rfl | cases h

/-- The acts that are left to an item with some work. -/
def ItemPhase.left (b : Backend) (work : Work) : ItemPhase → Nat
  | .waiting => if b.opening.isOk then work.left b + 4 else 3
  | .working rest => rest.left b + 3
  | .closing _ => 3
  | .reporting _ => 2
  | .leaving => 1
  | .gone => 0

/-- Each act of an item is one of those that it had left. -/
theorem ItemPhase.Advance.left_eq {procedure : String} {work : Work} {w w' : World}
    {phase phase' : ItemPhase} {effect : ItemEffect}
    (h : Advance b procedure work w phase phase' w' effect) :
    phase.left b work = phase'.left b work + 1 := by
  cases h with
  | opened h => simp [ItemPhase.left, h, Outcome.isOk]
  | refused h ho => simp [ItemPhase.left, h, ho]
  | ended h => simp [ItemPhase.left, Work.left_of_ending h]
  | asked | wrote => simp only [ItemPhase.left, Work.left]
  | _ => rfl

/-- An item touches neither the archive nor the gate. -/
theorem ItemPhase.Advance.world_eq {procedure : String} {work : Work} {w w' : World}
    {phase phase' : ItemPhase} {effect : ItemEffect}
    (h : Advance b procedure work w phase phase' w' effect) :
    w'.archive = w.archive ∧ w'.gate = w.gate ∧ w'.untold = w.untold := by
  cases h <;> exact ⟨rfl, rfl, rfl⟩

/-- The acts that are left to the items of a fan-out. -/
def FanOut.left (b : Backend) (f : FanOut) : Nat :=
  (f.items.map fun item => item.phase.left b (f.work item.procedure)).sum

/-- Each act of a fan-out is one of those that its items had left. -/
theorem FanOut.left_of_step {i : Nat} {f f' : FanOut} {e e' : Collector} {w w' : World}
    (h : f.step b i e w = some (f', e', w')) : f.left b = f'.left b + 1 := by
  obtain ⟨item, phase, effect, hitem, -, hact, rfl, -⟩ := step_cases h
  -- the others have as much left as before
  have hsum := sum_map_set_add hitem { item with phase := phase } fun item =>
    item.phase.left b (f.work item.procedure)
  have hitem := hact.left_eq
  simp only [left, moved] at *
  omega

/-- When all items are through, nothing is left. -/
theorem FanOut.left_eq_zero {f : FanOut} (h : ∀ item ∈ f.items, item.phase = .gone) : f.left b = 0 := by
  refine List.sum_eq_zero fun n hn => ?_
  obtain ⟨item, hitem, rfl⟩ := List.mem_map.1 hn
  rw [h item hitem]
  rfl

/-- The acts of a program. -/
def Program.left (b : Backend) : Program → Nat
  | .done | .fail _ | .panic _ => 1
  | .query q next => (next (b.answers q)).left b + 1
  | .write _ next | .report _ next | .edit _ next | .arrive next | .pass next => next.left b + 1
  | .fanOut threads procedures work next =>
    (FanOut.start threads procedures work).left b + next.left b + 2

/-- A program that is at its end has one act left. -/
theorem Program.left_of_ending {p : Program} {e : Ending} (h : p.ending? = some e) : p.left b = 1 := by
  cases p <;> first | rfl | cases h

/-- Each act of a program is one of those that it had left. -/
theorem Program.Advance.left_eq {p rest : Program} {ws : List Write} {fs : List Fault} {w w' : World}
    (h : Advance b w p rest ws fs w') : p.left b = rest.left b + 1 := by
  cases h <;> rfl

namespace Run

/-- The acts that are left after a step, with the steps that are to come. -/
def leftAfter (b : Backend) (todo : List Step) : Nat := (todo.map fun s => s.program.left b + 1).sum + 3

/-- **The acts that are left to a rebuild.** -/
def left (b : Backend) (r : Run) : Nat :=
  match r.phase with
  | .opening => if b.opening.isOk then leftAfter b r.steps + 1 else 1
  | .between todo => leftAfter b todo
  | .executing _ rest todo => rest.left b + leftAfter b todo
  | .joining _ f next todo => f.left b + next.left b + 1 + leftAfter b todo
  | .closing => 2
  | .reporting => 1
  | .finished _ => 0

variable {steps : List Step} {firstRun : Bool} {c₀ : Catalog} {r r' : Run} {w w' : World} {a : Actor}

/-- All items are through when the step that waits for them goes on. -/
theorem Story.all_gone (h : Story B steps firstRun c₀ r w.catalog) {name : String} {f : FanOut}
    {next : Program} {todo : List Step} (hphase : r.phase = .joining name f next todo)
    (hover : f.isOver = true) : ∀ item ∈ f.items, item.phase = .gone := by
  obtain ⟨-, -, turns, -, -, hin⟩ := h
  rw [hphase] at hin
  obtain ⟨s, ws, fs, threads, procedures, work, moves, -, -, -, hstory, -⟩ := hin
  exact hstory.all_gone hover

/-- **Each act lowers what is left by one.** -/
theorem left_of_step (hstory : Story B steps firstRun c₀ r w.catalog)
    (h : r.step b w a = some (r', w')) : r.left b = r'.left b + 1 := by
  cases Happens.of_step h with
  | opened hphase ho => simp [left, hphase, ho, Outcome.isOk, go]
  | refused hphase ho => simp [left, hphase, isOk_of_refusal ho, go]
  | begun hphase =>
    simp only [left, hphase, leftAfter, go, List.map_cons, List.sum_cons]
    omega
  | through hphase => simp [left, hphase, leftAfter, go]
  | went hphase hadv =>
    simp only [left, hphase, hadv.left_eq]
    omega
  | ended hphase hend =>
    simp only [left, hphase, Program.left_of_ending hend, conclude]
    omega
  | spread hphase =>
    simp only [left, hphase, go, Program.left]
    omega
  | itemMoved hphase hitem =>
    -- the summand of the items falls, and the others stay
    have := FanOut.left_of_step hitem
    simp only [left, hphase]
    omega
  | joined hphase hover =>
    -- going on counts as one act, so nothing may be left to the items
    have := FanOut.left_eq_zero (b := b) (hstory.all_gone hphase hover)
    simp only [left, hphase, go]
    omega
  | closed hphase => simp [left, hphase, go]
  | reported hphase => simp [left, hphase, go]

/-! ### What holds up a rebuild -/

/-- What may hold up a rebuild: a closed gate, or items without a thread to work on. -/
def IsHeldUp (r : Run) (w : World) : Prop :=
  match r.phase with
  | .executing _ (.pass _) _ => w.gate.closed = true
  | .joining _ f _ _ => f.threads = 0 ∧ f.isOver = false
  | _ => False

/-- **A rebuild that is not held up can go on**, whatever backend is met. -/
theorem exists_step_or_heldUp (hstory : Story B steps firstRun c₀ r w.catalog) (hunfinished : r.result? = none) :
    r.IsHeldUp w ∨ ∀ b, ∃ a, (r.step b w a).isSome := by
  unfold IsHeldUp
  cases hphase : r.phase with
  | opening =>
    refine .inr fun b => ⟨.main, ?_⟩
    simp only [Run.step, stepMain, hphase]
    cases b.opening <;> rfl
  | between todo => exact .inr fun b => ⟨.main, by cases todo <;> simp [Run.step, stepMain, hphase]⟩
  | executing name p todo =>
    -- at a closed gate the rebuild is held up, and nothing else holds up a program
    by_cases hheld : ∃ next, p = .pass next ∧ w.gate.closed = true
    · obtain ⟨next, rfl, hclosed⟩ := hheld
      exact .inl hclosed
    · refine .inr fun b => ⟨.main, ?_⟩
      simp only [Run.step, stepMain, hphase]
      cases p with
      | pass next =>
        have hopen : ¬ w.gate.closed = true := fun hclosed => hheld ⟨next, rfl, hclosed⟩
        simp [execute, hopen]
      | _ => rfl
  | joining name f next todo =>
    obtain ⟨-, -, turns, -, -, hin⟩ := hstory
    rw [hphase] at hin
    obtain ⟨s, ws, fs, threads, procedures, work, moves, -, -, -, hf, -⟩ := hin
    -- the step waits until its items are over
    by_cases hover : f.isOver = true
    · exact .inr fun b => ⟨.main, by simp [Run.step, stepMain, hphase, hover]⟩
    · rw [Bool.not_eq_true] at hover
      rcases Nat.eq_zero_or_pos f.threads with hthreads | hthreads
      · exact .inl ⟨hthreads, hover⟩
      · -- some item is left, and with at least one thread some item can move
        obtain ⟨item, hitem, hgone⟩ := hf.exists_item hover
        obtain ⟨i, hi⟩ := FanOut.exists_step hthreads hitem hgone
        refine .inr fun b => ⟨.item i, ?_⟩
        obtain ⟨x, hx⟩ := Option.isSome_iff_exists.1 (hi b r.errors w)
        simp [Run.step, stepItem, hphase, hx]
  | closing => exact .inr fun b => ⟨.main, by simp [Run.step, stepMain, hphase]⟩
  | reporting => exact .inr fun b => ⟨.main, by simp [Run.step, stepMain, hphase]⟩
  | finished result => simp [result?, hphase] at hunfinished

end Run

/-! ### Programs that nobody holds up -/

/-- **Plain programs.** They ask, write, report and have work done on at least one thread. -/
def Program.Plain : Program → Prop
  | .done | .fail _ | .panic _ => True
  | .query _ next => ∀ o, (next o).Plain
  | .write _ next | .report _ next => next.Plain
  | .fanOut threads _ _ next => 1 ≤ threads ∧ next.Plain
  | .edit _ _ | .arrive _ | .pass _ => False

/-- A plain program stays plain, and leaves the archive and the gate alone. -/
theorem Program.Plain.advance {p rest : Program} {ws : List Write} {fs : List Fault} {w w' : World}
    (h : p.Plain) (hadv : Advance b w p rest ws fs w') :
    rest.Plain ∧ w'.archive = w.archive ∧ w'.gate = w.gate ∧ w'.untold = w.untold := by
  cases hadv with
  | query => exact ⟨h _, rfl, rfl, rfl⟩
  | write => exact ⟨h, rfl, rfl, rfl⟩
  | report => exact ⟨h, rfl, rfl, rfl⟩
  -- these are not plain
  | edit => exact h.elim
  | arrive => exact h.elim
  | pass hopen => exact h.elim

namespace Run

/-- All that a rebuild has still to do is plain. -/
def Plain (r : Run) : Prop :=
  match r.phase with
  | .opening => ∀ s ∈ r.steps, s.program.Plain
  | .between todo => ∀ s ∈ todo, s.program.Plain
  | .executing _ rest todo => rest.Plain ∧ ∀ s ∈ todo, s.program.Plain
  | .joining _ f next todo => 1 ≤ f.threads ∧ next.Plain ∧ ∀ s ∈ todo, s.program.Plain
  | .closing | .reporting | .finished _ => True

variable {steps : List Step} {firstRun : Bool} {c₀ : Catalog} {r r' : Run} {w w' : World} {a : Actor}

/-- **A plain rebuild stays plain**, and leaves the archive and the gate alone. -/
theorem Plain.step (hplain : r.Plain) (h : r.step b w a = some (r', w')) :
    r'.Plain ∧ w'.archive = w.archive ∧ w'.gate = w.gate ∧ w'.untold = w.untold := by
  unfold Plain at hplain
  cases Happens.of_step h with
  | opened hphase ho =>
    simp only [hphase] at hplain
    exact ⟨hplain, rfl, rfl, rfl⟩
  | refused hphase ho => exact ⟨trivial, rfl, rfl, rfl⟩
  | begun hphase =>
    simp only [hphase] at hplain
    -- the program of the next step is one of those that were plain
    exact ⟨⟨hplain _ List.mem_cons_self, fun t ht => hplain t (List.mem_cons_of_mem _ ht)⟩, rfl, rfl, rfl⟩
  | through hphase => exact ⟨trivial, rfl, rfl, rfl⟩
  | went hphase hadv =>
    simp only [hphase] at hplain
    obtain ⟨hrest, hworld⟩ := hplain.1.advance hadv
    exact ⟨⟨hrest, hplain.2⟩, hworld⟩
  | ended hphase hend =>
    simp only [hphase] at hplain
    exact ⟨hplain.2, rfl, rfl, rfl⟩
  | spread hphase =>
    simp only [hphase] at hplain
    -- what comes after the fan-out is plain, and so is the number of threads
    exact ⟨⟨hplain.1.1, hplain.1.2, hplain.2⟩, rfl, rfl, rfl⟩
  | itemMoved hphase hitem =>
    simp only [hphase] at hplain
    obtain ⟨item, phase, effect, -, -, hact, -, -⟩ := FanOut.step_cases hitem
    exact ⟨⟨FanOut.threads_eq_of_step hitem ▸ hplain.1, hplain.2⟩, hact.world_eq⟩
  | joined hphase hover =>
    simp only [hphase] at hplain
    exact ⟨hplain.2, rfl, rfl, rfl⟩
  | closed hphase => exact ⟨trivial, rfl, rfl, rfl⟩
  | reported hphase => exact ⟨trivial, rfl, rfl, rfl⟩

/-- **A plain rebuild is never held up**: until it is over, somebody can move. -/
theorem exists_step (hstory : Story B steps firstRun c₀ r w.catalog) (hplain : r.Plain)
    (hunfinished : r.result? = none) : ∃ a, (r.step b w a).isSome := by
  refine (exists_step_or_heldUp hstory hunfinished).elim (fun hheld => ?_) fun h => h b
  unfold IsHeldUp at hheld
  unfold Plain at hplain
  split at hheld
  · -- what could be held up at the gate is not plain
    rename_i hphase
    simp only [hphase] at hplain
    exact hplain.1.elim
  · -- there is a thread
    rename_i hphase
    simp only [hphase] at hplain
    exact absurd hheld.1 (Nat.one_le_iff_ne_zero.1 hplain.1)
  · exact hheld.elim

/-- Nothing is left exactly if the rebuild is over. -/
theorem left_eq_zero_iff : r.left b = 0 ↔ r.result?.isSome = true := by
  unfold left result?
  cases r.phase with
  | opening => simp only; split <;> simp
  | _ => simp [leftAfter]

end Run

/-! ### The standard steps -/

namespace Program

/-- Writes before a plain program leave it plain. -/
theorem plain_writes {next : Program} (h : next.Plain) (ws : List Write) : (writes next ws).Plain := by
  induction ws with
  | nil => exact h
  | cons x ws ih => exact ih

/-- A reading before plain programs leaves them plain. -/
theorem plain_reading {α : Type} {next : α → Program} (h : ∀ a, (next a).Plain) (r : Reading α) :
    (reading next r).Plain := by
  induction r with
  | done a => exact h a
  | ask q cont ih =>
    rw [reading, Plain]
    intro o
    cases o with
    | ok v => exact ih v
    | fault f => trivial
    | panic p => trivial

end Program

/-- All the steps are plain. -/
theorem Standard.plain_of_mem {threads : Nat} (hthreads : threads ≠ 0) {s : Step}
    (hs : s ∈ steps threads) : s.program.Plain := by
  rcases mem_steps.1 hs with rfl | ⟨x, -, rfl⟩
  · refine Program.plain_reading (fun ids => Program.plain_writes ?_ _) _
    exact ⟨Nat.one_le_iff_ne_zero.2 hthreads, trivial⟩
  · exact Program.plain_reading (fun ws => Program.plain_writes (show Program.done.Plain from trivial) ws) _

/-- There are standard steps if there is a thread to work on. -/
theorem Standard.steps?_eq_ok {threads : Nat} {l : List Step} :
    steps? threads = .ok l ↔ threads ≠ 0 ∧ l = steps threads := by
  rw [steps?]
  split
  · rename_i h
    simp [h]
  · rename_i h
    simp [h, eq_comm]

end SensorCatalog
