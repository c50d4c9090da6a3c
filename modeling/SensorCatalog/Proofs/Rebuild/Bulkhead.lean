import SensorCatalog.Proofs.Rebuild.FanOut

/-!
# Bulkheads between the items of a fan-out

Whatever one item of a fan-out does wrong stays with that item. `FanOut.bulkhead` states this for every
list of procedures, which may name a procedure twice, for all work, for all backends that the items meet,
and for every order of their acts:

* the latch counts the items that have not counted down, and the open sessions are those of the items at
  work;
* the one who waits goes on only when the latch is down. Until then some item can move, and then each item
  is through, no session is left open, and everything is as the deeds of the items say
  (`FanOut.Settled`): one fault for each failed item, and the writes of all items.

A deed is computed from the backends that this one item met, so no other item has a part in it. Since the
backends may differ from query to query and from item to item, work may do anything after any writes, also
for two items with the same procedure.
-/

namespace SensorCatalog

namespace FanOut

variable {procedures : List String} {work : String → Work}

/-- The number of threads is fixed. -/
theorem threads_eq_of_step {b : Backend} {i : Nat} {f f' : FanOut} {e e' : Collector} {w w' : World}
    (h : f.step b i e w = some (f', e', w')) : f'.threads = f.threads := by
  obtain ⟨item, phase, effect, -, -, -, rfl, -⟩ := step_cases h
  rfl

/-- The work side by side never comes to a standstill. An item at work can go on, and with no item at work
a thread is free. -/
theorem exists_step {f : FanOut} (hthreads : 1 ≤ f.threads) {item : Item} (hitem : item ∈ f.items)
    (hgone : item.phase.isGone = false) : ∃ i, ∀ b e w, (f.step b i e w).isSome := by
  by_cases hactive : ∃ item ∈ f.items, item.phase.isActive = true
  · -- an item at work does not need a free thread
    obtain ⟨item, hitem, hactive⟩ := hactive
    obtain ⟨i, hi⟩ := List.mem_iff_getElem?.1 hitem
    simp only [ItemPhase.isActive, Bool.and_eq_true, Bool.not_eq_true'] at hactive
    refine ⟨i, fun b e w => ?_⟩
    have hadv := ItemPhase.advance_isSome hactive.2 b item.procedure f.work w
    obtain ⟨r, hr⟩ := Option.isSome_iff_exists.1 hadv
    simp [step, hi, hactive.1, hr]
  · -- nobody is at work, so all threads are free for the one that is not through
    obtain ⟨i, hi⟩ := List.mem_iff_getElem?.1 hitem
    have hnone : f.active = 0 := List.countP_eq_zero.2 fun item hitem h => hactive ⟨item, hitem, h⟩
    refine ⟨i, fun b e w => ?_⟩
    have hadv := ItemPhase.advance_isSome hgone b item.procedure f.work w
    obtain ⟨r, hr⟩ := Option.isSome_iff_exists.1 hadv
    have hfree : ¬ f.threads ≤ f.active := by omega
    simp [step, hi, hfree, hr]

/-- What holds after each act of a fan-out. -/
theorem Moves.story {threads : Nat} {e₀ : Collector} {w₀ : World} {moves : List (Nat × Backend)}
    {s : Shared} (h : Moves (FanOut.start threads procedures work, e₀, w₀) moves s) :
    s.1.threads = threads ∧ HoldsOpen w₀.sessions.isOpen s.1 s.2.2 ∧
      Story procedures work w₀.catalog e₀.faults moves s.1 s.2.1 s.2.2.catalog := by
  -- over the course: each part has a step lemma of its own
  induction h with
  | start => exact ⟨rfl, .start threads w₀, .start threads e₀ w₀.catalog⟩
  | act _ hstep ih =>
    obtain ⟨hthreads, hopen, hstory⟩ := ih
    exact ⟨(threads_eq_of_step hstep).trans hthreads, hopen.step hstep, hstory.step hstep⟩

/-- **Bulkheads.** In every course of a fan-out on at least one thread, the latch counts the items that have
not counted down and each item at work has one open session. The step that waits goes on only when the
latch is down; as long as it is not, some item can move whatever it meets. When it is down, all items are
through, all their sessions are given back, the catalog has the writes of all items in some interleaving,
and the collector has one fault for each failed item and nothing else. -/
theorem bulkhead {threads : Nat} (hthreads : 1 ≤ threads) {e₀ e : Collector} {w₀ w : World}
    {moves : List (Nat × Backend)} {f : FanOut}
    (h : Moves (FanOut.start threads procedures work, e₀, w₀) moves (f, e, w)) :
    f.latch = f.items.countP (fun item => !item.phase.isGone) ∧
    w.sessions.isOpen = w₀.sessions.isOpen + f.items.countP (fun item => item.phase.isHolding) ∧
    (∀ b r name next todo, r.phase = .joining name f next todo →
      ((Run.stepMain b r w).isSome ↔ f.isOver = true)) ∧
    (f.isOver = false → ∃ i, ∀ b, (f.step b i e w).isSome) ∧
    (f.isOver = true →
      f.items.map (·.procedure) = procedures ∧ (∀ item ∈ f.items, item.phase = .gone) ∧
      w.sessions.isOpen = w₀.sessions.isOpen ∧
      ∃ ws fs, Settled procedures work moves f ws fs ∧
        w.catalog = w₀.catalog.writeAll ws ∧ e.faults = e₀.faults ++ fs) := by
  obtain ⟨hn, hopen, hstory⟩ := h.story
  refine ⟨hstory.latch_eq, hopen, ?_, ?_, ?_⟩
  · -- the step that waits looks at the latch and at nothing else
    intro b r name next todo hphase
    rw [Run.stepMain, hphase]
    by_cases hover : f.isOver = true <;> simp [hover]
  · -- while the latch is up an item is left, and it or another one can move
    intro hover
    obtain ⟨item, hitem, hgone⟩ := hstory.exists_item hover
    obtain ⟨i, hi⟩ := exists_step (hn ▸ hthreads) hitem hgone
    exact ⟨i, fun b => hi b e w⟩
  · -- nobody is left, so nobody holds a session and every deed is over
    intro hover
    have hgone := hstory.all_gone hover
    have hheld : f.items.countP (fun item => item.phase.isHolding) = 0 :=
      List.countP_eq_zero.2 fun item hitem => by simp [hgone item hitem, ItemPhase.isHolding]
    exact ⟨hstory.names, hgone, by rw [hopen, hheld, Nat.add_zero], hstory.settled hover⟩

/-- Work that marks its procedure and then asks a question. -/
def markAndAsk (procedure : String) : Work :=
  .write (.addId .procedures procedure) (.query .procedureIdentifiers fun
    | .ok _ => .done
    | .fault f => .fail f
    | .panic p => .panic p)

/-- Backends that answer, refuse sessions, refuse queries, and break off. -/
def answering : Backend := Archive.empty.backend

@[inherit_doc answering]
def unreachable : Backend := ⟨.fault (.unreachable "down"), fun _ => .fault .closed⟩

@[inherit_doc answering]
def refusing : Backend := ⟨.ok (), fun _ => .fault .closed⟩

@[inherit_doc answering]
def breaking : Backend := ⟨.ok (), fun _ => .panic (.text "corrupt row")⟩

/-- Three threads work on four items, two of which are about one procedure, and three fail. -/
def mixedMoves : List (Nat × Backend) :=
  [(0, answering), (1, unreachable), (3, breaking), (3, breaking), (1, unreachable), (3, breaking),
    (0, answering), (1, unreachable), (2, refusing), (3, breaking), (2, refusing), (0, answering),
    (3, breaking), (2, refusing), (0, answering), (0, answering), (2, refusing), (2, refusing),
    (3, breaking), (3, breaking), (2, refusing), (0, answering), (2, refusing), (0, answering)]

/-- One of four items succeeds. The writes of the failed ones have been made as well. -/
theorem bulkhead_mixed : ∃ f e w,
    Moves (FanOut.start 3 ["a", "a", "b", "c"] markAndAsk, .empty, .initial) mixedMoves (f, e, w) ∧
      f.isOver = true ∧ (f.succeeded, f.failed, w.sessions.isOpen) = (1, 3, 0) ∧
      (w.catalog.ids .procedures).toList = ["a", "b", "c"] ∧
      e.faults = [.worker "a" (.unreachable "down"), .workerPanicked "c" "corrupt row",
        .worker "b" .closed] ∧
      ∃ ws fs, Settled ["a", "a", "b", "c"] markAndAsk mixedMoves f ws fs ∧
        w.catalog = World.initial.catalog.writeAll ws ∧ e.faults = Collector.empty.faults ++ fs := by
  -- the acts are carried out one by one, and the rest is read off the state they lead to
  obtain ⟨f, e, w, hcourse, hover, hcounts, hids, hfaults⟩ : ∃ f e w,
      -- all four items are through, three of them with a fault
      Moves (FanOut.start 3 ["a", "a", "b", "c"] markAndAsk, .empty, .initial) mixedMoves (f, e, w) ∧
        f.isOver = true ∧ (f.succeeded, f.failed, w.sessions.isOpen) = (1, 3, 0) ∧
        (w.catalog.ids .procedures).toList = ["a", "b", "c"] ∧
        e.faults = [.worker "a" (.unreachable "down"), .workerPanicked "c" "corrupt row",
          .worker "b" .closed] :=
    ⟨_, _, _, Course.of_carryOut mixedMoves .start rfl, rfl, rfl, rfl, rfl⟩
  exact ⟨f, e, w, hcourse, hover, hcounts, hids, hfaults,
    ((bulkhead (by decide) hcourse).2.2.2.2 hover).2.2.2⟩

end FanOut

end SensorCatalog
