import SensorCatalog.Proofs.Rebuild.Determined

/-!
# A failure leaves no trace

The standard steps ask everything before they write anything, and so does the work for one procedure. A
query that is not answered therefore ends them with the catalog as it was, and after the first write
nothing is left that could fail. `Standard.failure_leaves_catalog` states this of the calls themselves:

* between the call of a standard step and its return with a failure the catalog does not change in any
  category, whatever the queries met;
* while the work for a procedure is called and comes back with a failure, none of its acts changes the
  catalog, whatever other items do in between.

`Run.Moves.of_call` says what a call comes to that has returned, in the middle of any rebuild. It looks for
the return in the course, and `Run.Beyond` is what keeps it from finding a later moment.
-/

namespace SensorCatalog

variable {B : Backend → Prop} {b : Backend}

/-! ### Calls of steps -/

namespace Run

variable {s : Step} {todo : List Step} {r r' : Run} {w w' : World} {moves : List (Actor × Backend)}

/-- The rebuild has gone beyond the moment at which the steps `todo` were to come. -/
def Beyond (todo : List Step) : RunPhase → Prop
  | .opening => False
  | .between todo' | .executing _ _ todo' | .joining _ _ _ todo' => todo'.length < todo.length
  | .closing | .reporting | .finished _ => True

/-- A rebuild does not go back. -/
theorem Beyond.step {a : Actor} (h : Beyond todo r.phase ∨ r.phase = .between todo)
    (hstep : r.step b w a = some (r', w')) : Beyond todo r'.phase := by
  cases Happens.of_step hstep with
  | @begun s todo' hphase =>
    rw [hphase] at h
    rcases h with h | h
    · exact (Nat.lt_succ_self _).trans h
    · -- the first of the steps is called
      cases h
      exact Nat.lt_succ_self _
  -- after the last step nothing is called any more
  | through hphase => trivial
  | closed hphase => trivial
  | reported hphase => trivial
  | refused hphase ho => trivial
  -- from here on the rebuild was in the middle of another step, and it still is
  | opened hphase ho => rw [hphase] at h; exact (h.resolve_right nofun).elim
  | went hphase hadv => rw [hphase] at h; exact h.resolve_right nofun
  | ended hphase hend => rw [hphase] at h; exact h.resolve_right nofun
  | spread hphase => rw [hphase] at h; exact h.resolve_right nofun
  | itemMoved hphase hitem => rw [hphase] at h; exact h.resolve_right nofun
  | joined hphase hover => rw [hphase] at h; exact h.resolve_right nofun

/-- **A call that has returned** has done what the program of its step can do, wherever in a rebuild it was
made. -/
theorem Moves.of_call (hcall : r.phase = .executing s.name s.program todo)
    (h : Moves (r, w) moves (r', w')) (hmoves : ∀ m ∈ moves, B m.2) (hreturn : r'.phase = .between todo) :
    ∃ ws fs e, Returned B s todo w.catalog r.errors.faults r.marks r' w'.catalog ws fs e := by
  -- at each moment the call is under way, or has just returned, or its return is past
  have hcourse : ∀ {moves t}, Moves (r, w) moves t → (∀ m ∈ moves, B m.2) →
      (Underway B s todo w.catalog r.errors.faults t.1.errors t.2.catalog t.1.phase ∧
          t.1.marks = r.marks) ∨
        (∃ ws fs e, Returned B s todo w.catalog r.errors.faults r.marks t.1 t.2.catalog ws fs e) ∨
        Beyond todo t.1.phase := by
    intro moves t h hmoves
    induction h with
    | start =>
      refine .inl ⟨?_, rfl⟩
      rw [hcall]
      exact ⟨rfl, rfl, [], [], rfl, by simp, fun _ _ _ h => h⟩
    | @act log t u m before hstep ih =>
      have hb : B m.2 := hmoves m (List.mem_append_right _ List.mem_cons_self)
      rcases ih fun m hm => hmoves m (List.mem_append_left _ hm) with
        ⟨hunder, hmarks⟩ | ⟨ws, fs, e, hback⟩ | hbeyond
      · rw [← hmarks]
        exact (hunder.step hb hstep).imp_right .inl
      · -- once the call is back, the next act goes beyond it
        exact .inr (.inr (Beyond.step (.inr hback.phase_eq) hstep))
      · exact .inr (.inr (Beyond.step (.inl hbeyond) hstep))
  -- at the end the step is between calls, so it is neither under way nor past
  rcases hcourse h hmoves with ⟨hunder, -⟩ | hback | hbeyond
  · simp only [hreturn] at hunder
    exact hunder.elim
  · exact hback
  · simp only [hreturn] at hbeyond
    exact absurd hbeyond (Nat.lt_irrefl _)

end Run

namespace Standard

/-- **A standard step that fails has written nothing**, whatever it met. -/
theorem writes_eq_nil {threads : Nat} {s : Step} (hs : s ∈ steps threads) {ws : List Write}
    {fs : List Fault} {e : Ending} (h : s.program.Does B ws fs e) (he : e.isDone = false) : ws = [] := by
  rcases mem_steps.1 hs with rfl | ⟨x, -, rfl⟩
  · -- it can fail only as long as it does not know the procedures
    rcases of_procedures h with ⟨ids, ws₁, -, -, -, rfl⟩ | ⟨-, hnone, -⟩
    · cases he
    · exact hnone
  · rcases Program.Does.of_ofReading h with ⟨-, -, rfl⟩ | ⟨-, hnone, -⟩
    · cases he
    · exact hnone

end Standard

/-! ### Calls of work -/

namespace FanOut

/-- **Courses of a fan-out that are watched.** The trace lists which item moved, and the catalog before and
after. -/
abbrev Watched (s : Shared) (trace : List (Nat × Catalog × Catalog)) (t : Shared) : Prop :=
  Course move (fun s m t => [(m.1, s.2.2.catalog, t.2.2.catalog)]) s trace t

variable {work : String → Work} {i : Nat} {s t : Shared} {trace : List (Nat × Catalog × Catalog)}

/-- **An item that is watched.** What it has written since is what its phase says, and if this is nothing,
none of its acts changed the catalog. -/
theorem Watched.fits (h : Watched s trace t) (hwork : s.1.work = work) {item : Item}
    (hitem : s.1.items[i]? = some item) {bs : List Backend} {os : List (Outcome Unit)}
    (hfits : item.phase.Fits (work item.procedure) bs [] os) :
    t.1.work = work ∧ ∃ phase bs' ws os', t.1.items[i]? = some ⟨item.procedure, phase⟩ ∧
      phase.Fits (work item.procedure) bs' ws os' ∧
      (ws = [] → ∀ x ∈ trace, x.1 = i → x.2.2 = x.2.1) := by
  induction h with
  | start => exact ⟨hwork, item.phase, bs, [], os, hitem, hfits, by simp⟩
  | @act log t u m before hstep ih =>
    obtain ⟨hwork', phase, bs', ws, os', hphase, hfits', hsilent⟩ := ih
    obtain ⟨f, e, w⟩ := t
    obtain ⟨f', e', w'⟩ := u
    obtain ⟨item', phase', effect, hitem', -, hact, rfl, -⟩ := step_cases hstep
    refine ⟨hwork', ?_⟩
    by_cases hm : m.1 = i
    · -- the item itself moves, and the catalog has what it writes
      rw [hm, hphase] at hitem'
      cases hitem'
      simp only at hwork' hact
      rw [hwork'] at hact
      refine ⟨phase', bs' ++ [m.2], ws ++ phase.written, os' ++ phase.reports, ?_, hfits'.advance hact, ?_⟩
      · have hi : i < f.items.length := (List.getElem?_eq_some_iff.1 hphase).1
        simp [moved, hm, hi]
      · intro hnone x hx hxi
        obtain ⟨hws, hwritten⟩ := List.append_eq_nil_iff.1 hnone
        rcases List.mem_append.1 hx with hx | hx
        · exact hsilent hws x hx hxi
        · rw [List.mem_singleton.1 hx]
          have hsame := hact.catalog_eq
          rw [hwritten] at hsame
          exact hsame
    · -- another item moves
      refine ⟨phase, bs', ws, os', ?_, hfits', fun hnone x hx hxi => ?_⟩
      · simpa [moved, hm] using hphase
      · rcases List.mem_append.1 hx with hx | hx
        · exact hsilent hnone x hx hxi
        · rw [List.mem_singleton.1 hx] at hxi
          exact absurd hxi hm

/-- If no act changes the catalog, it stays as it is. -/
theorem Watched.catalog_eq (h : Watched s trace t) (hsilent : ∀ x ∈ trace, x.2.2 = x.2.1) :
    t.2.2.catalog = s.2.2.catalog := by
  induction h with
  | start => rfl
  | @act log t u m before hstep ih =>
    have hlast := hsilent _ (List.mem_append_right _ List.mem_cons_self)
    exact hlast.trans (ih fun x hx => hsilent x (List.mem_append_left _ hx))

end FanOut

namespace Standard

/-- The work for a procedure that failed has written nothing. -/
theorem eq_nil_of_fits {p : String} {bs : List Backend} {ws : List Write} {os : List (Outcome Unit)}
    {o : Outcome Unit} (h : (ItemPhase.closing o).Fits (procedureWork p) bs ws os) (ho : o.isOk = false) :
    ws = [] := by
  have hdeed : Deed.of (procedureWork p) bs = ⟨ws, some o⟩ := by simpa using h.2 []
  have hover : (Deed.of (procedureWork p) bs).outcome.isSome := by rw [hdeed]; rfl
  rcases Deed.of_reading (B := fun _ => True) (fun _ _ => trivial) hover with ⟨ws', -, hok⟩ | ⟨-, hnone, -⟩
  · -- the deed would be that of work that succeeded
    have := congrArg Deed.outcome (hdeed.symm.trans hok)
    cases this
    cases ho
  · rw [← hnone]
    exact (congrArg Deed.writes hdeed).symm

/-- **A failure leaves the catalog as it was.** This holds of the call of each standard step, wherever in a
rebuild it is made and whatever the queries and the items meet, and of the work for a procedure: none of its
acts changes the catalog, and if nobody else acts the catalog is what it was. -/
theorem failure_leaves_catalog :
    (∀ (threads : Nat) (s : Step), s ∈ steps threads →
      ∀ (todo : List Step) (r r' : Run) (w w' : World) (moves : List (Actor × Backend)),
        r.phase = .executing s.name s.program todo → Run.Moves (r, w) moves (r', w') →
        r'.phase = .between todo → r'.marks = r.marks ++ [⟨s.name, true⟩] → w'.catalog = w.catalog) ∧
    ∀ (p : String) (i : Nat) (f f' : FanOut) (e e' : Collector) (w w' : World)
      (trace : List (Nat × Catalog × Catalog)) (o : Outcome Unit),
      f.work = procedureWork → f.items[i]? = some ⟨p, .working (procedureWork p)⟩ →
      FanOut.Watched (f, e, w) trace (f', e', w') → f'.items[i]? = some ⟨p, .closing o⟩ →
      o.isOk = false →
        (∀ x ∈ trace, x.1 = i → x.2.2 = x.2.1) ∧
          ((∀ x ∈ trace, x.1 = i) → w'.catalog = w.catalog) := by
  constructor
  · intro threads s hs todo r r' w w' moves hcall h hreturn hmarks
    obtain ⟨ws, fs, e, hback⟩ := h.of_call (B := fun _ => True) hcall (fun _ _ => trivial) hreturn
    -- the mark tells that the step was not carried out
    have hmark := hmarks.symm.trans hback.marks_eq
    have hfailed : e.isDone = false := by simpa using hmark
    rw [hback.catalog_eq, writes_eq_nil hs hback.does hfailed]
    rfl
  · intro p i f f' e e' w w' trace o hwork hitem h hclosing ho
    -- a call begins after a session was opened
    have hfits : (ItemPhase.working (procedureWork p)).Fits (procedureWork p)
        [FanOut.answering] [] [] :=
      ⟨rfl, fun cs => rfl⟩
    obtain ⟨-, phase, bs, ws, os, hphase, hfits', hsilent⟩ := h.fits hwork hitem hfits
    rw [hclosing] at hphase
    cases hphase
    have hnone := hsilent (eq_nil_of_fits hfits' ho)
    exact ⟨hnone, fun halone => h.catalog_eq fun x hx => hnone x hx (halone x hx)⟩

/-- A backend that answers the first queries only. -/
def faltering : Backend :=
  ⟨.ok (), fun
    | .offeringIdentifiers => .ok ["yard"]
    | .offeringsForProcedure _ => .ok ["yard"]
    | _ => .panic (.text "corrupt row")⟩

/-- The step `offerings` breaks off at its second query, and so does the work for a procedure. What the
catalog had of this procedure is still there. -/
theorem failure_leaves_catalog_faltering :
    (∃ moves r' w',
      Run.Moves ((Run.start (steps 1) true).go (.executing "offerings" (.ofReading offerings) []),
        Run.troubledWorld) moves (r', w') ∧
      r'.marks = [⟨"offerings", true⟩] ∧ w'.catalog = Run.troubledWorld.catalog) ∧
    ∃ trace f' e' w',
      FanOut.Watched (⟨1, procedureWork, [⟨"pump", .working (procedureWork "pump")⟩], 1, 0, 0⟩, .empty,
        Run.troubledWorld) trace (f', e', w') ∧
      f'.items[0]? = some ⟨"pump", .closing (.panic (.text "corrupt row"))⟩ ∧
      w'.catalog = Run.troubledWorld.catalog := by
  -- both courses are carried out; the programs have to be opened for that
  constructor
  · obtain ⟨r', w', h, hphase, hmarks⟩ : ∃ r' w',
        Run.Moves ((Run.start (steps 1) true).go (.executing "offerings" (.ofReading offerings) []),
          Run.troubledWorld) (List.replicate 3 (Actor.main, faltering)) (r', w') ∧
        r'.phase = .between [] ∧ r'.marks = [⟨"offerings", true⟩] :=
      ⟨_, _, Course.of_carryOut (List.replicate 3 (Actor.main, faltering)) .start
        (by delta Program.ofReading Program.reading; rfl), rfl, rfl⟩
    have hunchanged := failure_leaves_catalog.1 1 ⟨"offerings", .ofReading offerings⟩ (by simp [steps]) []
      _ _ _ _ _ rfl h hphase hmarks
    exact ⟨_, r', w', h, hmarks, hunchanged⟩
  · obtain ⟨trace, f', e', w', h, hclosing, halone⟩ : ∃ trace f' e' w',
        FanOut.Watched (⟨1, procedureWork, [⟨"pump", .working (procedureWork "pump")⟩], 1, 0, 0⟩, .empty,
          Run.troubledWorld) trace (f', e', w') ∧
        f'.items[0]? = some ⟨"pump", .closing (.panic (.text "corrupt row"))⟩ ∧
        ∀ x ∈ trace, x.1 = 0 :=
      ⟨_, _, _, _, Course.of_carryOut (List.replicate 3 ((0 : Nat), faltering)) .start
        (by delta procedureWork Work.ofReading; rfl), rfl, by simp⟩
    have hunchanged := failure_leaves_catalog.2 "pump" 0 _ _ _ _ _ _ _ _ rfl rfl h hclosing rfl
    exact ⟨trace, f', e', w', h, hclosing, hunchanged.2 halone⟩

end Standard

end SensorCatalog
