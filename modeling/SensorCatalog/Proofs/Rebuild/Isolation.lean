import SensorCatalog.Proofs.Rebuild.Termination

/-!
# Steps are isolated from each other

What one step of a rebuild does wrong is reported, and the next step runs all the same. The log of a rebuild says
what came of asking for a session, and with what catalog and what faults each step is called and returns
(`Milestone`). `Turn.script` is the log that some turns ought to leave: each of them is called where the one before
it returned.

`Run.Tells` says that the log of a rebuild is the script of its turns, with the call of the step that is under way.
`Run.Tells.step` carries this over each act, from `Run.Underway.step`. When the rebuild is over, either it was
refused a session, and nothing else happened, or the turns are those of all its steps in their order. Then the
catalog, the report and the verdict are those of the turns (`Run.isolates_steps`).

Each act meets a backend of its own, any one of those in `B`. If these are all there are, an answer may depend on
anything, on the catalog as well, and a step may do whatever it likes with what it finds there.
-/

namespace SensorCatalog

/-- What is worth noting of a rebuild. -/
inductive Milestone where
  /-- The rebuild asks for a session. -/
  | asked (o : Outcome Unit)
  /-- A step is called, with the catalog and the collected faults as they are then. -/
  | called (name : String) (c : Catalog) (faults : List Fault)
  /-- It returns, is marked, and leaves this catalog and these faults. -/
  | returned (mark : StepMark) (c : Catalog) (faults : List Fault)

namespace Turn

/-- **The script of some turns**: each one is called with what the one before it left. -/
def script (c : Catalog) (faults : List Fault) : List Turn → List Milestone
  | [] => []
  | t :: turns =>
    .called t.step.name c faults :: .returned t.mark (c.writeAll t.writes) (faults ++ t.faults) ::
      script (c.writeAll t.writes) (faults ++ t.faults) turns

/-- One more turn is one more call and one more return in the script. -/
theorem script_concat (c : Catalog) (faults : List Fault) (turns : List Turn) (t : Turn) :
    script c faults (turns ++ [t]) = script c faults turns ++
      [.called t.step.name (c.writeAll (allWrites turns)) (faults ++ allFaults turns),
        .returned t.mark (c.writeAll (allWrites (turns ++ [t]))) (faults ++ allFaults (turns ++ [t]))] := by
  induction turns generalizing c faults with
  | nil => simp [script, allWrites, allFaults, Catalog.writeAll]
  | cons u turns ih =>
    rw [List.cons_append, script, ih, script]
    simp [allWrites, allFaults]

end Turn

/-- The step that is under way. -/
def RunPhase.name? : RunPhase → Option String
  | .executing name _ _ | .joining name _ _ _ => some name
  | _ => none

/-- Whether a rebuild that has got a session is not over yet. -/
def RunPhase.isUnderway : RunPhase → Bool
  | .opening | .finished _ => false
  | _ => true

/-- The verdict asks for a first rebuild that left no procedure or no offering. -/
theorem Report.verdict_eq (firstRun : Bool) (r : Report) :
    r.verdict firstRun =
      if firstRun = true ∧ (r.procedures = 0 ∨ r.offerings = 0) then .error r.unusable else .ok r := by
  unfold verdict isUsable
  by_cases hp : r.procedures = 0 <;> by_cases ho : r.offerings = 0 <;> cases firstRun <;> simp [hp, ho]

namespace Run

open Turn (allWrites allFaults script)

/-- The notes of an act. -/
def milestones (s : Run × World) (m : Actor × Backend) (t : Run × World) : List Milestone :=
  match s.1.phase, t.1.phase with
  | .opening, _ => [.asked m.2.opening]
  | .between (x :: _), _ => [.called x.name s.2.catalog s.1.errors.faults]
  | .executing _ _ _, .between _ | .joining _ _ _ _, .between _ =>
    t.1.marks.getLast?.toList.map fun mark => .returned mark t.2.catalog t.1.errors.faults
  | _, _ => []

/-- What a step does before it returns is not noted. -/
theorem milestones_of_inside {s t : Run × World} (hs : s.1.phase.isInside = true)
    (ht : t.1.phase.isInside = true) (m : Actor × Backend) : milestones s m t = [] := by
  unfold milestones
  cases hphase : s.1.phase with
  | executing | joining =>
    cases hphase' : t.1.phase with
    | executing | joining => rfl
    | opening | between | closing | reporting | finished => simp [hphase', RunPhase.isInside] at ht
  | opening | between | closing | reporting | finished => simp [hphase, RunPhase.isInside] at hs

/-- It returns with the last mark. -/
theorem milestones_of_returned {s t : Run × World} {todo : List Step} {marks : List StepMark} {mark : StepMark}
    (hs : s.1.phase.isInside = true) (ht : t.1.phase = .between todo) (hmarks : t.1.marks = marks ++ [mark])
    (m : Actor × Backend) : milestones s m t = [.returned mark t.2.catalog t.1.errors.faults] := by
  unfold milestones
  rw [ht, hmarks]
  cases hphase : s.1.phase with
  | executing | joining => simp
  | opening | between | closing | reporting | finished => simp [hphase, RunPhase.isInside] at hs

variable {B : Backend → Prop} {steps : List Step} {firstRun : Bool} {w₀ w w' : World} {r r' : Run}
  {c₀ c : Catalog} {log : List Milestone} {turns : List Turn} {a : Actor} {b : Backend}

/-- What is noted of the turns of a rebuild so far, and of the step that is under way. -/
def logOf (c₀ : Catalog) (turns : List Turn) (phase : RunPhase) : List Milestone :=
  .asked (.ok ()) :: script c₀ [] turns ++
    phase.name?.toList.map fun name => .called name (c₀.writeAll (allWrites turns)) (allFaults turns)

/-- **A rebuild that has a session, after some turns.** -/
structure Tells (B : Backend → Prop) (steps : List Step) (firstRun : Bool) (c₀ : Catalog) (log : List Milestone)
    (turns : List Turn) (r : Run) (c : Catalog) : Prop where
  underway : r.phase.isUnderway = true
  firstRun_eq : r.firstRun = firstRun
  holds : ∀ t ∈ turns, t.Holds B
  marks : r.marks = turns.map Turn.mark
  phase : InPhase B steps c₀ turns r c r.phase
  log_eq : log = logOf c₀ turns r.phase

/-- The step that is under way is called by its name. -/
theorem Underway.name?_eq {s : Step} {todo : List Step} {faults₀ : List Fault} {e : Collector}
    {phase : RunPhase} (h : Underway B s todo c₀ faults₀ e c phase) :
    phase.name? = some s.name ∧ phase.isInside = true ∧ phase.isUnderway = true := by
  cases phase with
  | executing name rest todo' => exact ⟨congrArg some h.1.symm, rfl, rfl⟩
  | joining name f next todo' => exact ⟨congrArg some h.1.symm, rfl, rfl⟩
  | _ => exact h.elim

/-- As long as a step is under way, each act fits its call. -/
theorem Tells.step_inside (h : Tells B steps firstRun w₀.catalog log turns r w.catalog) (hb : B b)
    (hinside : r.phase.isInside = true) (hstep : r.step b w a = some (r', w')) :
    ∃ turns', Tells B steps firstRun w₀.catalog (log ++ milestones (r, w) (a, b) (r', w')) turns' r'
      w'.catalog := by
  obtain ⟨s, todo, hlist, hunder⟩ := h.phase.underway hinside
  have hfirst := (kept_of_step hstep).2.trans h.firstRun_eq
  have hname := hunder.name?_eq.1
  rcases hunder.step hb hstep with ⟨hgoes, hmarks⟩ | ⟨ws, fs, e, hback⟩
  · -- the step goes on, and nothing is noted
    obtain ⟨hname', hinside', hunderway'⟩ := hgoes.name?_eq
    refine ⟨turns, hunderway', hfirst, h.holds, hmarks.trans h.marks, hgoes.inPhase hlist, ?_⟩
    rw [milestones_of_inside hinside hinside', List.append_nil, h.log_eq, logOf, logOf, hname, hname']
  · -- the step that has returned becomes a turn
    have hnote := milestones_of_returned (s := (r, w)) (t := (r', w')) hinside hback.phase_eq hback.marks_eq (a, b)
    refine ⟨turns ++ [⟨s, ws, fs, e⟩], ?_, hfirst, fun t ht => ?_, ?_, ?_, ?_⟩
    · rw [hback.phase_eq]
      rfl
    · rcases List.mem_append.1 ht with ht | ht
      · exact h.holds t ht
      · cases List.mem_singleton.1 ht
        exact hback.does
    · simp [hback.marks_eq, h.marks, Turn.mark]
    · rw [hback.phase_eq]
      exact ⟨by simpa using hlist, by simpa using hback.catalog_eq, by simpa [Turn.faults] using hback.faults_eq⟩
    · rw [hnote, h.log_eq, logOf, logOf, hback.phase_eq, hname, Turn.script_concat]
      simp [RunPhase.name?, hback.catalog_eq, hback.faults_eq, Turn.mark, Turn.faults]

/-- **The chronicle of a rebuild.** -/
inductive Chronicle (B : Backend → Prop) (steps : List Step) (firstRun : Bool) (w₀ : World)
    (log : List Milestone) (r : Run) (w : World) : Prop where
  | notYet (hr : r = Run.start steps firstRun) (hw : w = w₀) (hlog : log = [])
  -- without a session nothing else happens
  | refused {o : Outcome Unit} {result : Except Fault Report} (hphase : r.phase = .finished result)
    (ho : refusal o = some result) (hw : w = w₀) (hlog : log = [.asked o])
  | underway {turns : List Turn} (h : Tells B steps firstRun w₀.catalog log turns r w.catalog)
  | finished {turns : List Turn} {result : Except Fault Report} (hphase : r.phase = .finished result)
    (hholds : ∀ t ∈ turns, t.Holds B) (hsteps : Turn.steps turns = steps)
    (hc : w.catalog = w₀.catalog.writeAll (allWrites turns))
    (hlog : log = .asked (.ok ()) :: script w₀.catalog [] turns)
    (hresult : result = Report.verdict firstRun
      ⟨turns.map Turn.mark, allFaults turns, (w.catalog.ids .procedures).size, (w.catalog.ids .offerings).size⟩)

/-- Each act is told in the chronicle. -/
theorem Chronicle.step (h : Chronicle B steps firstRun w₀ log r w) (hb : B b)
    (hstep : r.step b w a = some (r', w')) :
    Chronicle B steps firstRun w₀ (log ++ milestones (r, w) (a, b) (r', w')) r' w' := by
  cases h with
  | notYet hr hw hlog =>
    subst hr hw hlog
    cases Happens.of_step hstep with
    -- the session is opened, and the log begins with this
    | opened _ ho =>
      have hlog : [] ++ milestones (Run.start steps firstRun, w) (.main, b)
          ((Run.start steps firstRun).go (.between steps), w.openSession) = logOf w.catalog [] (.between steps) := by
        simp [milestones, Run.start, go, logOf, script, RunPhase.name?, ho]
      exact .underway ⟨rfl, rfl, by simp, rfl, ⟨rfl, rfl, rfl⟩, hlog⟩
    | refused _ ho => exact .refused rfl ho rfl rfl
    | begun h | through h | went h | ended h | spread h | itemMoved h | joined h | closed h | reported h => cases h
  -- a rebuild that is over does nothing more
  | refused hphase ho hw hlog =>
    rw [step_of_finished hphase] at hstep
    cases hstep
  | finished hphase hholds hsteps hc hlog hresult =>
    rw [step_of_finished hphase] at hstep
    cases hstep
  | @underway turns h =>
    obtain ⟨hunder, hfirst, hholds, hmarks, hin, hlog⟩ := h
    by_cases hinside : r.phase.isInside = true
    · obtain ⟨turns', h'⟩ := Tells.step_inside ⟨hunder, hfirst, hholds, hmarks, hin, hlog⟩ hb hinside hstep
      exact .underway h'
    cases Happens.of_step hstep with
    | @begun s todo hphase =>
      -- the next step is called with what the turns before it left
      rw [hphase] at hin hlog
      obtain ⟨hlist, hc, he⟩ := hin
      refine .underway ⟨rfl, hfirst, hholds, hmarks, ?_, ?_⟩
      · exact ⟨s, [], [], rfl, hlist, by simpa using hc, by simpa [go] using he, fun _ _ _ h => h⟩
      · simp [hlog, milestones, hphase, go, logOf, RunPhase.name?, hc, he]
    | through hphase =>
      rw [hphase] at hin hlog
      obtain ⟨hlist, hc, he⟩ := hin
      refine .underway ⟨rfl, hfirst, hholds, hmarks, ⟨by simpa using hlist, hc, he⟩, ?_⟩
      simp [hlog, milestones, hphase, go, logOf, RunPhase.name?]
    -- the session is closed, and this is not in the log
    | closed hphase =>
      rw [hphase] at hin hlog
      refine .underway ⟨rfl, hfirst, hholds, hmarks, hin, ?_⟩
      simp [hlog, milestones, hphase, go, logOf, RunPhase.name?]
    -- the report is made of what the turns left
    | reported hphase =>
      rw [hphase] at hin hlog
      obtain ⟨hlist, hc, he⟩ := hin
      refine .finished rfl hholds hlist hc ?_ ?_
      · simp [hlog, milestones, hphase, go, logOf, RunPhase.name?]
      · rw [hfirst, report, hmarks, he]
    | opened hphase | refused hphase =>
      rw [hphase] at hunder
      cases hunder
    | went hphase | ended hphase | spread hphase | itemMoved hphase | joined hphase =>
      rw [hphase] at hinside
      exact absurd rfl hinside

/-- **Courses of a rebuild among some backends**, with their milestones. -/
abbrev Chronicles (B : Backend → Prop) (s : Run × World) (log : List Milestone) (t : Run × World) : Prop :=
  Course (fun s (m : Actor × Subtype B) => move s (m.1, m.2)) (fun s m t => milestones s (m.1, m.2) t) s log t

/-- A course is told in its chronicle, act by act. -/
theorem Chronicles.chronicle (h : Chronicles B (Run.start steps firstRun, w₀) log (r, w)) :
    Story B steps firstRun w₀.catalog r w.catalog ∧ Chronicle B steps firstRun w₀ log r w := by
  generalize hs : (r, w) = s at h
  -- over the course, as the story and the chronicle go on together
  induction h generalizing r w with
  | start =>
    cases hs
    exact ⟨.start steps firstRun w₀.catalog, .notYet rfl rfl rfl⟩
  | @act log t u m _ hstep ih =>
    cases hs
    obtain ⟨hstory, hchronicle⟩ := ih rfl
    exact ⟨hstory.step m.2.2 hstep, hchronicle.step m.2.2 hstep⟩

/-- **Steps are isolated from each other.** A rebuild never goes on for ever, and until it is over somebody can
move unless it is held up. If the archive refused it a session, this is its result, no step was called, and the
world is as it was. Else each of its steps was called once, in their order and with the catalog and the faults that
the one before it left, however that one ended. The catalog has the writes of all steps. The report marks the steps
that failed, has the faults of all steps, each one's own failure behind what it reported, and counts what is in the
catalog. It is the result, unless this is the first rebuild and left no procedure or no offering. -/
theorem isolates_steps (h : Chronicles B (Run.start steps firstRun, w) log (r, w')) :
    (WellFounded fun t s => ∃ m, move s m = some t) ∧
    (r.result? = none → r.IsHeldUp w' ∨ ∀ b, ∃ a, (r.step b w' a).isSome) ∧
    ∀ result, r.result? = some result →
      (∃ f, log = [.asked (.fault f)] ∧ result = .error (.archive f) ∧ w' = w) ∨
      (∃ p, log = [.asked (.panic p)] ∧ result = .error (.rebuild p.message) ∧ w' = w) ∨
      ∃ turns, log = .asked (.ok ()) :: script w.catalog [] turns ∧ Turn.steps turns = steps ∧
        (∀ t ∈ turns, t.Holds B) ∧ w'.catalog = w.catalog.writeAll (allWrites turns) ∧
        let report : Report := ⟨turns.map Turn.mark, allFaults turns, (w'.catalog.ids .procedures).size,
          (w'.catalog.ids .offerings).size⟩
        result = if firstRun = true ∧ (report.procedures = 0 ∨ report.offerings = 0) then .error report.unusable
          else .ok report := by
  obtain ⟨hstory, hchronicle⟩ := h.chronicle
  refine ⟨terminates, exists_step_or_heldUp hstory, fun result hover => ?_⟩
  have hfinished := phase_of_result? hover
  -- the rebuild is over, so it was refused at the beginning or has had all its turns
  cases hchronicle with
  | notYet hr hw hlog =>
    subst hr
    cases hfinished
  | @refused o result' hphase ho hw hlog =>
    cases hphase.symm.trans hfinished
    cases o with
    | ok u => cases ho
    | fault f => cases ho; exact .inl ⟨f, hlog, rfl, hw⟩
    | panic p => cases ho; exact .inr (.inl ⟨p, hlog, rfl, hw⟩)
  | underway h =>
    have hunder := h.underway
    rw [hfinished] at hunder
    cases hunder
  | @finished turns result' hphase hholds hsteps hc hlog hresult =>
    cases hphase.symm.trans hfinished
    exact .inr (.inr ⟨turns, hlog, hsteps, hholds, hc, hresult.trans (Report.verdict_eq _ _)⟩)

/-- A step that reports a fault, one that fails after a write, and one that breaks off. -/
def failingSteps : List Step :=
  [⟨"reports", .write (.addId .procedures "gauge") (.report (.degraded 1) .done)⟩,
    ⟨"fails", .write (.addId .offerings "shed") (.fail (.rebuild "no rows"))⟩,
    ⟨"breaks off", .write (.addId .procedures "pump") (.panic (.text "lost"))⟩]

/-- All three are called, and what they wrote stays. -/
theorem isolates_steps_failing : ∃ log r w' report turns,
    Chronicles (· = FanOut.answering) (Run.start failingSteps true, .initial) log (r, w') ∧
      r.result? = some (.ok report) ∧
      report.steps = [⟨"reports", false⟩, ⟨"fails", true⟩, ⟨"breaks off", true⟩] ∧
      report.errors = [.degraded 1, .step "fails" (.rebuild "no rows"), .stepPanicked "breaks off" "lost"] ∧
      (report.procedures, report.offerings) = (2, 1) ∧
      log = .asked (.ok ()) :: script World.initial.catalog [] turns ∧ Turn.steps turns = failingSteps := by
  -- the acts are carried out one by one, and the rest is read off the state they lead to
  obtain ⟨log, r, w', report, h, hresult, hsteps, herrors, hcounts⟩ : ∃ log r w' report,
      Chronicles (· = FanOut.answering) (Run.start failingSteps true, .initial) log (r, w') ∧
        r.result? = some (.ok report) ∧
        report.steps = [⟨"reports", false⟩, ⟨"fails", true⟩, ⟨"breaks off", true⟩] ∧
        report.errors = [.degraded 1, .step "fails" (.rebuild "no rows"), .stepPanicked "breaks off" "lost"] ∧
        (report.procedures, report.offerings) = (2, 1) :=
    ⟨_, _, _, _, Course.of_carryOut (List.replicate 14 (.main, ⟨FanOut.answering, rfl⟩)) .start rfl, rfl, rfl, rfl,
      rfl⟩
  rcases (isolates_steps h).2.2 _ hresult with ⟨f, -, hf, -⟩ | ⟨p, -, hp, -⟩ | ⟨turns, hlog, hturns, -⟩
  · cases hf
  · cases hp
  · exact ⟨log, r, w', report, turns, h, hresult, hsteps, herrors, hcounts, hlog, hturns⟩

end Run

end SensorCatalog
