import SensorCatalog.Proofs.Catalog.Write
import SensorCatalog.Proofs.Rebuild.Step

/-!
# What a rebuild has done

A rebuild carries out its steps one after the other. A `Turn` is a step with all that it did, and it holds
when the program of the step can do this (`Program.Does`). `Run.Story` says that a rebuild is made of such
turns: the catalog has the writes of all turns in their order, and the collector has their faults. The step
that is not over is kept as a program with a past, so that whatever the rest does completes the turn
(`Program.Leads`).

The step that has been called last is looked at on its own: while it is under way (`Run.Underway`) it goes on or
returns with each act (`Run.Underway.step`), and `Run.Returned` says what it has done then.

`Run.Story.step` carries the story over each act, by cases on `Run.Happens`. When the rebuild is over,
either no session could be opened and nothing happened, or each step has had its turn (`Run.Story.finished`).

The story is about the catalog and not about the world around it, so it goes on while others edit the
archive.
-/

namespace SensorCatalog

variable {B : Backend → Prop}

/-- **A program with a past.** Whatever `rest` does, the program has done it after the writes `ws` and the
faults `fs`. -/
def Program.Leads (B : Backend → Prop) (p : Program) (ws : List Write) (fs : List Fault)
    (rest : Program) : Prop :=
  ∀ ws' fs' e, rest.Does B ws' fs' e → p.Does B (ws ++ ws') (fs ++ fs') e

/-- **A step that was carried out**, and what it did. -/
structure Turn where
  /-- The step. -/
  step : Step
  /-- The writes. -/
  writes : List Write
  /-- The faults that it reported. -/
  pushed : List Fault
  /-- How it ended. -/
  ending : Ending

namespace Turn

/-- The faults by which the turn is reported: those of the step, and then its own failure. -/
def faults (t : Turn) : List Fault := t.pushed ++ (t.ending.fault? t.step.name).toList

/-- The mark that the turn leaves. -/
def mark (t : Turn) : StepMark := ⟨t.step.name, !t.ending.isDone⟩

/-- The step can do this. -/
def Holds (B : Backend → Prop) (t : Turn) : Prop := t.step.program.Does B t.writes t.pushed t.ending

/-- The steps of some turns. -/
def steps (turns : List Turn) : List Step := turns.map (·.step)

/-- The writes of some turns. -/
def allWrites (turns : List Turn) : List Write := turns.flatMap (·.writes)

/-- The faults of some turns. -/
def allFaults (turns : List Turn) : List Fault := turns.flatMap faults

@[simp] theorem steps_append (turns more : List Turn) : steps (turns ++ more) = steps turns ++ steps more :=
  List.map_append

@[simp] theorem allWrites_append (turns more : List Turn) :
    allWrites (turns ++ more) = allWrites turns ++ allWrites more :=
  List.flatMap_append

@[simp] theorem allFaults_append (turns more : List Turn) :
    allFaults (turns ++ more) = allFaults turns ++ allFaults more :=
  List.flatMap_append

@[simp] theorem steps_one (t : Turn) : steps [t] = [t.step] := rfl

@[simp] theorem allWrites_one (t : Turn) : allWrites [t] = t.writes := by simp [allWrites]

@[simp] theorem allFaults_one (t : Turn) : allFaults [t] = t.faults := by simp [allFaults]

end Turn

/-- Whether a step is under way in this phase. -/
def RunPhase.isInside : RunPhase → Bool
  | .executing _ _ _ | .joining _ _ _ _ => true
  | _ => false

namespace Run

open Turn (allWrites allFaults)

variable {steps : List Step} {firstRun : Bool} {c₀ : Catalog} {b : Backend} {r r' : Run} {w w' : World}

/-! ### Inside a step -/

/-- A rebuild keeps its steps, and whether it is the first one. -/
theorem kept_of_step {a : Actor} (h : r.step b w a = some (r', w')) :
    r'.steps = r.steps ∧ r'.firstRun = r.firstRun := by
  cases Happens.of_step h <;> exact ⟨rfl, rfl⟩

/-- **A step that is under way**, with the steps that are to come after it. It was called when the catalog
was `c₀` and the collector had the faults `faults₀`. -/
def Underway (B : Backend → Prop) (s : Step) (todo : List Step) (c₀ : Catalog) (faults₀ : List Fault)
    (e : Collector) (c : Catalog) : RunPhase → Prop
  | .executing name rest todo' => s.name = name ∧ todo' = todo ∧ ∃ ws fs, c = c₀.writeAll ws ∧
    e.faults = faults₀ ++ fs ∧ s.program.Leads B ws fs rest
  | .joining name f next todo' => s.name = name ∧ todo' = todo ∧
    ∃ ws fs threads procedures work moves, (∀ m ∈ moves, B m.2) ∧
      FanOut.Story procedures work (c₀.writeAll ws) (faults₀ ++ fs) moves f e c ∧
      s.program.Leads B ws fs (.fanOut threads procedures work next)
  | _ => False

/-- **A step that has returned**, with all that it did. -/
structure Returned (B : Backend → Prop) (s : Step) (todo : List Step) (c₀ : Catalog)
    (faults₀ : List Fault) (marks : List StepMark) (r : Run) (c : Catalog) (ws : List Write)
    (fs : List Fault) (e : Ending) : Prop where
  /-- The program of the step can do this. -/
  does : s.program.Does B ws fs e
  /-- The other steps are still to come. -/
  phase_eq : r.phase = .between todo
  /-- The catalog has the writes of the step. -/
  catalog_eq : c = c₀.writeAll ws
  /-- The collector has its faults, and then its own failure. -/
  faults_eq : r.errors.faults = faults₀ ++ (fs ++ (e.fault? s.name).toList)
  /-- The step is marked by how it ended. -/
  marks_eq : r.marks = marks ++ [⟨s.name, !e.isDone⟩]

/-- **A step that is under way goes on or returns**, whoever moves and whatever backend he meets. -/
theorem Underway.step {s : Step} {todo : List Step} {faults₀ : List Fault} {a : Actor}
    (h : Underway B s todo c₀ faults₀ r.errors w.catalog r.phase) (hb : B b)
    (hstep : r.step b w a = some (r', w')) :
    (Underway B s todo c₀ faults₀ r'.errors w'.catalog r'.phase ∧ r'.marks = r.marks) ∨
      ∃ ws fs e, Returned B s todo c₀ faults₀ r.marks r' w'.catalog ws fs e := by
  cases Happens.of_step hstep with
  | @went name p rest todo' ws' fs' w₁ hphase hadv =>
    rw [hphase] at h
    obtain ⟨hname, htodo, ws, fs, hc, he, hleads⟩ := h
    refine .inl ⟨⟨hname, htodo, ws ++ ws', fs ++ fs', ?_, ?_, ?_⟩, rfl⟩
    · rw [hadv.catalog_eq, hc, Catalog.writeAll_append]
    · rw [he, List.append_assoc]
    · -- what is done now moves from what is left into the past
      intro ws₁ fs₁ e h₁
      rw [List.append_assoc, List.append_assoc]
      exact hleads _ _ _ (hadv.does hb h₁)
  | @ended name p todo' e hphase hend =>
    -- the program has done what is in its past
    rw [hphase] at h
    obtain ⟨rfl, rfl, ws, fs, hc, he, hleads⟩ := h
    have hdoes := hleads _ _ _ (Program.does_of_ending hend)
    rw [List.append_nil, List.append_nil] at hdoes
    exact .inr ⟨ws, fs, e, hdoes, rfl, hc, by simp [conclude, he], rfl⟩
  | @spread name threads procedures work next todo' hphase =>
    -- the items begin their own story with the catalog and the faults as they are
    rw [hphase] at h
    obtain ⟨hname, htodo, ws, fs, hc, he, hleads⟩ := h
    refine .inl ⟨⟨hname, htodo, ws, fs, threads, procedures, work, [], by simp, ?_, hleads⟩, rfl⟩
    rw [← hc, ← he]
    exact FanOut.Story.start threads r.errors w.catalog
  | @itemMoved i name f f' next todo' e' w₁ hphase hitem =>
    rw [hphase] at h
    obtain ⟨hname, htodo, ws, fs, threads, procedures, work, moves, hmoves, hstory, hleads⟩ := h
    -- only the story of the items goes on
    refine .inl ⟨⟨hname, htodo, ws, fs, threads, procedures, work, moves ++ [(i, b)], ?_,
      hstory.step hitem, hleads⟩, rfl⟩
    intro m hm
    rcases List.mem_append.1 hm with hm | hm
    · exact hmoves m hm
    · exact List.mem_singleton.1 hm ▸ hb
  | joined hphase hover =>
    rw [hphase] at h
    obtain ⟨hname, htodo, ws, fs, threads, procedures, work, moves, hmoves, hstory, hleads⟩ := h
    -- what the items came to is added to the past of the program
    obtain ⟨ws₁, fs₁, hsettled, hc, he⟩ := hstory.settled hover
    refine .inl ⟨⟨hname, htodo, ws ++ ws₁, fs ++ fs₁, ?_, ?_, ?_⟩, rfl⟩
    · rw [hc, Catalog.writeAll_append]
    · rw [← List.append_assoc]
      exact he
    · intro ws' fs' e hnext
      rw [List.append_assoc, List.append_assoc]
      exact hleads _ _ _
        (.fanOut ⟨moves, hmoves, hsettled.ended, hsettled.writes, hsettled.faults⟩ hnext)
  -- in all other phases no step is under way
  | opened hphase | refused hphase | begun hphase | through hphase | closed hphase | reported hphase =>
    rw [hphase] at h
    exact h.elim

/-! ### From turn to turn -/

/-- **A rebuild in its phase**, after some turns. -/
def InPhase (B : Backend → Prop) (steps : List Step) (c₀ : Catalog) (turns : List Turn) (r : Run)
    (c : Catalog) : RunPhase → Prop
  | .opening => turns = [] ∧ c = c₀ ∧ r.errors.faults = []
  | .between todo =>
    Turn.steps turns ++ todo = steps ∧ c = c₀.writeAll (allWrites turns) ∧ r.errors.faults = allFaults turns
  | .executing name rest todo => ∃ s ws fs, s.name = name ∧ Turn.steps turns ++ s :: todo = steps ∧
    c = c₀.writeAll (allWrites turns ++ ws) ∧ r.errors.faults = allFaults turns ++ fs ∧
    s.program.Leads B ws fs rest
  | .joining name f next todo => ∃ s ws fs threads procedures work moves, s.name = name ∧
    Turn.steps turns ++ s :: todo = steps ∧ (∀ m ∈ moves, B m.2) ∧
    FanOut.Story procedures work (c₀.writeAll (allWrites turns ++ ws)) (allFaults turns ++ fs) moves f
      r.errors c ∧
    s.program.Leads B ws fs (.fanOut threads procedures work next)
  | .closing | .reporting =>
    Turn.steps turns = steps ∧ c = c₀.writeAll (allWrites turns) ∧ r.errors.faults = allFaults turns
  | .finished result =>
    (turns = [] ∧ c = c₀ ∧ ∃ b, B b ∧ refusal b.opening = some result) ∨
      Turn.steps turns = steps ∧ c = c₀.writeAll (allWrites turns) ∧ r.errors.faults = allFaults turns ∧
        result = (r.report c).verdict r.firstRun

/-- **The story of a rebuild**, from the catalog that it found to the one that it leaves. -/
structure Story (B : Backend → Prop) (steps : List Step) (firstRun : Bool) (c₀ : Catalog) (r : Run)
    (c : Catalog) : Prop where
  /-- The steps are what they were. -/
  steps_eq : r.steps = steps
  /-- Whether it is the first rebuild does not change either. -/
  firstRun_eq : r.firstRun = firstRun
  /-- Each step that is over has had its turn. -/
  turns : ∃ turns : List Turn, (∀ t ∈ turns, t.Holds B) ∧ r.marks = turns.map Turn.mark ∧
    InPhase B steps c₀ turns r c r.phase

/-- At first no turn has been taken. -/
theorem Story.start (steps : List Step) (firstRun : Bool) (c : Catalog) :
    Story B steps firstRun c (Run.start steps firstRun) c where
  steps_eq := rfl
  firstRun_eq := rfl
  turns := ⟨[], by simp, rfl, rfl, rfl, rfl⟩

/-- A step that is under way follows on the turns of those before it. -/
theorem InPhase.underway {turns : List Turn} {c : Catalog} {phase : RunPhase}
    (h : InPhase B steps c₀ turns r c phase) (hinside : phase.isInside = true) :
    ∃ s todo, Turn.steps turns ++ s :: todo = steps ∧
      Underway B s todo (c₀.writeAll (allWrites turns)) (allFaults turns) r.errors c phase := by
  -- the writes of the step follow those of the turns, and so do its faults
  cases phase with
  | executing name rest todo =>
    obtain ⟨s, ws, fs, hname, hlist, hc, he, hleads⟩ := h
    exact ⟨s, todo, hlist, hname, rfl, ws, fs, hc.trans (Catalog.writeAll_append _ _ _), he, hleads⟩
  | joining name f next todo =>
    obtain ⟨s, ws, fs, threads, procedures, work, moves, hname, hlist, hmoves, hstory, hleads⟩ := h
    rw [Catalog.writeAll_append] at hstory
    exact ⟨s, todo, hlist, hname, rfl, ws, fs, threads, procedures, work, moves, hmoves, hstory, hleads⟩
  | _ => cases hinside

@[inherit_doc InPhase.underway]
theorem Underway.inPhase {s : Step} {todo : List Step} {turns : List Turn} {c : Catalog} {phase : RunPhase}
    (h : Underway B s todo (c₀.writeAll (allWrites turns)) (allFaults turns) r.errors c phase)
    (hlist : Turn.steps turns ++ s :: todo = steps) : InPhase B steps c₀ turns r c phase := by
  cases phase with
  | executing name rest todo' =>
    obtain ⟨hname, rfl, ws, fs, hc, he, hleads⟩ := h
    exact ⟨s, ws, fs, hname, hlist, hc.trans (Catalog.writeAll_append _ _ _).symm, he, hleads⟩
  | joining name f next todo' =>
    obtain ⟨hname, rfl, ws, fs, threads, procedures, work, moves, hmoves, hstory, hleads⟩ := h
    rw [← Catalog.writeAll_append] at hstory
    exact ⟨s, ws, fs, threads, procedures, work, moves, hname, hlist, hmoves, hstory, hleads⟩
  | _ => exact h.elim

/-- **The story goes on** with each act, whoever moves and whatever backend he meets. -/
theorem Story.step {a : Actor} (h : Story B steps firstRun c₀ r w.catalog) (hb : B b)
    (hstep : r.step b w a = some (r', w')) : Story B steps firstRun c₀ r' w'.catalog := by
  obtain ⟨hsteps, hfirst, turns, hholds, hmarks, hin⟩ := h
  by_cases hinside : r.phase.isInside = true
  · obtain ⟨s, todo, hlist, hunder⟩ := hin.underway hinside
    obtain ⟨hsteps', hfirst'⟩ := kept_of_step hstep
    rcases hunder.step hb hstep with ⟨hgoes, hmarks'⟩ | ⟨ws, fs, e, hback⟩
    · exact ⟨hsteps'.trans hsteps, hfirst'.trans hfirst, turns, hholds, hmarks'.trans hmarks,
        hgoes.inPhase hlist⟩
    · -- the step that has returned becomes a turn
      refine ⟨hsteps'.trans hsteps, hfirst'.trans hfirst, turns ++ [⟨s, ws, fs, e⟩], fun t ht => ?_, ?_, ?_⟩
      · rcases List.mem_append.1 ht with ht | ht
        · exact hholds t ht
        · cases List.mem_singleton.1 ht
          exact hback.does
      · simp [hback.marks_eq, hmarks, Turn.mark]
      · rw [hback.phase_eq]
        exact ⟨by simpa using hlist, by simpa using hback.catalog_eq,
          by simpa [Turn.faults] using hback.faults_eq⟩
  cases Happens.of_step hstep with
  | opened hphase ho =>
    rw [hphase] at hin
    obtain ⟨rfl, hc, he⟩ := hin
    exact ⟨hsteps, hfirst, [], hholds, hmarks, hsteps, hc, he⟩
  | refused hphase ho =>
    -- the rebuild is over without a turn
    rw [hphase] at hin
    exact ⟨hsteps, hfirst, turns, hholds, hmarks, .inl ⟨hin.1, hin.2.1, b, hb, ho⟩⟩
  | @begun s todo hphase =>
    -- the program of the next step, with nothing in its past
    rw [hphase] at hin
    obtain ⟨hlist, hc, he⟩ := hin
    exact ⟨hsteps, hfirst, turns, hholds, hmarks, s, [], [], rfl, hlist, by simpa using hc,
      by simpa [go] using he, fun _ _ _ h => h⟩
  | through hphase =>
    rw [hphase] at hin
    obtain ⟨hlist, hc, he⟩ := hin
    exact ⟨hsteps, hfirst, turns, hholds, hmarks, by simpa using hlist, hc, he⟩
  | closed hphase =>
    rw [hphase] at hin
    exact ⟨hsteps, hfirst, turns, hholds, hmarks, hin⟩
  | reported hphase =>
    rw [hphase] at hin
    exact ⟨hsteps, hfirst, turns, hholds, hmarks, .inr ⟨hin.1, hin.2.1, hin.2.2, rfl⟩⟩
  -- these happen while a step is under way
  | went hphase | ended hphase | spread hphase | itemMoved hphase | joined hphase =>
    rw [hphase] at hinside
    exact absurd rfl hinside

/-- **A rebuild that is over.** Either no session could be opened and the catalog is what it was, or each
step has had its turn. -/
theorem Story.finished {c : Catalog} {result : Except Fault Report}
    (h : Story B steps firstRun c₀ r c) (hover : r.result? = some result) :
    (c = c₀ ∧ ∃ b, B b ∧ refusal b.opening = some result) ∨
      ∃ turns, (∀ t ∈ turns, t.Holds B) ∧ Turn.steps turns = steps ∧
        c = c₀.writeAll (allWrites turns) ∧
        result = Report.verdict firstRun
          ⟨turns.map Turn.mark, allFaults turns, (c.ids .procedures).size, (c.ids .offerings).size⟩ := by
  obtain ⟨hsteps, hfirst, turns, hholds, hmarks, hin⟩ := h
  rw [phase_of_result? hover] at hin
  rcases hin with ⟨-, hc, hb⟩ | ⟨hlist, hc, he, hresult⟩
  · exact .inl ⟨hc, hb⟩
  · refine .inr ⟨turns, hholds, hlist, hc, ?_⟩
    rw [hresult, report, hmarks, he, hfirst]

end Run

end SensorCatalog
