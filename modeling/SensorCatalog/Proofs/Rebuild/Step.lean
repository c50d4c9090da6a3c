import SensorCatalog.Proofs.Rebuild.Program

/-!
# The acts of a rebuild

`Program.Advance` lists the acts by which a program gets from one point to the next, each with what it
writes and reports. A program that is over ends its step (`Program.ending?`, `Run.conclude`), and one that
has work done side by side hands over to the items. `Run.Happens` lists all acts of a rebuild, and every
step is one of them (`Run.Happens.of_step`). What is proved by cases on these lists needs no look at
`Run.step` itself.
-/

namespace SensorCatalog

variable {B : Backend → Prop} {b : Backend} {r r' : Run} {w w' : World}

namespace Program

/-- How a program ends that is over. -/
def ending? : Program → Option Ending
  | .done => some .done
  | .fail f => some (.fail f)
  | .panic p => some (.panic p)
  | _ => none

/-- **The acts of a program**, from one point to the next, with what is written and what is reported. -/
inductive Advance (b : Backend) (w : World) :
    Program → Program → List Write → List Fault → World → Prop where
  | query {q : Query} {next : Outcome q.Reply → Program} :
    Advance b w (.query q next) (next (b.answers q)) [] [] w
  | write {x : Write} {next : Program} : Advance b w (.write x next) next [x] [] (w.write x)
  | report {f : Fault} {next : Program} : Advance b w (.report f next) next [] [f] w
  | edit {x : Edit} {next : Program} : Advance b w (.edit x next) next [] [] (w.edit x)
  | arrive {next : Program} : Advance b w (.arrive next) next [] [] w.arrive
  -- held up while the gate is closed
  | pass {next : Program} (hopen : w.gate.closed = false) : Advance b w (.pass next) next [] [] w

variable {p rest : Program} {ws : List Write} {fs : List Fault}

/-- A program that is at its end does nothing more. -/
theorem does_of_ending {e : Ending} (h : p.ending? = some e) : p.Does B [] [] e := by
  cases p with
  | done => cases h; exact .done
  | fail f => cases h; exact .fail f
  | panic x => cases h; exact .panic x
  | _ => cases h

/-- An act has the catalog written into what it says. -/
theorem Advance.catalog_eq (h : Advance b w p rest ws fs w') : w'.catalog = w.catalog.writeAll ws := by
  cases h <;> rfl

/-- What the rest of a program does is done by the program after this act. -/
theorem Advance.does (h : Advance b w p rest ws fs w') (hb : B b) {ws' : List Write} {fs' : List Fault}
    {e : Ending} (hrest : rest.Does B ws' fs' e) : p.Does B (ws ++ ws') (fs ++ fs') e := by
  cases h with
  | query => exact .query hb hrest
  | write => exact .write hrest
  | report => exact .report hrest
  | edit => exact .edit hrest
  | arrive => exact .arrive hrest
  | pass hopen => exact .pass hrest

end Program

namespace Run

/-- What comes of a rebuild for which no session could be opened. -/
def refusal : Outcome Unit → Option (Except Fault Report)
  | .ok _ => none
  | .fault f => some (.error (.archive f))
  | .panic p => some (.error (.rebuild p.message))

/-- The run after a step that ended. -/
def conclude (r : Run) (name : String) (e : Ending) (todo : List Step) : Run :=
  { r with
    phase := .between todo
    errors := ⟨r.errors.faults ++ (e.fault? name).toList⟩
    marks := r.marks ++ [⟨name, !e.isDone⟩] }

/-- **What can happen in a rebuild.** -/
inductive Happens (b : Backend) (r : Run) (w : World) : Actor → Run → World → Prop where
  | opened (hphase : r.phase = .opening) (ho : b.opening = .ok ()) :
    Happens b r w .main (r.go (.between r.steps)) w.openSession
  | refused {result : Except Fault Report} (hphase : r.phase = .opening)
    (ho : refusal b.opening = some result) : Happens b r w .main (r.go (.finished result)) w
  -- one step after the other
  | begun {s : Step} {todo : List Step} (hphase : r.phase = .between (s :: todo)) :
    Happens b r w .main (r.go (.executing s.name s.program todo)) w
  | through (hphase : r.phase = .between []) : Happens b r w .main (r.go .closing) w
  -- inside a step
  | went {name : String} {p rest : Program} {todo : List Step} {ws : List Write} {fs : List Fault}
    {w' : World} (hphase : r.phase = .executing name p todo) (h : p.Advance b w rest ws fs w') :
    Happens b r w .main
      { r with phase := .executing name rest todo, errors := ⟨r.errors.faults ++ fs⟩ } w'
  | ended {name : String} {p : Program} {todo : List Step} {e : Ending}
    (hphase : r.phase = .executing name p todo) (h : p.ending? = some e) :
    Happens b r w .main (r.conclude name e todo) w
  -- work side by side
  | spread {name : String} {threads : Nat} {procedures : List String} {work : String → Work}
    {next : Program} {todo : List Step}
    (hphase : r.phase = .executing name (.fanOut threads procedures work next) todo) :
    Happens b r w .main (r.go (.joining name (FanOut.start threads procedures work) next todo)) w
  | itemMoved {i : Nat} {name : String} {f f' : FanOut} {next : Program} {todo : List Step}
    {e' : Collector} {w' : World} (hphase : r.phase = .joining name f next todo)
    (h : f.step b i r.errors w = some (f', e', w')) :
    Happens b r w (.item i) { r with phase := .joining name f' next todo, errors := e' } w'
  | joined {name : String} {f : FanOut} {next : Program} {todo : List Step}
    (hphase : r.phase = .joining name f next todo) (hover : f.isOver = true) :
    Happens b r w .main (r.go (.executing name next todo)) w
  -- after the last step
  | closed (hphase : r.phase = .closing) : Happens b r w .main (r.go .reporting) w.closeSession
  | reported (hphase : r.phase = .reporting) :
    Happens b r w .main (r.go (.finished ((r.report w.catalog).verdict r.firstRun))) w

/-- What the program of a step does is one of these acts. -/
theorem Happens.of_execute {name : String} {p : Program} {todo : List Step}
    (hphase : r.phase = .executing name p todo) (h : execute b r w name todo p = some (r', w')) :
    Happens b r w .main r' w' := by
  -- an act that reports nothing leaves the collector as it is
  have hgo : ∀ {rest ws w₁}, p.Advance b w rest ws [] w₁ →
      Happens b r w .main (r.go (.executing name rest todo)) w₁ := by
    intro rest ws w₁ hadv
    simpa [go] using Happens.went hphase hadv
  cases p with
  | done =>
    cases h
    simpa [conclude, succeed, Ending.fault?, Ending.isDone] using
      Happens.ended (b := b) (w := w) hphase rfl
  | fail f => cases h; exact .ended hphase rfl
  | panic x => cases h; exact .ended hphase rfl
  | query q next => cases h; exact hgo .query
  | write x next => cases h; exact hgo .write
  | report f next => cases h; exact .went hphase .report
  | fanOut threads procedures work next => cases h; exact .spread hphase
  | edit x next => cases h; exact hgo .edit
  | arrive next => cases h; exact hgo .arrive
  | pass next =>
    -- at the gate it goes on only if this is open
    rw [execute] at h
    split at h
    · cases h
    · rename_i hopen
      cases h
      exact hgo (.pass (by simpa using hopen))

/-- **Every step is one of these.** -/
theorem Happens.of_step {a : Actor} (h : r.step b w a = some (r', w')) : Happens b r w a r' w' := by
  cases a with
  | main =>
    rw [step, stepMain] at h
    cases hphase : r.phase with
    | opening =>
      simp only [hphase] at h
      cases ho : b.opening with
      | ok u => simp only [ho] at h; cases h; exact .opened hphase ho
      | fault f => simp only [ho] at h; cases h; exact .refused hphase (by rw [ho]; rfl)
      | panic p => simp only [ho] at h; cases h; exact .refused hphase (by rw [ho]; rfl)
    -- between the steps the next one is called, and after the last one the session is closed
    | between todo =>
      simp only [hphase] at h
      cases todo with
      | nil => cases h; exact .through hphase
      | cons s todo => cases h; exact .begun hphase
    | executing name p todo =>
      simp only [hphase] at h
      exact .of_execute hphase h
    | joining name f next todo =>
      simp only [hphase] at h
      split at h
      · rename_i hover
        cases h
        exact .joined hphase hover
      · cases h
    | closing => simp only [hphase] at h; cases h; exact .closed hphase
    | reporting => simp only [hphase] at h; cases h; exact .reported hphase
    | finished result => simp only [hphase] at h; cases h
  | item i =>
    rw [step, stepItem] at h
    -- only in the middle of a fan-out are there items
    cases hphase : r.phase with
    | joining name f next todo =>
      simp only [hphase] at h
      cases hitem : f.step b i r.errors w with
      | none => simp [hitem] at h
      | some x =>
        obtain ⟨f', e', w₁⟩ := x
        simp only [hitem, Option.some.injEq, Prod.mk.injEq] at h
        obtain ⟨rfl, rfl⟩ := h
        exact .itemMoved hphase hitem
    | _ => simp [hphase] at h

/-- A refusal is not an opening. -/
theorem isOk_of_refusal {o : Outcome Unit} {result : Except Fault Report} (h : refusal o = some result) :
    o.isOk = false := by
  cases o with
  | ok u => cases h
  | fault f | panic p => rfl

/-- Only a rebuild in its last phase has a result. -/
theorem phase_of_result? {result : Except Fault Report} (h : r.result? = some result) :
    r.phase = .finished result := by
  unfold result? at h
  split at h
  · rename_i hphase
    cases h
    exact hphase
  · cases h

/-- Nobody has anything to do in a rebuild that is over. -/
theorem step_of_finished {result : Except Fault Report} (hphase : r.phase = .finished result) (b : Backend)
    (w : World) (a : Actor) : r.step b w a = none := by
  cases a with
  | main => rw [step, stepMain, hphase]
  | item i => rw [step, stepItem, hphase]

/-- A rebuild never has the result that the keeper is being closed. -/
theorem result?_ne_closing {a : Actor} (h : r.step b w a = some (r', w')) :
    r'.result? ≠ some (.error .closing) := by
  cases Happens.of_step h with
  | refused hphase ho =>
    -- whatever went wrong, it was the archive
    cases hb : b.opening <;> rw [hb] at ho <;> cases ho <;> simp [result?, go]
  | reported hphase =>
    -- the verdict is a report, or the fault that the catalog is of no use
    simp only [result?, go, Report.verdict]
    split
    · simp [Report.unusable]
    · simp
  | _ => simp [result?, go, conclude]

end Run

end SensorCatalog
