import SensorCatalog.Rebuild.FanOut
import SensorCatalog.Rebuild.Report

/-!
# A rebuild as it runs

A `Run` opens a session, carries out its steps in their order, gives the session back and reports. What a
step does wrong is collected and does not keep the next step from running. Only a session that cannot be
opened ends the run at once.

`Run.step` moves the run by one act. While a step waits for work that is done side by side, the acts are
those of the items of that work (`Actor.item`); else they are those of the run itself (`Actor.main`). The
answers of the archive are given to each act anew, so they may differ from act to act.
-/

namespace SensorCatalog

/-- How far a run is. -/
inductive RunPhase where
  /-- No session yet. -/
  | opening
  | between (todo : List Step)
  /-- In a step. -/
  | executing (name : String) (rest : Program) (todo : List Step)
  /-- In a step that waits for work that is done side by side. -/
  | joining (name : String) (fanOut : FanOut) (next : Program) (todo : List Step)
  /-- After the last step, with the session still open. -/
  | closing
  /-- Without a session, with the report to be made. -/
  | reporting
  | finished (result : Except Fault Report)

/-- A rebuild as it runs. -/
structure Run where
  steps : List Step
  /-- Whether the catalog has never been rebuilt with success. -/
  firstRun : Bool
  phase : RunPhase
  errors : Collector
  /-- The steps carried out so far. -/
  marks : List StepMark

/-- Who moves. -/
inductive Actor where
  /-- The run itself. -/
  | main
  /-- An item of the work that is done side by side. -/
  | item (i : Nat)
  deriving DecidableEq

namespace Run

/-- A run before its first act. -/
def start (steps : List Step) (firstRun : Bool) : Run := ⟨steps, firstRun, .opening, .empty, []⟩

/-- The result, when the run is over. -/
def result? (r : Run) : Option (Except Fault Report) :=
  match r.phase with
  | .finished result => some result
  | _ => none

/-- The run in another phase. -/
def go (r : Run) (phase : RunPhase) : Run := { r with phase := phase }

/-- The run after a step that succeeded. -/
def succeed (r : Run) (name : String) (todo : List Step) : Run :=
  { r with phase := .between todo, marks := r.marks ++ [⟨name, false⟩] }

/-- The run after a step that failed. -/
def fail (r : Run) (name : String) (f : Fault) (todo : List Step) : Run :=
  { r with phase := .between todo, errors := r.errors.push f, marks := r.marks ++ [⟨name, true⟩] }

/-- The report on a run, given the catalog at its end. -/
def report (r : Run) (c : Catalog) : Report :=
  ⟨r.marks, r.errors.faults, (c.ids .procedures).size, (c.ids .offerings).size⟩

/-- The next act of a program inside a step; `none` when it is held up. -/
def execute (b : Backend) (r : Run) (w : World) (name : String) (todo : List Step) :
    Program → Option (Run × World)
  | .done => some (r.succeed name todo, w)
  | .fail f => some (r.fail name (.step name f) todo, w)
  | .panic p => some (r.fail name (.stepPanicked name p.message) todo, w)
  | .query q next => some (r.go (.executing name (next (b.answers q)) todo), w)
  | .write x next => some (r.go (.executing name next todo), w.write x)
  | .report f next =>
    some ({ r with phase := .executing name next todo, errors := r.errors.push f }, w)
  | .fanOut threads procedures work next =>
    some (r.go (.joining name (FanOut.start threads procedures work) next todo), w)
  | .edit e next => some (r.go (.executing name next todo), w.edit e)
  | .arrive next => some (r.go (.executing name next todo), w.arrive)
  | .pass next => if w.gate.closed then none else some (r.go (.executing name next todo), w)

/-- The next act of the run itself; `none` when it is held up or over. -/
def stepMain (b : Backend) (r : Run) (w : World) : Option (Run × World) :=
  match r.phase with
  | .opening =>
    match b.opening with
    | .ok _ => some (r.go (.between r.steps), w.openSession)
    | .fault f => some (r.go (.finished (.error (.archive f))), w)
    | .panic p => some (r.go (.finished (.error (.rebuild p.message))), w)
  | .between [] => some (r.go .closing, w)
  | .between (s :: todo) => some (r.go (.executing s.name s.program todo), w)
  | .executing name rest todo => execute b r w name todo rest
  | .joining name fanOut next todo =>
    -- What the items did wrong has been collected, and does not make the step fail.
    if fanOut.isOver then some (r.go (.executing name next todo), w) else none
  | .closing => some (r.go .reporting, w.closeSession)
  | .reporting => some (r.go (.finished ((r.report w.catalog).verdict r.firstRun)), w)
  | .finished _ => none

/-- The next act of an item of the work that is done side by side. -/
def stepItem (b : Backend) (i : Nat) (r : Run) (w : World) : Option (Run × World) :=
  match r.phase with
  | .joining name fanOut next todo =>
    match fanOut.step b i r.errors w with
    | some (fanOut, errors, w) =>
      some ({ r with phase := .joining name fanOut next todo, errors := errors }, w)
    | none => none
  | _ => none

/-- The next act of one of those who move; `none` when that one is held up or through. -/
def step (b : Backend) (r : Run) (w : World) : Actor → Option (Run × World)
  | .main => stepMain b r w
  | .item i => stepItem b i r w

/-- Who moves next if the items move one after the other. -/
def next (r : Run) : Actor :=
  match r.phase with
  | .joining _ fanOut _ _ =>
    match fanOut.next? with
    | some i => .item i
    | none => .main
  | _ => .main

/-- Those who may move, in their order. -/
def actors (r : Run) : List Actor :=
  match r.phase with
  | .joining _ fanOut _ _ => (List.range fanOut.items.length).map .item ++ [.main]
  | _ => [.main]

/-- The query that somebody asks with the next act, if that act asks one. -/
def asks? (r : Run) : Actor → Option Query
  | .main =>
    match r.phase with
    | .executing _ (.query q _) _ => some q
    | _ => none
  | .item i =>
    match r.phase with
    | .joining _ fanOut _ _ =>
      match fanOut.items[i]? with
      | some ⟨_, .working (.query q _)⟩ => some q
      | _ => none
    | _ => none

/-- Moves the run until it is held up or over, with the answers of the archive. -/
def drive : (fuel : Nat) → Run → World → Run × World
  | 0, r, w => (r, w)
  | fuel + 1, r, w =>
    match r.step w.archive.backend w r.next with
    | some (r, w) => drive fuel r w
    | none => (r, w)

end Run

end SensorCatalog
