import SensorCatalog.Archive.Basic
import SensorCatalog.Catalog.Write

/-!
# What a rebuild does

A rebuild consists of steps, and each `Step` is a `Program`: a tree of queries and writes, which may fail
or break off. A `Work` is the same for one procedure. It runs on a session of its own, beside the work for
other procedures.

A `Reading` with writes as its result becomes a program that first asks everything and then writes
(`Program.ofReading`, `Work.ofReading`). Such a program writes nothing unless all its queries are answered.
-/

namespace SensorCatalog

/-- What is done for one procedure. -/
inductive Work where
  | done
  | fail (f : ArchiveFault)
  | panic (p : Panic)
  /-- A query, and how to go on with what comes back. -/
  | query (q : Query) (next : Outcome q.Reply → Work)
  | write (w : Write) (next : Work)

namespace Work

/-- Writes all of a list. -/
def writes : List Write → Work
  | [] => .done
  | w :: ws => .write w (writes ws)

/-- Reads, and writes the result. A query that is not answered ends it. -/
def ofReading : Reading (List Write) → Work
  | .done ws => writes ws
  | .ask q next =>
    .query q fun
      | .ok r => ofReading (next r)
      | .fault f => .fail f
      | .panic p => .panic p

end Work

/-- What a step of a rebuild does. -/
inductive Program where
  | done
  | fail (f : Fault)
  | panic (p : Panic)
  /-- A query, and how to go on with what comes back. -/
  | query (q : Query) (next : Outcome q.Reply → Program)
  | write (w : Write) (next : Program)
  /-- A fault to be reported, which does not end the step. -/
  | report (f : Fault) (next : Program)
  /-- Work for each of some procedures, on at most so many threads at a time. The program goes on when all
  of it is over. -/
  | fanOut (threads : Nat) (procedures : List String) (work : String → Work) (next : Program)
  | edit (e : Edit) (next : Program)
  /-- Tells that it has come to the gate. -/
  | arrive (next : Program)
  /-- Waits until the gate is open. -/
  | pass (next : Program)

namespace Program

/-- Writes all of a list, and goes on. -/
def writes (next : Program) : List Write → Program
  | [] => next
  | w :: ws => .write w (writes next ws)

/-- Edits the archive by all of a list, and goes on. -/
def edits (next : Program) : List Edit → Program
  | [] => next
  | e :: es => .edit e (edits next es)

/-- Reads, and goes on with the result. A query that is not answered ends the step. -/
def reading {α : Type} (next : α → Program) : Reading α → Program
  | .done a => next a
  | .ask q cont =>
    .query q fun
      | .ok r => reading next (cont r)
      | .fault f => .fail (.archive f)
      | .panic p => .panic p

/-- Reads, and writes the result. -/
def ofReading (r : Reading (List Write)) : Program := reading (writes .done) r

/-- Comes to the gate and waits until it is open. -/
def gate : Program := .arrive (.pass .done)

end Program

/-- A step of a rebuild. -/
structure Step where
  /-- Its name, by which it is reported. -/
  name : String
  program : Program

end SensorCatalog
