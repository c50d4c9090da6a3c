import SensorCatalog.Archive.Content

/-!
# The archive

An `Archive` is its data together with a `FaultPlan`, which makes it refuse or break off on purpose. A
query that the plan does not touch is answered from the data.

Whoever asks needs a session. `Sessions` counts those that were opened and those that are still open.
`Backend` is what a session sees of an archive at one moment: whether one can be opened, and the answers.
-/

namespace SensorCatalog

/-- What goes wrong on purpose. -/
structure FaultPlan where
  /-- No session can be opened. -/
  refusesSessions : Bool
  /-- The names of queries that are refused. -/
  failingQueries : SortedSet
  /-- The procedures about which queries are refused. -/
  failingProcedures : SortedSet
  /-- The procedures about which queries break off. -/
  panickingProcedures : SortedSet
  /-- How many milliseconds a query about a procedure takes. No answer depends on it. -/
  delay : Nat
  deriving DecidableEq

/-- Nothing goes wrong. -/
def FaultPlan.none : FaultPlan := ⟨false, SortedSet.empty, SortedSet.empty, SortedSet.empty, 0⟩

/-- The sessions with the archive. -/
structure Sessions where
  /-- How many are open. -/
  isOpen : Nat
  /-- How many were ever opened. -/
  opened : Nat
  deriving DecidableEq

namespace Sessions

def initial : Sessions := ⟨0, 0⟩

def openOne (s : Sessions) : Sessions := ⟨s.isOpen + 1, s.opened + 1⟩

def closeOne (s : Sessions) : Sessions := ⟨s.isOpen - 1, s.opened⟩

end Sessions

/-- What a session sees at one moment. -/
structure Backend where
  /-- What comes of opening a session. -/
  opening : Outcome Unit
  /-- The answers to queries. -/
  answers : Answers

/-- The data with what goes wrong on purpose. -/
structure Archive where
  content : Content
  /-- What goes wrong. -/
  plan : FaultPlan

namespace Archive

/-- The archive without data, in which nothing goes wrong. -/
def empty : Archive := ⟨Content.empty, FaultPlan.none⟩

instance : Inhabited Archive := ⟨empty⟩

/-- What the plan does to a query, if anything. A query that is refused by its name is refused first; one
about a procedure may break off or be refused. -/
def interference? (plan : FaultPlan) (q : Query) : Option (Outcome q.Reply) :=
  if q.name ∈ plan.failingQueries then some (.fault (.query q.name "injected failure"))
  else
    match q.procedure? with
    | none => none
    | some p =>
      if p ∈ plan.panickingProcedures then some (.panic (.text s!"corrupt row for procedure {p}"))
      else if p ∈ plan.failingProcedures then
        some (.fault (.query q.name s!"injected failure for {p}"))
      else none

/-- How many milliseconds the answer to a query takes. A query that is refused by its name is refused at once. -/
def lag (a : Archive) (q : Query) : Nat :=
  if q.name ∈ a.plan.failingQueries ∨ q.procedure?.isNone then 0 else a.plan.delay

/-- The answer to a query. -/
def answers (a : Archive) : Answers := fun q =>
  match interference? a.plan q with
  | some outcome => outcome
  | none => a.content.reply q

/-- What a session sees of the archive. -/
def backend (a : Archive) : Backend :=
  ⟨if a.plan.refusesSessions then .fault (.unreachable "backing store unavailable") else .ok (), a.answers⟩

end Archive

/-- An edit of the archive: of its data or of what goes wrong. -/
inductive Edit where
  | content (e : ContentEdit)
  /-- Sessions are refused from now on, or no longer. -/
  | refuseSessions (on : Bool)
  /-- Queries with this name are refused from now on. -/
  | failQuery (name : String)
  /-- Queries about this procedure are refused from now on. -/
  | failProcedure (procedure : String)
  /-- Queries about this procedure break off from now on. -/
  | panicProcedure (procedure : String)
  /-- Queries about a procedure take this many milliseconds from now on. -/
  | delay (milliseconds : Nat)
  /-- Nothing goes wrong from now on. -/
  | clearFaults

def FaultPlan.apply (p : FaultPlan) : Edit → FaultPlan
  | .content _ => p
  | .refuseSessions on => { p with refusesSessions := on }
  | .failQuery name => { p with failingQueries := p.failingQueries.insert name }
  | .failProcedure id => { p with failingProcedures := p.failingProcedures.insert id }
  | .panicProcedure id => { p with panickingProcedures := p.panickingProcedures.insert id }
  | .delay ms => { p with delay := ms }
  | .clearFaults => FaultPlan.none

namespace Archive

def apply (a : Archive) (e : Edit) : Archive :=
  ⟨match e with
    | .content e => a.content.apply e
    | _ => a.content,
    a.plan.apply e⟩

def applyAll (a : Archive) (es : List Edit) : Archive := es.foldl apply a

end Archive

namespace Edit

/-- What an edit of the archive has to tell. -/
def change? (a : Archive) : Edit → Option Change
  | .content e => e.change? a.content
  | _ => none

/-- Whether an edit of the archive removes something; `none` for edits that remove nothing. -/
def removed? (a : Archive) : Edit → Option Bool
  | .content e => e.removed? a.content
  | _ => none

end Edit

end SensorCatalog
