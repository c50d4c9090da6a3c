import SensorCatalog.Json.Value
import SensorCatalog.Time.Text

/-!
# Periods of time

A `Period` runs from its start to its end, both included. `Period.between` orders the two ends; a period
taken as it is may end before it starts. `Period.extend` moves each end outwards as far as needed, and
`Period.union` extends over a list.
-/

namespace SensorCatalog

structure Period where
  /-- The first point in time. -/
  start : Timestamp
  /-- The last point in time. -/
  finish : Timestamp
  deriving DecidableEq

namespace Period

/-- The period between two points in time, whichever comes first. -/
def between (s t : Timestamp) : Period := if s ≤ t then ⟨s, t⟩ else ⟨t, s⟩

/-- The period that is one point in time. -/
def instant (t : Timestamp) : Period := ⟨t, t⟩

/-- The period, with each end moved outwards to that of another period if it lies further out. -/
def extend (p q : Period) : Period :=
  ⟨if q.start < p.start then q.start else p.start, if p.finish < q.finish then q.finish else p.finish⟩

/-- The first period extended by all others. -/
def union : List Period → Option Period
  | [] => none
  | p :: ps => some (ps.foldl extend p)

def toJson (p : Period) : Json :=
  Json.record [("start", .ofText p.start.toText), ("end", .ofText p.finish.toText)]

/-- A time that is given as text. -/
def time? (j : Json) : Option Timestamp := j.toText?.bind Timestamp.ofText?

/-- Reads an exchanged period, taken as it is. -/
def ofJson? (j : Json) : Option Period :=
  match j.fields? ["start", "end"] with
  | some [some s, some e] =>
    match time? s, time? e with
    | some s, some e => some ⟨s, e⟩
    | _, _ => none
  | _ => none

end Period

end SensorCatalog
