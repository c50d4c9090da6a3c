import SensorCatalog.Json.Value

/-!
# Envelopes

An `Envelope` is a box in the plane of a spatial reference system. Coordinates of different systems are
never compared: `Envelope.union` keeps to the system of its first member and passes over all others.

A coordinate that is no number takes no part in `lesser` and `greater`: each answers its other operand.
Of equal coordinates both answer the second, which shows only in the sign of a zero.
-/

namespace SensorCatalog

/-- The smaller of two coordinates, and the only number if one of them is none. -/
def lesser (a b : Float) : Float :=
  if a.isNaN then b else if b.isNaN then a else if a < b then a else b

/-- The greater of two coordinates, and the only number if one of them is none. -/
def greater (a b : Float) : Float :=
  if a.isNaN then b else if b.isNaN then a else if b < a then a else b

/-- A box with sides parallel to the axes. -/
structure Envelope where
  /-- The number of the spatial reference system. -/
  srid : Int
  minX : Float
  minY : Float
  maxX : Float
  maxY : Float

namespace Envelope

def point (srid : Int) (x y : Float) : Envelope := ⟨srid, x, y, x, y⟩

/-- The envelope, made large enough to hold another one as well. The systems are not compared. -/
def expand (e f : Envelope) : Envelope :=
  ⟨e.srid, lesser e.minX f.minX, lesser e.minY f.minY, greater e.maxX f.maxX, greater e.maxY f.maxY⟩

/-- Whether a point lies in the envelope or on its border. -/
def contains (e : Envelope) (x y : Float) : Bool :=
  decide (e.minX ≤ x) && decide (x ≤ e.maxX) && decide (e.minY ≤ y) && decide (y ≤ e.maxY)

/-- The first envelope, expanded by all others of its system. -/
def union : List Envelope → Option Envelope
  | [] => none
  | e :: es => some ((es.filter fun f => f.srid == e.srid).foldl expand e)

/-- The names of the parts of an exchanged envelope. -/
def fieldNames : List String := ["srid", "min_x", "min_y", "max_x", "max_y"]

/-- The exchanged value of an envelope; each coordinate is written by `coordinate`. -/
def toJsonWith (coordinate : Float → Json) (e : Envelope) : Json :=
  Json.record (fieldNames.zip
    [.ofInt e.srid, coordinate e.minX, coordinate e.minY, coordinate e.maxX, coordinate e.maxY])

/-- The exchanged value of an envelope. A coordinate that is no finite number is null. -/
def toJson (e : Envelope) : Json := e.toJsonWith Json.ofFloat

/-- Reads the number of a spatial reference system, which has 32 bits and a sign. -/
def srid? (j : Json) : Option Int :=
  j.toInt?.filter fun i => decide (-2147483648 ≤ i) && decide (i < 2147483648)

def ofJson? (j : Json) : Option Envelope :=
  match j.fields? fieldNames with
  | some [some srid, some minX, some minY, some maxX, some maxY] =>
    match srid? srid, minX.toFloat?, minY.toFloat?, maxX.toFloat?, maxY.toFloat? with
    | some srid, some minX, some minY, some maxX, some maxY => some ⟨srid, minX, minY, maxX, maxY⟩
    | _, _, _, _, _ => none
  | _ => none

end Envelope

end SensorCatalog
