import SensorCatalog.Number.Numeral

/-!
# Reading a numeral as a coordinate

A numeral of an exchanged text is read in steps that each round: its digits are gathered in a 64-bit
significand as long as they fit, the significand becomes a `Float`, and that is multiplied or divided by
one power of ten. The result of `Numeral.toFloat?` is therefore the nearest float for numerals of up to
fifteen digits with a small exponent, and may be its neighbour otherwise.

`Numeral.toNearestFloat` rounds only once. `floatOfText?` reads a text with it, and knows the names of the
floats that no numeral stands for.
-/

namespace SensorCatalog

/-- Takes digits into a significand while it fits into 64 bits. Answers the significand and the number
of digits taken; from the first digit that does not fit on, all are left. -/
def gatherDigits (significand taken : Nat) : List Digit → Nat × Nat
  | [] => (significand, taken)
  | d :: ds =>
    let next := 10 * significand + d.val
    if next < wordEnd then gatherDigits next (taken + 1) ds else (significand, taken)

/-- The float nearest to `10 ^ k`. -/
def powerOfTen (k : Nat) : Float := Float.ofScientific 1 false k

/-- `significand * 10 ^ exponent` by one multiplication or division. A float has no room beyond
`10 ^ 308`: a greater exponent overflows, a smaller one is reached by dividing twice, and below that
nothing is left. -/
def scaleByTen (significand : Nat) (exponent : Int) : Option Float :=
  let f := (UInt64.ofNat significand).toFloat
  if 308 < exponent then
    -- Zero stays zero, however great the exponent.
    if significand = 0 then some f else none
  else if 0 ≤ exponent then
    let g := f * powerOfTen exponent.toNat
    if g.isInf then none else some g
  else if -308 ≤ exponent then some (f / powerOfTen (-exponent).toNat)
  else if -616 ≤ exponent then some (f / powerOfTen 308 / powerOfTen (-(exponent + 308)).toNat)
  else some 0.0

namespace Numeral

/-- The greatest magnitude of a written exponent that takes part in the reading. -/
def greatestExponent : Nat := 2147483647

/-- The magnitude of a numeral as a float; `none` when it is too great. -/
def magnitude? (n : Numeral) : Option Float :=
  let (significand, taken) := gatherDigits 0 0 n.whole
  let dropped := n.whole.length - taken
  let (significand, places) := gatherDigits significand 0 n.fraction
  let scale : Int := (dropped : Int) - places
  match n.exponent with
  | none => scaleByTen significand scale
  | some e =>
    let written := Digit.value e.digits
    if greatestExponent < written then
      if significand ≠ 0 ∧ e.negative = false then none else some 0.0
    else scaleByTen significand (if e.negative then scale - written else scale + written)

/-- The float that a numeral is read as; `none` when it is too great for one. -/
def toFloat? (n : Numeral) : Option Float :=
  n.magnitude?.map fun f => if n.negative then -f else f

/-- The float nearest to a numeral. It is decided without the power of ten where that is far beyond all
floats, or far below. -/
def toNearestFloat (n : Numeral) : Float :=
  let digits := n.whole ++ n.fraction
  let significand := Digit.value digits
  let written : Int :=
    match n.exponent with
    | none => 0
    | some e => if e.negative then -(Digit.value e.digits : Int) else Digit.value e.digits
  let scale := written - n.fraction.length
  let f :=
    if significand = 0 ∨ scale + digits.length < -330 then 0.0
    else if 310 < scale then 1.0 / 0.0
    else Float.ofScientific significand (decide (scale < 0)) scale.natAbs
  if n.negative then -f else f

end Numeral

/-- Reads a text as a float: the one nearest to a numeral, or an infinity or the undefined float by its
name in any case. Either sign may stand in front. -/
def floatOfText? (s : String) : Option Float :=
  let (negative, cs) := match s.toList with
    | '-' :: cs => (true, cs)
    | '+' :: cs => (false, cs)
    | cs => (false, cs)
  match String.ofList (cs.map Char.toLower) with
  | "nan" => some (0.0 / 0.0)
  | "inf" | "infinity" => some (if negative then -1.0 / 0.0 else 1.0 / 0.0)
  | _ => (Numeral.readFree negative cs).map Numeral.toNearestFloat

end SensorCatalog
