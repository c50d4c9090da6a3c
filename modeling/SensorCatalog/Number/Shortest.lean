import SensorCatalog.Number.Numeral

/-!
# The shortest numeral of a coordinate

A finite `Float` is `mantissa * 2 ^ binaryExponent`, and all reals between the midpoints to its two
neighbours round to it. Among the decimals in that interval `shortestDecimal` takes one with the fewest
digits, and of those the one nearest to the float. Everything is decided in exact arithmetic on natural
numbers: the scale `10 ^ s` is made coarser or finer, and on each scale only the two grid points around
the float have to be looked at.

`Numeral.ofFloat?` lays the digits out: positional between `1e-5` and `1e16`, always with a digit after
the point, and scientific with a signed exponent outside.
-/

namespace SensorCatalog

/-! ### The float as an exact number -/

/-- A positive finite float `mantissa * 2 ^ binaryExponent`. -/
structure BinaryFraction where
  /-- The significand as an integer. -/
  mantissa : Nat
  /-- The power of two that scales it. -/
  binaryExponent : Int
  /-- Whether the next smaller float is only half as far away as the next greater one, as it is when
  the significand is a power of two. -/
  narrowBelow : Bool
  deriving DecidableEq

namespace BinaryFraction

/-- The exact value of the magnitude of a float, from its bits; `none` for infinities and NaN. -/
def ofFloat? (x : Float) : Option BinaryFraction :=
  let bits : Nat := x.toBits.toNat
  let exponentField : Nat := bits / Nat.pow 2 52 % Nat.pow 2 11
  let fractionField : Nat := bits % Nat.pow 2 52
  if exponentField = 2047 then none
  -- The significand of a float this small has no hidden bit.
  else if exponentField = 0 then some ⟨fractionField, -1074, false⟩
  else some ⟨fractionField + Nat.pow 2 52, (exponentField : Int) - 1075,
    fractionField == 0 && decide (1 < exponentField)⟩

/-! The value and the two midpoints are compared in quarters of `2 ^ binaryExponent`. -/

/-- The lower end of the interval that rounds to the float, in quarters. -/
def lowerQuarters (b : BinaryFraction) : Nat := 4 * b.mantissa - if b.narrowBelow then 1 else 2

/-- The upper end of the interval that rounds to the float, in quarters. -/
def upperQuarters (b : BinaryFraction) : Nat := 4 * b.mantissa + 2

/-- What a quarter is multiplied by to be compared with multiples of `gridUnit`. -/
def quarterUnit (b : BinaryFraction) (s : Int) : Nat :=
  Nat.pow 2 (b.binaryExponent - 2).toNat * Nat.pow 10 (-s).toNat

/-- What `10 ^ s` is multiplied by to be compared with multiples of `quarterUnit`. -/
def gridUnit (b : BinaryFraction) (s : Int) : Nat :=
  Nat.pow 10 s.toNat * Nat.pow 2 (2 - b.binaryExponent).toNat

/-- Whether `d * 10 ^ s` rounds to the float. The ends of the interval round to the float whose
significand is even. -/
def roundsTo (b : BinaryFraction) (s : Int) (d : Nat) : Bool :=
  let point := d * b.gridUnit s
  let lower := b.lowerQuarters * b.quarterUnit s
  let upper := b.upperQuarters * b.quarterUnit s
  if b.mantissa % 2 = 0 then decide (lower ≤ point) && decide (point ≤ upper)
  else decide (lower < point) && decide (point < upper)

/-- The best grid point at scale `10 ^ s` among those that round to the float: the nearer of the two
around it, and the even one of two equally near. -/
def gridPoint? (b : BinaryFraction) (s : Int) : Option Nat :=
  let value := 4 * b.mantissa * b.quarterUnit s
  let below := value / b.gridUnit s
  let above := below + 1
  match b.roundsTo s below, b.roundsTo s above with
  | true, true =>
    let lack := value - below * b.gridUnit s
    let excess := above * b.gridUnit s - value
    if lack < excess then some below
    else if excess < lack then some above
    else if below % 2 = 0 then some below else some above
  | true, false => some below
  | false, true => some above
  | false, false => none

/-- The decimal exponent of the leading digit of a float other than zero. Scaling by `10 ^ 400` makes
every float an integer part of many digits. -/
def leadingExponent (b : BinaryFraction) : Int :=
  let scaled := 4 * b.mantissa * b.quarterUnit (-400) / b.gridUnit (-400)
  (Digit.ofNat scaled).length - 401

/-- The first scale, from the coarsest on, that has a grid point which rounds to the float. -/
def coarsest (b : BinaryFraction) : (scales : List Int) → Nat × Int
  | [] => (b.mantissa, b.binaryExponent)
  | s :: rest =>
    match b.gridPoint? s with
    | some d => (d, s)
    | none => coarsest b rest

/-- The shortest decimal `d * 10 ^ s` that reads back as the float. Seventeen digits always do. -/
def shortestDecimal (b : BinaryFraction) : Nat × Int :=
  let top := b.leadingExponent
  b.coarsest ((List.range 17).map fun i : Nat => top - (i : Int))

end BinaryFraction

/-! ### Laying the digits out -/

/-- The digits without the zeros at their end; the first digit stays. -/
def dropFinalZeros : List Digit → List Digit
  | [] => []
  | d :: ds => d :: (ds.reverse.dropWhile (· == Digit.zero)).reverse

/-- Where positional notation is used, and what it is padded with. -/
structure NumeralLayout where
  /-- The least decimal exponent of the leading digit that is written positionally. -/
  leastPositional : Int
  /-- The least decimal exponent of the leading digit that is no longer written positionally. -/
  leastScientific : Int
  deriving DecidableEq

/-- Coordinates are positional from `1e-5` up to, but not including, `1e16`. -/
def coordinateLayout : NumeralLayout := ⟨-5, 16⟩

namespace Numeral

/-- The numeral with the given significant digits, of which the first stands for a multiple of
`10 ^ lead`. A positional numeral has at least one digit on each side of the point. -/
def ofDigits (layout : NumeralLayout) (negative : Bool) (digits : List Digit) (lead : Int) : Numeral :=
  if layout.leastPositional ≤ lead ∧ lead < layout.leastScientific then
    if 0 ≤ lead then
      let before := lead.toNat + 1
      let whole := digits.take before ++ List.replicate (before - digits.length) Digit.zero
      let fraction := digits.drop before
      ⟨negative, whole, if fraction.isEmpty then [Digit.zero] else fraction, none⟩
    else
      ⟨negative, [Digit.zero], List.replicate (-lead - 1).toNat Digit.zero ++ digits, none⟩
  else
    ⟨negative, digits.take 1, digits.drop 1, some ⟨decide (lead < 0), Digit.ofNat lead.natAbs⟩⟩

/-- The shortest numeral that reads back as a finite float; `none` for infinities and NaN. -/
def ofFloat? (x : Float) : Option Numeral :=
  let negative := decide (Nat.pow 2 63 ≤ x.toBits.toNat)
  match BinaryFraction.ofFloat? x with
  | none => none
  | some b =>
    if b.mantissa = 0 then some ⟨negative, [Digit.zero], [Digit.zero], none⟩
    else
      let (d, s) := b.shortestDecimal
      let digits := Digit.ofNat d
      some (ofDigits coordinateLayout negative (dropFinalZeros digits) (s + digits.length - 1))

end Numeral

end SensorCatalog
