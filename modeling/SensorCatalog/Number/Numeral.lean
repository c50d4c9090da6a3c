/-!
# Decimal numerals

A `Numeral` is the written form of a number: its sign, the digits before and after the point, and an
exponent. Two numerals can stand for one number (`1.5` and `1.50`), so a numeral is kept as written
until something decides what it is to be read as: an integer (`Numeral.toInt?`) or a coordinate
(`Number.Reading`).

`Numeral.render` writes a numeral, `Numeral.read` takes one off the front of a text. `Numeral.readFree`
reads a whole text and is less strict: leading zeros are allowed, and a point may lack the digits on one
side.
-/

namespace SensorCatalog

/-- A decimal digit. -/
abbrev Digit := Fin 10

/-- The first number that does not fit into 64 bits. -/
def wordEnd : Nat := 18446744073709551616

namespace Digit

/-- The digit for nothing. -/
def zero : Digit := ⟨0, by decide⟩

/-- The character of a digit. -/
def toChar (d : Digit) : Char := Char.ofNat (48 + d.val)

/-- The digit that a character stands for. -/
def ofChar? (c : Char) : Option Digit :=
  if h : 48 ≤ c.toNat ∧ c.toNat < 58 then some ⟨c.toNat - 48, by omega⟩ else none

/-- The number that a sequence of digits stands for. -/
def value (ds : List Digit) : Nat := ds.foldl (fun n d => 10 * n + d.val) 0

/-- The digits of a number put in front of `acc`; `fuel` bounds how many are produced. -/
def ofNatOnto : (fuel : Nat) → Nat → List Digit → List Digit
  | 0, _, acc => acc
  | fuel + 1, n, acc =>
    let d : Digit := ⟨n % 10, Nat.mod_lt _ (by decide)⟩
    if n < 10 then d :: acc else ofNatOnto fuel (n / 10) (d :: acc)

/-- The digits of a number, without leading zeros; zero has one digit. -/
def ofNat (n : Nat) : List Digit := ofNatOnto (n + 1) n []

/-- Splits a text after its leading digits. -/
def span : List Char → List Digit × List Char
  | [] => ([], [])
  | c :: cs =>
    match ofChar? c with
    | some d => (d :: (span cs).1, (span cs).2)
    | none => ([], c :: cs)

end Digit

/-- The exponent part of a numeral. -/
structure Exponent where
  /-- Whether the exponent is below zero. -/
  negative : Bool
  digits : List Digit
  deriving DecidableEq

/-- The written form of a decimal number. -/
structure Numeral where
  /-- Whether a minus sign stands in front; `-0` keeps it. -/
  negative : Bool
  /-- The digits before the point. -/
  whole : List Digit
  /-- The digits after the point; without any there is no point. -/
  fraction : List Digit
  /-- The exponent, if one is written. -/
  exponent : Option Exponent
  deriving DecidableEq

namespace Numeral

/-- The numeral of a natural number. -/
def ofNat (n : Nat) : Numeral := ⟨false, Digit.ofNat n, [], none⟩

/-- The numeral of an integer. -/
def ofInt (i : Int) : Numeral := ⟨decide (i < 0), Digit.ofNat i.natAbs, [], none⟩

/-- The text of a numeral. An exponent always has a sign. -/
def render (n : Numeral) : List Char :=
  (if n.negative then ['-'] else []) ++ n.whole.map Digit.toChar
    ++ (if n.fraction.isEmpty then [] else '.' :: n.fraction.map Digit.toChar)
    ++ (match n.exponent with
        | none => []
        | some e => 'e' :: (if e.negative then '-' else '+') :: e.digits.map Digit.toChar)

/-- Takes the digits before a point: a zero alone, or digits that start with none. -/
def readWhole (cs : List Char) : Option (List Digit × List Char) :=
  match cs with
  | '0' :: rest => some ([Digit.zero], rest)
  | _ =>
    match Digit.span cs with
    | ([], _) => none
    | (ds, rest) => some (ds, rest)

/-- Takes a point with the digits after it; a point without digits is refused. -/
def readFraction (cs : List Char) : Option (List Digit × List Char) :=
  match cs with
  | '.' :: rest =>
    match Digit.span rest with
    | ([], _) => none
    | (ds, rest) => some (ds, rest)
  | _ => some ([], cs)

/-- Takes an exponent mark, a sign and digits; a mark without digits is refused. -/
def readExponent (cs : List Char) : Option (Option Exponent × List Char) :=
  let digits (negative : Bool) (rest : List Char) : Option (Option Exponent × List Char) :=
    match Digit.span rest with
    | ([], _) => none
    | (ds, rest) => some (some ⟨negative, ds⟩, rest)
  match cs with
  | 'e' :: '+' :: rest | 'E' :: '+' :: rest => digits false rest
  | 'e' :: '-' :: rest | 'E' :: '-' :: rest => digits true rest
  | 'e' :: rest | 'E' :: rest => digits false rest
  | _ => some (none, cs)

/-- Takes a numeral without a sign off the front of a text. -/
def readUnsigned (negative : Bool) (cs : List Char) : Option (Numeral × List Char) := do
  let (whole, rest) ← readWhole cs
  let (fraction, rest) ← readFraction rest
  let (exponent, rest) ← readExponent rest
  return (⟨negative, whole, fraction, exponent⟩, rest)

/-- Takes a numeral off the front of a text. -/
def read (cs : List Char) : Option (Numeral × List Char) :=
  match cs with
  | '-' :: rest => readUnsigned true rest
  | _ => readUnsigned false cs

/-- Reads a whole text, behind its sign, as a numeral. There may be leading zeros, and a point needs
digits on one side only. -/
def readFree (negative : Bool) (cs : List Char) : Option Numeral :=
  let (whole, rest) := Digit.span cs
  let (fraction, rest) := match rest with
    | '.' :: rest => Digit.span rest
    | _ => ([], rest)
  if whole.isEmpty && fraction.isEmpty then none
  else
    match readExponent rest with
    | some (exponent, []) => some ⟨negative, whole, fraction, exponent⟩
    | _ => none

/-- The integer that a numeral is the literal of. One with a point or an exponent is no integer
literal, and neither is `-0`: a negative literal stands for a number below zero. -/
def toInt? (n : Numeral) : Option Int :=
  match n.fraction, n.exponent, n.negative with
  | [], none, false => some (Digit.value n.whole)
  | [], none, true => if Digit.value n.whole = 0 then none else some (-(Digit.value n.whole : Int))
  | _, _, _ => none

end Numeral

end SensorCatalog
