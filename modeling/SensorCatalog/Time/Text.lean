import SensorCatalog.Number.Numeral
import SensorCatalog.Time.Timestamp

/-!
# Times as text

A time is written as `YYYY-MM-DDTHH:MM:SS`, a fraction of three, six or nine digits if it has one, and
`Z`. The fewest digits that lose nothing are taken. A year outside `0..9999` has a sign.

Reading is freer: blanks may stand before every part, parts need no leading zeros, a signed year may have
any number of digits, the time may be local with an offset, and digits behind the ninth of a fraction are
dropped.
-/

namespace SensorCatalog

/-- White space in the sense of the Unicode property of that name. -/
def isBlank (c : Char) : Bool :=
  let n := c.toNat
  (9 ≤ n && n ≤ 13) || n == 0x20 || n == 0x85 || n == 0xA0 || n == 0x1680
    || (0x2000 ≤ n && n ≤ 0x200A) || n == 0x2028 || n == 0x2029 || n == 0x202F || n == 0x205F
    || n == 0x3000

namespace Timestamp

/-! ### Writing -/

/-- A number with leading zeros up to a width. -/
def padded (width n : Nat) : List Char :=
  let digits := Digit.ofNat n
  (List.replicate (width - digits.length) Digit.zero ++ digits).map Digit.toChar

/-- A year: four digits, and a sign if it needs more digits or is below zero. -/
def writeYear (year : Int) : List Char :=
  if year < 0 then '-' :: padded 4 year.natAbs
  else if year < 10000 then padded 4 year.natAbs
  else '+' :: padded 4 year.natAbs

/-- A fraction of a second with the fewest groups of three digits. -/
def writeFraction (nanos : Nat) : List Char :=
  if nanos = 0 then []
  else if nanos % 1000000 = 0 then '.' :: padded 3 (nanos / 1000000)
  else if nanos % 1000 = 0 then '.' :: padded 6 (nanos / 1000)
  else '.' :: padded 9 nanos

def write (t : Timestamp) : List Char :=
  writeYear t.date.year ++ '-' :: padded 2 t.date.month ++ '-' :: padded 2 t.date.day
    ++ 'T' :: padded 2 t.hour.val ++ ':' :: padded 2 t.minute.val ++ ':' :: padded 2 t.second.val
    ++ writeFraction t.nanos.val ++ ['Z']

def toText (t : Timestamp) : String := String.ofList t.write

/-! ### Reading -/

/-- Takes at most `most` digits off the front of a text. -/
def spanDigits : (most : Nat) → List Char → List Digit × List Char
  | 0, cs => ([], cs)
  | _ + 1, [] => ([], [])
  | most + 1, c :: cs =>
    match Digit.ofChar? c with
    | some d => (d :: (spanDigits most cs).1, (spanDigits most cs).2)
    | none => ([], c :: cs)

/-- Takes a number of at least one and at most `most` digits. -/
def readDigits (most : Nat) (cs : List Char) : Option (Nat × List Char) :=
  match spanDigits most cs with
  | ([], _) => none
  | (ds, rest) => some (Digit.value ds, rest)

/-- Takes a number behind blanks. -/
def readNumber (most : Nat) (cs : List Char) : Option (Nat × List Char) :=
  readDigits most (cs.dropWhile isBlank)

/-- Takes a year behind blanks: up to four digits, or a sign and any number of digits. -/
def readYear (cs : List Char) : Option (Int × List Char) :=
  match cs.dropWhile isBlank with
  | '-' :: rest => (readDigits rest.length rest).map fun r => (-(r.1 : Int), r.2)
  | '+' :: rest => (readDigits rest.length rest).map fun r => ((r.1 : Int), r.2)
  | rest => (readDigits 4 rest).map fun r => ((r.1 : Int), r.2)

/-- Takes a mark, with blanks allowed in front of it. -/
def readMark (mark : Char) (cs : List Char) : Option (List Char) :=
  match cs.dropWhile isBlank with
  | c :: rest => if c = mark then some rest else none
  | [] => none

/-- Takes the fraction of a second, in nanoseconds. -/
def readFraction (cs : List Char) : Option (Fin 1000000000 × List Char) :=
  match cs with
  | '.' :: rest =>
    match spanDigits 9 rest with
    | ([], _) => none
    | (ds, rest) =>
      some (nanosOf (Digit.value ds * Nat.pow 10 (9 - ds.length)), (Digit.span rest).2)
  | _ => some (nanosOf 0, cs)

/-- Takes the minutes of an offset behind its hours: two digits, the first below six. They cannot be left
out. -/
def readOffsetMinutes (cs : List Char) : Option (Nat × List Char) :=
  match cs with
  | c :: d :: rest =>
    match Digit.ofChar? c, Digit.ofChar? d with
    | some c, some d => if c.val < 6 then some (10 * c.val + d.val, rest) else none
    | _, _ => none
  | _ => none

/-- Takes the hours and minutes of an offset; colons and blanks may stand between them. -/
def readOffsetParts (cs : List Char) : Option (Nat × List Char) :=
  match cs with
  | c :: d :: rest =>
    match Digit.ofChar? c, Digit.ofChar? d with
    | some c, some d =>
      (readOffsetMinutes (rest.dropWhile fun x => x == ':' || isBlank x)).bind fun r =>
        let offset := 60 * (10 * c.val + d.val) + r.1
        if offset < 1440 then some (offset, r.2) else none
    | _, _ => none
  | _ => none

/-- Takes how many minutes a local time is ahead of UTC. The minus sign may be the mathematical one. -/
def readOffset (cs : List Char) : Option (Int × List Char) :=
  match cs with
  | 'Z' :: rest | 'z' :: rest => some (0, rest)
  | '+' :: rest => (readOffsetParts rest).map fun r => ((r.1 : Int), r.2)
  | '-' :: rest | '\u2212' :: rest => (readOffsetParts rest).map fun r => (-(r.1 : Int), r.2)
  | u :: t :: c :: rest =>
    if u.toUpper = 'U' ∧ t.toUpper = 'T' ∧ c.toUpper = 'C' then some (0, rest) else none
  | _ => none

/-- The number as a member of `Fin n`, if it is below `n`. -/
def below? (n i : Nat) : Option (Fin n) := if h : i < n then some ⟨i, h⟩ else none

def readDate (cs : List Char) : Option (Date × List Char) := do
  let (year, cs) ← readYear cs
  let cs ← readMark '-' cs
  let (month, cs) ← readNumber 2 cs
  let cs ← readMark '-' cs
  let (day, cs) ← readNumber 2 cs
  return (← Date.ofParts? year month day, cs)

/-- Reads the time of day and the offset that stand behind a date. -/
def readTime (date : Date) (cs : List Char) : Option Timestamp := do
  let (hour, cs) ← readNumber 2 cs
  let cs ← readMark ':' cs
  let (minute, cs) ← readNumber 2 cs
  let cs ← readMark ':' cs
  let (second, cs) ← readNumber 2 cs
  let (nanos, cs) ← readFraction cs
  let (offset, cs) ← readOffset (cs.dropWhile isBlank)
  if (cs.dropWhile isBlank).isEmpty then
    -- Second 60 may follow any minute.
    ofLocal? date (← below? 24 hour) (← below? 60 minute) (← below? 61 second) nanos offset
  else none

def read (cs : List Char) : Option Timestamp := do
  let (date, cs) ← readDate cs
  match cs with
  | 'T' :: cs | 't' :: cs | ' ' :: cs => readTime date cs
  | _ => none

def ofText? (s : String) : Option Timestamp := read s.toList

end Timestamp

end SensorCatalog
