import SensorCatalog.Json.Value

/-!
# Reading exchanged texts

`Json.read?` reads a whole text: one value, with blanks around its parts and nothing else behind it.
Nothing is accepted beyond the grammar: no leading zeros, no comments, no comma at the end, no control
character inside quotes.

The readers of values call each other on what is left of the text. Each call takes one unit of `fuel`,
and twice the length of the text is always enough.
-/

namespace SensorCatalog

namespace Json

/-- The text behind leading blanks. -/
def skipBlanks : List Char → List Char
  | [] => []
  | c :: cs => if c = ' ' ∨ c = '\n' ∨ c = '\t' ∨ c = '\r' then skipBlanks cs else c :: cs

/-! ### Texts -/

/-- The value of a hexadecimal digit of either case. -/
def hexValue? (c : Char) : Option Nat :=
  let n := c.toNat
  if 48 ≤ n ∧ n < 58 then some (n - 48)
  else if 97 ≤ n ∧ n < 103 then some (n - 87)
  else if 65 ≤ n ∧ n < 71 then some (n - 55)
  else none

/-- The number that four hexadecimal digits stand for. -/
def hexQuad? (a b c d : Char) : Option Nat :=
  match hexValue? a, hexValue? b, hexValue? c, hexValue? d with
  | some a, some b, some c, some d => some (((a * 16 + b) * 16 + c) * 16 + d)
  | _, _, _, _ => none

/-- Whether a 16-bit unit opens a surrogate pair. -/
def isHighSurrogate (u : Nat) : Bool := decide (0xD800 ≤ u ∧ u ≤ 0xDBFF)

/-- Whether a 16-bit unit closes a surrogate pair. -/
def isLowSurrogate (u : Nat) : Bool := decide (0xDC00 ≤ u ∧ u ≤ 0xDFFF)

/-- The character of a surrogate pair. -/
def pairChar (high low : Nat) : Char :=
  Char.ofNat ((high - 0xD800) * 1024 + (low - 0xDC00) + 0x10000)

/-- The character that a one-letter escape stands for. -/
def unescape? (c : Char) : Option Char :=
  if c = '"' then some '"'
  else if c = '\\' then some '\\'
  else if c = '/' then some '/'
  else if c = 'b' then some '\x08'
  else if c = 'f' then some '\x0c'
  else if c = 'n' then some '\n'
  else if c = 'r' then some '\r'
  else if c = 't' then some '\t'
  else none

/-- What one piece of a quoted text stands for. -/
inductive TextPiece where
  /-- A character, as it is or escaped. -/
  | char (c : Char)
  /-- Half of a surrogate pair, escaped. -/
  | half (unit : Nat)

/-- What an escape of four hexadecimal digits stands for. -/
def TextPiece.ofUnit (u : Nat) : TextPiece :=
  if isHighSurrogate u || isLowSurrogate u then .half u else .char (Char.ofNat u)

/-- Puts a piece in front of what the rest of a quoted text holds. -/
def consPiece (p : Option TextPiece) (rest : Option (List TextPiece × List Char)) :
    Option (List TextPiece × List Char) :=
  match p, rest with
  | some p, some (ps, cs) => some (p :: ps, cs)
  | _, _ => none

/-- Reads a quoted text behind its opening quote, up to the closing one. -/
def readQuoted : List Char → Option (List TextPiece × List Char)
  | [] => none
  | '"' :: rest => some ([], rest)
  | '\\' :: 'u' :: a :: b :: c :: d :: rest =>
    consPiece ((hexQuad? a b c d).map TextPiece.ofUnit) (readQuoted rest)
  | '\\' :: c :: rest => consPiece ((unescape? c).map .char) (readQuoted rest)
  | c :: rest => if c.toNat < 32 ∨ c = '\\' then none else consPiece (some (.char c)) (readQuoted rest)

/-- The characters of a quoted text. Two halves of a pair make one character; any other half makes
none. -/
def joinPieces : List TextPiece → Option (List Char)
  | [] => some []
  | .char c :: ps => (joinPieces ps).map (c :: ·)
  | .half u :: .half v :: ps =>
    if isHighSurrogate u && isLowSurrogate v then (joinPieces ps).map (pairChar u v :: ·) else none
  | .half _ :: _ => none

/-- The text of the pieces, if all of them name characters. -/
def textOf (content : List TextPiece) : Option String := (joinPieces content).map String.ofList

/-! ### Values -/

mutual

/-- Reads a value off the front of a text. -/
def readValue : (fuel : Nat) → List Char → Option (Json × List Char)
  | 0, _ => none
  | fuel + 1, cs =>
    match skipBlanks cs with
    | 'n' :: 'u' :: 'l' :: 'l' :: rest => some (.null, rest)
    | 't' :: 'r' :: 'u' :: 'e' :: rest => some (.bool true, rest)
    | 'f' :: 'a' :: 'l' :: 's' :: 'e' :: rest => some (.bool false, rest)
    | '"' :: rest => (readQuoted rest).map fun r => (.text (textOf r.1), r.2)
    | '[' :: rest =>
      match skipBlanks rest with
      | ']' :: rest => some (.list [], rest)
      | _ => (readItems fuel rest).map fun r => (.list r.1, r.2)
    | '\x7b' :: rest =>
      match skipBlanks rest with
      | '\x7d' :: rest => some (.object [], rest)
      | _ => (readMembers fuel rest).map fun r => (.object r.1, r.2)
    | cs => (Numeral.read cs).map fun r => (.number r.1, r.2)

/-- Reads the items of a list up to its closing bracket. -/
def readItems : (fuel : Nat) → List Char → Option (List Json × List Char)
  | 0, _ => none
  | fuel + 1, cs =>
    match readValue fuel cs with
    | none => none
    | some (j, rest) =>
      match skipBlanks rest with
      | ',' :: rest => (readItems fuel rest).map fun r => (j :: r.1, r.2)
      | ']' :: rest => some ([j], rest)
      | _ => none

/-- Reads the members of an object up to its closing brace. -/
def readMembers : (fuel : Nat) → List Char → Option (List (Option String × Json) × List Char)
  | 0, _ => none
  | fuel + 1, cs =>
    match skipBlanks cs with
    | '"' :: rest =>
      match readQuoted rest with
      | none => none
      | some (content, rest) =>
        match skipBlanks rest with
        | ':' :: rest =>
          match readValue fuel rest with
          | none => none
          | some (j, rest) =>
            match skipBlanks rest with
            | ',' :: rest => (readMembers fuel rest).map fun r => ((textOf content, j) :: r.1, r.2)
            | '\x7d' :: rest => some ([(textOf content, j)], rest)
            | _ => none
        | _ => none
    | _ => none

end

/-- Reads a text that holds one value, with nothing but blanks behind it. -/
def read? (s : String) : Option Json :=
  let cs := s.toList
  match readValue (2 * cs.length + 2) cs with
  | some (j, rest) => if (skipBlanks rest).isEmpty then some j else none
  | none => none

end Json

end SensorCatalog
