import SensorCatalog.Json.Value

/-!
# Writing exchanged values

Two layouts: `Json.compact` has no blanks, `Json.pretty` puts each item on a line of its own, indented by
two blanks a level. In both an empty list is `[]` and an empty object `\x7b\x7d`.

Texts are quoted: the quote, the backslash and the controls below `0x20` are escaped, all other
characters stand for themselves.
-/

namespace SensorCatalog

namespace Json

/-- A hexadecimal digit, in lower case. -/
def hexDigit (n : Nat) : Char := Char.ofNat (if n < 10 then 48 + n else 87 + n)

/-- A character inside quotes. -/
def escape (c : Char) : List Char :=
  if c = '"' then ['\\', '"']
  else if c = '\\' then ['\\', '\\']
  else if c = '\x08' then ['\\', 'b']
  else if c = '\x0c' then ['\\', 'f']
  else if c = '\n' then ['\\', 'n']
  else if c = '\r' then ['\\', 'r']
  else if c = '\t' then ['\\', 't']
  else if c.toNat < 32 then ['\\', 'u', '0', '0', hexDigit (c.toNat / 16), hexDigit (c.toNat % 16)]
  else [c]

/-- A text in quotes. -/
def quote (s : String) : List Char := '"' :: s.toList.flatMap escape ++ ['"']

/-- A text in quotes. One that names no characters has no written form and is left empty. -/
def quoteText (s : Option String) : List Char := quote (s.getD "")

mutual

/-- The text of a value without blanks. -/
def compact : Json → List Char
  | .null => "null".toList
  | .bool true => "true".toList
  | .bool false => "false".toList
  | .number n => n.render
  | .text s => quoteText s
  | .list items => '[' :: compactItems items
  | .object members => '\x7b' :: compactMembers members

/-- The rest of a list behind its opening bracket. -/
def compactItems : List Json → List Char
  | [] => [']']
  | [j] => compact j ++ [']']
  | j :: k :: js => compact j ++ ',' :: compactItems (k :: js)

/-- The rest of an object behind its opening brace. -/
def compactMembers : List (Option String × Json) → List Char
  | [] => ['\x7d']
  | [(k, j)] => quoteText k ++ ':' :: compact j ++ ['\x7d']
  | (k, j) :: m :: ms => quoteText k ++ ':' :: compact j ++ ',' :: compactMembers (m :: ms)

end

/-- A line break and the indentation of a level. -/
def newLine (level : Nat) : List Char := '\n' :: List.replicate (2 * level) ' '

mutual

/-- The text of a value that stands at a level of indentation, one item a line. -/
def pretty (level : Nat) : Json → List Char
  | .null => "null".toList
  | .bool true => "true".toList
  | .bool false => "false".toList
  | .number n => n.render
  | .text s => quoteText s
  | .list [] => ['[', ']']
  | .list items@(_ :: _) => '[' :: prettyItems level items
  | .object [] => ['\x7b', '\x7d']
  | .object members@(_ :: _) => '\x7b' :: prettyMembers level members

/-- The rest of a list behind its opening bracket or a comma. -/
def prettyItems (level : Nat) : List Json → List Char
  | [] => newLine level ++ [']']
  | [j] => newLine (level + 1) ++ pretty (level + 1) j ++ newLine level ++ [']']
  | j :: k :: js =>
    newLine (level + 1) ++ pretty (level + 1) j ++ ',' :: prettyItems level (k :: js)

/-- The rest of an object behind its opening brace or a comma. -/
def prettyMembers (level : Nat) : List (Option String × Json) → List Char
  | [] => newLine level ++ ['\x7d']
  | [(k, j)] =>
    newLine (level + 1) ++ quoteText k ++ ':' :: ' ' :: pretty (level + 1) j ++ newLine level ++ ['\x7d']
  | (k, j) :: m :: ms =>
    newLine (level + 1) ++ quoteText k ++ ':' :: ' ' :: pretty (level + 1) j
      ++ ',' :: prettyMembers level (m :: ms)

end

/-- The text of a value without blanks. -/
def toCompact (j : Json) : String := String.ofList (compact j)

/-- The text of a value, one item a line. -/
def toPretty (j : Json) : String := String.ofList (pretty 0 j)

end Json

end SensorCatalog
