import SensorCatalog.Number.Shortest
import SensorCatalog.Number.Reading
import SensorCatalog.Sorted.Map

/-!
# Exchanged values

`Json` is the tree of an exchanged text, as it is written: members of an object stay in their order, a
key may stand twice, and numbers are numerals. Whoever reads a value decides what that means
(`Json.fields?` refuses a repeated field, `Json.toMap?` takes the last of equal keys).

A text may escape half of a surrogate pair. Such a text is well formed but names no characters; it is
`none` and can be skipped, not read.
-/

namespace SensorCatalog

/-- The tree of an exchanged text. -/
inductive Json where
  | null
  | bool (b : Bool)
  /-- A number, as written. -/
  | number (n : Numeral)
  /-- A text; `none` when its escapes do not name characters. -/
  | text (s : Option String)
  | list (items : List Json)
  /-- Members with their keys, in the order of the text. -/
  | object (members : List (Option String × Json))

namespace Json

instance : Inhabited Json := ⟨null⟩

/-! ### Making values -/

/-- The value of a text. -/
def ofText (s : String) : Json := .text (some s)

/-- The value of a natural number. -/
def ofNat (n : Nat) : Json := .number (Numeral.ofNat n)

/-- The value of an integer. -/
def ofInt (i : Int) : Json := .number (Numeral.ofInt i)

/-- The value of a coordinate: its shortest numeral, or null when it is no finite number. -/
def ofFloat (x : Float) : Json :=
  match Numeral.ofFloat? x with
  | some n => .number n
  | none => .null

/-- The value of a record with named fields. -/
def record (fields : List (String × Json)) : Json :=
  .object (fields.map fun f => (some f.1, f.2))

/-- The list of the texts in a set, in their order. -/
def ofSet (s : SortedSet) : Json := .list (s.toList.map ofText)

/-- The list of some texts. -/
def ofTexts (l : List String) : Json := .list (l.map ofText)

/-- The object with the entries of a map, in the order of the keys. -/
def ofMap {α : Type} (f : α → Json) (m : SortedMap α) : Json :=
  record (m.toList.map fun e => (e.1, f e.2))

/-- An optional value; null stands for none. -/
def ofOption {α : Type} (f : α → Json) : Option α → Json
  | none => .null
  | some a => f a

/-! ### Reading values -/

/-- A text. -/
def toText? : Json → Option String
  | .text s => s
  | _ => none

/-- A truth value. -/
def toBool? : Json → Option Bool
  | .bool b => some b
  | _ => none

/-- An integer literal. -/
def toInt? : Json → Option Int
  | .number n => n.toInt?
  | _ => none

/-- An integer literal from zero up to, but not including, `bound`. -/
def toNat? (bound : Nat) (j : Json) : Option Nat :=
  match j.toInt? with
  | some (.ofNat n) => if n < bound then some n else none
  | _ => none

/-- A 64-bit count. -/
def toCount? (j : Json) : Option Nat := j.toNat? wordEnd

/-- A coordinate: any numeral that is not too great for one. -/
def toFloat? : Json → Option Float
  | .number n => n.toFloat?
  | _ => none

/-- The items of a list. -/
def toItems? : Json → Option (List Json)
  | .list items => some items
  | _ => none

/-- A list of texts. -/
def toTexts? (j : Json) : Option (List String) :=
  j.toItems?.bind fun items => items.mapM toText?

/-- A set of texts, which may stand in the list repeatedly and in any order. -/
def toSet? (j : Json) : Option SortedSet := j.toTexts?.map SortedSet.ofList

/-- The members of an object whose keys can all be read. -/
def toMembers? : Json → Option (List (String × Json))
  | .object members => members.mapM fun m => m.1.map (·, m.2)
  | _ => none

/-- A map; of several members with one key the last counts. -/
def toMap? {α : Type} (f : Json → Option α) (j : Json) : Option (SortedMap α) :=
  j.toMembers?.bind fun members =>
    (members.mapM fun m => (f m.2).map (m.1, ·)).map SortedMap.ofList

/-- A value or null. -/
def toOption? {α : Type} (f : Json → Option α) : Json → Option (Option α)
  | .null => some none
  | j => (f j).map some

/-! ### Records -/

/-- The member with the given key. Outer `none`: it stands there twice. -/
def member? (key : String) (members : List (String × Json)) : Option (Option Json) :=
  match members.filter fun m => m.1 == key with
  | [] => some none
  | [m] => some (some m.2)
  | _ => none

/-- The fields of a record, in the order of `names`, each `none` where it is missing. A record is an
object, in which unknown members are skipped and a known one stands at most once, or the list of all its
fields. -/
def fields? (names : List String) : Json → Option (List (Option Json))
  | .list items => if items.length = names.length then some (items.map some) else none
  | j => j.toMembers?.bind fun members => names.mapM fun name => member? name members

/-- Like `fields?`, but fields may also be missing at the end of a list. -/
def someFields? (names : List String) : Json → Option (List (Option Json))
  | .list items =>
    if items.length ≤ names.length then
      some (items.map some ++ List.replicate (names.length - items.length) none)
    else none
  | j => j.fields? names

end Json

end SensorCatalog
