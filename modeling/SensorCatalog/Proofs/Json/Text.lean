import SensorCatalog.Json.Reader
import SensorCatalog.Json.Writer
import SensorCatalog.Proofs.Number.Numeral

/-!
# Exchanged texts are read as they were written

A value that keeps to the grammar (`Json.WellFormed`) is read back from its text: `Json.read?_toPretty`.

Inside quotes each character is read back from its escape (`Json.readQuoted_escape`), so no text ends too early and none
contains a control character. Outside of quotes the first character of a value tells which kind of value follows. It is
neither a blank nor a bracket that closes (`Json.exists_pretty_eq_cons`), so blanks in front of it can be skipped and a
list that begins with it is not empty.

The readers call each other, but the proof follows the value that was written: what is read back of all items is read
back of the list. Each line of a text has at least two characters of its own, so twice the length of a text is more fuel
than its readers use.
-/

namespace SensorCatalog

namespace Json

/-! ### Quoted texts -/

/-- A digit in base sixteen is read back. -/
theorem hexValue?_hexDigit : ∀ n < 16, hexValue? (hexDigit n) = some n := by decide

/-- A control character is read back from its code. -/
theorem readQuoted_control {c : Char} (h : c.toNat < 32) (rest : List Char) :
    readQuoted (['\\', 'u', '0', '0', hexDigit (c.toNat / 16), hexDigit (c.toNat % 16)] ++ rest) =
      consPiece (some (.char c)) (readQuoted rest) := by
  have hquad : hexQuad? '0' '0' (hexDigit (c.toNat / 16)) (hexDigit (c.toNat % 16)) = some c.toNat := by
    have hzero : hexValue? '0' = some 0 := hexValue?_hexDigit 0 (by decide)
    rw [hexQuad?, hzero, hexValue?_hexDigit (c.toNat / 16) (by omega), hexValue?_hexDigit (c.toNat % 16) (by omega)]
    exact congrArg some (by omega)
  have hunit : TextPiece.ofUnit c.toNat = .char c := by
    have hhigh : isHighSurrogate c.toNat = false := decide_eq_false (by omega)
    have hlow : isLowSurrogate c.toNat = false := decide_eq_false (by omega)
    rw [TextPiece.ofUnit, hhigh, hlow, Bool.or_self, if_neg Bool.false_ne_true, Char.ofNat_toNat]
  show readQuoted ('\\' :: 'u' :: '0' :: '0' :: _ :: _ :: rest) = _
  rw [readQuoted, hquad, Option.map_some, hunit]

/-- **A character is read back from its escape.** -/
theorem readQuoted_escape (c : Char) (rest : List Char) :
    readQuoted (escape c ++ rest) = consPiece (some (.char c)) (readQuoted rest) := by
  -- most escapes are read by their letter
  by_cases hletter : c ∈ ['"', '\\', '\x08', '\x0c', '\n', '\r', '\t']
  · simp only [List.mem_cons, List.not_mem_nil, or_false] at hletter
    rcases hletter with rfl | rfl | rfl | rfl | rfl | rfl | rfl <;> rfl
  · simp only [List.mem_cons, List.not_mem_nil, or_false, not_or] at hletter
    obtain ⟨hquote, hbackslash, h8, h12, h10, h13, h9⟩ := hletter
    rw [escape, if_neg hquote, if_neg hbackslash, if_neg h8, if_neg h12, if_neg h10, if_neg h13, if_neg h9]
    split
    · exact readQuoted_control ‹_› rest
    · rename_i hcontrol
      show readQuoted (c :: rest) = _
      rw [readQuoted, if_neg (not_or.2 ⟨hcontrol, hbackslash⟩)]
      · exact hquote
      · exact fun _ _ _ _ _ h => absurd h hbackslash
      · exact fun _ _ h => absurd h hbackslash

/-- By induction, so are all characters of a text, up to the quote that ends it. -/
theorem readQuoted_quoted (cs rest : List Char) :
    readQuoted (cs.flatMap escape ++ '"' :: rest) = some (cs.map .char, rest) := by
  induction cs with
  | nil => rw [List.flatMap_nil, List.nil_append, readQuoted, List.map_nil]
  | cons c cs ih =>
    rw [List.flatMap_cons, List.append_assoc, readQuoted_escape, ih]
    rfl

/-- Characters in a row are a text. -/
theorem joinPieces_char (cs : List Char) : joinPieces (cs.map .char) = some cs := by
  induction cs with
  | nil => rfl
  | cons c cs ih => rw [List.map_cons, joinPieces, ih, Option.map_some]

/-- A text is put together of its characters. -/
@[simp] theorem textOf_char (s : String) : textOf (s.toList.map .char) = some s := by
  rw [textOf, joinPieces_char, Option.map_some, String.ofList_toList]

/-- What stands behind the opening quote of a text. -/
theorem quote_append (s : String) (rest : List Char) :
    quote s ++ rest = '"' :: (s.toList.flatMap escape ++ '"' :: rest) := by
  rw [quote, List.cons_append, List.cons_append, List.append_assoc]
  rfl

/-! ### Blanks -/

/-- Blanks at the beginning of a line are skipped. -/
@[simp] theorem skipBlanks_newLine (level : Nat) (cs : List Char) : skipBlanks (newLine level ++ cs) = skipBlanks cs := by
  rw [newLine, List.cons_append, skipBlanks, if_pos (by decide)]
  generalize 2 * level = n
  induction n with
  | zero => rfl
  | succ n ih => rw [List.replicate_succ, List.cons_append, skipBlanks, if_pos (by decide), ih]

/-- A value may stand on a new line. -/
theorem readValue_newLine (fuel level : Nat) (cs : List Char) :
    readValue fuel (newLine level ++ cs) = readValue fuel cs := by
  cases fuel with
  | zero => rfl
  | succ fuel => rw [readValue, readValue, skipBlanks_newLine]

/-- A value may stand behind a blank. -/
theorem readValue_blank (fuel : Nat) (cs : List Char) : readValue fuel (' ' :: cs) = readValue fuel cs := by
  cases fuel with
  | zero => rfl
  | succ fuel => rw [readValue, readValue, skipBlanks, if_pos (by decide)]

/-! ### Values -/

/-- **Values that keep to the grammar.** Their numerals do, and all texts name characters. -/
inductive WellFormed : Json → Prop where
  | null : WellFormed .null
  | bool (b : Bool) : WellFormed (.bool b)
  | number {n : Numeral} (h : n.WellFormed) : WellFormed (.number n)
  | text (s : String) : WellFormed (.text (some s))
  | list {items : List Json} (h : ∀ j ∈ items, WellFormed j) : WellFormed (.list items)
  | object {members : List (Option String × Json)} (hkeys : ∀ m ∈ members, m.1.isSome = true)
    (h : ∀ m ∈ members, WellFormed m.2) : WellFormed (.object members)

/-- The characters that a value can begin with. -/
def openings : List Char :=
  ['n', 't', 'f', '"', '[', '\x7b', '-', '0', '1', '2', '3', '4', '5', '6', '7', '8', '9']

/-- A value can begin with any digit. -/
theorem mem_openings_toChar : ∀ d : Digit, d.toChar ∈ openings := by decide

/-- A value begins with one of these. -/
theorem exists_pretty_eq_cons {j : Json} (h : j.WellFormed) (level : Nat) :
    ∃ c cs, pretty level j = c :: cs ∧ c ∈ openings := by
  cases h with
  | null => exact ⟨'n', _, by rw [pretty]; rfl, by decide⟩
  | bool b =>
    cases b with
    | true => exact ⟨'t', _, by rw [pretty]; rfl, by decide⟩
    | false => exact ⟨'f', _, by rw [pretty]; rfl, by decide⟩
  | @number n hn =>
    obtain ⟨c, cs, hcs, hc⟩ := Numeral.head_render hn
    refine ⟨c, cs, by rw [pretty, hcs], ?_⟩
    rcases hc with ⟨rfl, -⟩ | ⟨-, d, rfl⟩
    · decide
    · exact mem_openings_toChar d
  | text s => exact ⟨'"', _, by rw [pretty]; rfl, by decide⟩
  | @list items _ => cases items <;> exact ⟨'[', _, by rw [pretty], by decide⟩
  | @object members _ _ => cases members <;> exact ⟨'\x7b', _, by rw [pretty], by decide⟩

/-- None of these is a blank, so nothing is skipped before it. -/
theorem skipBlanks_of_mem_openings {c : Char} (h : c ∈ openings) (cs : List Char) : skipBlanks (c :: cs) = c :: cs := by
  have hblank : ∀ c ∈ openings, ¬ (c = ' ' ∨ c = '\n' ∨ c = '\t' ∨ c = '\r') := by
    simp [openings]
  rw [skipBlanks, if_neg (hblank c h)]

/-- A number ends before a new line. -/
theorem stops_newLine (level : Nat) (cs : List Char) : Numeral.Stops (newLine level ++ cs) := by
  rintro c ⟨⟩
  decide

/-- A number ends before a comma. -/
theorem stops_comma (cs : List Char) : Numeral.Stops (',' :: cs) := by
  rintro c ⟨⟩
  decide

/-- Whether a value is read back from its text, wherever that stands. -/
def IsRead (j : Json) : Prop :=
  ∀ level fuel rest, Numeral.Stops rest → 2 * (pretty level j).length ≤ fuel →
    readValue fuel (pretty level j ++ rest) = some (j, rest)

/-- What does not begin with a letter, a quote or a bracket is read as a number. -/
theorem readValue_number {c : Char} (h : c = '-' ∨ ∃ d : Digit, c = d.toChar) (fuel : Nat) (cs : List Char) :
    readValue (fuel + 1) (c :: cs) = (Numeral.read (c :: cs)).map fun r => (.number r.1, r.2) := by
  rcases h with rfl | ⟨d, rfl⟩
  · rfl
  · fin_cases d <;> rfl

/-- A number is read back. -/
theorem isRead_number {n : Numeral} (h : n.WellFormed) : IsRead (.number n) := by
  intro level fuel rest hrest hfuel
  obtain ⟨c, cs, hcs, hc⟩ := Numeral.head_render h
  rw [pretty] at hfuel ⊢
  cases fuel with
  | zero => simp [hcs] at hfuel
  | succ fuel =>
    have hread := Numeral.read_render h hrest
    rw [hcs, List.cons_append] at hread ⊢
    rw [readValue_number (hc.imp (fun h => h.1) fun h => h.2), hread]
    rfl

/-- A text is read back. -/
theorem isRead_text (s : String) : IsRead (.text (some s)) := by
  intro level fuel rest _ hfuel
  rw [pretty, quoteText, Option.getD_some] at hfuel ⊢
  cases fuel with
  | zero => simp [quote] at hfuel
  | succ fuel =>
    rw [quote_append]
    show (readQuoted _).map _ = _
    rw [readQuoted_quoted, Option.map_some, textOf_char]

/-! ### Lists and objects -/

variable {level fuel : Nat} {rest : List Char}

/-- **The items of a list are read back**, since each of them is. -/
theorem readItems_pretty {items : List Json} (hne : items ≠ []) (h : ∀ j ∈ items, IsRead j)
    (hfuel : 2 * (prettyItems level items).length ≤ fuel) :
    readItems fuel (prettyItems level items ++ rest) = some (items, rest) := by
  -- by the items; each of them costs some of the fuel, and there is enough since its text is longer than that
  induction items generalizing fuel with
  | nil => exact absurd rfl hne
  | cons j js ih =>
    have hj := h j List.mem_cons_self
    cases fuel with
    | zero => cases js <;> simp [prettyItems, newLine] at hfuel
    | succ fuel =>
      cases js with
      | nil =>
        -- it is the only one left, and the list is closed behind it
        rw [prettyItems] at hfuel ⊢
        simp only [List.length_append, List.length_cons, newLine] at hfuel
        have hvalue := hj (level + 1) fuel (newLine level ++ ']' :: rest) (stops_newLine _ _) (by omega)
        rw [List.append_assoc, List.append_assoc, List.append_assoc, List.singleton_append, readItems,
          readValue_newLine, hvalue]
        simp only [skipBlanks_newLine]
        rfl
      | cons k js =>
        -- behind it comes a comma, and then the others
        rw [prettyItems] at hfuel ⊢
        simp only [List.length_append, List.length_cons, newLine] at hfuel
        have hvalue := hj (level + 1) fuel (',' :: (prettyItems level (k :: js) ++ rest)) (stops_comma _) (by omega)
        have hothers : readItems fuel (prettyItems level (k :: js) ++ rest) = some (k :: js, rest) :=
          ih (List.cons_ne_nil k js) (fun i hi => h i (List.mem_cons_of_mem j hi)) (by omega)
        rw [List.append_assoc, List.append_assoc, List.cons_append, readItems, readValue_newLine, hvalue]
        show (readItems fuel _).map _ = _
        rw [hothers, Option.map_some]

/-! A member is read by its key, and then like an item. It is the last one if the object is closed behind it. -/

section Member

variable {s : String} {cs ds es : List Char} {j : Json} (hvalue : readValue fuel cs = some (j, ds))

include hvalue

/-- The last member, behind which the object is closed. -/
theorem readMembers_last (hclosed : skipBlanks ds = '\x7d' :: es) :
    readMembers (fuel + 1) (newLine level ++ (quote s ++ ':' :: ' ' :: cs)) = some ([(some s, j)], es) := by
  rw [readMembers, skipBlanks_newLine, quote_append, skipBlanks_of_mem_openings (by decide)]
  have hcolon : skipBlanks (':' :: ' ' :: cs) = ':' :: ' ' :: cs := rfl
  simp only [readQuoted_quoted, hcolon, readValue_blank, textOf_char, hvalue, hclosed]

/-- A member behind which there is a comma, and others. -/
theorem readMembers_more (hcomma : skipBlanks ds = ',' :: es) :
    readMembers (fuel + 1) (newLine level ++ (quote s ++ ':' :: ' ' :: cs)) =
      (readMembers fuel es).map fun r => ((some s, j) :: r.1, r.2) := by
  rw [readMembers, skipBlanks_newLine, quote_append, skipBlanks_of_mem_openings (by decide)]
  have hcolon : skipBlanks (':' :: ' ' :: cs) = ':' :: ' ' :: cs := rfl
  simp only [readQuoted_quoted, hcolon, readValue_blank, textOf_char, hvalue, hcomma]

end Member

/-- **The members of an object are read back**, since their values are. -/
theorem readMembers_pretty {members : List (Option String × Json)} (hne : members ≠ [])
    (hkeys : ∀ m ∈ members, m.1.isSome = true) (h : ∀ m ∈ members, IsRead m.2)
    (hfuel : 2 * (prettyMembers level members).length ≤ fuel) :
    readMembers fuel (prettyMembers level members ++ rest) = some (members, rest) := by
  induction members generalizing fuel with
  | nil => exact absurd rfl hne
  | cons m ms ih =>
    obtain ⟨key, j⟩ := m
    -- a key that names no characters would not have been written
    obtain ⟨s, rfl⟩ := Option.isSome_iff_exists.1 (hkeys _ List.mem_cons_self)
    have hj : IsRead j := h _ List.mem_cons_self
    cases fuel with
    | zero => cases ms <;> simp [prettyMembers, newLine] at hfuel
    | succ fuel =>
      cases ms with
      | nil =>
        rw [prettyMembers] at hfuel ⊢
        simp only [List.length_append, List.length_cons, newLine] at hfuel
        have hvalue := hj (level + 1) fuel (newLine level ++ '\x7d' :: rest) (stops_newLine _ _) (by omega)
        simp only [List.append_assoc, List.cons_append, List.nil_append, quoteText, Option.getD_some]
        exact readMembers_last hvalue (skipBlanks_newLine _ _)
      | cons n ms =>
        rw [prettyMembers] at hfuel ⊢
        simp only [List.length_append, List.length_cons, newLine] at hfuel
        have hvalue := hj (level + 1) fuel (',' :: (prettyMembers level (n :: ms) ++ rest)) (stops_comma _) (by omega)
        have hothers : readMembers fuel (prettyMembers level (n :: ms) ++ rest) = some (n :: ms, rest) :=
          ih (List.cons_ne_nil n ms) (fun i hi => hkeys i (List.mem_cons_of_mem _ hi))
            (fun i hi => h i (List.mem_cons_of_mem _ hi)) (by omega)
        simp only [List.append_assoc, List.cons_append, quoteText, Option.getD_some]
        rw [readMembers_more hvalue rfl, hothers, Option.map_some]

/-! Behind the opening bracket comes a line that begins with the first item or key, so what is behind the blanks is not
the closing bracket. -/

/-- The items begin on a new line, with the first of them. -/
theorem exists_prettyItems_cons (level : Nat) (j : Json) (js : List Json) :
    ∃ tail, prettyItems level (j :: js) = newLine (level + 1) ++ (pretty (level + 1) j ++ tail) := by
  cases js with
  | nil => exact ⟨newLine level ++ [']'], by rw [prettyItems, List.append_assoc, List.append_assoc]⟩
  | cons k js => exact ⟨',' :: prettyItems level (k :: js), by rw [prettyItems, List.append_assoc]⟩

/-- The members begin on a new line, with the key of the first one. -/
theorem exists_prettyMembers_cons (level : Nat) (key : Option String) (j : Json) (ms : List (Option String × Json)) :
    ∃ tail, prettyMembers level ((key, j) :: ms) = newLine (level + 1) ++ (quoteText key ++ tail) := by
  cases ms with
  | nil =>
    refine ⟨':' :: ' ' :: pretty (level + 1) j ++ (newLine level ++ ['\x7d']), ?_⟩
    rw [prettyMembers]
    simp only [List.append_assoc]
  | cons m ms =>
    refine ⟨':' :: ' ' :: pretty (level + 1) j ++ ',' :: prettyMembers level (m :: ms), ?_⟩
    rw [prettyMembers]
    simp only [List.append_assoc]

/-- What comes after the bracket of a list with items is the beginning of a value. -/
theorem exists_skipBlanks_prettyItems {j : Json} (h : j.WellFormed) (js : List Json) :
    ∃ c cs, skipBlanks (prettyItems level (j :: js) ++ rest) = c :: cs ∧ c ∈ openings := by
  obtain ⟨c, cs, hcs, hc⟩ := exists_pretty_eq_cons h (level + 1)
  obtain ⟨tail, htail⟩ := exists_prettyItems_cons level j js
  refine ⟨c, cs ++ (tail ++ rest), ?_, hc⟩
  rw [htail, hcs, List.append_assoc, List.append_assoc, skipBlanks_newLine, List.cons_append,
    skipBlanks_of_mem_openings hc]

/-- What comes after the bracket of an object with members is the quote of a key. -/
theorem exists_skipBlanks_prettyMembers (key : Option String) (j : Json) (ms : List (Option String × Json)) :
    ∃ cs, skipBlanks (prettyMembers level ((key, j) :: ms) ++ rest) = '"' :: cs := by
  obtain ⟨tail, htail⟩ := exists_prettyMembers_cons level key j ms
  rw [htail, List.append_assoc, List.append_assoc, skipBlanks_newLine, quoteText, quote_append,
    skipBlanks_of_mem_openings (by decide)]
  exact ⟨_, rfl⟩

/-- A bracket that is not closed at once begins a list with items. -/
theorem readValue_list {cs : List Char} (h : ∃ c ds, skipBlanks cs = c :: ds ∧ c ∈ openings) :
    readValue (fuel + 1) ('[' :: cs) = (readItems fuel cs).map fun r => (.list r.1, r.2) := by
  obtain ⟨c, ds, hskip, hc⟩ := h
  have hne : c ≠ ']' := fun hclosed => absurd (hclosed ▸ hc) (by decide)
  rw [readValue, skipBlanks_of_mem_openings (by decide)]
  simp only [hskip]
  split
  · rename_i hclosed
    exact absurd (List.cons.inj hclosed).1 hne
  · rfl

/-- A bracket before a key begins an object with members. -/
theorem readValue_object {cs : List Char} (h : ∃ ds, skipBlanks cs = '"' :: ds) :
    readValue (fuel + 1) ('\x7b' :: cs) = (readMembers fuel cs).map fun r => (.object r.1, r.2) := by
  obtain ⟨ds, hskip⟩ := h
  rw [readValue, skipBlanks_of_mem_openings (by decide)]
  simp only [hskip]
  rfl

/-! ### The result -/

/-- **A value is read back from its text**, wherever that stands. -/
theorem WellFormed.isRead {j : Json} (h : j.WellFormed) : IsRead j := by
  -- by the value, and in it what is read back of the items or members is an induction of its own
  induction h with
  | null =>
    intro level fuel rest _ hfuel
    rw [pretty] at hfuel ⊢
    cases fuel with
    | zero => cases hfuel
    | succ fuel => rfl
  | bool b =>
    intro level fuel rest _ hfuel
    cases fuel with
    | zero => cases b <;> rw [pretty] at hfuel <;> cases hfuel
    | succ fuel => cases b <;> rw [pretty] <;> rfl
  | number h => exact isRead_number h
  | text s => exact isRead_text s
  | @list items h ih =>
    intro level fuel rest _ hfuel
    cases fuel with
    | zero => cases items <;> simp [pretty] at hfuel
    | succ fuel =>
      cases items with
      | nil =>
        rw [pretty]
        rfl
      | cons j js =>
        rw [pretty] at hfuel ⊢
        rw [List.length_cons] at hfuel
        have hitems : readItems fuel (prettyItems level (j :: js) ++ rest) = some (j :: js, rest) :=
          readItems_pretty (List.cons_ne_nil j js) ih (by omega)
        rw [List.cons_append, readValue_list (exists_skipBlanks_prettyItems (h j List.mem_cons_self) js), hitems,
          Option.map_some]
  | @object members hkeys h ih =>
    intro level fuel rest _ hfuel
    cases fuel with
    | zero => cases members <;> simp [pretty] at hfuel
    | succ fuel =>
      cases members with
      | nil =>
        rw [pretty]
        rfl
      | cons m ms =>
        rw [pretty] at hfuel ⊢
        rw [List.length_cons] at hfuel
        have hmembers : readMembers fuel (prettyMembers level (m :: ms) ++ rest) = some (m :: ms, rest) :=
          readMembers_pretty (List.cons_ne_nil m ms) hkeys ih (by omega)
        rw [List.cons_append, readValue_object (exists_skipBlanks_prettyMembers m.1 m.2 ms), hmembers, Option.map_some]

/-- **A value is read back from its text.** -/
theorem read?_toPretty {j : Json} (h : j.WellFormed) : read? j.toPretty = some j := by
  have hread := h.isRead 0 (2 * (pretty 0 j).length + 2) [] (fun _ hc => by cases hc) (by omega)
  rw [List.append_nil] at hread
  rw [read?, toPretty, String.toList_ofList]
  simp only [hread]
  rfl

end Json

end SensorCatalog
