import SensorCatalog.Number.Numeral
import Mathlib

/-!
# Numerals are read as they were written

The digits of a number stand for it (`Digit.value_ofNat`), and they start with a zero only if there is no other one.

A numeral can be read off a text only when it is clear where it ends: what follows must not go on with a digit, a point
or an exponent (`Numeral.Stops`). Then a numeral that keeps to the grammar (`Numeral.WellFormed`) is read as it was
written, digit for digit (`Numeral.read_render`).
-/

namespace SensorCatalog

namespace Digit

/-! ### Characters -/

/-- A digit is read back from its character. -/
@[simp] theorem ofChar?_toChar : ∀ d : Digit, ofChar? d.toChar = some d := by decide

/-- No other digit is written as a zero. -/
theorem toChar_eq_zero : ∀ {d : Digit}, d.toChar = '0' → d = zero := by decide

/-- No digit is written as a sign. -/
theorem toChar_ne_sign : ∀ d : Digit, d.toChar ≠ '-' ∧ d.toChar ≠ '+' := by decide

/-- No digit is the first character of a text. -/
def NoDigit (cs : List Char) : Prop := ∀ c ∈ cs.head?, ofChar? c = none

/-- A text that begins with another character begins with no digit. -/
theorem noDigit_cons {c : Char} {cs : List Char} (h : ofChar? c = none) : NoDigit (c :: cs) := by
  rintro d ⟨⟩
  exact h

/-- The digits in front of a text are all taken, if no digit follows them. -/
theorem span_append (ds : List Digit) {rest : List Char} (h : NoDigit rest) :
    span (ds.map toChar ++ rest) = (ds, rest) := by
  induction ds with
  | nil =>
    cases rest with
    | nil => rfl
    | cons c rest => simp [span, h c rfl]
  | cons d ds ih => simp [span, ih]

/-! ### The digits of a number -/

@[simp] theorem value_nil : value [] = 0 := rfl

/-- A digit at the end is worth what it is, and the ones before it ten times as much. -/
theorem value_concat (ds : List Digit) (d : Digit) : value (ds ++ [d]) = 10 * value ds + d.val := by
  rw [value, List.foldl_append]
  rfl

/-- What was put in front stays behind. -/
theorem ofNatOnto_append (fuel n : Nat) (acc : List Digit) : ofNatOnto fuel n acc = ofNatOnto fuel n [] ++ acc := by
  -- by induction on the fuel, whatever has been put in front by then
  induction fuel generalizing n acc with
  | zero => rfl
  | succ fuel ih =>
    rw [ofNatOnto, ofNatOnto]
    split
    · rfl
    · rw [ih, ih _ [_], List.append_assoc]
      rfl

/-- More fuel than needed makes no difference. -/
theorem ofNatOnto_fuel {fuel fuel' n : Nat} (h : n < fuel) (h' : n < fuel') (acc : List Digit) :
    ofNatOnto fuel n acc = ofNatOnto fuel' n acc := by
  -- each digit takes one unit of either fuel, and what is left is enough for the tenth part
  induction fuel generalizing fuel' n acc with
  | zero => cases h
  | succ fuel ih =>
    cases fuel' with
    | zero => cases h'
    | succ fuel' =>
      rw [ofNatOnto, ofNatOnto]
      split
      · rfl
      · exact ih (by omega) (by omega) _

/-- A number below ten is one digit. -/
theorem ofNat_of_lt {n : Nat} (h : n < 10) : ofNat n = [⟨n, h⟩] := by
  rw [ofNat, ofNatOnto, if_pos h]
  simp [Nat.mod_eq_of_lt h]

/-- A greater number ends in the rest by ten, after the digits of the tenth part. -/
theorem ofNat_of_le {n : Nat} (h : 10 ≤ n) :
    ofNat n = ofNat (n / 10) ++ [⟨n % 10, Nat.mod_lt n (by decide)⟩] := by
  have hfuel : ofNatOnto n (n / 10) [] = ofNat (n / 10) := ofNatOnto_fuel (by omega) (Nat.lt_succ_self _) []
  rw [ofNat, ofNatOnto, if_neg (by omega), ofNatOnto_append, hfuel]

/-- **The digits of a number stand for it.** -/
@[simp] theorem value_ofNat (n : Nat) : value (ofNat n) = n := by
  -- a number is its tenth part, of which this is known, and one more digit
  induction n using Nat.strongRecOn with
  | ind n ih =>
    rcases Nat.lt_or_ge n 10 with h | h
    · rw [ofNat_of_lt h]
      exact Nat.zero_add n
    · rw [ofNat_of_le h, value_concat, ih (n / 10) (by omega)]
      exact Nat.div_add_mod n 10

/-- Every number has a digit. -/
theorem ofNat_ne_nil (n : Nat) : ofNat n ≠ [] := by
  rcases Nat.lt_or_ge n 10 with h | h
  · simp [ofNat_of_lt h]
  · simp [ofNat_of_le h]

/-- There are no leading zeros. -/
theorem exists_ofNat_eq_cons {n : Nat} (h : n ≠ 0) : ∃ d ds, ofNat n = d :: ds ∧ d ≠ zero := by
  induction n using Nat.strongRecOn with
  | ind n ih =>
    rcases Nat.lt_or_ge n 10 with hlt | hge
    · exact ⟨⟨n, hlt⟩, [], ofNat_of_lt hlt, fun hzero => h (congrArg Fin.val hzero)⟩
    -- the first digit of a greater number is that of its tenth part
    · obtain ⟨d, ds, hds, hd⟩ := ih (n / 10) (by omega) (by omega)
      exact ⟨d, ds ++ [_], by rw [ofNat_of_le hge, hds, List.cons_append], hd⟩

/-- A number below a power of ten has no more digits than that. -/
theorem length_ofNat_le {n k : Nat} (h : n < 10 ^ (k + 1)) : (ofNat n).length ≤ k + 1 := by
  -- the tenth part has one digit less
  induction k generalizing n with
  | zero => simp [ofNat_of_lt h]
  | succ k ih =>
    rcases Nat.lt_or_ge n 10 with hlt | hge
    · simp [ofNat_of_lt hlt]
    · have hdiv : n / 10 < 10 ^ (k + 1) := Nat.div_lt_of_lt_mul (by rwa [pow_succ'] at h)
      simpa [ofNat_of_le hge] using ih hdiv

/-- Zeros in front are worth nothing. -/
theorem value_replicate_zero_append (k : Nat) (ds : List Digit) :
    value (List.replicate k zero ++ ds) = value ds := by
  induction k with
  | zero => rfl
  | succ k ih => exact ih

end Digit

namespace Numeral

open Digit (NoDigit)

/-! ### Reading off the front of a text -/

/-- Whether a numeral that stands in front of a text ends there. -/
def Stops (cs : List Char) : Prop := ∀ c ∈ cs.head?, Digit.ofChar? c = none ∧ c ≠ '.' ∧ c ≠ 'e' ∧ c ≠ 'E'

/-- Whether a numeral keeps to the grammar: no superfluous zero in front, and no exponent without digits. -/
structure WellFormed (n : Numeral) : Prop where
  whole : n.whole = [Digit.zero] ∨ ∃ d ds, n.whole = d :: ds ∧ d ≠ Digit.zero
  exponent : ∀ e, n.exponent = some e → e.digits ≠ []

/-- Where a numeral ends, no digit follows. -/
theorem Stops.noDigit {cs : List Char} (h : Stops cs) : NoDigit cs := fun c hc => (h c hc).1

/-- The digits before the point are read as they were written. -/
theorem readWhole_append {ds : List Digit} (h : ds = [Digit.zero] ∨ ∃ e es, ds = e :: es ∧ e ≠ Digit.zero)
    {rest : List Char} (hrest : NoDigit rest) : readWhole (ds.map Digit.toChar ++ rest) = some (ds, rest) := by
  rcases h with rfl | ⟨e, es, rfl, he⟩
  -- a lone zero is taken by itself, and here the first digit is none
  · rfl
  · have hspan := Digit.span_append (e :: es) hrest
    rw [readWhole, hspan]
    exact fun _ hzero => he (Digit.toChar_eq_zero (List.cons.inj hzero).1)

/-- The text of the digits behind the point. -/
def renderFraction (ds : List Digit) : List Char := if ds.isEmpty then [] else '.' :: ds.map Digit.toChar

/-- The text of an exponent. -/
def renderExponent : Option Exponent → List Char
  | none => []
  | some e => 'e' :: (if e.negative then '-' else '+') :: e.digits.map Digit.toChar

/-- The text of a numeral behind its sign. -/
def renderUnsigned (n : Numeral) : List Char :=
  n.whole.map Digit.toChar ++ (renderFraction n.fraction ++ renderExponent n.exponent)

/-- The text of a numeral is its sign, if it has one, and the rest. -/
theorem render_eq (n : Numeral) : n.render = (if n.negative then ['-'] else []) ++ n.renderUnsigned := by
  rw [render, renderUnsigned, renderFraction, List.append_assoc, List.append_assoc]
  cases n.exponent <;> rfl

/-- The digits behind the point are read as they were written. -/
theorem readFraction_append (ds : List Digit) {rest : List Char} (hrest : NoDigit rest)
    (hpoint : ∀ c ∈ rest.head?, c ≠ '.') : readFraction (renderFraction ds ++ rest) = some (ds, rest) := by
  cases ds with
  -- without digits there is no point, and none follows
  | nil =>
    show readFraction rest = _
    rw [readFraction]
    rintro _ rfl
    exact hpoint _ rfl rfl
  | cons d ds =>
    show readFraction ('.' :: ((d :: ds).map Digit.toChar ++ rest)) = _
    rw [readFraction, Digit.span_append (d :: ds) hrest]

/-- An exponent is read as it was written. -/
theorem readExponent_append {e : Option Exponent} (he : ∀ x, e = some x → x.digits ≠ []) {rest : List Char}
    (hrest : Stops rest) : readExponent (renderExponent e ++ rest) = some (e, rest) := by
  cases e with
  -- without an exponent no letter of one follows
  | none =>
    show readExponent rest = _
    have hmark : ∀ c ∈ rest.head?, c ≠ 'e' ∧ c ≠ 'E' := fun c hc => (hrest c hc).2.2
    unfold readExponent
    split
    case h_7 => rfl
    case h_1 | h_3 | h_5 => exact absurd rfl (hmark _ rfl).1
    case h_2 | h_4 | h_6 => exact absurd rfl (hmark _ rfl).2
  -- the sign is always written, and it is read as such
  | some e =>
    obtain ⟨negative, digits⟩ := e
    have hspan := Digit.span_append digits hrest.noDigit
    cases digits with
    | nil => exact absurd rfl (he _ rfl)
    | cons d ds =>
      cases negative with
      | false =>
        show readExponent ('e' :: '+' :: ((d :: ds).map Digit.toChar ++ rest)) = _
        simp only [readExponent, hspan]
      | true =>
        show readExponent ('e' :: '-' :: ((d :: ds).map Digit.toChar ++ rest)) = _
        simp only [readExponent, hspan]

/-- Neither a digit nor a point follows the digits behind the point. -/
theorem noDigit_renderExponent (e : Option Exponent) {rest : List Char} (hrest : Stops rest) :
    NoDigit (renderExponent e ++ rest) ∧ ∀ c ∈ (renderExponent e ++ rest).head?, c ≠ '.' := by
  cases e with
  | none => exact ⟨hrest.noDigit, fun c hc => (hrest c hc).2.1⟩
  | some e => exact ⟨Digit.noDigit_cons (by decide), by rintro c ⟨⟩; decide⟩

/-- No digit follows the digits before the point. -/
theorem noDigit_renderFraction (ds : List Digit) {rest : List Char} (hrest : NoDigit rest) :
    NoDigit (renderFraction ds ++ rest) := by
  cases ds with
  | nil => exact hrest
  | cons d ds => exact Digit.noDigit_cons (by decide)

/-- The parts behind the sign are read one after the other, each up to where the next one begins. -/
theorem readUnsigned_append {n : Numeral} (h : n.WellFormed) {rest : List Char} (hrest : Stops rest) :
    readUnsigned n.negative (n.renderUnsigned ++ rest) = some (n, rest) := by
  obtain ⟨hdigit, hpoint⟩ := noDigit_renderExponent n.exponent hrest
  have hwhole := readWhole_append h.whole (noDigit_renderFraction n.fraction hdigit)
  have hfraction := readFraction_append n.fraction hdigit hpoint
  have hexponent := readExponent_append h.exponent hrest
  rw [renderUnsigned, List.append_assoc, List.append_assoc]
  simp only [readUnsigned, hwhole, hfraction, hexponent, Option.bind_eq_bind, Option.bind_some]
  rfl

/-- The first character of the text of a numeral. -/
theorem head_render {n : Numeral} (h : n.WellFormed) :
    ∃ c cs, n.render = c :: cs ∧ (c = '-' ∧ n.negative = true ∨ n.negative = false ∧ ∃ d : Digit, c = d.toChar) := by
  have hwhole : ∃ d ds, n.whole = d :: ds := by
    rcases h.whole with hzero | ⟨d, ds, hds, -⟩
    · exact ⟨_, _, hzero⟩
    · exact ⟨d, ds, hds⟩
  obtain ⟨d, ds, hds⟩ := hwhole
  rw [render_eq, renderUnsigned, hds]
  cases hn : n.negative with
  | true => exact ⟨'-', _, rfl, .inl ⟨rfl, rfl⟩⟩
  | false => exact ⟨d.toChar, _, rfl, .inr ⟨rfl, d, rfl⟩⟩

/-- **A numeral is read as it was written.** -/
theorem read_render {n : Numeral} (h : n.WellFormed) {rest : List Char} (hrest : Stops rest) :
    read (n.render ++ rest) = some (n, rest) := by
  have hunsigned := readUnsigned_append h hrest
  obtain ⟨c, cs, hcs, hsign⟩ := head_render h
  rcases hsign with ⟨rfl, hnegative⟩ | ⟨hnegative, d, rfl⟩
  · -- the sign is taken off, and the rest is read as it was written
    rw [render_eq, hnegative, if_pos rfl]
    rw [hnegative] at hunsigned
    exact hunsigned
  · -- a digit is no sign
    rw [render_eq, hnegative, if_neg Bool.false_ne_true, List.nil_append]
    rw [render_eq, hnegative, if_neg Bool.false_ne_true, List.nil_append] at hcs
    rw [hnegative] at hunsigned
    rw [read, hunsigned]
    rintro _ hminus
    rw [hcs] at hminus
    exact (Digit.toChar_ne_sign d).1 (List.cons.inj hminus).1

/-! ### The numerals of integers -/

/-- The numeral of a natural number is that of the number as an integer. -/
theorem ofInt_natCast (n : Nat) : ofInt n = ofNat n := by
  have hsign : ¬ (n : Int) < 0 := by omega
  rw [ofInt, ofNat, Int.natAbs_natCast, decide_eq_false hsign]

/-- The numeral of an integer keeps to the grammar. -/
theorem wellFormed_ofInt (i : Int) : (ofInt i).WellFormed := by
  refine ⟨?_, nofun⟩
  by_cases hi : i.natAbs = 0
  · exact .inl (by rw [ofInt, hi, Digit.ofNat_of_lt (by decide)]; rfl)
  · exact .inr (Digit.exists_ofNat_eq_cons hi)

/-- An integer is what its numeral stands for. -/
theorem toInt?_ofInt (i : Int) : (ofInt i).toInt? = some i := by
  rcases lt_or_ge i 0 with hi | hi
  · have hne : i.natAbs ≠ 0 := by omega
    simp only [ofInt, toInt?, hi, decide_true, Digit.value_ofNat, if_neg hne]
    exact congrArg some (by omega)
  · have hi' : ¬ i < 0 := by omega
    simp only [ofInt, toInt?, hi', decide_false, Digit.value_ofNat]
    exact congrArg some (by omega)

end Numeral

end SensorCatalog
