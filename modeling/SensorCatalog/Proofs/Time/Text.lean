import SensorCatalog.Proofs.Number.Numeral
import SensorCatalog.Time.Text

/-!
# Times are read as they were written

`Timestamp.ofText?_toText`: a time is read back from its text, whatever its year and its fraction are, and a leap second
as well.

The parts of a time have fixed widths, so it is clear where each of them ends without looking at what follows
(`Timestamp.readNumber_padded`). The year is the exception. It may have more than four digits, and then a sign says so
and the digits end with the next mark (`Timestamp.readYear_writeYear`).
-/

namespace SensorCatalog

namespace Timestamp

open Digit (NoDigit)

/-! ### Digits with leading zeros -/

/-- The digits of a number with leading zeros. -/
theorem exists_padded (width n : Nat) :
    ∃ ds, padded width n = ds.map Digit.toChar ∧ ds ≠ [] ∧ Digit.value ds = n :=
  ⟨_, rfl, fun h => Digit.ofNat_ne_nil n (List.append_eq_nil_iff.1 h).2, by
    rw [Digit.value_replicate_zero_append, Digit.value_ofNat]⟩

/-- The width is kept where the number is small enough for it. -/
theorem exists_padded_of_lt {k n : Nat} (h : n < 10 ^ (k + 1)) :
    ∃ ds, padded (k + 1) n = ds.map Digit.toChar ∧ ds.length = k + 1 ∧ Digit.value ds = n := by
  refine ⟨_, rfl, ?_, by rw [Digit.value_replicate_zero_append, Digit.value_ofNat]⟩
  have := Digit.length_ofNat_le h
  rw [List.length_append, List.length_replicate]
  omega

/-- So many digits are taken, whatever follows. -/
theorem spanDigits_length (ds : List Digit) (rest : List Char) :
    spanDigits ds.length (ds.map Digit.toChar ++ rest) = (ds, rest) := by
  induction ds with
  | nil => rw [List.length_nil, spanDigits]; rfl
  | cons d ds ih => simp [spanDigits, ih]

/-- All digits are taken if they are few enough. -/
theorem spanDigits_append {ds : List Digit} {most : Nat} (h : ds.length ≤ most) {rest : List Char}
    (hrest : NoDigit rest) : spanDigits most (ds.map Digit.toChar ++ rest) = (ds, rest) := by
  -- along the digits; after the last one comes something else, or there is no room for more
  induction ds generalizing most with
  | nil =>
    cases most with
    | zero => rfl
    | succ most =>
      cases rest with
      | nil => rfl
      | cons c rest => simp [spanDigits, hrest c rfl]
  | cons d ds ih =>
    cases most with
    | zero => cases h
    | succ most => simp [spanDigits, ih (Nat.le_of_succ_le_succ h)]

/-! ### Numbers and marks -/

/-- Digits are not blank. -/
theorem isBlank_toChar : ∀ d : Digit, isBlank d.toChar = false := by decide

/-- There is no blank in front of digits. -/
theorem dropWhile_isBlank_digits {ds : List Digit} (h : ds ≠ []) (rest : List Char) :
    (ds.map Digit.toChar ++ rest).dropWhile isBlank = ds.map Digit.toChar ++ rest := by
  cases ds with
  | nil => exact absurd rfl h
  | cons d ds => exact List.dropWhile_cons_of_neg (by simp [isBlank_toChar])

/-- A number is read as it was written, with zeros in front. -/
theorem readNumber_padded {k n : Nat} (h : n < 10 ^ (k + 1)) (rest : List Char) :
    readNumber (k + 1) (padded (k + 1) n ++ rest) = some (n, rest) := by
  obtain ⟨ds, hds, hlength, hvalue⟩ := exists_padded_of_lt h
  have hne : ds ≠ [] := List.ne_nil_of_length_eq_add_one hlength
  have hspan := spanDigits_length ds rest
  rw [hlength] at hspan
  rw [readNumber, hds, dropWhile_isBlank_digits hne, readDigits, hspan]
  cases ds with
  | nil => exact absurd rfl hne
  | cons d ds => exact congrArg (fun n => some (n, rest)) hvalue

/-- Digits are read as the number that they stand for. -/
theorem readDigits_append {ds : List Digit} (hne : ds ≠ []) {most : Nat} (h : ds.length ≤ most) {rest : List Char}
    (hrest : NoDigit rest) : readDigits most (ds.map Digit.toChar ++ rest) = some (Digit.value ds, rest) := by
  rw [readDigits, spanDigits_append h hrest]
  cases ds with
  | nil => exact absurd rfl hne
  | cons d ds => rfl

/-- A mark is read as it was written. -/
theorem readMark_cons {mark : Char} (h : isBlank mark = false) (rest : List Char) :
    readMark mark (mark :: rest) = some rest := by
  rw [readMark, List.dropWhile_cons_of_neg (by simp [h])]
  exact if_pos rfl

/-- **A year is read as it was written.** A mark follows, which is no digit. -/
theorem readYear_writeYear (year : Int) {rest : List Char} (hrest : NoDigit rest) :
    readYear (writeYear year ++ rest) = some (year, rest) := by
  -- behind a sign there may be any number of digits
  have hsigned : readDigits (padded 4 year.natAbs ++ rest).length (padded 4 year.natAbs ++ rest) =
      some (year.natAbs, rest) := by
    obtain ⟨ds, hds, hne, hvalue⟩ := exists_padded 4 year.natAbs
    rw [hds, readDigits_append hne (by simp) hrest, hvalue]
  rw [writeYear]
  split
  · -- the year is negative, and it was written with its sign
    show (readDigits (padded 4 year.natAbs ++ rest).length (padded 4 year.natAbs ++ rest)).map _ = _
    rw [hsigned, Option.map_some]
    exact congrArg (fun y => some (y, rest)) (by omega)
  · split
    · -- a year of four digits has no sign in front
      obtain ⟨ds, hds, hlength, hvalue⟩ := exists_padded_of_lt (k := 3) (n := year.natAbs) (by omega)
      have hne : ds ≠ [] := List.ne_nil_of_length_eq_add_one hlength
      rw [readYear, hds, dropWhile_isBlank_digits hne]
      cases ds with
      | nil => exact absurd rfl hne
      | cons d ds =>
        split
        · rename_i hminus
          exact absurd (List.cons.inj hminus).1 (Digit.toChar_ne_sign d).1
        · rename_i hplus
          exact absurd (List.cons.inj hplus).1 (Digit.toChar_ne_sign d).2
        · rw [readDigits_append hne (by omega) hrest, hvalue, Option.map_some]
          exact congrArg (fun y => some (y, rest)) (by omega)
    · show (readDigits (padded 4 year.natAbs ++ rest).length (padded 4 year.natAbs ++ rest)).map _ = _
      rw [hsigned, Option.map_some]
      exact congrArg (fun y => some (y, rest)) (by omega)

/-! ### Fractions -/

/-- Digits behind a point are thousandths, millionths or billionths. -/
theorem readFraction_padded {k n : Nat} (hk : k < 9) (hn : n < 10 ^ (k + 1)) {rest : List Char}
    (hrest : NoDigit rest) :
    readFraction ('.' :: padded (k + 1) n ++ rest) = some (nanosOf (n * 10 ^ (9 - (k + 1))), rest) := by
  obtain ⟨ds, hds, hlength, hvalue⟩ := exists_padded_of_lt hn
  rw [List.cons_append, readFraction, hds, spanDigits_append (by omega) hrest]
  cases ds with
  | nil => cases hlength
  | cons d ds =>
    have hspan : (Digit.span rest).2 = rest := congrArg Prod.snd (Digit.span_append [] hrest)
    simp only [hlength, hvalue, hspan, Nat.pow_eq]

/-- **A fraction is read as it was written**: what was left out is zero. -/
theorem readFraction_writeFraction (nanos : Fin 1000000000) :
    readFraction (writeFraction nanos.val ++ ['Z']) = some (nanos, ['Z']) := by
  have hrest : NoDigit ['Z'] := Digit.noDigit_cons (by decide)
  have hself : nanosOf nanos.val = nanos := Fin.ext (Nat.mod_eq_of_lt nanos.isLt)
  have hlt := nanos.isLt
  rw [writeFraction]
  -- three, six or nine digits were written, or none
  split
  · rename_i hzero
    rw [hzero] at hself
    exact congrArg (fun n => some (n, ['Z'])) hself
  · split
    · rw [readFraction_padded (k := 2) (by decide) (by omega) hrest]
      exact congrArg (fun n => some (n, ['Z'])) (Eq.trans (congrArg nanosOf (by omega)) hself)
    · split
      · rw [readFraction_padded (k := 5) (by decide) (by omega) hrest]
        exact congrArg (fun n => some (n, ['Z'])) (Eq.trans (congrArg nanosOf (by omega)) hself)
      · rw [readFraction_padded (k := 8) (by decide) (by omega) hrest]
        exact congrArg (fun n => some (n, ['Z'])) (Eq.trans (congrArg nanosOf (by omega)) hself)

/-! ### The result -/

/-- A time in UTC is not moved. -/
theorem ofLocal?_zero (t : Timestamp) : ofLocal? t.date t.hour t.minute t.second t.nanos 0 = some t := by
  obtain ⟨date, hour, minute, second, nanos⟩ := t
  have hhour := hour.isLt
  have hminute := minute.isLt
  have hminutes : ((hour.val : Int) * 60 + minute.val - 0) % 1440 = hour.val * 60 + minute.val := by omega
  have hday : ¬ (hour.val : Int) * 60 + minute.val - 0 < 0 ∧ (hour.val : Int) * 60 + minute.val - 0 < 1440 := by omega
  simp only [ofLocal?, hminutes, if_neg hday.1, if_pos hday.2, Option.map_some]
  congr 2
  · exact Fin.ext (by show _ % 24 = _; omega)
  · exact Fin.ext (by show _ % 60 = _; omega)

/-- A date is put together again from its parts. -/
theorem ofParts?_self (d : Date) : Date.ofParts? d.year d.month d.day = some d := dif_pos d.isDate

/-- A date is read as it was written. -/
theorem readDate_write (d : Date) (rest : List Char) :
    readDate (writeYear d.year ++ '-' :: (padded 2 d.month ++ '-' :: (padded 2 d.day ++ rest))) = some (d, rest) := by
  obtain ⟨-, hmonth, -, hday⟩ := d.bounds
  have hmark : NoDigit ('-' :: (padded 2 d.month ++ '-' :: (padded 2 d.day ++ rest))) :=
    Digit.noDigit_cons (by decide)
  simp only [readDate, readYear_writeYear d.year hmark, readMark_cons (show isBlank '-' = false by decide),
    readNumber_padded (show d.month < 10 ^ 2 by omega), readNumber_padded (show d.day < 10 ^ 2 by omega),
    ofParts?_self, Option.bind_eq_bind, Option.bind_some, Option.pure_def]

/-- A number below its bound is within it. -/
theorem below?_val {n : Nat} (i : Fin n) : below? n i.val = some i := dif_pos i.isLt

/-- A time is read as it was written. -/
theorem readTime_write (t : Timestamp) :
    readTime t.date (padded 2 t.hour.val ++ ':' :: (padded 2 t.minute.val ++ ':' :: (padded 2 t.second.val ++
      (writeFraction t.nanos.val ++ ['Z'])))) = some t := by
  have hhour : t.hour.val < 10 ^ 2 := Nat.lt_trans t.hour.isLt (by decide)
  have hminute : t.minute.val < 10 ^ 2 := Nat.lt_trans t.minute.isLt (by decide)
  have hsecond : t.second.val < 10 ^ 2 := Nat.lt_trans t.second.isLt (by decide)
  have hoffset : readOffset (['Z'].dropWhile isBlank) = some (0, []) := by decide
  simp only [readTime, readNumber_padded hhour, readNumber_padded hminute, readNumber_padded hsecond,
    readMark_cons (show isBlank ':' = false by decide), readFraction_writeFraction, hoffset, below?_val, ofLocal?_zero,
    Option.bind_eq_bind, Option.bind_some]
  rfl

/-- **A time is read as it was written.** -/
theorem ofText?_toText (t : Timestamp) : ofText? t.toText = some t := by
  have hdate := readDate_write t.date ('T' :: (padded 2 t.hour.val ++ ':' :: (padded 2 t.minute.val ++ ':' ::
    (padded 2 t.second.val ++ (writeFraction t.nanos.val ++ ['Z'])))))
  rw [ofText?, toText, String.toList_ofList, write]
  simp only [List.append_assoc, List.cons_append]
  simp only [read, hdate, Option.bind_eq_bind, Option.bind_some, readTime_write]

end Timestamp

end SensorCatalog
