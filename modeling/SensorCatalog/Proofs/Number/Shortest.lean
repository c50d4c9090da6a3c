import SensorCatalog.Number.Shortest
import SensorCatalog.Proofs.Number.Numeral

/-!
# The numerals of coordinates

A float has a numeral if it is finite, and only then (`Numeral.ofFloat?_eq_none_iff`): infinities and what is no number
have the greatest exponent, and no other float has it.

The numeral keeps to the grammar (`Numeral.wellFormed_ofFloat?`). What could go wrong is a zero in front. The decimal
that the digits are taken from is never zero, since zero does not round to a float other than zero
(`BinaryFraction.shortestDecimal_ne_zero`), so its first digit is no zero either, and stays in front wherever the point
is put.
-/

namespace SensorCatalog

/-! ### Finite floats -/

open Float.Model (Format)
open Float.Model.UnpackedFloat (unpack unpackExponent)

/-- Infinities and what is no number have the greatest exponent. -/
theorem isFinite_unpack (spec : Format) (b : BitVec spec.numBits) :
    (unpack spec b).isFinite = false ↔ unpackExponent b = -1#_ := by
  rw [unpack]
  -- the exponent is that of the infinities, or it is not
  split
  · rename_i hexponent
    refine iff_of_true ?_ hexponent
    split <;> rfl
  · rename_i hexponent
    refine iff_of_false ?_ hexponent
    split
    · split <;> exact Bool.noConfusion
    · exact Bool.noConfusion

namespace BinaryFraction

/-- **A float is an exact number if it is finite**, and only then. -/
theorem ofFloat?_eq_none_iff (x : Float) : ofFloat? x = none ↔ x.isFinite = false := by
  -- both look at the exponent field
  have hfield : @unpackExponent Format.binary64 x.toBits.toBitVec = -1#11 ↔
      x.toBits.toNat / 2 ^ 52 % 2 ^ 11 = 2047 := by
    rw [← BitVec.toNat_inj, unpackExponent, BitVec.toNat_cast, BitVec.extractLsb_toNat, Nat.shiftRight_eq_div_pow]
    rfl
  rw [ofFloat?]
  calc _ ↔ x.toBits.toNat / 2 ^ 52 % 2 ^ 11 = 2047 := by
        simp only [Nat.pow_eq]
        split
        · simp [*]
        · split <;> simp [*]
    _ ↔ @unpackExponent Format.binary64 x.toBits.toBitVec = -1#11 := hfield.symm
    _ ↔ x.isFinite = false := (isFinite_unpack Format.binary64 x.toBits.toBitVec).symm

/-! ### The decimal that is taken -/

variable {b : BinaryFraction}

/-- Zero rounds to zero only. -/
theorem roundsTo_zero (h : b.mantissa ≠ 0) (s : Int) : b.roundsTo s 0 = false := by
  -- what rounds to the number begins above zero
  have hlower : 0 < b.lowerQuarters := by
    rw [lowerQuarters]
    split <;> omega
  have hunit : 0 < b.quarterUnit s := Nat.mul_pos (Nat.pow_pos (by decide)) (Nat.pow_pos (by decide))
  have hpos : ¬ b.lowerQuarters * b.quarterUnit s ≤ 0 := Nat.not_le.2 (Nat.mul_pos hlower hunit)
  rw [roundsTo, Nat.zero_mul]
  split
  · rw [decide_eq_false hpos, Bool.false_and]
  · rw [decide_eq_false (Nat.not_lt_zero _), Bool.false_and]

/-- A point of the grid is taken only if the number rounds to it. -/
theorem roundsTo_of_gridPoint? {s : Int} {d : Nat} (h : b.gridPoint? s = some d) : b.roundsTo s d = true := by
  simp only [gridPoint?] at h
  -- each of the candidates is tried before it is taken
  split at h
  · split at h
    · cases h; assumption
    · split at h
      · cases h; assumption
      · split at h <;> cases h <;> assumption
  · cases h; assumption
  · cases h; assumption
  · cases h

/-- A point of a grid that is taken is not zero, unless the number is. -/
theorem gridPoint?_ne_zero (h : b.mantissa ≠ 0) {s : Int} {d : Nat} (hd : b.gridPoint? s = some d) : d ≠ 0 := by
  rintro rfl
  exact Bool.false_ne_true ((roundsTo_zero h s).symm.trans (roundsTo_of_gridPoint? hd))

/-- The point on the coarsest grid is not zero, unless the number is. -/
theorem coarsest_ne_zero (h : b.mantissa ≠ 0) (scales : List Int) : (b.coarsest scales).1 ≠ 0 := by
  induction scales with
  | nil => exact h
  | cons s rest ih =>
    rw [coarsest]
    split
    · rename_i hd
      exact gridPoint?_ne_zero h hd
    · exact ih

/-- The shortest decimal is not zero, unless the number is. -/
theorem shortestDecimal_ne_zero (h : b.mantissa ≠ 0) : b.shortestDecimal.1 ≠ 0 := coarsest_ne_zero h _

end BinaryFraction

/-! ### Its digits -/

namespace Numeral

/-- **A float has a numeral if it is finite**, and only then. -/
theorem ofFloat?_eq_none_iff (x : Float) : ofFloat? x = none ↔ x.isFinite = false := by
  rw [← BinaryFraction.ofFloat?_eq_none_iff, ofFloat?]
  split
  · simp [*]
  · split <;> simp [*]

/-- Where digits do not start with a zero, neither does their numeral, unless that is the only digit before the
point. -/
theorem wellFormed_ofDigits (layout : NumeralLayout) (negative : Bool) {d : Digit} (hd : d ≠ Digit.zero)
    (ds : List Digit) (lead : Int) : (ofDigits layout negative (d :: ds) lead).WellFormed := by
  rw [ofDigits]
  split
  · split
    · exact ⟨.inr ⟨d, _, rfl, hd⟩, nofun⟩
    · exact ⟨.inl rfl, nofun⟩
  · refine ⟨.inr ⟨d, [], rfl, hd⟩, ?_⟩
    rintro e ⟨⟩
    exact Digit.ofNat_ne_nil _

/-- **The numeral of a float keeps to the grammar.** -/
theorem wellFormed_ofFloat? {x : Float} {n : Numeral} (h : ofFloat? x = some n) : n.WellFormed := by
  rw [ofFloat?] at h
  -- what is not finite has no numeral, and zero has one of its own
  split at h
  · cases h
  · split at h
    · cases h
      exact ⟨.inl rfl, nofun⟩
    · rename_i b _ hmantissa
      obtain ⟨d, ds, hds, hd⟩ := Digit.exists_ofNat_eq_cons (BinaryFraction.shortestDecimal_ne_zero hmantissa)
      rw [← Option.some.inj h]
      show (ofDigits _ _ (dropFinalZeros (Digit.ofNat b.shortestDecimal.1)) _).WellFormed
      rw [hds, dropFinalZeros]
      exact wellFormed_ofDigits _ _ hd _ _

end Numeral

end SensorCatalog
