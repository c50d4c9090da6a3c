import SensorCatalog.Proofs.Space.Coordinate

/-!
# Coordinates that are alike

Two coordinates with one place are told apart by nothing but the sign of a zero (`Coordinate.alike_of_place_eq`).
This takes two steps. The place of a float gives its sign, exponent and mantissa back, except for the sign of a zero
(`Coordinate.eq_or_zero_of_rank_eq`). And these three are the whole of a float (`Coordinate.unpack_inj`). What is no
number has no payload that could be lost on the way, because only one pattern of bits is allowed for it.

The bits of a finite float say by the exponent whether the leading bit of the mantissa is left out. After unpacking this
is seen from the length of the mantissa, so there are two ways for a finite float to come about (`Coordinate.Unpacks`),
and one of them can be taken back whenever the other one cannot.
-/

namespace SensorCatalog

namespace Coordinate

open Float.Model (UnpackedFloat Format)
open Float.Model.UnpackedFloat

/-! ### The parts of a float -/

/-- **What comes of the parts of a float** when it is unpacked. -/
inductive Unpacks (s : Sign) (e : BitVec 11) (m : BitVec 52) : UnpackedFloat → Prop where
  | infinity (he : e = -1#11) (hm : m = 0#52) : Unpacks s e m (.infinity s)
  | notANumber (he : e = -1#11) (hm : m ≠ 0#52) : Unpacks s e m .notANumber
  | zero (he : e = 0#11) (hm : m = 0#52) : Unpacks s e m (.zero s)
  /-- The mantissa has no leading bit. -/
  | short (he : e = 0#11) {n : ℕ} (hn : n = m.toNat) (i : ℤ) (hpos : 0 < n) : Unpacks s e m (.finite s n i hpos)
  /-- The leading bit of the mantissa was left out. -/
  | long {n : ℕ} (hn : n = 4503599627370496 + m.toNat) {i : ℤ} (hi : i = e.toNat - 1075) (hpos : 0 < n) :
    Unpacks s e m (.finite s n i hpos)

/-- The leading bit of a mantissa is worth its place. -/
theorem toNat_one_append (m : BitVec 52) : (1#1 ++ m).toNat = 4503599627370496 + m.toNat := by
  rw [BitVec.toNat_append, Nat.shiftLeft_eq, Nat.or_comm]
  exact (Nat.or_two_pow_eq_add_of_lt m.isLt).trans (Nat.add_comm _ _)

/-- The parts of a float are put together in one of these ways. -/
theorem unpacks_unpack (b : BitVec Format.binary64.numBits) :
    Unpacks (Sign.ofBitVec (unpackSign b)) (unpackExponent b) (unpackMantissa b) (unpack Format.binary64 b) := by
  rw [unpack]
  split
  · rename_i he
    split
    · rename_i hm
      exact .infinity he hm
    · rename_i hm
      exact .notANumber he hm
  · split
    · rename_i he
      split
      · rename_i hm
        exact .zero he hm
      · exact .short he rfl _ _
    · exact .long (toNat_one_append _) rfl _

/-- **The bits of a float** are its sign, its exponent and its mantissa one behind the other. -/
theorem eq_of_parts {b c : BitVec Format.binary64.numBits}
    (hs : Sign.ofBitVec (unpackSign b) = Sign.ofBitVec (unpackSign c))
    (he : unpackExponent b = unpackExponent c) (hm : unpackMantissa b = unpackMantissa c) : b = c := by
  have hsign : unpackSign b = unpackSign c := by
    have hundo : ∀ v : BitVec 1, (Sign.ofBitVec v).toBitVec = v := by decide
    rw [← hundo (unpackSign b), hs, hundo]
  apply BitVec.eq_of_getLsbD_eq
  intro i hi
  -- each bit belongs to one of the three fields
  by_cases hmantissa : i < 52
  · have hbit : (unpackMantissa b).getLsbD i = (unpackMantissa c).getLsbD i := by rw [hm]
    simpa [unpackMantissa, hmantissa] using hbit
  · by_cases hexponent : i < 63
    · have hbit : (unpackExponent b).getLsbD (i - 52) = (unpackExponent c).getLsbD (i - 52) := by rw [he]
      have hle : i - 52 ≤ 10 := by omega
      have hi' : 52 + (i - 52) = i := by omega
      simpa [unpackExponent, hle, hi'] using hbit
    · have hbit : (unpackSign b).getLsbD 0 = (unpackSign c).getLsbD 0 := by rw [hsign]
      have hi' : i < 64 := hi
      obtain rfl : i = 63 := by omega
      simpa [unpackSign] using hbit

/-- **Unpacking loses nothing.** -/
theorem unpack_inj {b c : BitVec Format.binary64.numBits} (hb : Format.binary64.Valid b)
    (hc : Format.binary64.Valid c) (h : unpack Format.binary64 b = unpack Format.binary64 c) : b = c := by
  have hub := unpacks_unpack b
  have huc := unpacks_unpack c
  rw [← h] at huc
  generalize hs : Sign.ofBitVec (unpackSign b) = s at hub
  generalize hs' : Sign.ofBitVec (unpackSign c) = s' at huc
  generalize unpack Format.binary64 b = u at hub huc
  -- the way of putting the parts together is seen from the result, so both have the same parts
  cases hub with
  | infinity he hm =>
    cases huc with
    | infinity he' hm' => exact eq_of_parts (hs.trans hs'.symm) (he.trans he'.symm) (hm.trans hm'.symm)
  | notANumber he hm =>
    cases huc with
    | notANumber he' hm' => exact (hb.eq_packedNaN he hm).trans (hc.eq_packedNaN he' hm').symm
  | zero he hm =>
    cases huc with
    | zero he' hm' => exact eq_of_parts (hs.trans hs'.symm) (he.trans he'.symm) (hm.trans hm'.symm)
  | short he hn i hpos =>
    cases huc with
    | short he' hn' =>
      exact eq_of_parts (hs.trans hs'.symm) (he.trans he'.symm) (BitVec.eq_of_toNat_eq (hn.symm.trans hn'))
    | long hn' hi' =>
      -- a mantissa with a leading bit is too long
      have hlt := (unpackMantissa b).isLt
      omega
  | long hn hi hpos =>
    cases huc with
    | short he' hn' =>
      have hlt := (unpackMantissa c).isLt
      omega
    | long hn' hi' =>
      have hm : unpackMantissa b = unpackMantissa c := BitVec.eq_of_toNat_eq (by omega)
      have he : unpackExponent b = unpackExponent c := BitVec.eq_of_toNat_eq (by omega)
      exact eq_of_parts (hs.trans hs'.symm) he hm

/-! ### The parts of a place -/

/-- **A place belongs to one float**, but for the two zeros. -/
theorem eq_or_zero_of_rank_eq {a b : UnpackedFloat} {r : ℤ ×ₗ ℤ ×ₗ ℤ} (ha : rank a = some r) (hb : rank b = some r) :
    a = b ∨ ∃ s t, a = .zero s ∧ b = .zero t := by
  have h := ha.trans hb.symm
  cases a with
  | notANumber => cases ha
  | infinity s =>
    cases b with
    | notANumber => cases hb
    | infinity t => cases s <;> cases t <;> simp [rank] at h ⊢
    | zero t => cases s <;> simp [rank] at h
    | finite t => cases s <;> cases t <;> simp [rank] at h
  | zero s =>
    cases b with
    | notANumber => cases hb
    | zero t => exact .inr ⟨s, t, rfl, rfl⟩
    | infinity t | finite t => cases t <;> simp [rank] at h
  | finite s m e =>
    cases b with
    | notANumber => cases hb
    | infinity t => cases s <;> cases t <;> simp [rank] at h
    | zero t => cases s <;> simp [rank] at h
    | finite t n f =>
      -- the place begins with the sign, so exponent and mantissa need only be compared for one sign
      cases s <;> cases t <;> simp [rank] at h
      all_goals
        obtain ⟨rfl, rfl⟩ := h
        exact .inl rfl

/-! ### Alike -/

/-- **Equal up to the sign of zero.** -/
def Alike (x y : Float) : Prop := x = y ∨ (x == 0) = true ∧ (y == 0) = true

variable {x y : Float}

/-- Floats that are unpacked alike are the same. -/
theorem eq_of_unpack_eq (h : x.toModel.unpack = y.toModel.unpack) : x = y := by
  cases x with | ofModel x =>
  cases y with | ofModel y =>
  cases x with | mk b hb =>
  cases y with | mk c hc =>
  have hbits : b.toBitVec = c.toBitVec := unpack_inj hb hc h
  cases UInt64.eq_of_toBitVec_eq hbits
  rfl

/-- A float that is unpacked as a zero is equal to zero. -/
theorem eq_zero_of_unpack {s : Sign} (h : x.toModel.unpack = .zero s) : (x == 0) = true := by
  show Float.Model.UnpackedFloat.beq x.toModel.unpack _ = true
  rw [h]
  rfl

/-- **One place.** -/
theorem alike_of_place_eq {r : ℤ ×ₗ ℤ ×ₗ ℤ} (hx : place x = some r) (hy : place y = some r) : Alike x y := by
  rcases eq_or_zero_of_rank_eq hx hy with h | ⟨s, t, hs, ht⟩
  · exact .inl (eq_of_unpack_eq h)
  · exact .inr ⟨eq_zero_of_unpack hs, eq_zero_of_unpack ht⟩

/-- All that is no number is the same. -/
theorem eq_of_isNaN (hx : x.isNaN = true) (hy : y.isNaN = true) : x = y := by
  have hnone : ∀ u : UnpackedFloat, u.isNaN = true → u = .notANumber := by
    intro u hu
    cases u with
    | notANumber => rfl
    | _ => cases hu
  exact eq_of_unpack_eq ((hnone _ hx).trans (hnone _ hy).symm)

end Coordinate

end SensorCatalog
