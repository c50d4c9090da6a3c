import SensorCatalog.Proofs.Sorted.First

/-!
# The order of coordinates

The comparison of floats is defined by cases of their sign and kind, and finite ones are compared by their exponents
before their mantissas. All these cases are one linear order: `Coordinate.rank` puts every float that is a number into
`ℤ ×ₗ ℤ ×ₗ ℤ`, and comparing floats is comparing their ranks (`Coordinate.compare_eq`). What is no number has no rank.

So `≤` is transitive, and it is reflexive and total on numbers. The two zeros have one rank, which is why it is not
antisymmetric.
-/

namespace SensorCatalog

namespace Coordinate

open Float.Model (UnpackedFloat)

/-- **The place of a float among the numbers**: its kind and sign first, then its exponent, and then its mantissa. -/
def rank : UnpackedFloat → Option (ℤ ×ₗ ℤ ×ₗ ℤ)
  | .notANumber => none
  | .infinity .negative => some (toLex (-2, toLex (0, 0)))
  | .finite .negative mantissa exponent _ => some (toLex (-1, toLex (-exponent, -mantissa)))
  | .zero _ => some (toLex (0, toLex (0, 0)))
  | .finite .positive mantissa exponent _ => some (toLex (1, toLex (exponent, mantissa)))
  | .infinity .positive => some (toLex (2, toLex (0, 0)))

/-- Only what is no number has no rank. -/
theorem rank_eq_none_iff {a : UnpackedFloat} : rank a = none ↔ a.isNaN = true := by
  cases a with
  | notANumber => exact iff_of_true rfl rfl
  | infinity s | finite s => cases s <;> exact iff_of_false nofun nofun
  | zero s => exact iff_of_false nofun nofun

/-- Pairs are compared by their first parts, and then by their second ones. -/
theorem compare_toLex {α β : Type} [LinearOrder α] [LinearOrder β] (a c : α) (b d : β) :
    compare (toLex (a, b)) (toLex (c, d)) = (compare a c).then (compare b d) := by
  rw [Prod.Lex.compare_def]
  rfl

/-- Natural numbers are compared as integers are. -/
theorem compare_natCast (m n : ℕ) : compare (m : ℤ) (n : ℤ) = compare m n := by
  rw [← cmp_eq_compare, ← cmp_eq_compare]
  exact Int.natCast_strictMono.cmp_map_eq m n

/-- The sign turns a comparison around. -/
theorem compare_neg (a b : ℤ) : compare (-a) (-b) = (compare a b).swap := by
  rw [← cmp_eq_compare, ← cmp_eq_compare, cmp_swap]
  exact StrictAnti.cmp_map_eq (f := fun x : ℤ => -x) (fun _ _ h => Int.neg_lt_neg h) a b

/-- **Comparing floats is comparing ranks.** -/
theorem compare_eq (a b : UnpackedFloat) : a.compare b = (rank a).bind fun r => (rank b).map (compare r) := by
  cases a with
  | notANumber => rfl
  | infinity s =>
    cases b with
    | infinity t | finite t => cases s <;> cases t <;> rfl
    | notANumber | zero t => cases s <;> rfl
  | zero s =>
    cases b with
    | infinity t | finite t => cases t <;> rfl
    | notANumber | zero t => rfl
  | finite s m e =>
    cases b with
    | infinity t => cases s <;> cases t <;> rfl
    | notANumber | zero t => cases s <;> rfl
    | finite t n f =>
      -- only floats of one sign are told apart by exponent and mantissa
      cases s with
      | negative =>
        cases t with
        | negative =>
          show some ((compare e f).then (compare m n)).swap =
            some (compare (toLex ((-1 : ℤ), toLex (-e, -(m : ℤ)))) (toLex (-1, toLex (-f, -(n : ℤ)))))
          rw [compare_toLex, compare_toLex, compare_neg e f, compare_neg m n, compare_natCast, Ordering.swap_then]
          rfl
        | positive => rfl
      | positive =>
        cases t with
        | negative => rfl
        | positive =>
          show some ((compare e f).then (compare m n)) =
            some (compare (toLex ((1 : ℤ), toLex (e, (m : ℤ)))) (toLex (1, toLex (f, (n : ℤ)))))
          rw [compare_toLex, compare_toLex, compare_natCast]
          rfl

/-! ### Floats -/

/-- The place of a coordinate. -/
def place (x : Float) : Option (ℤ ×ₗ ℤ ×ₗ ℤ) := rank x.toModel.unpack

variable {x y z : Float}

/-- Only what is no number has no place. -/
theorem place_eq_none_iff : place x = none ↔ x.isNaN = true := rank_eq_none_iff

/-- Each number has a place. -/
theorem exists_place (hx : x.isNaN = false) : ∃ r, place x = some r := by
  refine Option.ne_none_iff_exists'.1 fun hnone => ?_
  rw [place_eq_none_iff, hx] at hnone
  cases hnone

/-- What has a place is a number. -/
theorem isNaN_of_place {r : ℤ ×ₗ ℤ ×ₗ ℤ} (hx : place x = some r) : x.isNaN = false := by
  refine Bool.eq_false_iff.2 fun hnan => ?_
  rw [place_eq_none_iff.2 hnan] at hx
  cases hx

/-- One float is at most another if its place is. -/
theorem le_iff : x ≤ y ↔ ∃ r s, place x = some r ∧ place y = some s ∧ r ≤ s := by
  -- the order of floats is decided by their comparison, and this is the one of places
  show decide (x.toModel ≤ y.toModel) = true ↔ _
  rw [decide_eq_true_eq]
  show (UnpackedFloat.compare _ _).any (·.isLE) = true ↔ _
  rw [compare_eq]
  show ((place x).bind fun r => (place y).map (compare r)).any (·.isLE) = true ↔ _
  cases place x with
  | none => simp
  | some r =>
    cases place y with
    | none => simp
    | some s => simp [Ordering.isLE_iff_ne_gt, compare_le_iff_le]

/-- One float is less than another if its place is. -/
theorem lt_iff : x < y ↔ ∃ r s, place x = some r ∧ place y = some s ∧ r < s := by
  show decide (x.toModel < y.toModel) = true ↔ _
  rw [decide_eq_true_eq]
  show (UnpackedFloat.compare _ _ == some .lt) = true ↔ _
  rw [compare_eq, beq_iff_eq]
  show ((place x).bind fun r => (place y).map (compare r)) = some .lt ↔ _
  cases place x with
  | none => simp
  | some r =>
    cases place y with
    | none => simp
    | some s => simp [compare_lt_iff_lt]

/-- Whatever is less is at most the other. -/
theorem le_of_lt (h : x < y) : x ≤ y := by
  obtain ⟨r, s, hr, hs, hrs⟩ := lt_iff.1 h
  exact le_iff.2 ⟨r, s, hr, hs, hrs.le⟩

/-- Numbers can be compared. -/
theorem le_of_not_lt (hx : x.isNaN = false) (hy : y.isNaN = false) (h : ¬ x < y) : y ≤ x := by
  obtain ⟨r, hr⟩ := exists_place hx
  obtain ⟨s, hs⟩ := exists_place hy
  exact le_iff.2 ⟨s, r, hs, hr, not_lt.1 fun hrs => h (lt_iff.2 ⟨r, s, hr, hs, hrs⟩)⟩

/-- Numbers have a place, and nothing else has. -/
theorem le_self_iff : x ≤ x ↔ x.isNaN = false := by
  constructor
  · intro h
    obtain ⟨r, -, hr, -, -⟩ := le_iff.1 h
    exact isNaN_of_place hr
  · intro hx
    obtain ⟨r, hr⟩ := exists_place hx
    exact le_iff.2 ⟨r, r, hr, hr, le_rfl⟩

/-- Upwards is a direction. -/
theorem isDirection_le : IsDirection (α := Float) (· ≤ ·) where
  trans hxy hyz := by
    obtain ⟨r, s, hr, hs, hrs⟩ := le_iff.1 hxy
    obtain ⟨s', t, hs', ht, hst⟩ := le_iff.1 hyz
    obtain rfl := Option.some.inj (hs.symm.trans hs')
    exact le_iff.2 ⟨r, t, hr, ht, hrs.trans hst⟩
  left h := by
    obtain ⟨r, -, hr, -, -⟩ := le_iff.1 h
    exact le_iff.2 ⟨r, r, hr, hr, le_rfl⟩
  right h := by
    obtain ⟨-, s, -, hs, -⟩ := le_iff.1 h
    exact le_iff.2 ⟨s, s, hs, hs, le_rfl⟩

/-- Downwards is a direction. -/
theorem isDirection_ge : IsDirection (α := Float) (· ≥ ·) := isDirection_le.flip

end Coordinate

end SensorCatalog
