/-!
# Sorted sets of identifiers

A `SortedSet` keeps identifiers in strictly increasing order of code points. The order is part of the
type, so a set has exactly one form: two sets with the same members are the same value
(`SortedSet.ext`), and listing a set needs no sorting.

Membership is the view of every operation: `mem_insert`, `mem_erase`, `mem_filter`, `mem_ofList`.
-/

namespace SensorCatalog

/-! ### Increasing lists -/

/-- Puts `a` at its place in an increasing list; a list that holds `a` already stays as it is. -/
def insertSorted (a : String) : List String → List String
  | [] => [a]
  | b :: bs =>
    if a < b then a :: b :: bs
    else if b < a then b :: insertSorted a bs
    else b :: bs

/-- Two identifiers of which neither comes first are the same. -/
theorem eq_of_not_lt {a b : String} (hab : ¬ a < b) (hba : ¬ b < a) : a = b :=
  String.le_antisymm (String.not_lt.1 hba) (String.not_lt.1 hab)

/-- An insertion brings in its own member only. -/
theorem mem_insertSorted {a x : String} {l : List String} :
    x ∈ insertSorted a l ↔ x = a ∨ x ∈ l := by
  induction l with
  | nil => simp [insertSorted]
  | cons b bs ih =>
    rw [insertSorted]
    split
    · simp
    · split
      · simp only [List.mem_cons, ih]
        constructor
        · rintro (h | h | h) <;> simp [h]
        · rintro (h | h | h) <;> simp [h]
      · rename_i hab hba
        have := eq_of_not_lt hab hba
        subst this
        simp

/-- An insertion keeps the list increasing. -/
theorem pairwise_insertSorted {a : String} {l : List String} (h : l.Pairwise (· < ·)) :
    (insertSorted a l).Pairwise (· < ·) := by
  induction l with
  | nil => simp [insertSorted]
  | cons b bs ih =>
    obtain ⟨hb, hbs⟩ := List.pairwise_cons.1 h
    rw [insertSorted]
    split
    · rename_i hab
      refine List.pairwise_cons.2 ⟨fun x hx => ?_, h⟩
      rcases List.mem_cons.1 hx with rfl | hx
      · exact hab
      · exact String.lt_trans hab (hb x hx)
    · split
      · rename_i hba
        refine List.pairwise_cons.2 ⟨fun x hx => ?_, ih hbs⟩
        rcases mem_insertSorted.1 hx with rfl | hx
        · exact hba
        · exact hb x hx
      · exact h

/-- An increasing list is determined by its members. -/
theorem eq_of_pairwise_of_mem_iff {l m : List String} (hl : l.Pairwise (· < ·))
    (hm : m.Pairwise (· < ·)) (h : ∀ a, a ∈ l ↔ a ∈ m) : l = m := by
  induction l generalizing m with
  | nil =>
    cases m with
    | nil => rfl
    | cons b bs => exact absurd ((h b).2 (List.mem_cons_self)) (List.not_mem_nil)
  | cons a as ih =>
    cases m with
    | nil => exact absurd ((h a).1 (List.mem_cons_self)) (List.not_mem_nil)
    | cons b bs =>
      obtain ⟨ha, has⟩ := List.pairwise_cons.1 hl
      obtain ⟨hb, hbs⟩ := List.pairwise_cons.1 hm
      -- the first members agree, as either one would be missing on the other side
      have hab : a = b := by
        rcases List.mem_cons.1 ((h a).1 List.mem_cons_self) with e | hab
        · exact e
        rcases List.mem_cons.1 ((h b).2 List.mem_cons_self) with e | hba
        · exact e.symm
        exact absurd (hb a hab) (String.lt_asymm (ha b hba))
      subst hab
      congr 1
      refine ih has hbs fun x => ?_
      constructor
      · intro hx
        rcases List.mem_cons.1 ((h x).1 (List.mem_cons_of_mem _ hx)) with rfl | hx'
        · exact absurd (ha _ hx) (String.lt_irrefl _)
        · exact hx'
      · intro hx
        rcases List.mem_cons.1 ((h x).2 (List.mem_cons_of_mem _ hx)) with rfl | hx'
        · exact absurd (hb _ hx) (String.lt_irrefl _)
        · exact hx'

/-! ### Sets -/

/-- A finite set of identifiers, held in increasing order. -/
structure SortedSet where
  /-- The members, each once, in increasing order. -/
  toList : List String
  /-- The order is strict, so no member is held twice. -/
  sorted : toList.Pairwise (· < ·)
  deriving DecidableEq

namespace SortedSet

def empty : SortedSet := ⟨[], List.Pairwise.nil⟩

instance : Inhabited SortedSet := ⟨empty⟩

instance : Membership String SortedSet := ⟨fun s a => a ∈ s.toList⟩

instance (a : String) (s : SortedSet) : Decidable (a ∈ s) :=
  inferInstanceAs (Decidable (a ∈ s.toList))

def isEmpty (s : SortedSet) : Bool := s.toList.isEmpty

def size (s : SortedSet) : Nat := s.toList.length

/-- The set with `a` added. -/
def insert (s : SortedSet) (a : String) : SortedSet :=
  ⟨insertSorted a s.toList, pairwise_insertSorted s.sorted⟩

/-- The members that satisfy `p`. -/
def filter (s : SortedSet) (p : String → Bool) : SortedSet :=
  ⟨s.toList.filter p, s.sorted.filter p⟩

def erase (s : SortedSet) (a : String) : SortedSet := s.filter (· != a)

/-- The set of the identifiers in a list, which may repeat them in any order. -/
def ofList (l : List String) : SortedSet := l.foldl insert empty

theorem mem_def {s : SortedSet} {a : String} : a ∈ s ↔ a ∈ s.toList := Iff.rfl

/-- Sets with the same members are equal. -/
theorem ext {s t : SortedSet} (h : ∀ a, a ∈ s ↔ a ∈ t) : s = t := by
  cases s with
  | mk l hl =>
    cases t with
    | mk m hm =>
      have : l = m := eq_of_pairwise_of_mem_iff hl hm h
      subst this
      rfl

@[simp] theorem not_mem_empty (a : String) : a ∉ empty := List.not_mem_nil

/-- An insertion brings in its own member only. -/
@[simp] theorem mem_insert {s : SortedSet} {a x : String} : x ∈ s.insert a ↔ x = a ∨ x ∈ s :=
  mem_insertSorted

/-- A part of a set has the members that belong to the part. -/
@[simp] theorem mem_filter {s : SortedSet} {p : String → Bool} {x : String} :
    x ∈ s.filter p ↔ x ∈ s ∧ p x = true :=
  List.mem_filter

/-- What was erased is no member any more, and all others are. -/
@[simp] theorem mem_erase {s : SortedSet} {a x : String} : x ∈ s.erase a ↔ x ∈ s ∧ x ≠ a := by
  simp [erase]

/-- Inserting a list brings in its members. -/
theorem mem_foldl_insert {l : List String} {s : SortedSet} {x : String} :
    x ∈ l.foldl insert s ↔ x ∈ s ∨ x ∈ l := by
  induction l generalizing s with
  | nil => simp
  | cons a as ih =>
    rw [List.foldl_cons, ih, mem_insert, List.mem_cons]
    constructor
    · rintro ((h | h) | h) <;> simp [h]
    · rintro (h | h | h) <;> simp [h]

/-- The set of a list has its members. -/
@[simp] theorem mem_ofList {l : List String} {x : String} : x ∈ ofList l ↔ x ∈ l := by
  simp [ofList, mem_foldl_insert]

/-- A set is empty if it is the empty one. -/
theorem isEmpty_iff {s : SortedSet} : s.isEmpty = true ↔ s = empty := by
  cases s with
  | mk l hl => cases l <;> simp [isEmpty, empty]

/-- A set is empty if it has no member. -/
theorem isEmpty_iff_forall {s : SortedSet} : s.isEmpty = true ↔ ∀ a, a ∉ s := by
  rw [isEmpty_iff]
  exact ⟨fun h a => h ▸ not_mem_empty a, fun h => ext fun a => by simp [h a]⟩

end SortedSet

end SensorCatalog
