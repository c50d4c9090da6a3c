import SensorCatalog.Sorted.Set

/-!
# Sorted maps from identifiers

A `SortedMap α` keeps its entries in strictly increasing order of their keys. Like a `SortedSet` it has
exactly one form: two maps with the same value (or none) at every key are equal (`SortedMap.ext`).

`get?` is the view of every operation: `get?_insert`, `get?_erase`, `get?_filter`, `get?_map`.
-/

namespace SensorCatalog

variable {α β : Type}

/-! ### Lists of entries in increasing order of keys -/

/-- The value at `k` in a list of entries. -/
def lookupEntry (k : String) : List (String × α) → Option α
  | [] => none
  | (j, v) :: es => if j = k then some v else lookupEntry k es

/-- Sets the value at `k`, at its place in an increasing list of entries. -/
def insertEntry (k : String) (v : α) : List (String × α) → List (String × α)
  | [] => [(k, v)]
  | (j, w) :: es =>
    if k < j then (k, v) :: (j, w) :: es
    else if j < k then (j, w) :: insertEntry k v es
    else (k, v) :: es

/-- Entries in strictly increasing order of keys. -/
def Increasing (es : List (String × α)) : Prop := es.Pairwise (fun a b => a.1 < b.1)

instance (es : List (String × α)) : Decidable (Increasing es) :=
  inferInstanceAs (Decidable (es.Pairwise _))

/-- No entries are increasing. -/
theorem increasing_nil : Increasing ([] : List (String × α)) := List.Pairwise.nil

/-- Other values do not change the order of the keys. -/
theorem increasing_map (f : α → β) {es : List (String × α)} (h : Increasing es) :
    Increasing (es.map fun e => (e.1, f e.2)) := by
  unfold Increasing at *
  exact List.pairwise_map.2 h

/-- The keys of increasing entries are increasing. -/
theorem pairwise_map_fst {es : List (String × α)} (h : Increasing es) :
    (es.map (·.1)).Pairwise (· < ·) := by
  unfold Increasing at h
  exact List.pairwise_map.2 h

/-- Nothing is found before the first key. -/
theorem lookupEntry_eq_none_of_lt {k : String} {es : List (String × α)}
    (h : ∀ e ∈ es, k < e.1) : lookupEntry k es = none := by
  induction es with
  | nil => rfl
  | cons e es ih =>
    obtain ⟨j, w⟩ := e
    have hj : j ≠ k := fun hjk => String.lt_irrefl k (hjk ▸ h (j, w) List.mem_cons_self)
    rw [lookupEntry, if_neg hj]
    exact ih fun e he => h e (List.mem_cons_of_mem _ he)

/-- After an insertion the new value is found at its key, and at others what was there before. -/
theorem lookupEntry_insertEntry {k x : String} {v : α} {es : List (String × α)}
    (h : Increasing es) :
    lookupEntry x (insertEntry k v es) = if x = k then some v else lookupEntry x es := by
  induction es with
  | nil =>
    by_cases hx : x = k
    · simp [insertEntry, lookupEntry, hx]
    · simp [insertEntry, lookupEntry, hx, Ne.symm hx]
  | cons e es ih =>
    obtain ⟨j, w⟩ := e
    obtain ⟨hj, hes⟩ := List.pairwise_cons.1 h
    rw [insertEntry]
    split
    · by_cases hx : x = k
      · simp [lookupEntry, hx]
      · simp [lookupEntry, hx, Ne.symm hx]
    · split
      · rename_i _ hjk
        rw [lookupEntry, ih hes, lookupEntry]
        by_cases hx : x = k
        · subst hx
          have : j ≠ x := fun e => String.lt_irrefl x (e ▸ hjk)
          simp [this]
        · simp [hx]
      · rename_i hkj hjk
        have := eq_of_not_lt hkj hjk
        subst this
        by_cases hx : x = k
        · simp [lookupEntry, hx]
        · simp [lookupEntry, hx, Ne.symm hx]

/-- An insertion brings in its own key only. -/
theorem key_of_mem_insertEntry {k : String} {v : α} {es : List (String × α)} {e : String × α}
    (h : e ∈ insertEntry k v es) : e.1 = k ∨ e ∈ es := by
  induction es with
  | nil => simp only [insertEntry, List.mem_singleton] at h; simp [h]
  | cons f es ih =>
    obtain ⟨j, w⟩ := f
    rw [insertEntry] at h
    split at h
    · rcases List.mem_cons.1 h with rfl | h
      · simp
      · exact Or.inr h
    · split at h
      · rcases List.mem_cons.1 h with rfl | h
        · simp
        · rcases ih h with h | h
          · exact Or.inl h
          · exact Or.inr (List.mem_cons_of_mem _ h)
      · rcases List.mem_cons.1 h with rfl | h
        · simp
        · exact Or.inr (List.mem_cons_of_mem _ h)

/-- An insertion keeps the entries increasing. -/
theorem increasing_insertEntry {k : String} {v : α} {es : List (String × α)}
    (h : Increasing es) : Increasing (insertEntry k v es) := by
  induction es with
  | nil => exact List.pairwise_singleton _ _
  | cons e es ih =>
    obtain ⟨j, w⟩ := e
    obtain ⟨hj, hes⟩ := List.pairwise_cons.1 h
    rw [insertEntry]
    split
    · rename_i hkj
      refine List.pairwise_cons.2 ⟨fun f hf => ?_, h⟩
      rcases List.mem_cons.1 hf with rfl | hf
      · exact hkj
      · exact String.lt_trans hkj (hj f hf)
    · split
      · rename_i hjk
        refine List.pairwise_cons.2 ⟨fun f hf => ?_, ih hes⟩
        rcases key_of_mem_insertEntry hf with h | hf
        · exact h ▸ hjk
        · exact hj f hf
      · rename_i hkj hjk
        have := eq_of_not_lt hkj hjk
        subst this
        exact List.pairwise_cons.2 ⟨hj, hes⟩

/-- Increasing entries are determined by what is found at each key. -/
theorem eq_of_lookupEntry {es fs : List (String × α)} (he : Increasing es) (hf : Increasing fs)
    (h : ∀ k, lookupEntry k es = lookupEntry k fs) : es = fs := by
  induction es generalizing fs with
  | nil =>
    cases fs with
    | nil => rfl
    | cons f fs => simpa [lookupEntry] using h f.1
  | cons e es ih =>
    cases fs with
    | nil => simpa [lookupEntry] using h e.1
    | cons f fs =>
      obtain ⟨j, v⟩ := e
      obtain ⟨k, w⟩ := f
      obtain ⟨hj, hes⟩ := List.pairwise_cons.1 he
      obtain ⟨hk, hfs⟩ := List.pairwise_cons.1 hf
      -- the first keys agree, as either one would be missing on the other side
      have hjk : j = k := by
        rcases Decidable.em (j < k) with hlt | hjk
        · have := h j
          have hne : k ≠ j := fun e => String.lt_irrefl j (e ▸ hlt)
          rw [lookupEntry, if_pos rfl, lookupEntry, if_neg hne,
            lookupEntry_eq_none_of_lt fun f hf => String.lt_trans hlt (hk f hf)] at this
          cases this
        rcases Decidable.em (k < j) with hlt | hkj
        · have := h k
          have hne : j ≠ k := fun e => String.lt_irrefl k (e ▸ hlt)
          rw [lookupEntry, if_neg hne, lookupEntry, if_pos rfl,
            lookupEntry_eq_none_of_lt fun f hf => String.lt_trans hlt (hj f hf)] at this
          cases this
        exact eq_of_not_lt hjk hkj
      subst hjk
      have hvw : v = w := by
        have := h j
        simpa [lookupEntry] using this
      subst hvw
      congr 1
      refine ih hes hfs fun x => ?_
      rcases Decidable.em (j = x) with rfl | hx
      · rw [lookupEntry_eq_none_of_lt hj, lookupEntry_eq_none_of_lt hk]
      · have := h x
        simpa [lookupEntry, hx] using this

/-- What is found is there. -/
theorem mem_of_lookupEntry {k : String} {v : α} {es : List (String × α)}
    (h : lookupEntry k es = some v) : (k, v) ∈ es := by
  induction es with
  | nil => cases h
  | cons e es ih =>
    obtain ⟨j, w⟩ := e
    rw [lookupEntry] at h
    split at h
    · rename_i hjk
      cases h
      subst hjk
      exact List.mem_cons_self
    · exact List.mem_cons_of_mem _ (ih h)

/-- In increasing entries what is there is found. -/
theorem lookupEntry_of_mem {k : String} {v : α} {es : List (String × α)} (he : Increasing es)
    (h : (k, v) ∈ es) : lookupEntry k es = some v := by
  induction es with
  | nil => cases h
  | cons e es ih =>
    obtain ⟨j, w⟩ := e
    obtain ⟨hj, hes⟩ := List.pairwise_cons.1 he
    rcases List.mem_cons.1 h with h | h
    · cases h
      simp [lookupEntry]
    · have hne : j ≠ k := fun e => String.lt_irrefl k (e ▸ hj _ h)
      rw [lookupEntry, if_neg hne]
      exact ih hes h

/-! ### Maps -/

/-- A finite map from identifiers, held in increasing order of its keys. -/
structure SortedMap (α : Type) where
  /-- The keys with their values, in increasing order. -/
  toList : List (String × α)
  /-- The order is strict, so no key is held twice. -/
  sorted : Increasing toList
  deriving DecidableEq

namespace SortedMap

def empty : SortedMap α := ⟨[], increasing_nil⟩

instance : Inhabited (SortedMap α) := ⟨empty⟩

def isEmpty (m : SortedMap α) : Bool := m.toList.isEmpty

def size (m : SortedMap α) : Nat := m.toList.length

/-- The value at a key, if the key is present. -/
def get? (m : SortedMap α) (k : String) : Option α := lookupEntry k m.toList

def contains (m : SortedMap α) (k : String) : Bool := (m.get? k).isSome

/-- The map with the value at `k` set to `v`. -/
def insert (m : SortedMap α) (k : String) (v : α) : SortedMap α :=
  ⟨insertEntry k v m.toList, increasing_insertEntry m.sorted⟩

/-- The entries whose key and value satisfy `p`. -/
def filter (m : SortedMap α) (p : String → α → Bool) : SortedMap α :=
  ⟨m.toList.filter fun e => p e.1 e.2, m.sorted.filter _⟩

def erase (m : SortedMap α) (k : String) : SortedMap α := m.filter fun j _ => j != k

/-- The map with each value changed by `f`; the keys stay. -/
def map (f : α → β) (m : SortedMap α) : SortedMap β :=
  ⟨m.toList.map fun e => (e.1, f e.2), increasing_map f m.sorted⟩

/-- The map with the value at `k` changed from `a?` to `f a?`. -/
def alter (m : SortedMap α) (k : String) (f : Option α → Option α) : SortedMap α :=
  match f (m.get? k) with
  | some v => m.insert k v
  | none => m.erase k

/-- The map of a list of entries; of several entries with one key the last counts. -/
def ofList (es : List (String × α)) : SortedMap α :=
  es.foldl (fun m e => m.insert e.1 e.2) empty

def keys (m : SortedMap α) : SortedSet :=
  ⟨m.toList.map (·.1), pairwise_map_fst m.sorted⟩

/-- The values, in the order of their keys. -/
def values (m : SortedMap α) : List α := m.toList.map (·.2)

/-- Maps with the same value, or none, at every key are equal. -/
theorem ext {m n : SortedMap α} (h : ∀ k, m.get? k = n.get? k) : m = n := by
  cases m with
  | mk es he =>
    cases n with
    | mk fs hf =>
      have : es = fs := eq_of_lookupEntry he hf h
      subst this
      rfl

@[simp] theorem get?_empty (k : String) : (empty : SortedMap α).get? k = none := rfl

/-- After an insertion the new value is found at its key, and at others what was there before. -/
theorem get?_insert (m : SortedMap α) (k : String) (v : α) (x : String) :
    (m.insert k v).get? x = if x = k then some v else m.get? x :=
  lookupEntry_insertEntry m.sorted

/-- What was inserted is found. -/
@[simp] theorem get?_insert_self (m : SortedMap α) (k : String) (v : α) :
    (m.insert k v).get? k = some v := by
  simp [get?_insert]

/-- The entries are the keys with what is found at them. -/
theorem mem_toList {m : SortedMap α} {k : String} {v : α} :
    (k, v) ∈ m.toList ↔ m.get? k = some v :=
  ⟨lookupEntry_of_mem m.sorted, mem_of_lookupEntry⟩

/-- In a part of a map only what belongs to the part is found. -/
theorem get?_filter (m : SortedMap α) (p : String → α → Bool) (x : String) :
    (m.filter p).get? x = (m.get? x).filter (p x) := by
  apply Option.ext
  intro v
  rw [← mem_toList, Option.filter_eq_some_iff, ← mem_toList]
  exact List.mem_filter

/-- What was erased is not found, and all else is. -/
theorem get?_erase (m : SortedMap α) (k x : String) :
    (m.erase k).get? x = if x = k then none else m.get? x := by
  rw [erase, get?_filter]
  by_cases hx : x = k
  · cases h : m.get? x <;> simp [Option.filter, hx]
  · cases h : m.get? x <;> simp [Option.filter, hx]

/-- Changed values are found where they were. -/
theorem get?_map (f : α → β) (m : SortedMap α) (x : String) :
    (m.map f).get? x = (m.get? x).map f := by
  cases m with
  | mk es he =>
    change lookupEntry x (es.map _) = (lookupEntry x es).map f
    clear he
    induction es with
    | nil => rfl
    | cons e es ih =>
      obtain ⟨j, w⟩ := e
      rw [List.map_cons, lookupEntry, lookupEntry, ih]
      split <;> rfl

/-- At a key that was altered what was made of it is found. -/
theorem get?_alter (m : SortedMap α) (k : String) (f : Option α → Option α) (x : String) :
    (m.alter k f).get? x = if x = k then f (m.get? k) else m.get? x := by
  rw [alter]
  split
  · rename_i v hv; rw [get?_insert, hv]
  · rename_i hv; rw [get?_erase, hv]

/-- A key is there if something is found at it. -/
theorem mem_keys {m : SortedMap α} {k : String} : k ∈ m.keys ↔ ∃ v, m.get? k = some v := by
  simp only [keys, SortedSet.mem_def, List.mem_map]
  constructor
  · rintro ⟨⟨j, v⟩, hmem, rfl⟩
    exact ⟨v, mem_toList.1 hmem⟩
  · rintro ⟨v, hv⟩
    exact ⟨(k, v), mem_toList.2 hv, rfl⟩

/-- To contain a key is to have it among the keys. -/
theorem contains_iff {m : SortedMap α} {k : String} :
    m.contains k = true ↔ k ∈ m.keys := by
  rw [contains, Option.isSome_iff_exists, mem_keys]

/-- A map is empty if it has no entries. -/
theorem isEmpty_iff {m : SortedMap α} : m.isEmpty = true ↔ m = empty := by
  cases m with
  | mk l hl =>
    constructor
    · intro h
      have : l = [] := List.isEmpty_iff.1 h
      subst this
      rfl
    · intro h
      exact List.isEmpty_iff.2 (congrArg toList h)

end SortedMap

end SensorCatalog
