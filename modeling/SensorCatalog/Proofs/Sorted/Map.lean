import Mathlib
import SensorCatalog.Sorted.Map

/-!
# Maps of lists

What is found at a key of a map that was made of a list: of several entries with one key the last counts
(`SortedMap.get?_ofList`). If all entries with one key agree, it does not matter which one counts
(`SortedMap.get?_ofList_map`).

`SortedMap.filterMap_get?` lists the values at the keys in a set in two ways.
-/

namespace SensorCatalog

variable {α : Type}

namespace SortedMap

/-- Of several entries for a key the last one counts. -/
theorem get?_foldl_insert (es : List (String × α)) (m : SortedMap α) (k : String) :
    (es.foldl (fun m e => m.insert e.1 e.2) m).get? k =
      ((es.reverse.find? fun e => e.1 == k).map (·.2)).or (m.get? k) := by
  induction es generalizing m with
  | nil => simp
  | cons e es ih =>
    -- the entries behind `e` hide it if one of them has the key
    rw [List.foldl_cons, ih, List.reverse_cons, List.find?_append, get?_insert]
    cases hfind : es.reverse.find? fun e => e.1 == k with
    | some e' => simp
    | none =>
      by_cases hk : e.1 = k
      · simp [hk]
      · simp [hk, Ne.symm hk]

/-- **What the map of a list has at a key**: the value of the last entry with this key. -/
theorem get?_ofList (es : List (String × α)) (k : String) :
    (ofList es).get? k = (es.reverse.find? fun e => e.1 == k).map (·.2) := by
  rw [ofList, get?_foldl_insert]
  simp

/-- The keys of a list of entries are those that occur in it. -/
theorem mem_keys_ofList {es : List (String × α)} {k : String} : k ∈ (ofList es).keys ↔ k ∈ es.map (·.1) := by
  rw [mem_keys, get?_ofList, List.mem_map]
  constructor
  · rintro ⟨v, hv⟩
    obtain ⟨e, he, -⟩ := Option.map_eq_some_iff.1 hv
    exact ⟨e, List.mem_reverse.1 (List.mem_of_find?_eq_some he), by simpa using List.find?_some he⟩
  · rintro ⟨e, he, rfl⟩
    -- `e` itself can be found
    cases hfind : es.reverse.find? fun e' => e'.1 == e.1 with
    | none =>
      rw [List.find?_eq_none] at hfind
      exact absurd (by simp) (hfind e (List.mem_reverse.2 he))
    | some e' => exact ⟨e'.2, rfl⟩

/-- A list of keys, some of which have values. -/
theorem get?_ofList_filterMap (keys : List String) (f : String → Option α) (k : String) :
    (ofList (keys.filterMap fun i => (f i).map (i, ·))).get? k = if k ∈ keys then f k else none := by
  rw [get?_ofList, ← List.filterMap_reverse, List.find?_filterMap]
  by_cases hk : k ∈ keys
  · rw [if_pos hk]
    cases hfk : f k with
    | none =>
      -- an entry for `k` would be the value of `f` at `k`
      rw [Option.map_eq_none_iff, Option.bind_eq_none_iff]
      intro i hi
      have := List.find?_some hi
      cases hfi : f i with
      | none => rfl
      | some v =>
        simp only [hfi, Option.map_some, Option.any_some, beq_iff_eq] at this
        rw [this, hfk] at hfi
        cases hfi
    | some v =>
      -- `k` itself can be found, and whatever is found is `k`
      cases hfind : keys.reverse.find? fun i => ((f i).map (i, ·)).any fun e => e.1 == k with
      | none =>
        rw [List.find?_eq_none] at hfind
        exact absurd (by simp [hfk]) (hfind k (List.mem_reverse.2 hk))
      | some i =>
        have := List.find?_some hfind
        cases hfi : f i with
        | none => simp [hfi] at this
        | some u =>
          simp only [hfi, Option.map_some, Option.any_some, beq_iff_eq] at this
          subst this
          rw [hfk] at hfi
          cases hfi
          simp [hfk]
  -- a key that is not in the list has no entry
  · rw [if_neg hk, Option.map_eq_none_iff, Option.bind_eq_none_iff]
    intro i hi
    have := List.find?_some hi
    cases hfi : f i with
    | none => rfl
    | some v =>
      simp only [hfi, Option.map_some, Option.any_some, beq_iff_eq] at this
      exact absurd (this ▸ List.mem_reverse.1 (List.mem_of_find?_eq_some hi)) hk

/-- A list of keys with their values. -/
theorem get?_ofList_map (keys : List String) (f : String → α) (k : String) :
    (ofList (keys.map fun i => (i, f i))).get? k = if k ∈ keys then some (f k) else none := by
  have := get?_ofList_filterMap keys (fun i => some (f i)) k
  simpa using this

/-- The values at the keys in a set, in the order of the keys. -/
theorem filterMap_get? (m : SortedMap α) (s : SortedSet) :
    s.toList.filterMap m.get? = (m.filter fun k _ => decide (k ∈ s)).values := by
  -- both lists are increasing, so it is enough to compare what they have at a key
  have hlist : (s.toList.filterMap fun k => (m.get? k).map (k, ·)) =
      (m.filter fun k _ => decide (k ∈ s)).toList := by
    have hsorted : Increasing (s.toList.filterMap fun k => (m.get? k).map (k, ·)) := by
      refine List.Pairwise.filterMap _ ?_ s.sorted
      intro i j hij x hx y hy
      simp only [Option.map_eq_some_iff] at hx hy
      obtain ⟨u, -, rfl⟩ := hx
      obtain ⟨v, -, rfl⟩ := hy
      exact hij
    refine eq_of_lookupEntry hsorted (SortedMap.sorted _) fun k => ?_
    change SortedMap.get? ⟨_, hsorted⟩ k = SortedMap.get? _ k
    apply Option.ext
    intro v
    rw [← mem_toList, get?_filter, Option.filter_eq_some_iff, List.mem_filterMap]
    simp only [Option.map_eq_some_iff, Prod.mk.injEq]
    constructor
    · rintro ⟨i, hi, u, hu, rfl, rfl⟩
      exact ⟨hu, decide_eq_true hi⟩
    · rintro ⟨hv, hk⟩
      exact ⟨k, of_decide_eq_true hk, v, hv, rfl, rfl⟩
  rw [values, ← hlist, List.map_filterMap]
  simp [Function.comp_def]

end SortedMap

end SensorCatalog
