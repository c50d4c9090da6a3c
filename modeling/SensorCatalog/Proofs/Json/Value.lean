import SensorCatalog.Proofs.Json.Text
import SensorCatalog.Proofs.Number.Shortest
import SensorCatalog.Proofs.Sorted.Map

/-!
# Exchanged values stand for what they were made of

What is made of texts, sets, maps, optional values and records is read as what it was made of. Maps and optional values
hold values of another kind, and are read as they were made where these are (`Json.toMap?_ofMap`,
`Json.toOption?_ofOption`). A map is not read at all when one of its values is not (`Json.toMap?_ofMap_eq_none`).

The fields of a record are found by their names, so these must differ (`Json.fields?_record`).
-/

namespace SensorCatalog

variable {α β : Type}

/-! ### Lists of things that can fail -/

/-- If each thing of a list can be done, so can all of them. -/
theorem mapM_eq_some {f : α → Option β} {g : α → β} {l : List α} (h : ∀ a ∈ l, f a = some (g a)) :
    l.mapM f = some (l.map g) := by
  induction l with
  | nil => rfl
  | cons a l ih =>
    rw [List.mapM_cons, h a List.mem_cons_self, ih fun b hb => h b (List.mem_cons_of_mem a hb)]
    rfl

/-- If one thing of a list cannot be done, all of them together cannot. -/
theorem mapM_eq_none {f : α → Option β} {l : List α} {a : α} (ha : a ∈ l) (h : f a = none) : l.mapM f = none := by
  induction l with
  | nil => cases ha
  | cons b l ih =>
    rw [List.mapM_cons]
    rcases List.mem_cons.1 ha with rfl | ha
    · rw [h]
      rfl
    · rw [ih ha]
      cases f b <;> rfl

/-! ### Sets and maps from their lists -/

/-- A set is made again of its members. -/
theorem SortedSet.ofList_toList (s : SortedSet) : ofList s.toList = s := ext fun _ => mem_ofList

/-- A map is made again of its entries. -/
theorem SortedMap.ofList_toList (m : SortedMap α) : ofList m.toList = m := by
  refine ext fun k => Option.ext fun v => ?_
  rw [get?_ofList, Option.map_eq_some_iff, ← mem_toList]
  constructor
  · rintro ⟨⟨j, w⟩, hfind, rfl⟩
    obtain rfl : j = k := by simpa using List.find?_some hfind
    exact List.mem_reverse.1 (List.mem_of_find?_eq_some hfind)
  · intro hmem
    -- whatever is found has this key, and a key has one value
    cases hfind : m.toList.reverse.find? fun e => e.1 == k with
    | none => exact absurd (List.find?_eq_none.1 hfind _ (List.mem_reverse.2 hmem)) (by simp)
    | some e =>
      obtain ⟨j, w⟩ := e
      obtain rfl : j = k := by simpa using List.find?_some hfind
      have hw := mem_toList.1 (List.mem_reverse.1 (List.mem_of_find?_eq_some hfind))
      exact ⟨_, rfl, Option.some.inj (hw.symm.trans (mem_toList.1 hmem))⟩

namespace Json

/-! ### Values that keep to the grammar -/

/-- A text names its characters. -/
theorem wellFormed_ofText (s : String) : (ofText s).WellFormed := .text s

/-- A whole number keeps to the grammar. -/
theorem wellFormed_ofInt (i : Int) : (ofInt i).WellFormed := .number (Numeral.wellFormed_ofInt i)

/-- A natural number is written as the integer that it is. -/
theorem ofInt_natCast (n : Nat) : ofInt n = ofNat n := congrArg number (Numeral.ofInt_natCast n)

/-- So does a natural number. -/
theorem wellFormed_ofNat (n : Nat) : (ofNat n).WellFormed := ofInt_natCast n ▸ wellFormed_ofInt n

/-- So does a coordinate, which is null if it is not finite. -/
theorem wellFormed_ofFloat (x : Float) : (ofFloat x).WellFormed := by
  rw [ofFloat]
  split
  · rename_i hn
    exact .number (Numeral.wellFormed_ofFloat? hn)
  · exact .null

/-- A record keeps to the grammar if its fields do. -/
theorem wellFormed_record {fields : List (String × Json)} (h : ∀ f ∈ fields, f.2.WellFormed) :
    (record fields).WellFormed := by
  refine .object ?_ ?_
  · intro m hm
    obtain ⟨f, -, rfl⟩ := List.mem_map.1 hm
    rfl
  · intro m hm
    obtain ⟨f, hf, rfl⟩ := List.mem_map.1 hm
    exact h f hf

/-- Texts in a list keep to the grammar. -/
theorem wellFormed_ofTexts (l : List String) : (ofTexts l).WellFormed := by
  refine .list fun j hj => ?_
  obtain ⟨s, -, rfl⟩ := List.mem_map.1 hj
  exact wellFormed_ofText s

/-- A set is written as the list of its members. -/
theorem wellFormed_ofSet (s : SortedSet) : (ofSet s).WellFormed := wellFormed_ofTexts s.toList

/-- A map is written as a record of its values. -/
theorem wellFormed_ofMap {f : α → Json} (h : ∀ a, (f a).WellFormed) (m : SortedMap α) : (ofMap f m).WellFormed := by
  refine wellFormed_record fun e he => ?_
  obtain ⟨e, -, rfl⟩ := List.mem_map.1 he
  exact h e.2

/-- An optional value is written as null or as the value. -/
theorem wellFormed_ofOption {f : α → Json} (h : ∀ a, (f a).WellFormed) (a : Option α) :
    (ofOption f a).WellFormed := by
  cases a with
  | none => exact .null
  | some a => exact h a

/-! ### What they stand for -/

/-- A whole number is read as it was written. -/
theorem toInt?_ofInt (i : Int) : (ofInt i).toInt? = some i := Numeral.toInt?_ofInt i

/-- A count is read as it was written if it has 64 bits. -/
theorem toCount?_ofNat {n : Nat} (h : n < wordEnd) : (ofNat n).toCount? = some n := by
  have hint : (ofNat n).toInt? = some (n : Int) := ofInt_natCast n ▸ toInt?_ofInt n
  unfold toCount? toNat?
  rw [hint]
  exact if_pos h

/-- Texts are read as they were written. -/
theorem toTexts?_ofTexts (l : List String) : (ofTexts l).toTexts? = some l := by
  show (l.map ofText).mapM toText? = some l
  rw [List.mapM_map]
  exact (mapM_eq_some (g := id) fun s _ => rfl).trans (congrArg some (List.map_id l))

/-- A set is read as it was written. -/
theorem toSet?_ofSet (s : SortedSet) : (ofSet s).toSet? = some s := by
  rw [toSet?, show (ofSet s).toTexts? = some s.toList from toTexts?_ofTexts s.toList, Option.map_some,
    SortedSet.ofList_toList]

/-- The members of a record are its fields. -/
theorem toMembers?_record (fields : List (String × Json)) : (record fields).toMembers? = some fields := by
  show (fields.map fun f => (some f.1, f.2)).mapM _ = _
  rw [List.mapM_map]
  exact (mapM_eq_some (g := id) fun f _ => rfl).trans (congrArg some (List.map_id fields))

/-- How a map is read depends on how its values are read. -/
theorem toMap?_ofMap_eq (f : α → Json) (g : Json → Option α) (m : SortedMap α) :
    (ofMap f m).toMap? g = (m.toList.mapM fun e => (g (f e.2)).map (e.1, ·)).map SortedMap.ofList := by
  rw [toMap?, ofMap, toMembers?_record, Option.bind_some, List.mapM_map]
  rfl

/-- **A map is read as it was made** where its values are. -/
theorem toMap?_ofMap {f : α → Json} {g : Json → Option α} {m : SortedMap α} (h : ∀ e ∈ m.toList, g (f e.2) = some e.2) :
    (ofMap f m).toMap? g = some m := by
  have hentries : m.toList.mapM (fun e => (g (f e.2)).map (e.1, ·)) = some (m.toList.map id) :=
    mapM_eq_some fun e he => by rw [h e he]; rfl
  rw [toMap?_ofMap_eq, hentries, List.map_id, Option.map_some, SortedMap.ofList_toList]

/-- A map is not read when one of its values is not. -/
theorem toMap?_ofMap_eq_none {f : α → Json} {g : Json → Option α} {m : SortedMap α} {e : String × α}
    (he : e ∈ m.toList) (h : g (f e.2) = none) : (ofMap f m).toMap? g = none := by
  rw [toMap?_ofMap_eq, mapM_eq_none he (by rw [h]; rfl), Option.map_none]

/-- An optional value is read as it was made, unless null stands for a value. -/
theorem toOption?_ofOption {f : α → Json} {g : Json → Option α} {a : Option α} (hnull : ∀ a, f a ≠ .null)
    (h : ∀ b ∈ a, g (f b) = some b) : (ofOption f a).toOption? g = some a := by
  cases a with
  | none => rfl
  | some a =>
    rw [ofOption, toOption?, h a rfl, Option.map_some]
    exact hnull a

/-- An optional value is not read when the value is not. -/
theorem toOption?_ofOption_eq_none {f : α → Json} {g : Json → Option α} {a : α} (hnull : f a ≠ .null)
    (h : g (f a) = none) : (ofOption f (some a)).toOption? g = none := by
  rw [ofOption, toOption?, h, Option.map_none]
  exact hnull

/-! ### Records -/

/-- The member with the name of a field is this field, and there is no other one. -/
theorem member?_of_mem {fields : List (String × Json)} (hnodup : (fields.map (·.1)).Nodup) {f : String × Json}
    (hf : f ∈ fields) : member? f.1 fields = some (some f.2) := by
  -- the names are distinct, so that looking for a name finds one field
  have honly : fields.filter (fun m => m.1 == f.1) = [f] := by
    induction fields with
    | nil => cases hf
    | cons g fields ih =>
      rw [List.map_cons, List.nodup_cons] at hnodup
      obtain ⟨hg, hnodup⟩ := hnodup
      rcases List.mem_cons.1 hf with rfl | hf
      · -- no other field has this name
        rw [List.filter_cons_of_pos (by simp), List.cons_inj_right, List.filter_eq_nil_iff]
        intro m hm hname
        exact hg (beq_iff_eq.1 hname ▸ List.mem_map_of_mem hm)
      · rw [List.filter_cons_of_neg, ih hnodup hf]
        intro hname
        exact hg (beq_iff_eq.1 hname ▸ List.mem_map_of_mem hf)
  rw [member?, honly]

/-- **The fields of a record are found by their names.** -/
theorem fields?_record (fields : List (String × Json)) (hnodup : (fields.map (·.1)).Nodup) :
    (record fields).fields? (fields.map (·.1)) = some (fields.map fun f => some f.2) := by
  show (toMembers? _).bind _ = _
  rw [toMembers?_record, Option.bind_some, List.mapM_map]
  exact mapM_eq_some fun f hf => member?_of_mem hnodup hf

end Json

end SensorCatalog
