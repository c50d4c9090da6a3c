import SensorCatalog.Catalog.Text
import SensorCatalog.Proofs.Json.Value
import SensorCatalog.Proofs.Time.Text

/-!
# Catalogs are read as they were written

The text of a catalog names all thirty categories, and each of them is found by its name. So a catalog is read from it if
each category is read, and it has what was read (`Catalog.ofJson?_toJson`). Twenty-eight categories are always read as
they were written. The other two hold envelopes, whose coordinates are floats. One that is not finite is written as
null, and no coordinate is read from null.

That a finite float is read as it was written is not proved here, because it does not hold of all of them: reading rounds
several times. `Catalog.Exchangeable` asks it of the coordinates that a catalog has. `Catalog.exchange` is the result.
-/

namespace SensorCatalog

/-! ### Periods -/

namespace Period

/-- A time is read from the text that it was written as. -/
theorem time?_ofText (t : Timestamp) : time? (.ofText t.toText) = some t := by
  rw [time?, show (Json.ofText t.toText).toText? = some t.toText from rfl, Option.bind_some, Timestamp.ofText?_toText]

/-- A period is written with nothing but texts. -/
theorem wellFormed_toJson (p : Period) : p.toJson.WellFormed := by
  refine Json.wellFormed_record fun f hf => ?_
  simp only [List.mem_cons, List.not_mem_nil, or_false] at hf
  rcases hf with rfl | rfl <;> exact Json.wellFormed_ofText _

/-- A period is read as it was written. -/
theorem ofJson?_toJson (p : Period) : ofJson? p.toJson = some p := by
  have hfields : p.toJson.fields? ["start", "end"] =
      some [some (.ofText p.start.toText), some (.ofText p.finish.toText)] :=
    Json.fields?_record [("start", _), ("end", _)] (show ["start", "end"].Nodup by decide)
  rw [ofJson?, hfields]
  simp only [time?_ofText]

end Period

/-! ### Envelopes -/

/-- A coordinate that is not finite is written as null. -/
theorem ofFloat_eq_null {x : Float} (h : x.isFinite = false) : Json.ofFloat x = .null := by
  rw [Json.ofFloat, (Numeral.ofFloat?_eq_none_iff x).2 h]

namespace Envelope

def coordinates (e : Envelope) : List Float := [e.minX, e.minY, e.maxX, e.maxY]

def isFinite (e : Envelope) : Bool := e.coordinates.all Float.isFinite

/-- **Envelopes that can be exchanged.** The number of the system has 32 bits and a sign, and a coordinate that is finite
is read as it was written. -/
structure Exchangeable (e : Envelope) : Prop where
  srid : -2147483648 ≤ e.srid ∧ e.srid < 2147483648
  coordinates : ∀ x ∈ e.coordinates, x.isFinite = true → (Json.ofFloat x).toFloat? = some x

instance (e : Envelope) : Decidable e.Exchangeable :=
  decidable_of_iff ((-2147483648 ≤ e.srid ∧ e.srid < 2147483648) ∧
    ∀ x ∈ e.coordinates, x.isFinite = true → (Json.ofFloat x).toFloat? = some x)
    ⟨fun h => ⟨h.1, h.2⟩, fun h => ⟨h.srid, h.coordinates⟩⟩

/-- Reading divides by a power of ten, which is rounded itself when it is great. -/
example : (1e-23 : Float).isFinite = true ∧ (Json.ofFloat 1e-23).toFloat? ≠ some 1e-23 := by decide +kernel

/-- An envelope is written as a whole number and four coordinates. -/
theorem wellFormed_toJson (e : Envelope) : e.toJson.WellFormed := by
  refine Json.wellFormed_record fun f hf => ?_
  simp only [fieldNames, List.zip_cons_cons, List.zip_nil_right, List.mem_cons, List.not_mem_nil, or_false] at hf
  rcases hf with rfl | rfl | rfl | rfl | rfl
  · exact Json.wellFormed_ofInt e.srid
  all_goals exact Json.wellFormed_ofFloat _

/-- The fields of an envelope are found under their names. -/
theorem fields?_toJson (e : Envelope) : e.toJson.fields? fieldNames =
    some [some (.ofInt e.srid), some (.ofFloat e.minX), some (.ofFloat e.minY), some (.ofFloat e.maxX),
      some (.ofFloat e.maxY)] :=
  Json.fields?_record (fieldNames.zip [_, _, _, _, _]) (show fieldNames.Nodup by decide)

/-- An envelope is read as it was written if all its coordinates are finite. -/
theorem ofJson?_toJson {e : Envelope} (h : e.Exchangeable) (hfinite : e.isFinite = true) :
    ofJson? e.toJson = some e := by
  -- a finite coordinate is read back, and the number of the system is within its range
  have hread : ∀ x ∈ e.coordinates, (Json.ofFloat x).toFloat? = some x := fun x hx =>
    h.coordinates x hx (List.all_eq_true.1 hfinite x hx)
  have hsrid : srid? (.ofInt e.srid) = some e.srid := by
    rw [srid?, Json.toInt?_ofInt, Option.filter_some, if_pos (by simpa using h.srid)]
  simp only [coordinates, List.forall_mem_cons] at hread
  obtain ⟨hminX, hminY, hmaxX, hmaxY, -⟩ := hread
  simp only [ofJson?, fields?_toJson, hsrid, hminX, hminY, hmaxX, hmaxY]

/-- An envelope is not read if one of its coordinates is not finite. -/
theorem ofJson?_toJson_eq_none {e : Envelope} (h : e.isFinite = false) : ofJson? e.toJson = none := by
  -- the coordinate that is not finite was written as null, which no number is read from
  have hnull : ∃ x ∈ e.coordinates, (Json.ofFloat x).toFloat? = none := by
    obtain ⟨x, hx, hfinite⟩ := List.all_eq_false.1 h
    exact ⟨x, hx, by rw [ofFloat_eq_null (by simpa using hfinite)]; rfl⟩
  simp only [ofJson?, fields?_toJson]
  split
  · rename_i hminX hminY hmaxX hmaxY
    simp [coordinates, hminX, hminY, hmaxX, hmaxY] at hnull
  · rfl

end Envelope

/-! ### Categories -/

namespace Category

/-- The envelopes that a category holds. -/
def envelopes : (k : Category) → k.Value → List Envelope
  | .globalEnvelope, e => e.toList
  | .offeringEnvelopes, m => m.values
  | _, _ => []

/-- What a category is written as is well-formed. -/
theorem wellFormed_toJson (k : Category) (v : k.Value) : (k.toJson v).WellFormed := by
  cases k with
  | ids => exact Json.wellFormed_ofSet v
  | association | parentFeatures | childFeatures => exact Json.wellFormed_ofMap Json.wellFormed_ofSet v
  | components => exact Json.wellFormed_ofMap Json.wellFormed_ofTexts v
  | globalEnvelope => exact Json.wellFormed_ofOption Envelope.wellFormed_toJson v
  | offeringEnvelopes => exact Json.wellFormed_ofMap Envelope.wellFormed_toJson v
  | globalTime => exact Json.wellFormed_ofOption Period.wellFormed_toJson v
  | offeringTimes | procedureTimes => exact Json.wellFormed_ofMap Period.wellFormed_toJson v

/-- **A category is read as it was written** if its envelopes are. -/
theorem ofJson?_toJson (k : Category) (v : k.Value)
    (h : ∀ e ∈ k.envelopes v, Envelope.ofJson? e.toJson = some e) : k.ofJson? (k.toJson v) = some v := by
  -- an identifier or a time is always read back, so that only the envelopes need the hypothesis
  cases k with
  | ids => exact Json.toSet?_ofSet v
  | association | parentFeatures | childFeatures => exact Json.toMap?_ofMap fun e _ => Json.toSet?_ofSet e.2
  | components => exact Json.toMap?_ofMap fun e _ => Json.toTexts?_ofTexts e.2
  | globalEnvelope => exact Json.toOption?_ofOption (fun _ => nofun) fun e he => h e (Option.mem_toList.2 he)
  | offeringEnvelopes => exact Json.toMap?_ofMap fun e he => h e.2 (List.mem_map_of_mem he)
  | globalTime => exact Json.toOption?_ofOption (fun _ => nofun) fun p _ => Period.ofJson?_toJson p
  | offeringTimes | procedureTimes => exact Json.toMap?_ofMap fun e _ => Period.ofJson?_toJson e.2

/-- A category is not read if one of its envelopes is not. -/
theorem ofJson?_toJson_eq_none (k : Category) (v : k.Value) {e : Envelope} (he : e ∈ k.envelopes v)
    (h : Envelope.ofJson? e.toJson = none) : k.ofJson? (k.toJson v) = none := by
  -- in the other categories there are no envelopes
  cases k with
  | globalEnvelope =>
    obtain rfl : v = some e := Option.mem_toList.1 he
    have hnull : e.toJson ≠ .null := nofun
    exact Json.toOption?_ofOption_eq_none hnull h
  | offeringEnvelopes =>
    obtain ⟨entry, hentry, rfl⟩ := List.mem_map.1 he
    exact Json.toMap?_ofMap_eq_none hentry h
  | ids | association | parentFeatures | childFeatures | components | globalTime | offeringTimes | procedureTimes =>
    cases he

end Category

/-! ### Catalogs -/

namespace Catalog

/-- The sets of identifiers are read together if each of them is read. -/
theorem idsIn_eq_some_iff {fields : List (Option Json)} {f : IdCategory → SortedSet} :
    idsIn fields = some f ↔ ∀ c, valueIn fields (.ids c) = some (f c) := by
  constructor
  · intro h c
    -- each of the values is there, or nothing would be
    rw [idsIn] at h
    iterate 9 obtain ⟨_, _, h⟩ := Option.bind_eq_some_iff.1 h
    cases h
    cases c <;> assumption
  · intro h
    simp only [idsIn, h, Option.bind_eq_bind, Option.bind_some]
    refine congrArg some (funext fun c => ?_)
    cases c <;> rfl

/-- The associations are read together if each of them is read. -/
theorem associationsIn_eq_some_iff {fields : List (Option Json)} {f : Association → SortedMap SortedSet} :
    associationsIn fields = some f ↔ ∀ a, valueIn fields (.association a) = some (f a) := by
  constructor
  · intro h a
    -- none of the thirteen can be missing, as above
    rw [associationsIn] at h
    iterate 13 obtain ⟨_, _, h⟩ := Option.bind_eq_some_iff.1 h
    cases h
    cases a <;> assumption
  · intro h
    simp only [associationsIn, h, Option.bind_eq_bind, Option.bind_some]
    refine congrArg some (funext fun a => ?_)
    cases a <;> rfl

/-- **A catalog is read if each category is**, and it has what was read. -/
theorem ofJson?_eq_some_iff {j : Json} {c : Catalog} :
    ofJson? j = some c ↔ ∃ fields, j.fields? (Category.all.map Category.name) = some fields ∧
      ∀ k, valueIn fields k = some (c.get k) := by
  constructor
  · intro h
    rw [ofJson?] at h
    obtain ⟨fields, hfields, h⟩ := Option.bind_eq_some_iff.1 h
    obtain ⟨ids, hids, h⟩ := Option.bind_eq_some_iff.1 h
    obtain ⟨associations, hassociations, h⟩ := Option.bind_eq_some_iff.1 h
    -- the sets, the associations and these eight are all there is to a catalog
    iterate 8 obtain ⟨_, _, h⟩ := Option.bind_eq_some_iff.1 h
    cases h
    refine ⟨fields, hfields, fun k => ?_⟩
    cases k with
    | ids c => exact idsIn_eq_some_iff.1 hids c
    | association a => exact associationsIn_eq_some_iff.1 hassociations a
    | parentFeatures | childFeatures | components | globalEnvelope | offeringEnvelopes | globalTime | offeringTimes
    | procedureTimes => assumption
  · rintro ⟨fields, hfields, h⟩
    have hids : idsIn fields = some c.ids := idsIn_eq_some_iff.2 fun k => h (.ids k)
    have hassociations : associationsIn fields = some c.associations :=
      associationsIn_eq_some_iff.2 fun a => h (.association a)
    simp only [ofJson?, hfields, hids, hassociations, h, Option.bind_eq_bind, Option.bind_some]
    rfl

/-- The names of the categories are distinct. -/
theorem nodup_names : (Category.all.map Category.name).Nodup := by decide

/-- The fields of a written catalog are its categories, under their names. -/
theorem fields?_toJson (c : Catalog) : c.toJson.fields? (Category.all.map Category.name) =
    some (Category.all.map fun k => some (k.toJson (c.get k))) := by
  have hnames : (Category.all.map fun k => (k.name, k.toJson (c.get k))).map (·.1) = Category.all.map Category.name := by
    rw [List.map_map]
    rfl
  rw [← hnames, toJson, Json.fields?_record _ (hnames ▸ nodup_names), List.map_map]
  rfl

/-- What is read under the name of a category is what the category was written as. -/
theorem valueIn_toJson (c : Catalog) (k : Category) :
    valueIn (Category.all.map fun k => some (k.toJson (c.get k))) k = k.ofJson? (k.toJson (c.get k)) := by
  rw [valueIn, List.getElem?_map, List.getElem?_idxOf (Category.mem_all k)]
  rfl

/-- What is read of a catalog that was written. -/
theorem ofJson?_toJson {c d : Catalog} :
    ofJson? c.toJson = some d ↔ ∀ k, Category.ofJson? k (k.toJson (c.get k)) = some (d.get k) := by
  rw [ofJson?_eq_some_iff]
  constructor
  · rintro ⟨fields, hfields, h⟩ k
    obtain rfl := Option.some.inj ((fields?_toJson c).symm.trans hfields)
    rw [← valueIn_toJson]
    exact h k
  · exact fun h => ⟨_, fields?_toJson c, fun k => (valueIn_toJson c k).trans (h k)⟩

/-- A catalog is written as a record of its categories, so it is well-formed. -/
theorem wellFormed_toJson (c : Catalog) : c.toJson.WellFormed := by
  refine Json.wellFormed_record fun f hf => ?_
  obtain ⟨k, -, rfl⟩ := List.mem_map.1 hf
  exact k.wellFormed_toJson (c.get k)

/-- All envelopes of a catalog. -/
def envelopes (c : Catalog) : List Envelope := c.globalEnvelope.toList ++ c.offeringEnvelopes.values

/-- Whether all coordinates are finite. -/
def isFinite (c : Catalog) : Bool := c.envelopes.all Envelope.isFinite

/-- **Catalogs that can be exchanged**, as far as envelopes are concerned. -/
def Exchangeable (c : Catalog) : Prop := ∀ e ∈ c.envelopes, e.Exchangeable

instance (c : Catalog) : Decidable c.Exchangeable := inferInstanceAs (Decidable (∀ e ∈ c.envelopes, e.Exchangeable))

/-- The envelopes of a catalog are those of its categories. -/
theorem mem_envelopes {c : Catalog} {e : Envelope} : e ∈ c.envelopes ↔ ∃ k : Category, e ∈ k.envelopes (c.get k) := by
  rw [envelopes, List.mem_append]
  constructor
  · rintro (h | h)
    · exact ⟨.globalEnvelope, h⟩
    · exact ⟨.offeringEnvelopes, h⟩
  · rintro ⟨k, h⟩
    cases k with
    | globalEnvelope => exact .inl h
    | offeringEnvelopes => exact .inr h
    | ids | association | parentFeatures | childFeatures | components | globalTime | offeringTimes | procedureTimes =>
      cases h

/-- The text of a catalog is the text of its exchanged value, whatever its coordinates are. -/
theorem read?_toText (c : Catalog) : Json.read? c.toText = some c.toJson := Json.read?_toPretty c.wellFormed_toJson

/-- A catalog whose coordinates are finite is read from its text. -/
theorem ofText?_toText {c : Catalog} (h : c.Exchangeable) (hfinite : c.isFinite = true) :
    ofText? c.toText = some c := by
  rw [ofText?, read?_toText, Option.bind_some, ofJson?_toJson]
  intro k
  refine k.ofJson?_toJson (c.get k) fun e he => ?_
  have hmem := mem_envelopes.2 ⟨k, he⟩
  exact Envelope.ofJson?_toJson (h e hmem) (List.all_eq_true.1 hfinite e hmem)

/-- A catalog with another coordinate is not read from its text. -/
theorem ofText?_toText_eq_none {c : Catalog} (hfinite : c.isFinite = false) : ofText? c.toText = none := by
  rw [ofText?, read?_toText, Option.bind_some]
  obtain ⟨e, he, hinfinite⟩ := List.all_eq_false.1 hfinite
  obtain ⟨k, hk⟩ := mem_envelopes.1 he
  have hnone := k.ofJson?_toJson_eq_none (c.get k) hk (Envelope.ofJson?_toJson_eq_none (by simpa using hinfinite))
  -- whatever was read would have something in this category
  refine Option.eq_none_iff_forall_ne_some.2 fun d hd => ?_
  rw [ofJson?_toJson.1 hd k] at hnone
  cases hnone

/-- **Exchanging catalogs.** One whose coordinates are finite is read as it was written, so two of them that have the
same text are equal. One that has another coordinate is written as well, but is not read. -/
theorem exchange (c d : Catalog) :
    (c.Exchangeable → c.isFinite = true → ofText? c.toText = some c) ∧
      (c.Exchangeable → d.Exchangeable → c.isFinite = true → d.isFinite = true → c.toText = d.toText → c = d) ∧
      (c.isFinite = false → Json.read? c.toText = some c.toJson ∧ ofText? c.toText = none) := by
  refine ⟨ofText?_toText, fun hc hd hcfinite hdfinite htext => ?_, fun h => ⟨read?_toText c, ofText?_toText_eq_none h⟩⟩
  have hread : some c = some d := by
    calc some c = ofText? c.toText := (ofText?_toText hc hcfinite).symm
      _ = ofText? d.toText := by rw [htext]
      _ = some d := ofText?_toText hd hdfinite
  exact Option.some.inj hread

/-- Identifiers with quotes, a control character and letters beyond ASCII, a negative zero, and a leap second far
ahead. -/
def oddCatalog : Catalog :=
  { empty with
    ids := fun
      | .procedures => SortedSet.ofList ["a \"gauge\"", "C:\\\x01\n", "Größe 川"]
      | _ => SortedSet.empty
    components := SortedMap.ofList [("", ["wind", "rain", "wind"])]
    globalEnvelope := some ⟨4326, -122.5, -0.0, 1.5, 0.1⟩
    globalTime := some (.instant ⟨⟨12026, 6, 30, by decide⟩, Timestamp.hourOf 23, Timestamp.minuteOf 59,
      Timestamp.secondOf 60, Timestamp.nanosOf 500000000⟩) }

/-- Apart from an infinite coordinate this is the same catalog. -/
def boundlessCatalog : Catalog :=
  { oddCatalog with offeringEnvelopes := SortedMap.ofList [("all", ⟨4326, 0.0, 0.0, 1.0 / 0.0, 1.0⟩)] }

/-- The first catalog is read as it was written, and the second one is written but not read. -/
theorem exchange_odd : ofText? oddCatalog.toText = some oddCatalog ∧ oddCatalog.toText ≠ empty.toText ∧
    Json.read? boundlessCatalog.toText = some boundlessCatalog.toJson ∧ ofText? boundlessCatalog.toText = none := by
  have hodd : oddCatalog.Exchangeable ∧ oddCatalog.isFinite = true := by decide +kernel
  have hempty : empty.Exchangeable ∧ empty.isFinite = true := by decide
  have hne : oddCatalog ≠ empty := fun h => Option.some_ne_none _ (congrArg Catalog.globalTime h)
  have hboundless : boundlessCatalog.isFinite = false := by decide +kernel
  refine ⟨(exchange oddCatalog empty).1 hodd.1 hodd.2, fun htext => hne ?_, ?_⟩
  · exact (exchange oddCatalog empty).2.1 hodd.1 hempty.1 hodd.2 hempty.2 htext
  · exact (exchange boundlessCatalog empty).2.2 hboundless

end Catalog

end SensorCatalog
