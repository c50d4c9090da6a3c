import SensorCatalog.Proofs.Catalog.Consistent
import SensorCatalog.Proofs.Catalog.Write
import SensorCatalog.Proofs.Course

/-!
# Six maps that are one

What is known of a procedure is kept in six categories, which are written one at a time and which hold nothing
for a key that has an empty set. Read together, by `Catalog.entry`, they are one map from all identifiers to
entries.

* `Write.onEntry` is what a single write does to the entry of a procedure (`Catalog.entry_write`). It holds of
  every catalog, so it says what is read between two of the writes of an operation as well.
* `ProcedureChange` lists the operations on procedures, each with the writes that it consists of and with what
  it does to the one map, and `CatalogChange` adds all others. `Catalog.entry_changes` is the run of them.
* Entries of different procedures do not get in each other's way, in whatever order their writes come
  (`Catalog.Enters.writeAll_eq`): each place that is kept for a procedure is made by one of them or left alone by
  all (`Catalog.IsPlace`).
-/

namespace SensorCatalog

/-! ### Entries -/

namespace Entry

/-- The entry with another part. Associations that are not about procedures have no part in it. -/
def withPart (e : Entry) : Association → SortedSet → Entry
  | .offeringsForProcedure, s => { e with offerings := s }
  | .propertiesForProcedure, s => { e with properties := s }
  | .parentProcedures, s => { e with parents := s }
  | .childProcedures, s => { e with children := s }
  | .observationsForProcedure, s => { e with observations := s }
  | _, _ => e

end Entry

/-! ### What a write does to an entry -/

/-- **What a write does to the entry of a procedure.** -/
def Write.onEntry (p : String) (e : Entry) : Write → Entry
  | .setKey a q s => if p = q then e.withPart a s else e
  | .replace a m => e.withPart a (setAt m p)
  | .retainKeys a keep => if p ∈ keep then e else e.withPart a SortedSet.empty
  | .setProcedureTime q t => if p = q then { e with time := t } else e
  | .retainTimes keep => if p ∈ keep then e else { e with time := none }
  | _ => e

namespace Catalog

/-- A change of an association is read in its part of the entry. -/
theorem entry_updateAssociation (c : Catalog) (a : Association) (f : SortedMap SortedSet → SortedMap SortedSet)
    (p : String) :
    (c.updateAssociation a f).entry p = (c.entry p).withPart a (setAt (f (c.associations a)) p) := by
  cases a <;> rfl

/-- A part that is put where it is already. -/
theorem entry_withPart_self (c : Catalog) (a : Association) (p : String) :
    (c.entry p).withPart a (setAt (c.associations a) p) = c.entry p := by
  cases a <;> rfl

/-- **One write.** -/
theorem entry_write (c : Catalog) (x : Write) (p : String) : (c.write x).entry p = x.onEntry p (c.entry p) := by
  cases x with
  | setKey a q s =>
    -- the key that is set is either this procedure or another one
    refine (entry_updateAssociation c a (fun m => putSet m q s) p).trans ?_
    rw [setAt_putSet]
    show _ = if p = q then (c.entry p).withPart a s else c.entry p
    split
    · rfl
    · exact entry_withPart_self c a p
  | replace a m =>
    refine (entry_updateAssociation c a (fun _ => withoutEmpty m) p).trans ?_
    rw [setAt_withoutEmpty]
    rfl
  | retainKeys a keep =>
    refine (entry_updateAssociation c a (fun m => m.filter fun k _ => decide (k ∈ keep)) p).trans ?_
    -- a procedure that is kept has its part left where it is
    rw [setAt_filter_keys]
    show _ = if p ∈ keep then c.entry p else (c.entry p).withPart a SortedSet.empty
    split
    · exact entry_withPart_self c a p
    · rfl
  | setProcedureTime q t =>
    show Entry.mk _ _ _ _ _ (time p (c.write (.setProcedureTime q t))) = _
    rw [time_write_setProcedureTime]
    -- the write asks for the key, and here the procedure is asked for
    show _ = if p = q then { c.entry p with time := t } else c.entry p
    by_cases hp : p = q
    · rw [if_pos hp, if_pos hp.symm]
      rfl
    · rw [if_neg hp, if_neg (Ne.symm hp)]
      rfl
  | retainTimes keep =>
    show Entry.mk _ _ _ _ _ (time p (c.write (.retainTimes keep))) = _
    rw [time_write_retainTimes]
    show _ = if p ∈ keep then c.entry p else { c.entry p with time := none }
    by_cases hp : p ∈ keep
    · rw [if_pos hp, if_neg fun h => h hp]
      rfl
    · rw [if_neg hp, if_pos hp]
      rfl
  -- what is left is not about procedures
  | _ => rfl

/-- **Any number of writes.** -/
theorem entry_writeAll (c : Catalog) (ws : List Write) (p : String) :
    (c.writeAll ws).entry p = ws.foldl (fun e x => x.onEntry p e) (c.entry p) := by
  induction ws generalizing c with
  | nil => rfl
  | cons x ws ih =>
    show ((c.write x).writeAll ws).entry p = _
    rw [ih, entry_write]
    rfl

end Catalog

/-! ### Operations -/

/-- **The operations on procedures.** -/
inductive ProcedureChange where
  /-- Sets all that is known of one procedure. -/
  | enter (procedure : String) (entry : Entry)
  /-- Sets one part of what is known of one procedure. -/
  | setPart (a : Association) (h : a ∈ Association.ofProcedures) (procedure : String) (ids : SortedSet)
  | setTime (procedure : String) (time : Option Period)
  /-- Replaces one part of what is known of every procedure. -/
  | replacePart (a : Association) (h : a ∈ Association.ofProcedures) (entries : SortedMap SortedSet)
  /-- Forgets all procedures but some. -/
  | retain (keep : SortedSet)

namespace ProcedureChange

/-- The writes of which an operation consists. -/
def writes : ProcedureChange → List Write
  | enter p e => Write.entry p e
  | setPart a _ p s => [.setKey a p s]
  | setTime p t => [.setProcedureTime p t]
  | replacePart a _ m => [.replace a m]
  | retain keep => Write.retain keep

/-- What an operation does to a map from all identifiers to entries. -/
def apply (f : String → Entry) : ProcedureChange → String → Entry
  | enter p e => Function.update f p e
  | setPart a _ p s => Function.update f p ((f p).withPart a s)
  | setTime p t => Function.update f p { f p with time := t }
  | replacePart a _ m => fun q => (f q).withPart a (setAt m q)
  | retain keep => fun q => if q ∈ keep then f q else Entry.empty

end ProcedureChange

/-- **The operations on the catalog**, of which the single writes that are not about procedures are some. -/
inductive CatalogChange where
  | procedures (change : ProcedureChange)
  | clear
  | other (x : Write) (h : ∀ k ∈ x.categories, k ∉ Category.ofProcedures)

namespace CatalogChange

def writes : CatalogChange → List Write
  | procedures x => x.writes
  | clear => Write.clear
  | other x _ => [x]

def apply (f : String → Entry) : CatalogChange → String → Entry
  | procedures x => x.apply f
  | clear => fun _ => Entry.empty
  | other _ _ => f

end CatalogChange

/-- A category that is an association about procedures is one of the six. -/
theorem Category.association_mem_ofProcedures {a : Association} (ha : a ∈ Association.ofProcedures) :
    Category.association a ∈ Category.ofProcedures :=
  List.mem_append_left _ (List.mem_map.2 ⟨a, ha, rfl⟩)

/-! ### What an operation does to the one map -/

/-- A change of the value at one key, read at any key. -/
theorem update_change (f : String → Entry) (q : String) (g : Entry → Entry) (p : String) :
    Function.update f q (g (f q)) p = if p = q then g (f p) else f p := by
  rw [Function.update_apply]
  split
  · rename_i hp
    rw [hp]
  · rfl

namespace Catalog

/-- Entering overwrites what is known of one procedure, whatever it was. -/
theorem entry_writeAll_entry (c : Catalog) (q : String) (e : Entry) :
    (c.writeAll (Write.entry q e)).entry = Function.update c.entry q e := by
  funext p
  rw [entry_writeAll]
  -- the six writes meet the six parts, or they are about another procedure
  by_cases hp : p = q
  · subst hp
    simp [Write.entry, Write.onEntry, Entry.withPart]
  · simp [Write.entry, Write.onEntry, hp]

/-- Retaining empties all six parts of what is known of the others. -/
theorem entry_writeAll_retain (c : Catalog) (keep : SortedSet) (p : String) :
    (c.writeAll (Write.retain keep)).entry p = if p ∈ keep then c.entry p else Entry.empty := by
  rw [entry_writeAll]
  by_cases hp : p ∈ keep
  · simp [Write.retain, Association.ofProcedures, Write.onEntry, hp]
  · simp [Write.retain, Association.ofProcedures, Write.onEntry, Entry.withPart, Entry.empty, hp]

/-- **One operation on procedures.** -/
theorem entry_procedureChange (c : Catalog) (x : ProcedureChange) :
    (c.writeAll x.writes).entry = x.apply c.entry := by
  cases x with
  | enter q e => exact entry_writeAll_entry c q e
  | setPart a ha q s =>
    funext p
    calc (c.write (.setKey a q s)).entry p = if p = q then (c.entry p).withPart a s else c.entry p :=
          entry_write c _ p
      _ = Function.update c.entry q ((c.entry q).withPart a s) p :=
          (update_change c.entry q (·.withPart a s) p).symm
  | setTime q t =>
    funext p
    calc (c.write (.setProcedureTime q t)).entry p = if p = q then { c.entry p with time := t } else c.entry p :=
          entry_write c _ p
      _ = Function.update c.entry q { c.entry q with time := t } p :=
          (update_change c.entry q (fun e => { e with time := t }) p).symm
  | replacePart a ha m =>
    funext p
    exact entry_write c (.replace a m) p
  | retain keep =>
    funext p
    exact entry_writeAll_retain c keep p

/-- A write that is not about procedures changes no entry. -/
theorem entry_write_of_other (c : Catalog) {x : Write} (h : ∀ k ∈ x.categories, k ∉ Category.ofProcedures) :
    (c.write x).entry = c.entry := by
  -- the entry is read from the six categories, none of which the write changes
  have hget : ∀ k ∈ Category.ofProcedures, (c.write x).get k = c.get k := fun k hk =>
    c.get_write_of_not_mem fun hx => h k hx hk
  funext p
  have hrelated : ∀ a ∈ Association.ofProcedures, (c.write x).associations a = c.associations a := fun a ha =>
    hget (.association a) (Category.association_mem_ofProcedures ha)
  have htimes : (c.write x).procedureTimes = c.procedureTimes := hget .procedureTimes (by decide)
  unfold entry related
  rw [hrelated .offeringsForProcedure (by decide), hrelated .propertiesForProcedure (by decide),
    hrelated .parentProcedures (by decide), hrelated .childProcedures (by decide),
    hrelated .observationsForProcedure (by decide), htimes]

/-- Nor do several of them. -/
theorem entry_writeAll_of_other (c : Catalog) {ws : List Write}
    (h : ∀ x ∈ ws, ∀ k ∈ x.categories, k ∉ Category.ofProcedures) : (c.writeAll ws).entry = c.entry := by
  induction ws generalizing c with
  | nil => rfl
  | cons x ws ih =>
    show ((c.write x).writeAll ws).entry = c.entry
    rw [ih (c.write x) fun y hy => h y (List.mem_cons_of_mem _ hy)]
    exact c.entry_write_of_other (h x List.mem_cons_self)

/-- Among the writes that empty the catalog there are those that retain no procedure. -/
theorem entry_writeAll_clear (c : Catalog) (p : String) : (c.writeAll Write.clear).entry p = Entry.empty := by
  unfold Write.clear
  -- before and after them stand writes that are not about procedures
  rw [writeAll_append, entry_writeAll_of_other _ (by decide), writeAll_append, entry_writeAll_retain,
    if_neg (SortedSet.not_mem_empty p)]

/-- **One operation.** -/
theorem entry_change (c : Catalog) (x : CatalogChange) : (c.writeAll x.writes).entry = x.apply c.entry := by
  cases x with
  | procedures x => exact entry_procedureChange c x
  | clear => exact funext fun p => entry_writeAll_clear c p
  | other x h => exact entry_write_of_other c h

/-- **Any number of operations.** -/
theorem entry_changes (c : Catalog) (changes : List CatalogChange) :
    (c.writeAll (changes.flatMap CatalogChange.writes)).entry =
      changes.foldl (fun f x => x.apply f) c.entry := by
  -- by the operations, each of which begins with the catalog that the ones before it left
  induction changes generalizing c with
  | nil => rfl
  | cons x changes ih => rw [List.flatMap_cons, writeAll_append, ih, entry_change, List.foldl_cons]

end Catalog

/-! ### Entering several procedures at once -/

namespace Catalog

/-- **Entering several procedures.** The writes are those that enter what is known of some procedures, each of
them once or more often and in any order. -/
structure Enters (calls : List (String × Entry)) (ws : List Write) : Prop where
  mem_iff : ∀ x, x ∈ ws ↔ ∃ call ∈ calls, x ∈ Write.entry call.1 call.2
  /-- No two calls are about one procedure. -/
  once : ∀ p e e', (p, e) ∈ calls → (p, e') ∈ calls → e = e'

namespace Enters

variable {calls : List (String × Entry)} {ws ws' : List Write}

section Place

variable {α : Type} {p : String} {view : Catalog → Option α} {part : Entry → Option α}

/-- What is kept for a procedure is made by the call that is about it. -/
theorem makes (h : Enters calls ws) (hplace : IsPlace p view part) {e : Entry} (he : (p, e) ∈ calls) :
    Makes view (part e) ws := by
  obtain ⟨x, hx, hmakes⟩ := (hplace.enter e).one
  refine ⟨fun y hy => ?_, x, (h.mem_iff x).2 ⟨(p, e), he, hx⟩, hmakes⟩
  -- a write of a call for this procedure is one of the same call
  obtain ⟨⟨q, e'⟩, hcall, hy⟩ := (h.mem_iff y).1 hy
  by_cases hq : q = p
  · subst hq
    obtain rfl := h.once q e e' he hcall
    exact (hplace.enter e).each y hy
  · exact .inl (hplace.other q e' hq y hy)

/-- Without such a call nobody touches it. -/
theorem leaves (h : Enters calls ws) (hplace : IsPlace p view part) (hnone : ∀ e, (p, e) ∉ calls) :
    Leaves view ws := by
  intro y hy
  obtain ⟨⟨q, e⟩, hcall, hy⟩ := (h.mem_iff y).1 hy
  have hq : q ≠ p := fun hq => hnone e (hq ▸ hcall)
  exact hplace.other q e hq y hy

/-- So it does not matter how the writes are arranged. -/
theorem view_eq (h : Enters calls ws) (h' : Enters calls ws') (hplace : IsPlace p view part) (c : Catalog) :
    view (c.writeAll ws) = view (c.writeAll ws') := by
  by_cases hcall : ∃ e, (p, e) ∈ calls
  -- either a call is about the procedure, or none is
  · obtain ⟨e, he⟩ := hcall
    exact ((h.makes hplace he).view_eq c).trans ((h'.makes hplace he).view_eq c).symm
  · have hnone : ∀ e, (p, e) ∉ calls := fun e he => hcall ⟨e, he⟩
    exact ((h.leaves hplace hnone).view_eq c).trans ((h'.leaves hplace hnone).view_eq c).symm

end Place

end Enters

/-- Entering a procedure changes only the six categories. -/
theorem categories_of_entry {q : String} {e : Entry} {x : Write} (hx : x ∈ Write.entry q e) {k : Category}
    (hk : k ∈ x.categories) : k ∈ Category.ofProcedures := by
  rcases Write.mem_entry.1 hx with ⟨a, ha, rfl⟩ | rfl
  · obtain rfl := List.mem_singleton.1 hk
    exact Category.association_mem_ofProcedures ha
  · obtain rfl := List.mem_singleton.1 hk
    decide

/-- **The order does not matter**, neither that of the calls nor that of their writes. -/
theorem Enters.writeAll_eq {calls : List (String × Entry)} {ws ws' : List Write} (h : Enters calls ws)
    (h' : Enters calls ws') (c : Catalog) : c.writeAll ws = c.writeAll ws' := by
  refine ext fun k => ?_
  -- the six are compared key by key, and the others are not written
  by_cases hk : k ∈ Category.ofProcedures
  · rcases List.mem_append.1 hk with hk | hk
    · obtain ⟨a, ha, rfl⟩ := List.mem_map.1 hk
      exact SortedMap.ext fun p => h.view_eq h' (isPlace_cell ha p) c
    · obtain rfl := List.mem_singleton.1 hk
      exact SortedMap.ext fun p => h.view_eq h' (isPlace_time p) c
  · have hother : ∀ {ws : List Write}, Enters calls ws → ∀ x ∈ ws, k ∉ x.categories := fun h x hx hkx => by
      obtain ⟨call, -, hx⟩ := (h.mem_iff x).1 hx
      exact hk (categories_of_entry hx hkx)
    exact (c.get_writeAll_of_not_mem (hother h)).trans (c.get_writeAll_of_not_mem (hother h')).symm

/-- An operation on procedures changes only the six categories. -/
theorem categories_of_procedureChange {change : ProcedureChange} {x : Write} (hx : x ∈ change.writes)
    {k : Category} (hk : k ∈ x.categories) : k ∈ Category.ofProcedures := by
  cases change with
  | enter p e => exact categories_of_entry hx hk
  | setPart a ha p s =>
    obtain rfl := List.mem_singleton.1 hx
    obtain rfl := List.mem_singleton.1 hk
    exact Category.association_mem_ofProcedures ha
  | setTime p t =>
    obtain rfl := List.mem_singleton.1 hx
    obtain rfl := List.mem_singleton.1 hk
    decide
  | replacePart a ha m =>
    obtain rfl := List.mem_singleton.1 hx
    obtain rfl := List.mem_singleton.1 hk
    exact Category.association_mem_ofProcedures ha
  | retain keep =>
    rcases Write.mem_retain.1 hx with ⟨a, ha, rfl⟩ | rfl
    · obtain rfl := List.mem_singleton.1 hk
      exact Category.association_mem_ofProcedures ha
    · obtain rfl := List.mem_singleton.1 hk
      decide

/-- **Six maps that are one.** After any operations on the empty catalog, what is known of each procedure is what
the operations make of one map, which is empty at first: entering overwrites one entry, setting a part or the time
changes one entry, replacing a part changes it in all entries, retaining resets all entries but some and clearing
resets all, and what is written to other categories changes none. Entries of different procedures may be written at
the same time: however their writes interleave, the whole catalog is as if they had been written one after the
other, in any order. And no operation on procedures changes any category but the six. -/
theorem entries_as_one_map :
    (∀ (changes : List CatalogChange) (p : String),
      (empty.writeAll (changes.flatMap CatalogChange.writes)).entry p =
        changes.foldl (fun f x => x.apply f) (fun _ => Entry.empty) p) ∧
    (∀ (c : Catalog) (calls order : List (String × Entry)) (ws : List Write), (calls.map (·.1)).Nodup →
      Interleaves ws (calls.map fun call => Write.entry call.1 call.2) → order.Perm calls →
      c.writeAll ws = c.writeAll (order.flatMap fun call => Write.entry call.1 call.2)) ∧
    ∀ (c : Catalog) (change : ProcedureChange) (k : Category), k ∉ Category.ofProcedures →
      (c.writeAll change.writes).get k = c.get k := by
  refine ⟨fun changes p => congrFun (entry_changes empty changes) p, ?_, ?_⟩
  · intro c calls order ws hnodup hws horder
    -- each procedure is entered by one call, since the procedures of the calls differ
    have honce : ∀ p e e', (p, e) ∈ calls → (p, e') ∈ calls → e = e' := fun p e e' he he' =>
      (Prod.ext_iff.1 (List.inj_on_of_nodup_map hnodup he he' rfl)).2
    have htogether : Enters calls ws := by
      refine ⟨fun x => ?_, honce⟩
      simp only [hws.mem_iff, List.mem_map, exists_exists_and_eq_and]
    have hinOrder : Enters calls (order.flatMap fun call => Write.entry call.1 call.2) := by
      refine ⟨fun x => ?_, honce⟩
      simp only [List.mem_flatMap, horder.mem_iff]
    exact htogether.writeAll_eq hinOrder c
  · intro c change k hk
    exact c.get_writeAll_of_not_mem fun x hx hkx => hk (categories_of_procedureChange hx hkx)

/-- A gauge on a mast. -/
def mastEntries : List (String × Entry) :=
  [("gauge", { Entry.empty with parents := .ofList ["mast"] }),
    ("mast", { Entry.empty with children := .ofList ["gauge"], observations := .ofList ["o1"] })]

/-- They are entered by two parties that take turns. -/
def mastLog : List (Nat × Write) :=
  ((Write.entry "gauge" { Entry.empty with parents := .ofList ["mast"] }).zip
    (Write.entry "mast" { Entry.empty with children := .ofList ["gauge"], observations := .ofList ["o1"] })).flatMap
    fun x => [(0, x.1), (1, x.2)]

/-- It is as if the mast had been entered first, and then the gauge; and the list of procedures is left alone by a
change of all parents. -/
theorem entries_as_one_map_mast :
    (mastEntries.map (·.1)).Nodup ∧
      Interleaves (mastLog.map (·.2)) (mastEntries.map fun call => Write.entry call.1 call.2) ∧
      mastEntries.reverse.Perm mastEntries ∧
      empty.writeAll (mastLog.map (·.2)) =
        empty.writeAll (mastEntries.reverse.flatMap fun call => Write.entry call.1 call.2) ∧
      Category.ids .procedures ∉ Category.ofProcedures ∧
      (empty.writeAll (ProcedureChange.replacePart .parentProcedures (by decide) .empty).writes).get
        (.ids .procedures) = SortedSet.empty := by
  have hnodup : (mastEntries.map (·.1)).Nodup := by decide
  have hlog : Interleaves (mastLog.map (·.2)) (mastEntries.map fun call => Write.entry call.1 call.2) := by
    refine ⟨mastLog, rfl, fun i => ?_⟩
    match i with
    | 0 => rfl
    | 1 => rfl
    | i + 2 => simp [mastLog, Write.entry, share, mastEntries]
  have horder : mastEntries.reverse.Perm mastEntries := List.reverse_perm _
  have hids : Category.ids .procedures ∉ Category.ofProcedures := by decide
  exact ⟨hnodup, hlog, horder, entries_as_one_map.2.1 empty mastEntries _ _ hnodup hlog horder, hids,
    entries_as_one_map.2.2 empty _ _ hids⟩

end Catalog

end SensorCatalog
