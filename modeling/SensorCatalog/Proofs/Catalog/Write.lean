import SensorCatalog.Catalog.Write
import SensorCatalog.Proofs.Catalog.Hierarchy

/-!
# What writes change

A write changes the categories that `Write.categories` lists and no other, and most writes replace what a
category holds (`Write.replaces`). A list of writes may change a category again and again; `Catalog.Makes` is
about the case in which all writes that change something that is looked at agree on what it becomes. It does
not matter then in which order they come, or which writes come between them (`Catalog.Makes.view_eq`).

What is known of one procedure is written by six writes, which `Write.entry` lists. `Entry.part` is what
each of them writes, and `Write.mem_entry` takes the list apart. The categories about procedures are
written bit by bit, by all items at once. `Prunes` says of such writes that they forget all procedures but some,
whatever they enter of these. `Refreshes` says which entries they make, and `Refreshes.view_eq` what becomes of
each place that is kept for a procedure, in any order.
-/

namespace SensorCatalog

namespace Write

/-- **The categories that a write changes.** -/
def categories : Write → List Category
  | .setIds k _ | .addId k _ => [.ids k]
  | .setKey a _ _ | .replace a _ | .retainKeys a _ => [.association a]
  | .setParents _ _ | .replaceParents _ => [.parentFeatures, .childFeatures]
  | .setComponents _ => [.components]
  | .setGlobalEnvelope _ => [.globalEnvelope]
  | .setOfferingEnvelopes _ => [.offeringEnvelopes]
  | .setGlobalTime _ => [.globalTime]
  | .setOfferingTimes _ => [.offeringTimes]
  | .setProcedureTime _ _ | .retainTimes _ => [.procedureTimes]

/-- Whether a write makes its categories anew, whatever they held before. -/
def replaces : Write → Bool
  | .setIds _ _ | .replace _ _ | .replaceParents _ | .setComponents _ | .setGlobalEnvelope _
  | .setOfferingEnvelopes _ | .setGlobalTime _ | .setOfferingTimes _ => true
  | _ => false

end Write

namespace Catalog

/-- Identifiers of one kind are changed, and the others stay. -/
@[simp] theorem updateIds_ids (c : Catalog) (k j : IdCategory) (f : SortedSet → SortedSet) :
    (c.updateIds k f).ids j = if j = k then f (c.ids k) else c.ids j := rfl

/-- One association is changed, and the others stay. -/
@[simp] theorem updateAssociation_associations (c : Catalog) (a b : Association)
    (f : SortedMap SortedSet → SortedMap SortedSet) :
    (c.updateAssociation a f).associations b = if b = a then f (c.associations a) else c.associations b :=
  rfl

/-- Writes one after the other. -/
@[simp] theorem writeAll_append (c : Catalog) (ws ws' : List Write) :
    c.writeAll (ws ++ ws') = (c.writeAll ws).writeAll ws' :=
  List.foldl_append

/-- **A write leaves all other categories alone.** -/
theorem get_write_of_not_mem (c : Catalog) {x : Write} {k : Category} (h : k ∉ x.categories) :
    (c.write x).get k = c.get k := by
  cases x with
  -- these share a field with other categories of their kind
  | setIds j s | addId j s =>
    cases k with
    | ids k => simp [Write.categories] at h; simp [write, get, h]
    | _ => rfl
  | setKey a key s | replace a m | retainKeys a s =>
    cases k with
    | association k => simp [Write.categories] at h; simp [write, get, h]
    | _ => rfl
  -- each of the others has its field to itself
  | _ => cases k <;> first | rfl | simp [Write.categories] at h

/-- So do several of them. -/
theorem get_writeAll_of_not_mem (c : Catalog) {ws : List Write} {k : Category}
    (h : ∀ x ∈ ws, k ∉ x.categories) : (c.writeAll ws).get k = c.get k := by
  induction ws generalizing c with
  | nil => rfl
  | cons x ws ih =>
    rw [writeAll, List.foldl_cons, ← writeAll]
    rw [ih (c.write x) fun y hy => h y (List.mem_cons_of_mem _ hy)]
    exact c.get_write_of_not_mem (h x List.mem_cons_self)

/-- A write that makes its categories anew leaves the same, whatever was there. -/
theorem get_write_of_replaces (c d : Catalog) {x : Write} (h : x.replaces = true) {k : Category}
    (hk : k ∈ x.categories) : (c.write x).get k = (d.write x).get k := by
  cases x with
  | setIds j s =>
    cases List.mem_singleton.1 hk
    simp [write, get]
  | replace a m =>
    cases List.mem_singleton.1 hk
    simp [write, get]
  | replaceParents m =>
    rcases List.mem_pair.1 hk with rfl | rfl
    · rfl
    · rfl
  | setComponents m | setGlobalEnvelope e | setOfferingEnvelopes m | setGlobalTime t | setOfferingTimes m =>
    cases List.mem_singleton.1 hk
    rfl
  | _ => cases h

/-- **A category that is made anew** does not depend on what was there before. -/
theorem get_writeAll_of_replaces (c d : Catalog) {ws : List Write} (h : ∀ x ∈ ws, x.replaces = true)
    {k : Category} (hk : ∃ x ∈ ws, k ∈ x.categories) : (c.writeAll ws).get k = (d.writeAll ws).get k := by
  induction ws generalizing c d with
  | nil => simp at hk
  | cons x ws ih =>
    have hrest : ∀ y ∈ ws, y.replaces = true := fun y hy => h y (List.mem_cons_of_mem _ hy)
    simp only [writeAll, List.foldl_cons]
    by_cases hlater : ∃ y ∈ ws, k ∈ y.categories
    · exact ih _ _ hrest hlater
    · -- the first write is the last one that counts
      have hnot : ∀ y ∈ ws, k ∉ y.categories := fun y hy hky => hlater ⟨y, hy, hky⟩
      have hx : k ∈ x.categories := by
        obtain ⟨y, hy, hky⟩ := hk
        rcases List.mem_cons.1 hy with rfl | hy
        · exact hky
        · exact absurd hky (hnot y hy)
      have hc := (c.write x).get_writeAll_of_not_mem hnot
      have hd := (d.write x).get_writeAll_of_not_mem hnot
      exact hc.trans ((get_write_of_replaces c d (h x List.mem_cons_self) hx).trans hd.symm)

section View

variable {α : Type} {view : Catalog → α} {v : α} {ws : List Write}

/-- None of the writes changes what is looked at. -/
def Leaves (view : Catalog → α) (ws : List Write) : Prop := ∀ x ∈ ws, ∀ c : Catalog, view (c.write x) = view c

/-- **Writes that agree.** Each of them leaves alone what is looked at or makes it `v`, and one of them
makes it `v`. -/
structure Makes (view : Catalog → α) (v : α) (ws : List Write) : Prop where
  /-- Nobody makes it anything else. -/
  each : ∀ x ∈ ws, (∀ c : Catalog, view (c.write x) = view c) ∨ ∀ c : Catalog, view (c.write x) = v
  /-- Somebody makes it this. -/
  one : ∃ x ∈ ws, ∀ c : Catalog, view (c.write x) = v

/-- What no write changes stays as it is. -/
theorem Leaves.view_eq (h : Leaves view ws) (c : Catalog) : view (c.writeAll ws) = view c := by
  induction ws generalizing c with
  | nil => rfl
  | cons x ws ih =>
    rw [writeAll, List.foldl_cons, ← writeAll]
    rw [ih (fun y hy => h y (List.mem_cons_of_mem _ hy)) (c.write x)]
    exact h x List.mem_cons_self c

/-- What comes of writes that agree does not depend on their order. -/
theorem Makes.view_eq (h : Makes view v ws) (c : Catalog) : view (c.writeAll ws) = v := by
  -- once it is `v` it stays so
  have hstays : ∀ (ws' : List Write), (∀ x ∈ ws', x ∈ ws) → ∀ c : Catalog, view c = v →
      view (c.writeAll ws') = v := by
    intro ws'
    induction ws' with
    | nil => exact fun _ c hc => hc
    | cons x ws' ih =>
      intro hsub c hc
      refine ih (fun y hy => hsub y (List.mem_cons_of_mem _ hy)) (c.write x) ?_
      rcases h.each x (hsub x List.mem_cons_self) with hx | hx
      · rw [hx, hc]
      · exact hx c
  -- a write that makes it `v` ends all that went before
  obtain ⟨x, hx, hset⟩ := h.one
  obtain ⟨before, after, hws⟩ := List.append_of_mem hx
  have : c.writeAll ws = ((c.writeAll before).write x).writeAll after := by
    rw [hws, writeAll, List.foldl_append]
    rfl
  rw [this]
  exact hstays after (fun y hy => by simp [hws, hy]) _ (hset _)

end View

end Catalog

/-! ### Procedures -/

/-- What an association about procedures has for one of them. -/
def Entry.part (e : Entry) : Association → SortedSet
  | .offeringsForProcedure => e.offerings
  | .propertiesForProcedure => e.properties
  | .parentProcedures => e.parents
  | .childProcedures => e.children
  | .observationsForProcedure => e.observations
  | _ => SortedSet.empty

namespace Write

/-- Entering a procedure is a write to each association about procedures, and one to the times. -/
theorem mem_entry {p : String} {e : Entry} {x : Write} :
    x ∈ entry p e ↔
      (∃ a ∈ Association.ofProcedures, x = .setKey a p (e.part a)) ∨ x = .setProcedureTime p e.time := by
  change x ∈ Association.ofProcedures.map (fun a => .setKey a p (e.part a)) ++ [_] ↔ _
  rw [List.mem_append, List.mem_map, List.mem_singleton]
  constructor
  · rintro (⟨a, ha, rfl⟩ | h)
    · exact .inl ⟨a, ha, rfl⟩
    · exact .inr h
  · rintro (⟨a, ha, rfl⟩ | h)
    · exact .inl ⟨a, ha, rfl⟩
    · exact .inr h

/-- Retaining some procedures is a list of writes, one for each category about procedures. -/
theorem mem_retain {keep : SortedSet} {x : Write} :
    x ∈ retain keep ↔ (∃ a ∈ Association.ofProcedures, x = .retainKeys a keep) ∨ x = .retainTimes keep := by
  rw [retain, List.mem_append, List.mem_map, List.mem_singleton]
  constructor
  · rintro (⟨a, ha, rfl⟩ | h)
    · exact .inl ⟨a, ha, rfl⟩
    · exact .inr h
  · rintro (⟨a, ha, rfl⟩ | h)
    · exact .inl ⟨a, ha, rfl⟩
    · exact .inr h

end Write

/-! ### Places that are kept for procedures -/

/-- **The six categories whose keys are procedures.** -/
def Category.ofProcedures : List Category := Association.ofProcedures.map .association ++ [.procedureTimes]

namespace Catalog

/-- What an association has at a key. -/
def cell (a : Association) (p : String) (c : Catalog) : Option SortedSet := (c.associations a).get? p

/-- What the times of procedures have at a key. -/
def time (p : String) (c : Catalog) : Option Period := c.procedureTimes.get? p

/-- Retaining keys changes one association, and in it the cells of those that are not kept. -/
theorem cell_write_retainKeys (a b : Association) (p : String) (keep : SortedSet) (c : Catalog) :
    cell a p (c.write (.retainKeys b keep)) = if b = a ∧ p ∉ keep then none else cell a p c := by
  by_cases hab : b = a
  · subst hab
    by_cases hp : p ∈ keep <;> cases hc : (c.associations b).get? p <;>
      simp [cell, write, SortedMap.get?_filter, hp, hc]
  · simp [cell, write, hab, Ne.symm hab]

/-- Setting a key changes one cell. -/
theorem cell_write_setKey (a b : Association) (p q : String) (s : SortedSet) (c : Catalog) :
    cell a p (c.write (.setKey b q s)) = if b = a ∧ q = p then entryOf s else cell a p c := by
  by_cases hab : b = a
  · subst hab
    by_cases hp : p = q
    · simp [cell, write, get?_putSet, hp]
    · simp [cell, write, get?_putSet, hp, Ne.symm hp]
  · simp [cell, write, hab, Ne.symm hab]

/-- Retaining times changes those of procedures that are not kept. -/
theorem time_write_retainTimes (p : String) (keep : SortedSet) (c : Catalog) :
    time p (c.write (.retainTimes keep)) = if p ∉ keep then none else time p c := by
  by_cases hp : p ∈ keep <;> cases hc : c.procedureTimes.get? p <;>
    simp [time, write, SortedMap.get?_filter, hp, hc]

theorem time_write_setProcedureTime (p q : String) (t : Option Period) (c : Catalog) :
    time p (c.write (.setProcedureTime q t)) = if q = p then t else time p c := by
  by_cases hp : p = q
  · simp [time, write, SortedMap.get?_alter, hp]
  · simp [time, write, SortedMap.get?_alter, hp, Ne.symm hp]

/-- **A place that is kept for a procedure.** Entering what is known of the procedure puts a part of it
there, forgetting the procedure empties it, and nothing that is done for other procedures changes it. -/
structure IsPlace {α : Type} (p : String) (view : Catalog → Option α) (part : Entry → Option α) : Prop where
  /-- It does not matter which procedures there are. -/
  setIds : ∀ s, Leaves view [.setIds .procedures s]
  /-- The procedure is kept. -/
  keep : ∀ s, p ∈ s → Leaves view (Write.retain s)
  /-- The procedure is forgotten. -/
  forget : ∀ s, p ∉ s → Makes view none (Write.retain s)
  /-- Another procedure is entered. -/
  other : ∀ q e, q ≠ p → Leaves view (Write.entry q e)
  /-- The procedure is entered. -/
  enter : ∀ e, Makes view (part e) (Write.entry p e)

/-- A cell of an association about procedures is such a place. -/
theorem isPlace_cell {a : Association} (ha : a ∈ Association.ofProcedures) (p : String) :
    IsPlace p (cell a p) fun e => entryOf (e.part a) where
  setIds s x hx c := by
    rw [List.mem_singleton.1 hx]
    rfl
  keep s hp x hx c := by
    rcases Write.mem_retain.1 hx with ⟨b, -, rfl⟩ | rfl
    · rw [cell_write_retainKeys, if_neg fun hb => hb.2 hp]
    · rfl
  forget s hp := by
    refine ⟨fun x hx => ?_, _, Write.mem_retain.2 (.inl ⟨a, ha, rfl⟩), fun c => ?_⟩
    · rcases Write.mem_retain.1 hx with ⟨b, -, rfl⟩ | rfl
      · -- only the write to this very association counts
        by_cases hb : b = a
        · exact .inr fun c => by rw [cell_write_retainKeys, if_pos ⟨hb, hp⟩]
        · exact .inl fun c => by rw [cell_write_retainKeys, if_neg fun h => hb h.1]
      · exact .inl fun c => rfl
    · rw [cell_write_retainKeys, if_pos ⟨rfl, hp⟩]
  other q e hq x hx c := by
    rcases Write.mem_entry.1 hx with ⟨b, -, rfl⟩ | rfl
    · rw [cell_write_setKey, if_neg fun h => hq h.2]
    · rfl
  enter e := by
    refine ⟨fun x hx => ?_, _, Write.mem_entry.2 (.inl ⟨a, ha, rfl⟩), fun c => ?_⟩
    · rcases Write.mem_entry.1 hx with ⟨b, -, rfl⟩ | rfl
      · by_cases hb : b = a
        · subst hb
          exact .inr fun c => by rw [cell_write_setKey, if_pos ⟨rfl, rfl⟩]
        · exact .inl fun c => by rw [cell_write_setKey, if_neg fun h => hb h.1]
      · exact .inl fun c => rfl
    · rw [cell_write_setKey, if_pos ⟨rfl, rfl⟩]

/-- So is the time of a procedure. -/
theorem isPlace_time (p : String) : IsPlace p (time p) fun e => e.time where
  setIds s x hx c := by
    rw [List.mem_singleton.1 hx]
    rfl
  keep s hp x hx c := by
    rcases Write.mem_retain.1 hx with ⟨b, -, rfl⟩ | rfl
    · rfl
    · rw [time_write_retainTimes, if_neg fun h => h hp]
  forget s hp := by
    refine ⟨fun x hx => ?_, _, Write.mem_retain.2 (.inr rfl), fun c => ?_⟩
    · rcases Write.mem_retain.1 hx with ⟨b, -, rfl⟩ | rfl
      · exact .inl fun c => rfl
      · exact .inr fun c => by rw [time_write_retainTimes, if_pos hp]
    · rw [time_write_retainTimes, if_pos hp]
  other q e hq x hx c := by
    rcases Write.mem_entry.1 hx with ⟨b, -, rfl⟩ | rfl
    · rfl
    · rw [time_write_setProcedureTime, if_neg hq]
  enter e := by
    refine ⟨fun x hx => ?_, _, Write.mem_entry.2 (.inr rfl), fun c => ?_⟩
    · rcases Write.mem_entry.1 hx with ⟨b, -, rfl⟩ | rfl
      · exact .inl fun c => rfl
      -- only the write to the times counts
      · exact .inr fun c => by rw [time_write_setProcedureTime, if_pos rfl]
    · rw [time_write_setProcedureTime, if_pos rfl]

end Catalog

/-- **Pruning the procedures.** The writes set the procedures to those in `keep`, forget all others, and
enter something of some of them, in any order. -/
structure Prunes (keep : SortedSet) (ws : List Write) : Prop where
  /-- There are no other writes. -/
  only : ∀ x ∈ ws, x = .setIds .procedures keep ∨ x ∈ Write.retain keep ∨
    ∃ p ∈ keep, ∃ e, x ∈ Write.entry p e
  /-- The procedures are set. -/
  sets : .setIds .procedures keep ∈ ws
  /-- All others are forgotten. -/
  retains : ∀ x ∈ Write.retain keep, x ∈ ws

namespace Prunes

variable {keep : SortedSet} {ws : List Write}

/-- The procedures are set by one of these writes, and no other one touches them. -/
theorem makes_ids (h : Prunes keep ws) : Catalog.Makes (fun c => c.ids .procedures) keep ws := by
  -- of all these writes only one is about identifiers
  refine ⟨fun x hx => ?_, _, h.sets, fun c => rfl⟩
  rcases h.only x hx with rfl | hx | ⟨p, -, e, hx⟩
  · exact .inr fun c => rfl
  · rcases Write.mem_retain.1 hx with ⟨a, -, rfl⟩ | rfl
    · exact .inl fun c => rfl
    · exact .inl fun c => rfl
  · rcases Write.mem_entry.1 hx with ⟨a, -, rfl⟩ | rfl
    · exact .inl fun c => rfl
    · exact .inl fun c => rfl

/-- So the procedures are those that are kept. -/
theorem ids_eq (h : Prunes keep ws) (c : Catalog) : (c.writeAll ws).ids .procedures = keep :=
  h.makes_ids.view_eq c

/-- A procedure that is gone is forgotten, and nobody enters it. -/
theorem makes_none (h : Prunes keep ws) {α : Type} {p : String} {view : Catalog → Option α}
    {part : Entry → Option α} (hplace : Catalog.IsPlace p view part) (hp : p ∉ keep) :
    Catalog.Makes view none ws := by
  obtain ⟨x, hx, hmakes⟩ := (hplace.forget keep hp).one
  refine ⟨fun y hy => ?_, x, h.retains x hx, hmakes⟩
  rcases h.only y hy with rfl | hy | ⟨q, hq, e, hy⟩
  · exact .inl (hplace.setIds keep _ List.mem_cons_self)
  · exact (hplace.forget keep hp).each y hy
  · exact .inl (hplace.other q e (fun hqp => hp (hqp ▸ hq)) y hy)

end Prunes

/-- **What becomes of a place** that is kept for a procedure when the procedures are refreshed: what was found
if something was found, what was there before if nothing was found, and nothing if the procedure is gone. -/
def refreshed {α : Type} (keep : SortedSet) (found : String → Option Entry) (p : String)
    (part : Entry → Option α) (v : Option α) : Option α :=
  if p ∈ keep then
    match found p with
    | some e => part e
    | none => v
  else none

/-- A second time nothing changes. -/
theorem refreshed_refreshed {α : Type} (keep : SortedSet) (found : String → Option Entry) (p : String)
    (part : Entry → Option α) (v : Option α) :
    refreshed keep found p part (refreshed keep found p part v) = refreshed keep found p part v := by
  simp only [refreshed]
  by_cases hp : p ∈ keep
  · cases found p with
    | some e => rfl
    | none => simp only [if_pos hp]
  · simp only [if_neg hp]

/-- **Refreshing the procedures.** The writes set the procedures to those in `keep`, forget all others, and
enter what was found of each of them, in any order. -/
structure Refreshes (keep : SortedSet) (found : String → Option Entry) (ws : List Write) : Prop where
  /-- There are no other writes. -/
  only : ∀ x ∈ ws, x = .setIds .procedures keep ∨ x ∈ Write.retain keep ∨
    ∃ p ∈ keep, ∃ e, found p = some e ∧ x ∈ Write.entry p e
  /-- The procedures are set. -/
  sets : .setIds .procedures keep ∈ ws
  /-- All others are forgotten. -/
  retains : ∀ x ∈ Write.retain keep, x ∈ ws
  /-- What was found is entered. -/
  enters : ∀ p ∈ keep, ∀ e, found p = some e → ∀ x ∈ Write.entry p e, x ∈ ws

namespace Refreshes

variable {keep : SortedSet} {found : String → Option Entry} {ws : List Write}

/-- Refreshing is pruning, with more said of what is entered. -/
theorem prunes (h : Refreshes keep found ws) : Prunes keep ws where
  only x hx := (h.only x hx).imp_right (.imp_right fun ⟨p, hp, e, _, hx⟩ => ⟨p, hp, e, hx⟩)
  sets := h.sets
  retains := h.retains

section Place

variable {α : Type} {p : String} {view : Catalog → Option α} {part : Entry → Option α}

/-- Of a procedure of which something was found, all writes that touch the place are those of its entry. -/
theorem makes_part (h : Refreshes keep found ws) (hplace : Catalog.IsPlace p view part) (hp : p ∈ keep)
    {e : Entry} (he : found p = some e) : Catalog.Makes view (part e) ws := by
  obtain ⟨x, hx, hmakes⟩ := (hplace.enter e).one
  refine ⟨fun y hy => ?_, x, h.enters p hp e he x hx, hmakes⟩
  rcases h.only y hy with rfl | hy | ⟨q, -, e', he', hy⟩
  · exact .inl (hplace.setIds keep _ List.mem_cons_self)
  · exact .inl (hplace.keep keep hp y hy)
  · by_cases hq : q = p
    · subst hq
      rw [he] at he'
      cases he'
      exact (hplace.enter e).each y hy
    · exact .inl (hplace.other q e' hq y hy)

/-- Of a procedure of which nothing was found, nobody touches the place. -/
theorem leaves (h : Refreshes keep found ws) (hplace : Catalog.IsPlace p view part) (hp : p ∈ keep)
    (hnone : found p = none) : Catalog.Leaves view ws := by
  intro y hy
  rcases h.only y hy with rfl | hy | ⟨q, -, e', he', hy⟩
  · exact hplace.setIds keep _ List.mem_cons_self
  · exact hplace.keep keep hp y hy
  · have hq : q ≠ p := fun hq => by rw [hq, hnone] at he'; cases he'
    exact hplace.other q e' hq y hy

/-- **What is kept for a procedure** after the procedures were refreshed. -/
theorem view_eq (h : Refreshes keep found ws) (hplace : Catalog.IsPlace p view part) (c : Catalog) :
    view (c.writeAll ws) = refreshed keep found p part (view c) := by
  rw [refreshed]
  by_cases hp : p ∈ keep
  · rw [if_pos hp]
    cases hfound : found p with
    | some e => exact (h.makes_part hplace hp hfound).view_eq c
    | none => exact (h.leaves hplace hp hfound).view_eq c
  · rw [if_neg hp]
    exact (h.prunes.makes_none hplace hp).view_eq c

end Place

end Refreshes

end SensorCatalog
