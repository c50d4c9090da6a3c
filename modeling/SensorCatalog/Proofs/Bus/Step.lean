import SensorCatalog.Bus.Dispatch
import SensorCatalog.Proofs.Course

/-!
# What happens at a bus

The log of a bus says who subscribed and unsubscribed, which changes were published, and who was told (`BusNote`). The
subscriptions on the bus can be read off it (`Dispatch.present`).

Everything that can happen is one of six acts (`Dispatch.Happens`). Each keeps the bus a view of the log, and numbers
subscriptions and publications in their order (`Dispatch.Orderly`). What a subscriber does, and how it ends, makes no
difference to this.
-/

namespace SensorCatalog

variable {α : Type}

/-- What is worth noting of a bus. -/
inductive BusNote (α : Type) where
  | subscribed (s : Subscription α)
  /-- Somebody unsubscribes a number, and is told whether there was such a subscription. -/
  | unsubscribed (id : Nat) (removed : Bool)
  | published (publication : Nat) (change : Change)
  /-- A subscriber is told the change of this publication. -/
  | told (publication : Nat) (s : Subscription α)
  /-- The subscriber that was told comes to its end. -/
  | ended (publication : Nat) (outcome : CallbackEnd)
  /-- Publishing comes to its end, with this answer. -/
  | concluded (publication delivered : Nat)

namespace BusNote

/-- The subscription that was made. -/
@[simp] def subscribed? : BusNote α → Option (Subscription α)
  | .subscribed s => some s
  | _ => none

/-- The number of the publication that begins. -/
@[simp] def published? : BusNote α → Option Nat
  | .published p _ => some p
  | _ => none

/-- The subscription that is told of this publication. -/
@[simp] def told? (p : Nat) : BusNote α → Option (Subscription α)
  | .told q s => if q = p then some s else none
  | _ => none

/-- The answer to this publication. -/
@[simp] def concluded? (p : Nat) : BusNote α → Option Nat
  | .concluded q n => if q = p then some n else none
  | _ => none

end BusNote

namespace Dispatch

/-- The note of an act. -/
def note (d : Dispatch α) (a : DispatchAct α) (_ : Dispatch α) : List (BusNote α) :=
  match a with
  | .subscribe kinds subscriber => [.subscribed ⟨d.bus.nextId, kinds, subscriber⟩]
  | .unsubscribe id => [.unsubscribed id (d.bus.contains id)]
  | .publish change => [.published d.publications change]
  | .tell =>
    match d.deliveries with
    | ⟨publication, _, _, s :: _, _⟩ :: _ => [.told publication s]
    | _ => []
  | .finish outcome => d.deliveries.head?.toList.map fun f => .ended f.publication outcome
  | .conclude => d.deliveries.head?.toList.map fun f => .concluded f.publication f.reached

/-! ### What a log says -/

/-- All subscriptions that were made. -/
def subscribed (log : List (BusNote α)) : List (Subscription α) := log.filterMap BusNote.subscribed?

/-- The numbers of all publications. -/
def published (log : List (BusNote α)) : List Nat := log.filterMap BusNote.published?

/-- The subscriptions that were told of a publication. -/
def told (p : Nat) (log : List (BusNote α)) : List (Subscription α) := log.filterMap (BusNote.told? p)

/-- The answers to a publication. -/
def concluded (p : Nat) (log : List (BusNote α)) : List Nat := log.filterMap (BusNote.concluded? p)

/-- What a note means for the subscriptions. -/
@[simp] def presentAfter (l : List (Subscription α)) : BusNote α → List (Subscription α)
  | .subscribed s => l ++ [s]
  | .unsubscribed id _ => l.filter fun s => s.id != id
  | _ => l

/-- **The subscriptions after everything in a log**: those that were made and not removed since, in their order. -/
def present (log : List (BusNote α)) : List (Subscription α) := log.foldl presentAfter []

/-- The subscriptions that a change reaches. -/
def reachedBy (change : Change) (l : List (Subscription α)) : List (Subscription α) :=
  l.filter fun s => s.kinds.has change.kind

section Log

variable (log more : List (BusNote α)) (n : BusNote α) (p : Nat)

/-- Another note brings the subscription that it tells of, if any. -/
@[simp] theorem subscribed_concat : subscribed (log ++ [n]) = subscribed log ++ n.subscribed?.toList :=
  filterMap_concat _ log n

/-- Another note brings the publication that it tells of, if any. -/
@[simp] theorem published_concat : published (log ++ [n]) = published log ++ n.published?.toList :=
  filterMap_concat _ log n

/-- Another note brings the subscription that was told, if it is of this publication. -/
@[simp] theorem told_concat : told p (log ++ [n]) = told p log ++ (n.told? p).toList := filterMap_concat _ log n

/-- Another note brings the answer, if it is of this publication. -/
@[simp] theorem concluded_concat : concluded p (log ++ [n]) = concluded p log ++ (n.concluded? p).toList :=
  filterMap_concat _ log n

/-- Another note has its effect on the subscriptions that are left. -/
@[simp] theorem present_concat : present (log ++ [n]) = presentAfter (present log) n := by
  rw [present, List.foldl_append]
  rfl

variable {log} in
/-- Only what was made can be there. -/
theorem mem_subscribed_of_present {s : Subscription α} (h : s ∈ present log) : s ∈ subscribed log := by
  -- by the notes; one that ends a subscription brings none
  induction log using List.reverseRecOn with
  | nil => cases h
  | append_singleton log n ih =>
    rw [present_concat] at h
    rw [subscribed_concat, List.mem_append]
    cases n with
    | subscribed t => exact (List.mem_append.1 h).imp ih fun ht => by simpa using ht
    | unsubscribed id removed => exact .inl (ih (List.mem_of_mem_filter h))
    | published | told | ended | concluded => exact .inl (ih h)

end Log

/-! ### What can happen -/

/-- **What can happen at a bus**, with the note of it. -/
inductive Happens (d : Dispatch α) : DispatchAct α → List (BusNote α) → Dispatch α → Prop where
  | subscribed (kinds : ChangeKinds) (subscriber : α) :
    Happens d (.subscribe kinds subscriber) [.subscribed ⟨d.bus.nextId, kinds, subscriber⟩]
      { d with bus := d.bus.subscribe kinds subscriber }
  | unsubscribed (id : Nat) :
    Happens d (.unsubscribe id) [.unsubscribed id (d.bus.contains id)] { d with bus := d.bus.unsubscribe id }
  | published (change : Change) : Happens d (.publish change) [.published d.publications change] (d.publish change)
  | told {p reached : Nat} {change : Change} {s : Subscription α} {pending : List (Subscription α)}
    {outer : List (Delivery α)} (hd : d.deliveries = ⟨p, change, reached, s :: pending, none⟩ :: outer) :
    Happens d .tell [.told p s] { d with deliveries := ⟨p, change, reached, pending, some s⟩ :: outer }
  | ended {p reached : Nat} {change : Change} {s : Subscription α} {pending : List (Subscription α)}
    {outer : List (Delivery α)} (outcome : CallbackEnd)
    (hd : d.deliveries = ⟨p, change, reached, pending, some s⟩ :: outer) :
    Happens d (.finish outcome) [.ended p outcome]
      { d with deliveries := ⟨p, change, reached, pending, none⟩ :: outer }
  | concluded {p reached : Nat} {change : Change} {outer : List (Delivery α)}
    (hd : d.deliveries = ⟨p, change, reached, [], none⟩ :: outer) :
    Happens d .conclude [.concluded p reached] { d with deliveries := outer }

variable {d u : Dispatch α} {a : DispatchAct α} {log ns : List (BusNote α)} {p : Nat}

/-- Every act is one of these. -/
theorem Happens.of_step (h : d.step a = some u) : Happens d a (d.note a u) u := by
  cases a with
  -- these three are refused unless a subscriber is at work, and then they have one outcome
  | subscribe kinds subscriber =>
    rw [step] at h
    split at h
    · cases h
      exact .subscribed kinds subscriber
    · cases h
  | unsubscribe id =>
    rw [step] at h
    split at h
    · cases h
      exact .unsubscribed id
    · cases h
  | publish change =>
    rw [step] at h
    split at h
    · cases h
      exact .published change
    · cases h
  | tell =>
    rw [step] at h
    split at h
    -- what is told, ended or concluded is read off the innermost delivery
    · rename_i hd
      cases h
      simp only [note, hd]
      exact .told hd
    · cases h
  | finish outcome =>
    rw [step] at h
    split at h
    · rename_i hd
      cases h
      simp only [note, hd]
      exact .ended outcome hd
    · cases h
  | conclude =>
    rw [step] at h
    split at h
    · rename_i hd
      cases h
      simp only [note, hd]
      exact .concluded hd
    · cases h

/-- An act is noted once at most. -/
theorem length_note_le (d : Dispatch α) (a : DispatchAct α) (u : Dispatch α) : (d.note a u).length ≤ 1 := by
  cases a with
  | subscribe | unsubscribe | publish => exact Nat.le_refl 1
  | tell =>
    rw [note]
    split
    · exact Nat.le_refl 1
    · exact Nat.zero_le 1
  | finish | conclude =>
    rw [note, List.length_map]
    cases d.deliveries.head? with
    | none => exact Nat.zero_le 1
    | some => exact Nat.le_refl 1

/-- Everything that is done with a bus since it was created, with the notes. -/
abbrev Runs (log : List (BusNote α)) (d : Dispatch α) : Prop := Course Dispatch.step Dispatch.note empty log d

/-! ### What holds between two acts -/

/-- **The bus is a view of the log.** -/
structure Orderly (d : Dispatch α) (log : List (BusNote α)) : Prop where
  table : d.bus.subscriptions = present log
  nextId : d.bus.nextId = (subscribed log).length + 1
  /-- Subscriptions are numbered in their order. -/
  ids : (subscribed log).map (·.id) = List.range' 1 (subscribed log).length
  /-- So are publications. -/
  publications : published log = List.range d.publications
  /-- Deliveries are of different publications. -/
  nodup : (d.deliveries.map (·.publication)).Nodup
  underway : ∀ f ∈ d.deliveries, f.publication < d.publications
  /-- Nothing is noted of publications that are still to come. -/
  fresh : ∀ q, d.publications ≤ q → told q log = [] ∧ concluded q log = []

/-- The empty bus after nothing. -/
theorem Orderly.empty : Orderly (empty : Dispatch α) [] :=
  ⟨rfl, rfl, rfl, rfl, .nil, nofun, fun _ _ => ⟨rfl, rfl⟩⟩

/-- An act in the innermost delivery. It concerns neither the bus nor the number of publications. -/
theorem Orderly.keep (h : d.Orderly log) {n : BusNote α} {deliveries : List (Delivery α)}
    (hn : n.subscribed? = none ∧ n.published? = none) (hpresent : presentAfter (present log) n = present log)
    (hfresh : ∀ q, d.publications ≤ q → n.told? q = none ∧ n.concluded? q = none)
    (hsub : (deliveries.map (·.publication)).Sublist (d.deliveries.map (·.publication))) :
    Orderly { d with deliveries } (log ++ [n]) where
  -- a note of none of these kinds leaves each of the lists as it is
  table := by rw [present_concat, hpresent, h.table]
  nextId := by rw [subscribed_concat, hn.1, Option.toList_none, List.append_nil, h.nextId]
  ids := by rw [subscribed_concat, hn.1, Option.toList_none, List.append_nil, h.ids]
  publications := by rw [published_concat, hn.2, Option.toList_none, List.append_nil, h.publications]
  nodup := h.nodup.sublist hsub
  underway f hf := by
    obtain ⟨g, hg, hgf⟩ := List.mem_map.1 (hsub.subset (List.mem_map_of_mem hf))
    exact hgf ▸ h.underway g hg
  fresh q hq := by
    obtain ⟨htold, hconcluded⟩ := hfresh q hq
    rw [told_concat, concluded_concat, htold, hconcluded, Option.toList_none, Option.toList_none, List.append_nil,
      List.append_nil]
    exact h.fresh q hq

/-- **One act.** -/
theorem Orderly.step (h : d.Orderly log) (hstep : Happens d a ns u) : u.Orderly (log ++ ns) := by
  -- the innermost delivery has a number that was given
  have hnumber : ∀ {f : Delivery α} {outer : List (Delivery α)}, d.deliveries = f :: outer →
      ∀ q, d.publications ≤ q → ¬ f.publication = q := by
    intro f outer hd q hq hf
    have := h.underway f (hd ▸ List.mem_cons_self)
    omega
  cases hstep with
  | subscribed kinds subscriber =>
    constructor
    case table => simp [h.table, Bus.subscribe]
    case nextId => simp [h.nextId, Bus.subscribe]
    -- the number given is the next one in the row
    case ids =>
      rw [subscribed_concat, BusNote.subscribed?, Option.toList_some, List.map_append, List.length_append, h.ids,
        List.length_singleton, List.range'_1_concat, List.map_singleton, h.nextId, Nat.add_comm]
    case publications => simpa using h.publications
    case nodup => exact h.nodup
    case underway => exact h.underway
    case fresh => simpa using h.fresh
  | unsubscribed id =>
    constructor
    case table => simp [h.table, Bus.unsubscribe]
    case nextId => simpa [Bus.unsubscribe] using h.nextId
    case ids => simpa using h.ids
    case publications => simpa using h.publications
    case nodup => exact h.nodup
    case underway => exact h.underway
    case fresh => simpa using h.fresh
  | published change =>
    constructor
    case table => simpa [publish] using h.table
    case nextId => simpa [publish] using h.nextId
    case ids => simpa using h.ids
    case publications => simp [publish, h.publications, List.range_succ]
    case nodup =>
      -- the new number is greater than those of all deliveries
      refine List.nodup_cons.2 ⟨fun hmem => ?_, h.nodup⟩
      obtain ⟨f, hf, hp⟩ := List.mem_map.1 hmem
      exact absurd hp (Nat.ne_of_lt (h.underway f hf))
    case underway =>
      intro f hf
      rcases List.mem_cons.1 hf with rfl | hf
      · exact Nat.lt_succ_self _
      · exact Nat.lt_succ_of_lt (h.underway f hf)
    case fresh =>
      intro q hq
      simpa using h.fresh q (Nat.le_of_succ_le hq)
  | told hd =>
    refine h.keep ⟨rfl, rfl⟩ rfl (fun q hq => ⟨?_, rfl⟩) (by simp [hd])
    exact if_neg (hnumber hd q hq)
  | ended outcome hd => exact h.keep ⟨rfl, rfl⟩ rfl (fun _ _ => ⟨rfl, rfl⟩) (by simp [hd])
  | concluded hd =>
    refine h.keep ⟨rfl, rfl⟩ rfl (fun q hq => ⟨rfl, ?_⟩) (by simp [hd])
    exact if_neg (hnumber hd q hq)

/-- **Whatever was done**, the bus is a view of the log. -/
theorem Runs.orderly (h : Runs log d) : d.Orderly log := by
  induction h with
  | start => exact .empty
  | act _ hstep ih => exact ih.step (.of_step hstep)

/-- Numbers are not given twice. -/
theorem Orderly.nodup_ids (h : d.Orderly log) : ((subscribed log).map (·.id)).Nodup :=
  h.ids ▸ List.nodup_range'

end Dispatch

end SensorCatalog
