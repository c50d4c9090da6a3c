import SensorCatalog.Proofs.Catalog.Write
import SensorCatalog.Proofs.Rebuild.Step

/-!
# How often a rebuild changes what is looked at

While a rebuild goes on, others read the catalog. What one of them looks at, a category or the entry of one
procedure, is given by `view`. How often it changes is known before the rebuild begins, whatever order its items
move in and whatever backends they meet: `Run.AtMost` gives a rebuild a number of changes, and each write of
what is looked at costs one of them.

The definition follows a rebuild down to its single writes. The steps that are to come share the number among
them (`Allots`), and so do the items of work that is done side by side: for an item that has none, its writes
leave alone what is looked at, whenever it moves.

`Run.AtMost.step` is the step lemma. `Catalog.Spends` relates the catalogs before and after: what is looked at is
as before, or one change less is left. So a rebuild that has one change to make shows the old value until it makes
it, and the last value from then on.
-/

namespace SensorCatalog

variable {α β γ : Type}

/-! ### Sharing a number -/

/-- **Allotments.** Each member of a list gets a number, and together these are at most `n`. -/
def Allots (P : β → Nat → Prop) : List β → Nat → Prop
  | [], _ => True
  | a :: l, n => ∃ k m, P a k ∧ Allots P l m ∧ k + m ≤ n

section Allots

variable {P : β → Nat → Prop}

/-- Where nobody has a change to make, none is needed. -/
theorem Allots.zero {l : List β} (h : ∀ a ∈ l, P a 0) : Allots P l 0 := by
  induction l with
  | nil => trivial
  | cons a l ih =>
    have hl := ih fun b hb => h b (List.mem_cons_of_mem _ hb)
    exact ⟨0, 0, h a List.mem_cons_self, hl, le_refl 0⟩

/-- **One for the member with some key**, and nothing for the others, where no two members have the same key. -/
theorem Allots.one {key : β → String} {x : String} {l : List β} (hnodup : (l.map key).Nodup)
    (hown : ∀ a ∈ l, key a = x → P a 1) (hother : ∀ a ∈ l, key a ≠ x → P a 0) : Allots P l 1 := by
  induction l with
  | nil => trivial
  | cons a l ih =>
    rw [List.map_cons, List.nodup_cons] at hnodup
    obtain ⟨hnew, hnodup⟩ := hnodup
    have hother' : ∀ b ∈ l, key b ≠ x → P b 0 := fun b hb => hother b (List.mem_cons_of_mem _ hb)
    by_cases ha : key a = x
    · -- no other member has this key
      have hl : ∀ b ∈ l, P b 0 := fun b hb => hother' b hb fun hbx =>
        hnew (List.mem_map.2 ⟨b, hb, hbx.trans ha.symm⟩)
      exact ⟨1, 0, hown a List.mem_cons_self ha, Allots.zero hl, le_refl 1⟩
    · have hl := ih hnodup (fun b hb => hown b (List.mem_cons_of_mem _ hb)) hother'
      exact ⟨0, 1, hother a List.mem_cons_self ha, hl, le_refl 1⟩

/-- Members that need less can be allotted the same. -/
theorem Allots.imp {Q : β → Nat → Prop} (hPQ : ∀ a k, P a k → Q a k) {l : List β} {n : Nat} (h : Allots P l n) :
    Allots Q l n := by
  induction l generalizing n with
  | nil => trivial
  | cons a l ih =>
    obtain ⟨k, m, ha, hl, hle⟩ := h
    exact ⟨k, m, hPQ a k ha, ih hl, hle⟩

/-- What is allotted to the images is allotted to the members. -/
theorem Allots.map {f : γ → β} {l : List γ} {n : Nat} (h : Allots (fun a => P (f a)) l n) :
    Allots P (l.map f) n := by
  induction l generalizing n with
  | nil => trivial
  | cons a l ih =>
    obtain ⟨k, m, ha, hl, hle⟩ := h
    exact ⟨k, m, ha, ih hl, hle⟩

/-- A change of one member, for which some of what the member has may be used up. -/
theorem Allots.set {l : List β} {i n : Nat} {a b : β} {q : Prop} (h : Allots P l n) (hi : l[i]? = some a)
    (hab : ∀ k, P a k → ∃ k', P b k' ∧ k' ≤ k ∧ (q ∨ k' < k)) :
    ∃ n', Allots P (l.set i b) n' ∧ n' ≤ n ∧ (q ∨ n' < n) := by
  -- along the list, up to the member that changes
  induction l generalizing i n with
  | nil => cases hi
  | cons c l ih =>
    obtain ⟨k, m, hc, hl, hle⟩ := h
    cases i with
    | zero =>
      cases hi
      obtain ⟨k', hb, hk', hless⟩ := hab k hc
      refine ⟨k' + m, ⟨k', m, hb, hl, le_refl _⟩, by omega, ?_⟩
      exact hless.imp_right fun hlt => by omega
    | succ i =>
      obtain ⟨m', hl', hm', hless⟩ := ih hl hi
      refine ⟨k + m', ⟨k, m', hc, hl', le_refl _⟩, by omega, ?_⟩
      exact hless.imp_right fun hlt => by omega

end Allots

/-! ### Writes -/

namespace Catalog

variable {view : Catalog → α} {c d e : Catalog} {ws : List Write} {n m k : Nat}

/-- **From one catalog to another** the number of changes that are left falls from `n` to `m`. As long as it does
not fall, what is looked at stays the same. -/
structure Spends (view : Catalog → α) (c d : Catalog) (n m : Nat) : Prop where
  /-- None is won. -/
  le : m ≤ n
  /-- A change is paid for. -/
  same_or_less : view d = view c ∨ m < n

/-- Nothing is spent where nothing changes. -/
theorem Spends.refl (view : Catalog → α) (c : Catalog) (n : Nat) : Spends view c c n n := ⟨le_refl n, .inl rfl⟩

/-- Nothing is written, so it does not matter that some changes are given up. -/
theorem Spends.of_le (h : m ≤ n) (hsame : d = c) : Spends view c d n m := ⟨h, .inl (hsame ▸ rfl)⟩

/-- What is spent in two parts is spent in all. -/
theorem Spends.trans (h : Spends view c d n m) (h' : Spends view d e m k) : Spends view c e n k := by
  refine ⟨h'.le.trans h.le, ?_⟩
  rcases h.same_or_less with hsame | hless
  · rcases h'.same_or_less with hsame' | hless'
    · exact .inl (hsame'.trans hsame)
    · exact .inr (hless'.trans_le h.le)
  · exact .inr (h'.le.trans_lt hless)

/-- **Writes that change what is looked at so many times at most.** -/
def Within (view : Catalog → α) : List Write → Nat → Prop
  | [], _ => True
  | x :: ws, n => (Leaves view [x] ∧ Within view ws n) ∨ ∃ m < n, Within view ws m

/-- Writes that leave the view alone are within every number. -/
theorem Leaves.within (h : Leaves view ws) (n : Nat) : Within view ws n := by
  induction ws with
  | nil => trivial
  | cons x ws ih =>
    refine .inl ⟨fun y hy => h y (List.mem_singleton.1 hy ▸ List.mem_cons_self), ?_⟩
    exact ih fun y hy => h y (List.mem_cons_of_mem _ hy)

/-- Somebody looks at one category only. -/
def Reads (k : Category) (view : Catalog → α) : Prop := ∀ c d : Catalog, d.get k = c.get k → view d = view c

/-- A view of one category is left alone by writes to others. -/
theorem Reads.leaves {k : Category} (h : Reads k view) (hws : ∀ x ∈ ws, k ∉ x.categories) : Leaves view ws :=
  fun x hx c => h c (c.write x) (c.get_write_of_not_mem (hws x hx))

/-- Among writes of different categories one at most is a write of the category that is looked at. -/
theorem Reads.within_one {k : Category} (h : Reads k view) (hws : (ws.flatMap Write.categories).Nodup) :
    Within view ws 1 := by
  induction ws with
  | nil => trivial
  | cons x ws ih =>
    rw [List.flatMap_cons, List.nodup_append] at hws
    obtain ⟨-, hrest, hdisjoint⟩ := hws
    by_cases hx : k ∈ x.categories
    · -- this is the one
      have hleaves : Leaves view ws := h.leaves fun y hy hky =>
        hdisjoint k hx k (List.mem_flatMap.2 ⟨y, hy, hky⟩) rfl
      exact .inr ⟨0, Nat.zero_lt_one, hleaves.within 0⟩
    · have hleaves : Leaves view [x] := h.leaves fun y hy => List.mem_singleton.1 hy ▸ hx
      exact .inl ⟨hleaves, ih hrest⟩

end Catalog

open Catalog (Leaves Spends Within)

section AtMost

variable {B : Backend → Prop} {view : Catalog → α} {b : Backend} {w w' : World} {n m : Nat}

/-- A write that is carried out leaves alone what is looked at, or it costs one change. -/
theorem World.spends_write {x : Write} {P : Nat → Prop}
    (h : (Leaves view [x] ∧ P n) ∨ ∃ m < n, P m) :
    ∃ n', P n' ∧ Spends view w.catalog (w.write x).catalog n n' := by
  rcases h with ⟨hleaves, hn⟩ | ⟨m, hlt, hm⟩
  · exact ⟨n, hn, le_refl n, .inl (hleaves x List.mem_cons_self w.catalog)⟩
  · exact ⟨m, hm, hlt.le, .inr hlt⟩

/-! ### Items -/

/-- **Work that changes what is looked at so many times at most**, whatever backends it meets. -/
def Work.AtMost (B : Backend → Prop) (view : Catalog → α) : Work → Nat → Prop
  | .done, _ | .fail _, _ | .panic _, _ => True
  | .query q next, n => ∀ b, B b → (next (b.answers q)).AtMost B view n
  | .write x next, n => (Leaves view [x] ∧ next.AtMost B view n) ∨ ∃ m < n, next.AtMost B view m

/-- Work that only writes makes at most the changes of its writes. -/
theorem Work.atMost_writes {ws : List Write} (h : Within view ws n) : (Work.writes ws).AtMost B view n := by
  induction ws generalizing n with
  | nil => trivial
  | cons x ws ih =>
    rcases h with ⟨hleaves, hn⟩ | ⟨m, hlt, hm⟩
    · exact .inl ⟨hleaves, ih hn⟩
    · exact .inr ⟨m, hlt, ih hm⟩

/-- Work that reads first and then writes has the changes of its writes to make. -/
theorem Work.atMost_ofReading {r : Reading (List Write)} (h : ∀ ws, r.Comes B (.ok ws) → Within view ws n) :
    (Work.ofReading r).AtMost B view n := by
  induction r with
  | done ws => exact Work.atMost_writes (h ws .done)
  | ask q next ih =>
    rw [Work.ofReading, Work.AtMost]
    intro b hb
    -- without an answer the work is over
    cases hq : b.answers q with
    | ok v => exact ih v fun ws hws => h ws (.answered hb hq hws)
    | fault f => trivial
    | panic p => trivial

/-- What the item that is in this phase may still change. -/
def ItemPhase.AtMost (B : Backend → Prop) (view : Catalog → α) (work : Work) : ItemPhase → Nat → Prop
  | .waiting, n => work.AtMost B view n
  | .working rest, n => rest.AtMost B view n
  | _, _ => True

/-- An act of an item pays for what it changes. -/
theorem ItemPhase.AtMost.step {procedure : String} {work : Work} {phase phase' : ItemPhase}
    {effect : ItemEffect} (h : phase.AtMost B view work n) (hb : B b)
    (hadv : Advance b procedure work w phase phase' w' effect) :
    ∃ n', phase'.AtMost B view work n' ∧ Spends view w.catalog w'.catalog n n' := by
  cases hadv with
  | wrote => exact World.spends_write h
  | asked => exact ⟨n, h b hb, .refl _ _ _⟩
  | opened ho => exact ⟨n, h, .refl _ _ _⟩
  | refused ho hno => exact ⟨n, trivial, .refl _ _ _⟩
  -- from here on nothing is written
  | ended hend => exact ⟨n, trivial, .refl _ _ _⟩
  | closed => exact ⟨n, trivial, .refl _ _ _⟩
  | reported => exact ⟨n, trivial, .refl _ _ _⟩
  | left => exact ⟨n, trivial, .refl _ _ _⟩

/-- The items of work that is done side by side share the changes that they may make. -/
def FanOut.AtMost (B : Backend → Prop) (view : Catalog → α) (f : FanOut) (n : Nat) : Prop :=
  Allots (fun item k => item.phase.AtMost B view (f.work item.procedure) k) f.items n

/-- At first all items have their work before them. -/
theorem FanOut.atMost_start {procedures : List String} {work : String → Work}
    (h : Allots (fun p => (work p).AtMost B view) procedures n) (threads : Nat) :
    (FanOut.start threads procedures work).AtMost B view n :=
  Allots.map h

/-- An act of the fan-out is that of one item, and the others keep what they have. -/
theorem FanOut.AtMost.step {f f' : FanOut} {i : Nat} {e e' : Collector} (h : f.AtMost B view n) (hb : B b)
    (hstep : f.step b i e w = some (f', e', w')) :
    ∃ n', f'.AtMost B view n' ∧ Spends view w.catalog w'.catalog n n' := by
  obtain ⟨item, phase, effect, hitem, -, hadv, rfl, -⟩ := FanOut.step_cases hstep
  -- only the item that moves spends anything
  have hset := Allots.set (b := { item with phase := phase })
    (q := view w'.catalog = view w.catalog) h hitem fun k hk => ?_
  · obtain ⟨n', hn', hle, hless⟩ := hset
    exact ⟨n', hn', hle, hless⟩
  · obtain ⟨k', hk', hspends⟩ := ItemPhase.AtMost.step hk hb hadv
    exact ⟨k', hk', hspends.le, hspends.same_or_less⟩

/-! ### Steps -/

/-- **A program that changes what is looked at so many times at most**, whatever backends it meets. Work that is
done side by side shares the number with what comes after it. -/
def Program.AtMost (B : Backend → Prop) (view : Catalog → α) : Program → Nat → Prop
  | .done, _ | .fail _, _ | .panic _, _ => True
  | .query q next, n => ∀ b, B b → (next (b.answers q)).AtMost B view n
  | .write x next, n => (Leaves view [x] ∧ next.AtMost B view n) ∨ ∃ m < n, next.AtMost B view m
  | .report _ next, n | .edit _ next, n | .arrive next, n | .pass next, n => next.AtMost B view n
  | .fanOut _ procedures work next, n =>
    ∃ k m, Allots (fun p => (work p).AtMost B view) procedures k ∧ next.AtMost B view m ∧ k + m ≤ n

/-- The end of a program changes nothing. -/
theorem Program.AtMost.done (n : Nat) : Program.done.AtMost B view n := trivial

/-- It does no harm to have more changes to make. -/
theorem Program.AtMost.mono {p : Program} (h : p.AtMost B view n) (hle : n ≤ m) : p.AtMost B view m := by
  induction p generalizing n m with
  | done | fail f | panic x => trivial
  | query q next ih => exact fun b hb => ih _ (h b hb) hle
  | report f next ih | edit x next ih | arrive next ih | pass next ih => exact ih h hle
  | write x next ih =>
    rcases h with ⟨hleaves, hn⟩ | ⟨k, hlt, hk⟩
    · exact .inl ⟨hleaves, ih hn hle⟩
    · exact .inr ⟨k, hlt.trans_le hle, hk⟩
  | fanOut threads procedures work next ih =>
    obtain ⟨j, k, hj, hk, hsum⟩ := h
    exact ⟨j, k, hj, hk, hsum.trans hle⟩

/-- Writes add their changes to those of what comes after them. -/
theorem Program.atMost_writes {ws : List Write} {next : Program} (h : Within view ws m)
    (hnext : next.AtMost B view n) : (Program.writes next ws).AtMost B view (m + n) := by
  induction ws generalizing m with
  | nil => exact hnext.mono (Nat.le_add_left n m)
  | cons x ws ih =>
    rcases h with ⟨hleaves, hm⟩ | ⟨k, hlt, hk⟩
    · exact .inl ⟨hleaves, ih hm⟩
    · exact .inr ⟨k + n, Nat.add_lt_add_right hlt n, ih hk⟩

/-- A program that reads first has the changes to make that come after its reading. -/
theorem Program.atMost_reading {next : β → Program} {r : Reading β}
    (h : ∀ a, r.Comes B (.ok a) → (next a).AtMost B view n) : (Program.reading next r).AtMost B view n := by
  -- along the reading, and only an answer leads on
  induction r with
  | done a => exact h a .done
  | ask q cont ih =>
    rw [Program.reading, Program.AtMost]
    intro b hb
    cases hq : b.answers q with
    | ok v => exact ih v fun a ha => h a (.answered hb hq ha)
    | fault f => trivial
    | panic p => trivial

/-- An act of a program pays for what it changes. -/
theorem Program.AtMost.step {p rest : Program} {ws : List Write} {fs : List Fault} (h : p.AtMost B view n)
    (hb : B b) (hadv : p.Advance b w rest ws fs w') :
    ∃ n', rest.AtMost B view n' ∧ Spends view w.catalog w'.catalog n n' := by
  cases hadv with
  | write => exact World.spends_write h
  | query => exact ⟨n, h b hb, .refl _ _ _⟩
  -- these acts leave the catalog as it is
  | report | edit | arrive | pass hopen => exact ⟨n, h, .refl _ _ _⟩

/-! ### Rebuilds -/

/-- What the steps that are to come may still change. -/
def stepsAtMost (B : Backend → Prop) (view : Catalog → α) (todo : List Step) (n : Nat) : Prop :=
  Allots (fun s => s.program.AtMost B view) todo n

namespace Run

variable {r r' : Run}

/-- **A rebuild that changes what is looked at so many times at most**, from now on. -/
def AtMost (B : Backend → Prop) (view : Catalog → α) (r : Run) (n : Nat) : Prop :=
  match r.phase with
  | .opening => stepsAtMost B view r.steps n
  | .between todo => stepsAtMost B view todo n
  | .executing _ rest todo => ∃ k m, rest.AtMost B view k ∧ stepsAtMost B view todo m ∧ k + m ≤ n
  | .joining _ f next todo =>
    ∃ j k m, f.AtMost B view j ∧ next.AtMost B view k ∧ stepsAtMost B view todo m ∧ j + k + m ≤ n
  | .closing | .reporting | .finished _ => True

/-- **Each act pays for what it changes**, whoever moves and whatever backend he meets. -/
theorem AtMost.step {a : Actor} (h : r.AtMost B view n) (hb : B b) (hstep : r.step b w a = some (r', w')) :
    ∃ n', r'.AtMost B view n' ∧ Spends view w.catalog w'.catalog n n' := by
  unfold AtMost at h
  cases Happens.of_step hstep with
  | opened hphase ho =>
    rw [hphase] at h
    exact ⟨n, h, .refl _ _ _⟩
  | refused hphase ho => exact ⟨n, trivial, .refl _ _ _⟩
  | begun hphase =>
    -- the number of the next step is taken out of what the steps have together
    rw [hphase] at h
    exact ⟨n, h, .refl _ _ _⟩
  | through hphase => exact ⟨n, trivial, .refl _ _ _⟩
  | went hphase hadv =>
    rw [hphase] at h
    obtain ⟨k, m, hrest, htodo, hle⟩ := h
    obtain ⟨k', hrest', hspends⟩ := hrest.step hb hadv
    have := hspends.le
    refine ⟨k' + m, ⟨k', m, hrest', htodo, le_refl _⟩, by omega, ?_⟩
    exact hspends.same_or_less.imp_right fun hless => by omega
  | ended hphase hend =>
    -- what the step has not used is given up
    rw [hphase] at h
    obtain ⟨k, m, -, htodo, hle⟩ := h
    exact ⟨m, htodo, .of_le (by omega) rfl⟩
  | @spread name threads procedures work next todo hphase =>
    rw [hphase] at h
    obtain ⟨k, m, ⟨j, k', hitems, hnext, hsum⟩, htodo, hle⟩ := h
    have hf := FanOut.atMost_start hitems threads
    exact ⟨n, ⟨j, k', m, hf, hnext, htodo, by omega⟩, .refl _ _ _⟩
  | itemMoved hphase hitem =>
    rw [hphase] at h
    obtain ⟨j, k, m, hf, hnext, htodo, hle⟩ := h
    obtain ⟨j', hf', hspends⟩ := hf.step hb hitem
    have := hspends.le
    refine ⟨j' + k + m, ⟨j', k, m, hf', hnext, htodo, le_refl _⟩, by omega, ?_⟩
    exact hspends.same_or_less.imp_right fun hless => by omega
  | joined hphase hover =>
    rw [hphase] at h
    obtain ⟨j, k, m, -, hnext, htodo, hle⟩ := h
    exact ⟨k + m, ⟨k, m, hnext, htodo, le_refl _⟩, .of_le (by omega) rfl⟩
  | closed hphase => exact ⟨n, trivial, .refl _ _ _⟩
  | reported hphase => exact ⟨n, trivial, .refl _ _ _⟩

end Run

end AtMost

end SensorCatalog
