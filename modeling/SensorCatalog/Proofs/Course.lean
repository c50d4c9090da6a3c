import Mathlib

/-!
# Courses and interleavings

Everything that several threads do together is given by a function `step : σ → α → Option σ`, one act at
a time. A `Course` is a list of such acts, and it keeps a log: `note` says what is worth noting of an act,
given the states before and after it. Whatever is proved of all courses holds for every order in which
the threads may move, since nothing restricts the choice of the acts.

Where several parties write into one log, each entry carries the number of the party that wrote it.
`share i log` is what party `i` contributed, in order, so a log interleaves given lists when its shares
are these lists (`Interleaves`). Where only the multiset of all entries matters, `perm_shares` puts the
shares side by side.
-/

namespace SensorCatalog

variable {σ α ε : Type}

/-- **Courses.** Acts one after the other, each of which can happen in the state that it meets, together
with the notes that were taken of them. -/
inductive Course (step : σ → α → Option σ) (note : σ → α → σ → List ε) (s : σ) : List ε → σ → Prop where
  | start : Course step note s [] s
  | act {log : List ε} {t u : σ} {a : α} (before : Course step note s log t) (h : step t a = some u) :
    Course step note s (log ++ note t a u) u

/-- Carries out acts one after the other, and takes the notes. -/
def carryOut (step : σ → α → Option σ) (note : σ → α → σ → List ε) :
    List α → List ε × σ → Option (List ε × σ)
  | [], r => some r
  | a :: acts, r =>
    match step r.2 a with
    | some u => carryOut step note acts (r.1 ++ note r.2 a u, u)
    | none => none

/-- What was carried out is a course. -/
theorem Course.of_carryOut {step : σ → α → Option σ} {note : σ → α → σ → List ε} {s t u : σ}
    {log more : List ε} (acts : List α) (before : Course step note s log t)
    (h : carryOut step note acts (log, t) = some (more, u)) : Course step note s more u := by
  -- each act that is carried out lengthens the course, so the log goes along
  induction acts generalizing log t with
  | nil =>
    cases h
    exact before
  | cons a acts ih =>
    rw [carryOut] at h
    split at h
    · rename_i v hv
      exact ih (before.act hv) h
    · cases h

/-- Two courses, one after the other. -/
theorem Course.trans {step : σ → α → Option σ} {note : σ → α → σ → List ε} {s t u : σ} {before after : List ε}
    (h : Course step note s before t) (hafter : Course step note t after u) :
    Course step note s (before ++ after) u := by
  induction hafter with
  | start => rwa [List.append_nil]
  | act _ hstep ih => exact List.append_assoc .. ▸ ih.act hstep

/-- A course of one act. -/
theorem Course.single {step : σ → α → Option σ} {note : σ → α → σ → List ε} {s t : σ} {a : α}
    (h : step s a = some t) : Course step note s (note s a t) t :=
  List.nil_append (note s a t) ▸ Course.start.act h

/-- **A note marks an act.** Where each act leaves at most one note, the course can be cut at any of them:
before it, the act that left it, and after it. -/
theorem Course.cut {step : σ → α → Option σ} {note : σ → α → σ → List ε} {s u : σ} {x : ε}
    {before after : List ε} (hnote : ∀ t a v, (note t a v).length ≤ 1)
    (h : Course step note s (before ++ x :: after) u) :
    ∃ t a v, Course step note s before t ∧ step t a = some v ∧ note t a v = [x] ∧
      Course step note v after u := by
  -- by the acts, for any notes after the mark, since the last act may leave one of these
  generalize hlog : before ++ x :: after = log at h
  induction h generalizing after with
  | start => exact absurd hlog (by simp)
  | @act log t v a earlier hstep ih =>
    match hn : note t a v with
    | [] =>
      -- the act left no note, so the mark is an earlier one
      rw [hn, List.append_nil] at hlog
      obtain ⟨t', a', v', hbefore, hstep', hx, hafter⟩ := ih hlog
      refine ⟨t', a', v', hbefore, hstep', hx, ?_⟩
      have := hafter.act hstep
      rwa [hn, List.append_nil] at this
    | [y] =>
      rw [hn] at hlog
      rcases List.eq_nil_or_concat after with rfl | ⟨after, z, rfl⟩
      · -- the mark is the last note
        obtain ⟨rfl, hxy⟩ := List.append_inj' hlog rfl
        cases hxy
        exact ⟨t, a, v, earlier, hstep, hn, .start⟩
      · -- the last note comes after the mark
        rw [List.concat_eq_append, ← List.cons_append, ← List.append_assoc] at hlog
        obtain ⟨hearlier, hzy⟩ := List.append_inj' hlog rfl
        cases hzy
        obtain ⟨t', a', v', hbefore, hstep', hx, hafter⟩ := ih hearlier
        refine ⟨t', a', v', hbefore, hstep', hx, ?_⟩
        have := hafter.act hstep
        rwa [hn, ← List.concat_eq_append] at this
    | _ :: _ :: _ => exact absurd (hnote t a v) (by simp [hn])

/-- Reading a log that has grown by one note. -/
theorem filterMap_concat (f : ε → Option α) (log : List ε) (n : ε) :
    (log ++ [n]).filterMap f = log.filterMap f ++ (f n).toList := by
  rw [List.filterMap_append, List.filterMap_cons]
  cases f n <;> rfl

/-! ### Shares of a log -/

/-- What one party contributed to a log. -/
def share (i : Nat) (log : List (Nat × α)) : List α :=
  log.filterMap fun x => if x.1 = i then some x.2 else none

/-- An empty log has no share of anybody. -/
@[simp] theorem share_nil (i : Nat) : share i ([] : List (Nat × α)) = [] := rfl

/-- A share of a longer log. -/
@[simp] theorem share_append (i : Nat) (log more : List (Nat × α)) :
    share i (log ++ more) = share i log ++ share i more :=
  List.filterMap_append

/-- One has the whole share of what one contributed alone. -/
@[simp] theorem share_self (i : Nat) (l : List α) : share i (l.map (i, ·)) = l := by
  simp [share]

/-- One has no share of what others contributed. -/
theorem share_other {i j : Nat} (h : j ≠ i) (l : List α) : share i (l.map (j, ·)) = [] := by
  simp [share, h]

/-- A share consists of the entries under one's number. -/
theorem mem_share {i : Nat} {log : List (Nat × α)} {a : α} : a ∈ share i log ↔ (i, a) ∈ log := by
  simp only [share, List.mem_filterMap]
  constructor
  · rintro ⟨⟨j, b⟩, hmem, hj⟩
    split at hj
    · rename_i hji
      cases hj
      exact (show j = i from hji) ▸ hmem
    · cases hj
  · exact fun h => ⟨(i, a), h, if_pos rfl⟩

/-- Changing one member of a family by an entry in front adds this entry to the whole. -/
theorem flatMap_perm_cons {l : List Nat} (hl : l.Nodup) {i : Nat} (hi : i ∈ l) {f g : Nat → List α}
    {a : α} (hg : g i = a :: f i) (hother : ∀ j, j ≠ i → g j = f j) :
    (l.flatMap g).Perm (a :: l.flatMap f) := by
  -- by the members of the family, of which only `i` has changed
  induction l with
  | nil => cases hi
  | cons j l ih =>
    obtain ⟨hj, hl⟩ := List.nodup_cons.1 hl
    rw [List.flatMap_cons, List.flatMap_cons]
    rcases List.mem_cons.1 hi with rfl | hi
    · -- this is the member that changed, and it is not among the others
      have hsame : l.flatMap g = l.flatMap f :=
        List.flatMap_congr fun k hk => hother k fun e => hj (e ▸ hk)
      rw [hg, hsame]
      exact .refl _
    · -- the change is further on, and the new entry moves past the members of `j`
      rw [hother j fun e => hj (e ▸ hi)]
      exact ((ih hl hi).append_left _).trans List.perm_middle

/-- **A log is its shares, up to order.** -/
theorem perm_shares {n : Nat} {log : List (Nat × α)} (h : ∀ x ∈ log, x.1 < n) :
    log.Perm ((List.range n).flatMap fun i => (share i log).map (i, ·)) := by
  induction log with
  | nil => simp
  | cons x log ih =>
    obtain ⟨i, a⟩ := x
    -- the entry in front stands in the share of `i` and in no other share
    have hi : i < n := h (i, a) List.mem_cons_self
    refine ((ih fun y hy => h y (List.mem_cons_of_mem _ hy)).cons _).trans (List.Perm.symm ?_)
    refine flatMap_perm_cons List.nodup_range (List.mem_range.2 hi) ?_ fun j hj => ?_
    · simp [share]
    · simp [share, Ne.symm hj]

/-- What is counted in a log is counted in its shares. -/
theorem countP_shares {n : Nat} {log : List (Nat × α)} (h : ∀ x ∈ log, x.1 < n) (p : α → Bool) :
    log.countP (fun x => p x.2) = ((List.range n).map fun i => (share i log).countP p).sum := by
  rw [(perm_shares h).countP_eq, List.countP_flatMap]
  refine congrArg List.sum (List.map_congr_left fun i _ => ?_)
  show ((share i log).map (i, ·)).countP _ = _
  rw [List.countP_map]
  rfl

/-- A list is put together of what stands at each of its places. -/
theorem flatMap_getElem? (l : List α) : ((List.range l.length).flatMap fun i => l[i]?.toList) = l := by
  induction l with
  | nil => rfl
  | cons a l ih =>
    rw [List.length_cons, List.range_succ_eq_map, List.flatMap_cons, List.flatMap_map]
    simpa using ih

/-- **Interleavings.** A list is made of the members of some lists, each of which keeps its order. -/
def Interleaves (l : List α) (parts : List (List α)) : Prop :=
  ∃ log : List (Nat × α), log.map (·.2) = l ∧ ∀ i, share i log = parts[i]?.getD []

/-- An interleaving has the members of all its parts, and no others. -/
theorem Interleaves.mem_iff {l : List α} {parts : List (List α)} (h : Interleaves l parts) {a : α} :
    a ∈ l ↔ ∃ part ∈ parts, a ∈ part := by
  obtain ⟨log, rfl, hshares⟩ := h
  rw [List.mem_map]
  constructor
  · rintro ⟨⟨i, b⟩, hmem, rfl⟩
    -- who wrote the entry is named in it
    have hb := mem_share.2 hmem
    rw [hshares i] at hb
    cases hi : parts[i]? with
    | none => simp [hi] at hb
    | some part =>
      rw [hi] at hb
      exact ⟨part, List.mem_of_getElem? hi, hb⟩
  · rintro ⟨part, hpart, ha⟩
    obtain ⟨i, hi⟩ := List.mem_iff_getElem?.1 hpart
    have hshare := hshares i
    rw [hi, Option.getD_some] at hshare
    exact ⟨(i, a), mem_share.1 (hshare ▸ ha), rfl⟩

/-! ### Lists in which one member changes -/

/-- What a change of one member means for the number of members with a property. -/
theorem countP_set_add {l : List α} {i : Nat} {a : α} (h : l[i]? = some a) (b : α) (p : α → Bool) :
    (l.set i b).countP p + (if p a then 1 else 0) = l.countP p + (if p b then 1 else 0) := by
  obtain ⟨hi, rfl⟩ := List.getElem?_eq_some_iff.1 h
  rw [List.countP_set hi]
  -- `countP_set` subtracts, so the member that is replaced has to be counted first
  have hpos : p l[i] = true → 0 < l.countP p := fun hp =>
    List.countP_pos_iff.2 ⟨l[i], List.getElem_mem hi, hp⟩
  split
  · rename_i hp
    have := hpos hp
    omega
  · omega

/-- What a change of one member means for a sum over the members. -/
theorem sum_map_set_add {l : List α} {i : Nat} {a : α} (h : l[i]? = some a) (b : α) (f : α → Nat) :
    ((l.set i b).map f).sum + f a = (l.map f).sum + f b := by
  -- by the list, for any place in it
  induction l generalizing i with
  | nil => cases h
  | cons c l ih =>
    cases i with
    | zero =>
      cases h
      simp only [List.set_cons_zero, List.map_cons, List.sum_cons]
      omega
    | succ i =>
      have := ih (by simpa using h)
      simp only [List.set_cons_succ, List.map_cons, List.sum_cons]
      omega

end SensorCatalog
