import SensorCatalog.Proofs.Bus.Step

/-!
# Whom a change reaches

A publication reaches those whose subscriptions were on the bus when it began and are for its kind of change. What the
log says of it is compared with this list (`Dispatch.Account`): as long as its delivery is under way, those who have
been told and those who are still to be told make up the list, and when it is over all have been told. An act of
somebody else, in a delivery further inside or outside, changes neither part, so the account is carried over each act
(`Dispatch.Account.step`), whatever subscribers do to the bus meanwhile and however they end.

`Dispatch.Delivers` is what can be relied on, and `Dispatch.delivers` says that every bus does so.
-/

namespace SensorCatalog

variable {α : Type}

namespace Dispatch

variable {d u : Dispatch α} {a : DispatchAct α} {log ns : List (BusNote α)} {p : Nat}

/-! ### The account of a publication -/

/-- **The account of a publication**, which reaches the subscriptions that are `due`. -/
structure Account (p : Nat) (due : List (Subscription α)) (d : Dispatch α) (log : List (BusNote α)) : Prop where
  known : p < d.publications
  /-- While it is under way, some have been told, and the others are still to be told. -/
  underway : ∀ f ∈ d.deliveries, f.publication = p →
    f.reached = due.length ∧ told p log ++ f.pending = due ∧ concluded p log = []
  /-- When it is over, all have been told, and their number was the answer. -/
  settled : (∀ f ∈ d.deliveries, f.publication ≠ p) → told p log = due ∧ concluded p log = [due.length]

variable {due : List (Subscription α)}

/-- The account is opened when the change is published. -/
theorem Account.open (h : d.Orderly log) (change : Change) :
    Account d.publications (d.bus.matching change.kind) (d.publish change)
      (log ++ [.published d.publications change]) where
  known := Nat.lt_succ_self _
  underway f hf hp := by
    -- no note of this publication stands in the log, so its account begins with nothing
    obtain ⟨htold, hconcluded⟩ := h.fresh d.publications (Nat.le_refl _)
    rcases List.mem_cons.1 hf with rfl | hf
    · simp [htold, hconcluded]
    · exact absurd hp (Nat.ne_of_lt (h.underway f hf))
  settled hnone := absurd rfl (hnone _ List.mem_cons_self)

/-- Looking for a delivery of another publication, the innermost one can be passed over. -/
theorem mem_cons_other {f g : Delivery α} {outer : List (Delivery α)} (h : g.publication ≠ f.publication) :
    f ∈ g :: outer ↔ f ∈ outer :=
  ⟨fun hf => (List.mem_cons.1 hf).resolve_left fun hfg => h (hfg ▸ rfl), List.mem_cons_of_mem g⟩

/-- An act that concerns other deliveries. -/
theorem Account.beside (h : Account p due d log) {n : BusNote α} {deliveries : List (Delivery α)}
    (hn : n.told? p = none ∧ n.concluded? p = none)
    (hsame : ∀ f : Delivery α, f.publication = p → (f ∈ deliveries ↔ f ∈ d.deliveries)) :
    Account p due { d with deliveries } (log ++ [n]) := by
  -- the note is not about this publication, and neither are the deliveries that change
  have htold : told p (log ++ [n]) = told p log := by rw [told_concat, hn.1, Option.toList_none, List.append_nil]
  have hconcluded : concluded p (log ++ [n]) = concluded p log := by
    rw [concluded_concat, hn.2, Option.toList_none, List.append_nil]
  refine ⟨h.known, fun f hf hfp => ?_, fun hnone => ?_⟩
  · rw [htold, hconcluded]
    exact h.underway f ((hsame f hfp).1 hf) hfp
  · rw [htold, hconcluded]
    exact h.settled fun f hf hfp => hnone f ((hsame f hfp).2 hf) hfp

/-- **One act.** -/
theorem Account.step (h : Account p due d log) (horderly : d.Orderly log) (hstep : Happens d a ns u) :
    Account p due u (log ++ ns) := by
  -- the deliveries further outside are not of the innermost publication
  have hothers : ∀ {f : Delivery α} {outer : List (Delivery α)}, d.deliveries = f :: outer →
      ∀ g ∈ outer, g.publication ≠ f.publication := by
    intro f outer hd g hg hgf
    have hnodup := horderly.nodup
    rw [hd, List.map_cons, List.nodup_cons] at hnodup
    exact hnodup.1 (hgf ▸ List.mem_map_of_mem hg)
  cases hstep with
  | subscribed | unsubscribed =>
    exact ⟨h.known, by simpa using h.underway, by simpa using h.settled⟩
  | published change =>
    -- a new delivery, of a later publication
    have hp : d.publications ≠ p := (Nat.ne_of_lt h.known).symm
    refine ⟨Nat.lt_succ_of_lt h.known, fun f hf hfp => ?_, fun hnone => ?_⟩
    · rcases List.mem_cons.1 hf with rfl | hf
      · exact absurd hfp hp
      · simpa using h.underway f hf hfp
    · simpa using h.settled fun f hf => hnone f (List.mem_cons_of_mem _ hf)
  | @told q reached change s pending outer hd =>
    by_cases hq : q = p
    · -- the first of those that were left is told
      subst hq
      refine ⟨h.known, fun f hf hfp => ?_, fun hnone => absurd rfl (hnone _ List.mem_cons_self)⟩
      rcases List.mem_cons.1 hf with rfl | hf
      · obtain ⟨hreached, hdue, hconcluded⟩ := h.underway _ (hd ▸ List.mem_cons_self) rfl
        exact ⟨hreached, by simpa using hdue, by simpa using hconcluded⟩
      · exact absurd hfp (hothers hd f hf)
    · refine h.beside ⟨if_neg hq, rfl⟩ fun f hfp => ?_
      rw [hd, mem_cons_other (hfp ▸ hq), mem_cons_other (hfp ▸ hq)]
  | @ended q reached change s pending outer outcome hd =>
    by_cases hq : q = p
    · -- the one that was told ends, and nobody else comes or goes
      subst hq
      refine ⟨h.known, fun f hf hfp => ?_, fun hnone => absurd rfl (hnone _ List.mem_cons_self)⟩
      rcases List.mem_cons.1 hf with rfl | hf
      · simpa using h.underway _ (hd ▸ List.mem_cons_self) rfl
      · exact absurd hfp (hothers hd f hf)
    · refine h.beside ⟨rfl, rfl⟩ fun f hfp => ?_
      rw [hd, mem_cons_other (hfp ▸ hq), mem_cons_other (hfp ▸ hq)]
  | @concluded q reached change outer hd =>
    by_cases hq : q = p
    · -- nobody is left
      subst hq
      refine ⟨h.known, fun f hf hfp => absurd hfp (hothers hd f hf), fun _ => ?_⟩
      obtain ⟨rfl, hdue, hconcluded⟩ := h.underway _ (hd ▸ List.mem_cons_self) rfl
      rw [List.append_nil] at hdue
      simp [hdue, hconcluded]
    · refine h.beside ⟨rfl, if_neg hq⟩ fun f hfp => ?_
      rw [hd, mem_cons_other (hfp ▸ hq)]

/-- Between two publications there is nothing but acts, so an account that is open stays open. -/
theorem Account.later {v : Dispatch α} {before after : List (BusNote α)} (h : Account p due v before)
    (horderly : v.Orderly before) (hafter : Course Dispatch.step Dispatch.note v after u) :
    Account p due u (before ++ after) ∧ u.Orderly (before ++ after) := by
  -- by the acts that follow, with the order of the log carried along
  induction hafter with
  | start => simpa using ⟨h, horderly⟩
  | act _ hstep ih =>
    obtain ⟨haccount, horderly⟩ := ih
    rw [← List.append_assoc]
    exact ⟨haccount.step horderly (.of_step hstep), horderly.step (.of_step hstep)⟩

/-- **A publication has an account** from its beginning on: it reaches the subscriptions that are present then. -/
theorem Runs.account {before after : List (BusNote α)} {change : Change}
    (h : Runs (before ++ .published p change :: after) d) :
    Account p (reachedBy change (present before)) d (before ++ .published p change :: after) ∧
      told p before = [] ∧ concluded p before = [] := by
  -- the log is cut where the change is published, and the act found there opens the account
  obtain ⟨t, a, v, hbefore, hstep, hnote, hafter⟩ := h.cut length_note_le
  have horderly := Runs.orderly hbefore
  have hhappens := Happens.of_step hstep
  rw [hnote] at hhappens
  cases hhappens with
  | published =>
    have hopen := Account.open horderly change
    rw [Bus.matching, horderly.table] at hopen
    obtain ⟨haccount, -⟩ := hopen.later (horderly.step (.published change)) hafter
    rw [List.append_assoc, List.singleton_append] at haccount
    exact ⟨haccount, horderly.fresh _ (Nat.le_refl _)⟩

/-! ### Unsubscribing -/

/-- Unsubscribing answers whether there was a subscription of this number. -/
theorem Runs.removed {before after : List (BusNote α)} {id : Nat} {removed : Bool}
    (h : Runs (before ++ .unsubscribed id removed :: after) d) :
    removed = true ↔ ∃ s ∈ present before, s.id = id := by
  obtain ⟨t, a, v, hbefore, hstep, hnote, -⟩ := h.cut length_note_le
  have hhappens := Happens.of_step hstep
  rw [hnote] at hhappens
  cases hhappens with
  | unsubscribed =>
    -- the bus answers from its table, and the table is what the log has left present
    rw [← (Runs.orderly hbefore).table, Bus.contains, List.any_eq_true]
    simp only [beq_iff_eq]

/-- A subscription that was removed is not made again, since its number is not given again. -/
theorem Runs.gone {before after : List (BusNote α)} {id : Nat} {removed : Bool}
    (h : Runs (before ++ .unsubscribed id removed :: after) d) (hid : id ∈ (subscribed before).map (·.id))
    {s : Subscription α} (hs : s ∈ present (before ++ .unsubscribed id removed :: after)) : s.id ≠ id := by
  have hnodup := h.orderly.nodup_ids
  clear h
  -- by the notes that follow; only a new subscription could bring the number back
  induction after using List.reverseRecOn with
  | nil =>
    rw [present_concat] at hs
    simpa using (List.mem_filter.1 hs).2
  | append_singleton after n ih =>
    rw [← List.cons_append, ← List.append_assoc] at hs hnodup
    rw [present_concat] at hs
    rw [subscribed_concat, List.map_append, List.nodup_append] at hnodup
    obtain ⟨hearlier, -, hnew⟩ := hnodup
    cases n with
    | subscribed t =>
      rcases List.mem_append.1 hs with hs | hs
      · exact ih hs hearlier
      · -- the new number differs from all that were given
        obtain rfl := List.mem_singleton.1 hs
        refine (hnew id ?_ _ (by simp)).symm
        rw [subscribed, List.filterMap_append, List.map_append]
        exact List.mem_append_left _ hid
    | unsubscribed other r => exact ih (List.mem_of_mem_filter hs) hearlier
    | published | told | ended | concluded => exact ih hs hearlier

/-! ### The result -/

/-- **What can be relied on**, whatever subscribers do. -/
structure Delivers (d : Dispatch α) (log : List (BusNote α)) : Prop where
  /-- The bus holds the subscriptions that were made and not removed since. -/
  table : d.bus.subscriptions = present log
  /-- The numbers of subscriptions are distinct, those of removed ones included. -/
  ids : ((subscribed log).map (·.id)).Nodup
  publications : (published log).Nodup
  /-- A change is told, one after the other, to those whose subscriptions were present when it was published and are
  for its kind, and to nobody else. -/
  reached : ∀ before p change after, log = before ++ .published p change :: after →
    told p before = [] ∧ told p after <+: reachedBy change (present before)
  /-- When publishing ends, each of them has been told once, and their number is the answer. -/
  complete : ∀ before p change after n, log = before ++ .published p change :: after → .concluded p n ∈ after →
    told p after = reachedBy change (present before) ∧ n = (reachedBy change (present before)).length
  /-- Publishing ends once, unless it is under way. -/
  answered : ∀ p ∈ published log, (∃ f ∈ d.deliveries, f.publication = p) ∨ (concluded p log).length = 1
  /-- Unsubscribing answers whether there was such a subscription, which was made before, and removes no other one. -/
  unsubscribed : ∀ before id removed after, log = before ++ .unsubscribed id removed :: after →
    (removed = true ↔ ∃ s ∈ present before, s.id = id) ∧
      (removed = true → id ∈ (subscribed before).map (·.id)) ∧
      ∀ s, s ∈ present (before ++ [.unsubscribed id removed]) ↔ s ∈ present before ∧ s.id ≠ id
  /-- After a subscription was removed, no change that is published later is told to it. -/
  silenced : ∀ before id removed between p change after,
    log = before ++ .unsubscribed id removed :: (between ++ .published p change :: after) →
    id ∈ (subscribed before).map (·.id) → ∀ s ∈ told p log, s.id ≠ id
  /-- However a subscriber ends, its delivery goes on with those who are left. -/
  unstoppable : ∀ f outer, d.deliveries = f :: outer → f.current.isSome = true → ∀ outcome,
    d.step (.finish outcome) = some { d with deliveries := { f with current := none } :: outer }
  /-- Where no subscriber is at work, the delivery goes on by itself. -/
  progress : d.isAtWork = false → (d.step .tell).isSome = true ∨ (d.step .conclude).isSome = true

/-- What was told of a publication is what was told before some moment and after it. -/
theorem told_append_published (p q : Nat) (change : Change) (before after : List (BusNote α)) :
    told p (before ++ .published q change :: after) = told p before ++ told p after := by
  rw [told, List.filterMap_append, List.filterMap_cons_none rfl]
  rfl

/-- What was told of a publication, once it has begun. -/
theorem Runs.reached {before after : List (BusNote α)} {change : Change}
    (h : Runs (before ++ .published p change :: after) d) : told p after <+: reachedBy change (present before) := by
  obtain ⟨haccount, hbefore, -⟩ := h.account
  have htold := told_append_published p p change before after
  rw [hbefore, List.nil_append] at htold
  rw [← htold]
  -- while it is under way the rest is pending, and afterwards nothing is left
  by_cases hunder : ∃ f ∈ d.deliveries, f.publication = p
  · obtain ⟨f, hf, hfp⟩ := hunder
    obtain ⟨-, hdue, -⟩ := haccount.underway f hf hfp
    exact ⟨f.pending, hdue⟩
  · obtain ⟨hdue, -⟩ := haccount.settled fun f hf hfp => hunder ⟨f, hf, hfp⟩
    exact hdue ▸ List.prefix_rfl

/-- What was told of a publication that is over. -/
theorem Runs.complete {before after : List (BusNote α)} {change : Change} {n : Nat}
    (h : Runs (before ++ .published p change :: after) d) (hn : .concluded p n ∈ after) :
    told p after = reachedBy change (present before) ∧ n = (reachedBy change (present before)).length := by
  obtain ⟨haccount, hbefore, -⟩ := h.account
  have htold := told_append_published p p change before after
  rw [hbefore, List.nil_append] at htold
  have hmem : n ∈ concluded p (before ++ .published p change :: after) :=
    List.mem_filterMap.2 ⟨_, List.mem_append_right _ (List.mem_cons_of_mem _ hn), if_pos rfl⟩
  -- there is no answer while the delivery is under way
  have hover : ∀ f ∈ d.deliveries, f.publication ≠ p := by
    intro f hf hfp
    obtain ⟨-, -, hconcluded⟩ := haccount.underway f hf hfp
    rw [hconcluded] at hmem
    cases hmem
  obtain ⟨hdue, hconcluded⟩ := haccount.settled hover
  rw [hconcluded] at hmem
  exact ⟨htold ▸ hdue, List.mem_singleton.1 hmem⟩

/-- A publication that is not under way has been answered. -/
theorem Runs.answered (h : Runs log d) (hp : p ∈ published log) :
    (∃ f ∈ d.deliveries, f.publication = p) ∨ (concluded p log).length = 1 := by
  -- its beginning is in the log, and from there it has an account
  obtain ⟨n, hmem, hn⟩ := List.mem_filterMap.1 hp
  cases n with
  | published q change =>
    obtain rfl : q = p := by simpa using hn
    obtain ⟨before, after, rfl⟩ := List.append_of_mem hmem
    obtain ⟨haccount, -⟩ := h.account
    by_cases hunder : ∃ f ∈ d.deliveries, f.publication = q
    · exact .inl hunder
    · obtain ⟨-, hconcluded⟩ := haccount.settled fun f hf hfq => hunder ⟨f, hf, hfq⟩
      exact .inr (by rw [hconcluded, List.length_singleton])
  | subscribed | unsubscribed | told | ended | concluded => cases hn

/-- **Each change is told to those who have subscribed**, each of them once and in their order. -/
theorem delivers (h : Runs log d) : Delivers d log := by
  have horderly := h.orderly
  constructor
  case table => exact horderly.table
  case ids => exact horderly.nodup_ids
  case publications => exact horderly.publications ▸ List.nodup_range
  case reached =>
    rintro before p change after rfl
    obtain ⟨-, hbefore, -⟩ := h.account
    exact ⟨hbefore, h.reached⟩
  case complete =>
    rintro before p change after n rfl hn
    exact h.complete hn
  case answered => exact fun p hp => h.answered hp
  case unsubscribed =>
    rintro before id removed after rfl
    refine ⟨h.removed, fun hremoved => ?_, fun s => ?_⟩
    · obtain ⟨s, hs, hid⟩ := h.removed.1 hremoved
      exact List.mem_map.2 ⟨s, mem_subscribed_of_present hs, hid⟩
    · rw [present_concat, presentAfter, List.mem_filter, bne_iff_ne]
  case silenced =>
    rintro before id removed between p change after rfl hid s hs
    rw [← List.cons_append, ← List.append_assoc] at h hs
    obtain ⟨-, hbefore, -⟩ := h.account
    rw [told_append_published, hbefore, List.nil_append] at hs
    -- whom the change reaches is present when it is published
    have hpresent := List.mem_of_mem_filter (h.reached.subset hs)
    obtain ⟨t, a, v, hearlier, -⟩ := h.cut length_note_le
    exact Runs.gone hearlier hid hpresent
  case unstoppable =>
    intro f outer hd hcurrent outcome
    obtain ⟨p, change, reached, pending, current⟩ := f
    cases current with
    | none => cases hcurrent
    | some s => rw [Dispatch.step, hd]
  case progress =>
    intro hidle
    cases hd : d.deliveries with
    | nil => simp [isAtWork, hd] at hidle
    | cons f outer =>
      obtain ⟨p, change, reached, pending, current⟩ := f
      obtain rfl : current = none := by simpa [isAtWork, hd] using hidle
      cases pending with
      -- nobody is left to be told, so the publication can end
      | nil => exact .inr (by rw [Dispatch.step, hd]; rfl)
      | cons s pending => exact .inl (by rw [Dispatch.step, hd]; rfl)

/-- The first of two subscribers removes the second one, subscribes a third one and publishes a change of its own,
which it does not survive. -/
def nestedActs : List (DispatchAct String) :=
  [.subscribe .all "first", .subscribe .all "second", .publish (.sensorInsertion "gauge"), .tell, .unsubscribe 2,
    .subscribe .all "third", .publish (.sensorDeletion "gauge"), .tell, .finish (.panicked .untyped), .tell,
    .finish .returned, .conclude, .finish (.panicked .untyped), .tell, .finish .returned, .conclude, .unsubscribe 2]

/-- The second subscriber is told the first change, though it has been removed, and the third one is told the change
that was published after it had subscribed. -/
theorem delivers_nested : ∃ log d, Runs log d ∧ Delivers d log ∧ d.deliveries.length = 0 ∧
    d.bus.subscriptions.map (·.id) = [1, 3] ∧ (told 0 log).map (·.subscriber) = ["first", "second"] ∧
    (told 1 log).map (·.subscriber) = ["first", "third"] ∧ concluded 0 log = [2] ∧ concluded 1 log = [2] := by
  have hcourse : (carryOut Dispatch.step Dispatch.note nestedActs ([], empty)).map (fun x =>
      (x.2.deliveries.length, x.2.bus.subscriptions.map (·.id), (told 0 x.1).map (·.subscriber),
        (told 1 x.1).map (·.subscriber), concluded 0 x.1, concluded 1 x.1)) =
      some (0, [1, 3], ["first", "second"], ["first", "third"], [2], [2]) := rfl
  obtain ⟨⟨log, d⟩, hcarried, hends⟩ := Option.map_eq_some_iff.1 hcourse
  have h : Runs log d := Course.of_carryOut nestedActs .start hcarried
  simp only [Prod.mk.injEq] at hends
  exact ⟨log, d, h, delivers h, hends⟩

end Dispatch

end SensorCatalog
