import SensorCatalog.Proofs.Service.Calm
import SensorCatalog.Service.Course

/-!
# No change is forgotten

A log of the service says when data are changed, when a change is told, and when a rebuild begins
(`Happening`). A change is owed (`Owed`) while no rebuild has begun after it, and while it is owed, something
is pending (`Service.Pending`): it has still to be told, or the relay has still to take it from its queue or
to make its call, or this call awaits a rebuild. Each act of anybody hands the change on to the next of these
places (`Service.Pending.step`).

That the relay asks for a rebuild after the one that is running matters for the last place. A call that would
be content with the running one would return without a rebuild that begins after the change.
-/

namespace SensorCatalog

/-! ### What happens in calm -/

namespace Service

/-- **What can happen in calm.** -/
inductive Happens (b : Backend) (s : Service) : ServiceAct → Service → Prop where
  -- the keeper, its callers, its timer or the clock go on, or somebody edits the archive
  | kept {a : KeeperAct} {k : Keeper} (ha : a.isCalm = true) (h : s.keeper.step b a = some k) :
    Happens b s (.keeper a) { s with keeper := k }
  -- a change is told
  | told {i : Nat} {c : Change} {t : Service} (hc : s.keeper.world.untold[i]? = some c)
    (ht : t = { s with keeper := { s.keeper with world :=
      { s.keeper.world with untold := s.keeper.world.untold.eraseIdx i } } }) :
    Happens b s (.tell i) (if s.attached then t.publish c else t)
  | published (c : Change) : Happens b s (.publish c) (s.publish c)
  -- the relay makes its call
  | called {c : Change} (hphase : s.relay.phase = .calling c) (hhook : s.hook = none) :
    Happens b s .relay
      { s with
        keeper := s.keeper.addCall ((Request.trigger .runAfterCurrent).phase s.keeper.now) false
        hook := some s.keeper.calls.length }
  -- the call of the relay has returned
  | answered {c : Change} {i : Nat} {a : Answer} (hphase : s.relay.phase = .calling c)
    (hhook : s.hook = some i) (ha : s.answer? i = some a) :
    Happens b s .relay { s with relay := s.relay.finish (outcomeOf a), hook := none }
  -- the relay takes a message, or finds that there is none
  | took {r : Relay} (h : s.relay.take = some r) : Happens b s .relay { s with relay := r }

variable {b : Backend} {s s' : Service} {a : ServiceAct}

/-- What can happen in calm. -/
theorem Happens.of_step (h : s.step b a = some s') (ha : a.isCalm = true) : Happens b s a s' := by
  cases a with
  | keeper a =>
    obtain ⟨k, hk, rfl⟩ := Option.map_eq_some_iff.1 h
    exact .kept ha hk
  | tell i =>
    simp only [step, tellUntold] at h
    split at h
    · cases h
    · rename_i c hc
      cases h
      exact .told hc rfl
  | publish c => cases h; exact .published c
  | relay =>
    -- in the middle of a call the relay makes the call or waits for its answer, and else it takes messages
    simp only [step, moveRelay] at h
    split at h
    · rename_i c hphase hhook
      cases h
      exact .called hphase hhook
    · rename_i c i hphase hhook
      split at h
      · cases h
      · rename_i a ha
        cases h
        exact .answered hphase hhook ha
    · obtain ⟨r, hr, rfl⟩ := Option.map_eq_some_iff.1 h
      exact .took hr
  | beginClosing => cases ha
  | close i => cases ha

end Service

/-! ### What is owed -/

/-- What is worth noting with regard to changes. -/
inductive Happening where
  /-- The data are changed by an edit that is going to be told. -/
  | changed
  /-- The data are changed by an edit that is not told. -/
  | silent
  /-- A change is told. -/
  | told
  /-- A rebuild begins. -/
  | began
  deriving DecidableEq

/-- Whether an edit of the data is of those that are told. -/
def ContentEdit.isTold : ContentEdit → Bool
  | .insertSensor _ _ | .deleteSensor _ | .insertObservation _ _ | .deleteObservation _
  | .insertTemplate _ _ => true
  | _ => false

/-- What happens in an edit of the given data. -/
def Edit.happenings (c : Content) : Edit → List Happening
  | .content e =>
    match e.change? c with
    | some _ => [.changed]
    -- to delete what is not there changes nothing
    | none => if e.isTold then [] else [.silent]
  | _ => []

/-- What happens in an act. -/
def Service.happenings (s : Service) (a : ServiceAct) (s' : Service) : List Happening :=
  match a with
  | .keeper (.edit e) => e.happenings s.keeper.world.archive.content
  | .tell _ | .publish _ => [.told]
  | _ => if (s.keeper.seen (s.subject a) s'.keeper).any (·.2.isBegan) then [.began] else []

/-- **A rebuild is owed**: data were changed, or a change was told, and no rebuild began since. -/
def Owed (log : List Happening) : Prop :=
  ∃ earlier later, log = earlier ++ later ∧ .began ∉ later ∧ (.changed ∈ later ∨ .told ∈ later)

/-- Something is owed after an act if it was owed before and no rebuild began in it, or if it was told or changed
in it. -/
theorem Owed.last {log : List Happening} {x : Happening} (h : Owed (log ++ [x])) :
    x ≠ .began ∧ (x = .changed ∨ x = .told ∨ Owed log) := by
  obtain ⟨earlier, later, hlog, hbegan, howed⟩ := h
  rcases List.eq_nil_or_concat later with rfl | ⟨later, y, rfl⟩
  · rcases howed with h | h <;> cases h
  -- the last entry is that of `later`, and what is owed is this one or stands before it
  rw [List.concat_eq_append, ← List.append_assoc] at hlog
  obtain ⟨rfl, rfl⟩ := List.append_singleton_inj.1 hlog
  simp only [List.concat_eq_append, List.mem_append, List.mem_singleton, not_or] at hbegan howed
  refine ⟨Ne.symm hbegan.2, ?_⟩
  rcases howed with (h | rfl) | (h | rfl)
  · exact .inr (.inr ⟨earlier, later, rfl, hbegan.1, .inl h⟩)
  · exact .inl rfl
  · exact .inr (.inr ⟨earlier, later, rfl, hbegan.1, .inr h⟩)
  · exact .inr (.inl rfl)

namespace Service

/-- **The relay is there**, and listens to all changes. -/
structure Connected (s : Service) : Prop where
  /-- Changes are told on the bus. -/
  attached : s.attached = true
  /-- All of them reach the relay. -/
  subscribed : ∃ x ∈ s.bus.subscriptions, x.subscriber = .relay ∧ x.kinds = .all
  /-- Its thread has not ended. -/
  running : s.relay.phase ≠ .ended
  /-- Nobody has ordered it to. -/
  orders : .shutdown ∉ s.relay.queue
  /-- A call of the relay is made while its thread is at it. -/
  calling : s.hook.isSome = true → ∃ c, s.relay.phase = .calling c

/-- **A rebuild is to come**, and this is where it stands. -/
inductive Pending (s : Service) : Prop where
  -- a change has still to be told
  | untold (h : s.keeper.world.untold ≠ [])
  -- it waits in the queue of the relay
  | queued (h : s.relay.queue ≠ [])
  -- the relay has taken it
  | taken {c : Change} (h : s.relay.phase = .draining c)
  -- the relay is about to make its call
  | due {c : Change} (h : s.relay.phase = .calling c) (hhook : s.hook = none)
  -- the call of the relay awaits a rebuild
  | awaited {i : Nat} {phase : CallPhase} (hhook : s.hook = some i) (hi : s.keeper.phase? i = some phase)
    (h : phase.Awaits)

variable {b : Backend} {s s' : Service} {a : ServiceAct} {log : List Happening}

/-- Whoever is told, the relay gets one message for each time that it is reached. -/
theorem queue_of_tells (c : Change) (ls : List Listener) (r : Relay) (hrunning : r.phase ≠ .ended) :
    (ls.foldl (fun r l => if l = .relay then r.tell c else r) r).phase = r.phase ∧
      ∃ more : List Change, (ls.foldl (fun r l => if l = .relay then r.tell c else r) r).queue =
        r.queue ++ more.map .change ∧ (.relay ∈ ls → more ≠ []) := by
  -- one message for each subscription of the relay
  induction ls generalizing r with
  | nil => exact ⟨rfl, [], by simp, by simp⟩
  | cons l ls ih =>
    rw [List.foldl_cons]
    cases l with
    | relay =>
      have htell : r.tell c = { r with received := r.received + 1, queue := r.queue ++ [.change c] } := by
        rw [Relay.tell, Relay.send, if_neg hrunning]
      obtain ⟨hphase, more, hqueue, -⟩ := ih (r.tell c) (by rw [htell]; exact hrunning)
      rw [if_pos rfl]
      refine ⟨hphase.trans (by rw [htell]), c :: more, ?_, by simp⟩
      rw [hqueue, htell]
      simp
    | observer =>
      rw [if_neg (by simp)]
      simpa using ih r hrunning

/-- **A change that is told gets into the queue of the relay.** -/
theorem Connected.publish (h : s.Connected) (c : Change) :
    (s.publish c).Connected ∧ (s.publish c).relay.queue ≠ [] := by
  obtain ⟨hphase, more, hqueue, hmore⟩ := queue_of_tells c (s.reached c) s.relay h.running
  have hreached : .relay ∈ s.reached c := by
    obtain ⟨x, hx, hrelay, hall⟩ := h.subscribed
    refine List.mem_map.2 ⟨x, List.mem_filter.2 ⟨hx, ?_⟩, hrelay⟩
    rw [hall]
    exact ChangeKinds.has_all _
  refine ⟨⟨h.attached, h.subscribed, ?_, ?_, ?_⟩, ?_⟩
  · exact fun he => h.running (hphase.symm.trans he)
  · intro hmem
    rw [Service.publish, hqueue, List.mem_append] at hmem
    rcases hmem with hmem | hmem
    · exact h.orders hmem
    · simp at hmem
  · intro hhook
    obtain ⟨d, hd⟩ := h.calling hhook
    exact ⟨d, hphase.trans hd⟩
  · rw [Service.publish, hqueue]
    simp [hmore hreached]

/-- The end of a call leaves the queue alone, and the relay takes messages again. -/
theorem finish_eq (r : Relay) (outcome : RelayOutcome) :
    (r.finish outcome).queue = r.queue ∧ (r.finish outcome).phase = .receiving := by
  cases outcome with
  | fault f => cases f <;> exact ⟨rfl, rfl⟩
  | _ => exact ⟨rfl, rfl⟩

/-- An act of the keeper is seen only by the rebuild that begins in it. -/
theorem happenings_keeper {a : KeeperAct} (hedit : ∀ e, a ≠ .edit e) (s s' : Service) :
    s.happenings (.keeper a) s' =
      if (s.keeper.seen (s.keeper.subject a) s'.keeper).any (·.2.isBegan) then [.began] else [] := by
  cases a with
  | edit e => exact absurd rfl (hedit e)
  | _ => rfl

/-- An act of the relay is seen only by the rebuild that begins in it. -/
theorem happenings_relay (s s' : Service) :
    s.happenings .relay s' =
      if (s.keeper.seen s.keeper.calls.length s'.keeper).any (·.2.isBegan) then [.began] else [] := rfl

/-- After an edit it is owed to tell the change, or something was owed before. -/
theorem owed_of_edit {c : Content} {e : Edit} (h : Owed (log ++ e.happenings c)) :
    (∃ x, e = .content x ∧ (x.change? c).isSome = true) ∨ Owed log := by
  cases e with
  | content x =>
    rw [Edit.happenings] at h
    cases hx : x.change? c with
    | some d => exact .inl ⟨x, rfl, by rw [hx]; rfl⟩
    | none =>
      simp only [hx] at h
      split at h
      · exact .inr (by rwa [List.append_nil] at h)
      · -- an edit that is not told owes nothing
        obtain ⟨-, hx | hx | howed⟩ := h.last
        · cases hx
        · cases hx
        · exact .inr howed
  | _ => exact .inr (by simpa [Edit.happenings] using h)

/-- An edit leaves pending what is pending, and adds the change that it has to tell. -/
theorem pending_of_edit (howed : Owed log → s.Pending) (e : Edit)
    (h : Owed (log ++ e.happenings s.keeper.world.archive.content)) :
    Pending { s with keeper := { s.keeper with world := s.keeper.world.edit e } } := by
  rcases owed_of_edit h with ⟨x, rfl, hx⟩ | hlog
  · obtain ⟨d, hd⟩ := Option.isSome_iff_exists.1 hx
    exact .untold (by simp [World.edit, Edit.change?, hd])
  cases howed hlog with
  | untold h => exact .untold (by simp [World.edit, h])
  | queued h => exact .queued h
  | taken h => exact .taken h
  | due h hhook => exact .due h hhook
  | awaited hhook hi h => exact .awaited hhook hi h

/-- Any other act of the keeper leaves pending what is pending, unless a rebuild begins. -/
theorem pending_of_kept {a : KeeperAct} {k : Keeper} (hcalm : s.keeper.Calm)
    (howed : Owed log → s.Pending) (ha : a.isCalm = true) (hedit : ∀ e, a ≠ .edit e)
    (hk : s.keeper.step b a = some k)
    (h : Owed (log ++ s.happenings (.keeper a) { s with keeper := k })) :
    Pending { s with keeper := k } := by
  have heffect := (Keeper.Effect.of_step hk ha hedit hcalm.isOpen hcalm.not_closing).1
  rw [happenings_keeper hedit] at h
  cases hbegan : (s.keeper.seen (s.keeper.subject a) k).any (·.2.isBegan) with
  | true =>
    -- nothing is owed any more
    rw [if_pos hbegan] at h
    exact absurd rfl h.last.1
  | false =>
    rw [hbegan] at heffect
    rw [if_neg (by rw [hbegan]; simp), List.append_nil] at h
    cases howed h with
    | untold h =>
      refine .untold ?_
      rw [(hcalm.archive_eq heffect).2]
      exact h
    | queued h => exact .queued h
    | taken h => exact .taken h
    | due h hhook => exact .due h hhook
    | awaited hhook hi h =>
      -- the call of the relay may move, but it stays among those that await a rebuild
      obtain ⟨phase, hphase, hawaits⟩ := heffect.awaits hi h
      exact .awaited hhook hphase hawaits

/-- The answer to the call of the relay leaves pending what is pending, as nothing was awaited through that call any
more. -/
theorem pending_of_answer {c : Change} {i : Nat} {x : Answer} (h : s.Pending)
    (hphase : s.relay.phase = .calling c) (hhook : s.hook = some i) (hx : s.answer? i = some x) :
    Pending { s with relay := s.relay.finish (outcomeOf x), hook := none } := by
  cases h with
  | untold h => exact .untold h
  | queued h => exact .queued (by rw [(finish_eq _ _).1]; exact h)
  | taken h => rw [hphase] at h; cases h
  | due h hnone => rw [hhook] at hnone; cases hnone
  | @awaited j phase hj hi h =>
    rw [hhook] at hj
    cases hj
    rw [answer?] at hx
    split at hx
    · -- a call that has returned awaits nothing
      rename_i d onTimer hc
      rw [Keeper.phase?_of_getElem? hc] at hi
      cases hi
      exact h.elim
    · cases hx

/-- Whatever the relay takes, or finds that there is none, it is not through with it. -/
theorem Connected.take {r : Relay} (h : s.Connected) (hr : s.relay.take = some r) :
    Connected { s with relay := r } ∧ Pending { s with relay := r } := by
  obtain ⟨hattached, hsubscribed, hrunning, horders, hcalling⟩ := h
  -- it takes nothing while it is calling
  have hfree : s.hook = none := by
    cases hhook : s.hook with
    | none => rfl
    | some i =>
      obtain ⟨c, hc⟩ := hcalling (by rw [hhook]; rfl)
      rw [Relay.take, hc] at hr
      cases hr
  have hcalling' : s.hook.isSome = true → ∃ c, r.phase = .calling c := by
    rw [hfree]
    nofun
  rw [Relay.take] at hr
  -- an order to end would stand in the queue, all other messages are changes
  split at hr
  · rename_i c rest hphase hqueue
    cases hr
    refine ⟨⟨hattached, hsubscribed, by simp, ?_, hcalling'⟩, .taken rfl⟩
    exact fun hmem => horders (by rw [hqueue]; exact List.mem_cons_of_mem _ hmem)
  · rename_i rest hphase hqueue
    exact absurd (by rw [hqueue]; exact List.mem_cons_self) horders
  · rename_i d c rest hphase hqueue
    cases hr
    refine ⟨⟨hattached, hsubscribed, by simp, ?_, hcalling'⟩, .taken rfl⟩
    exact fun hmem => horders (by rw [hqueue]; exact List.mem_cons_of_mem _ hmem)
  · rename_i d rest hphase hqueue
    exact absurd (by rw [hqueue]; exact List.mem_cons_self) horders
  · rename_i latest hphase hqueue
    cases hr
    exact ⟨⟨hattached, hsubscribed, by simp, horders, hcalling'⟩, .due rfl hfree⟩
  · cases hr

/-- **Each act hands on what is pending**, unless a rebuild begins. -/
theorem Pending.step (hcalm : s.keeper.Calm) (hconnected : s.Connected) (howed : Owed log → s.Pending)
    (h : Happens b s a s') :
    s'.Connected ∧ (Owed (log ++ s.happenings a s') → s'.Pending) := by
  have hkept : ∀ k, Connected { s with keeper := k } := fun _ =>
    ⟨hconnected.attached, hconnected.subscribed, hconnected.running, hconnected.orders,
      hconnected.calling⟩
  cases h with
  | @kept a k ha hk =>
    refine ⟨hkept k, fun h => ?_⟩
    by_cases hedit : ∃ e, a = .edit e
    · obtain ⟨e, rfl⟩ := hedit
      cases hk
      exact pending_of_edit howed e h
    · exact pending_of_kept hcalm howed ha (fun e he => hedit ⟨e, he⟩) hk h
  | @told i c t hc ht =>
    -- the change leaves the list of those to be told and enters the queue
    subst ht
    rw [if_pos hconnected.attached]
    have htold := (hkept { s.keeper with world :=
      { s.keeper.world with untold := s.keeper.world.untold.eraseIdx i } }).publish c
    exact ⟨htold.1, fun _ => .queued htold.2⟩
  | published c =>
    have htold := hconnected.publish c
    exact ⟨htold.1, fun _ => .queued htold.2⟩
  | @called c hphase hhook =>
    -- the call wants a rebuild that begins after the one that is running, if any
    refine ⟨⟨hconnected.attached, hconnected.subscribed, hconnected.running, hconnected.orders,
      fun _ => ⟨c, hphase⟩⟩, fun _ => ?_⟩
    have hi : (s.keeper.addCall ((Request.trigger .runAfterCurrent).phase s.keeper.now) false).phase?
        s.keeper.calls.length = some (.looking (.trigger .runAfterCurrent) false) := by
      rw [Keeper.phase?_addCall rfl, if_pos rfl]
      rfl
    exact .awaited rfl hi trivial
  | @answered c i x hphase hhook hx =>
    refine ⟨⟨hconnected.attached, hconnected.subscribed, ?_, ?_, nofun⟩, fun h => ?_⟩
    · rw [(finish_eq _ _).2]
      simp
    · rw [(finish_eq _ _).1]
      exact hconnected.orders
    · rw [happenings_relay, Keeper.seen_nothing rfl, List.any_nil, if_neg (by simp), List.append_nil] at h
      exact pending_of_answer (howed h) hphase hhook hx
  | took hr =>
    obtain ⟨htaken, hpending⟩ := hconnected.take hr
    exact ⟨htaken, fun _ => hpending⟩

end Service

end SensorCatalog
