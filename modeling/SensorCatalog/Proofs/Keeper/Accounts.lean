import SensorCatalog.Proofs.Keeper.Passage
import SensorCatalog.Service.Basic

/-!
# Every call is accounted for

What is seen of the calls (`CallEvent`) is written into a log while the service runs, in whatever order its
threads move and whatever they do: calls from outside in either mode, those of the timer and of the relay,
calls that close the keeper, edits, answers of the archive that change from act to act.

* `Keeper.Accounts` — what holds of the keeper and the log at every moment: at most one rebuild is in
  progress, the count of rebuilds is right, each call that is over ran one rebuild or none, as its answer
  says, and who was content with another rebuild waited for the end of it.
* `Service.accounts` — it holds after every course.

The proof carries along `Ledger`, which says of each call that what has been seen of it fits its phase, and
of each call that waits which rebuild it met. Its step is `Ledger.pass` for a call that moves, and
`Ledger.add` for one that begins.
-/

namespace SensorCatalog

variable {b : Backend} {k k' k₁ : Keeper} {log : List (Nat × CallEvent)} {i : Nat} {c : Call}
  {phase : CallPhase}

/-! ### What is written -/

/-- Whether a call has a rebuild in progress: it has begun it and not recorded its end. -/
def Call.isBusy (c : Call) : Bool := c.phase.isBusy

namespace Keeper

/-- The call with this number has a rebuild in progress. -/
def Rebuilding (k : Keeper) (i : Nat) : Prop := ∃ c, k.calls[i]? = some c ∧ c.isBusy = true

/-- What is seen of a call between two states of the keeper. -/
def seen (k : Keeper) (i : Nat) (k' : Keeper) : List (Nat × CallEvent) :=
  match k.calls[i]?, k'.calls[i]? with
  | some c, some d => (c.phase.passage d.phase).toList.map (i, ·)
  | none, some d => d.phase.arrival.toList.map (i, ·)
  | _, none => []

/-- What is seen of a call that begins. -/
theorem seen_add {onTimer : Bool} (hcalls : k'.calls = k.calls ++ [⟨phase, onTimer⟩]) :
    k.seen k.calls.length k' = phase.arrival.toList.map (k.calls.length, ·) := by
  simp [seen, hcalls]

/-- What is seen of a call that goes on, whether or not others have been woken. -/
theorem seen_setPhase (hc : k.calls[i]? = some c)
    (hcalls : k₁.calls = k.calls ∨ k₁.calls = k.rouseAll.calls) :
    k.seen i (k₁.setPhase i phase) = (c.phase.passage phase).toList.map (i, ·) := by
  rcases hcalls with hsame | hroused
  · simp [seen, setPhase, hsame, hc]
  · simp [seen, setPhase, hroused, rouseAll, hc]

/-- Where no call begins, nothing is seen. -/
theorem seen_nothing (hcalls : k'.calls = k.calls) : k.seen k.calls.length k' = [] := by
  simp [seen, hcalls]

/-- A call is as busy as before when others have been woken. -/
theorem exists_woken (hc : k.calls[i]? = some c)
    (hcalls : k₁.calls = k.calls ∨ k₁.calls = k.rouseAll.calls) :
    ∃ c₁, k₁.calls[i]? = some c₁ ∧ c₁.isBusy = c.isBusy := by
  rcases hcalls with hsame | hroused
  · exact ⟨c, hsame ▸ hc, rfl⟩
  · refine ⟨{ c with phase := c.phase.rouse }, ?_, CallPhase.isBusy_rouse _⟩
    rw [hroused, rouseAll, List.getElem?_map, hc]
    rfl

/-- There are as many calls as before when others have been woken. -/
theorem length_woken (hcalls : k₁.calls = k.calls ∨ k₁.calls = k.rouseAll.calls) :
    k₁.calls.length = k.calls.length := by
  rcases hcalls with hsame | hroused
  · rw [hsame]
  · rw [hroused, rouseAll, List.length_map]

/-- The call that goes on in an act, or else the one that would begin in it. -/
def subject (k : Keeper) : KeeperAct → Nat
  | .move i | .item i _ | .wake i | .expire i => i
  | _ => k.calls.length

end Keeper

/-- The call to the keeper that goes on in an act, or else the one that would begin in it. -/
def Service.subject (s : Service) : ServiceAct → Nat
  | .keeper a => s.keeper.subject a
  | _ => s.keeper.calls.length

/-- What is written of an act. -/
def Service.note (s : Service) (m : ServiceAct × Backend) (s' : Service) : List (Nat × CallEvent) :=
  s.keeper.seen (s.subject m.1) s'.keeper

/-- Call `i` fell asleep while the rebuild of call `j` was in progress. -/
def Meets (log : List (Nat × CallEvent)) (i j : Nat) : Prop :=
  ∃ before since : List (Nat × CallEvent), log = before ++ (i, .waited) :: since ∧
    (j, .began) ∈ before ∧ (j, .ended) ∉ before

/-- Call `i` fell asleep while the rebuild of call `j` was in progress, and was content with it after its
end. -/
def Outwaits (log : List (Nat × CallEvent)) (i j : Nat) : Prop :=
  ∃ before since after : List (Nat × CallEvent),
    log = before ++ (i, .waited) :: (since ++ (i, .returned .coalesced) :: after) ∧
    (j, .began) ∈ before ∧ (j, .ended) ∉ before ∧ (j, .ended) ∈ since

/-- A rebuild that was met has been met for good. -/
theorem Meets.append {j : Nat} (h : Meets log i j) (more : List (Nat × CallEvent)) :
    Meets (log ++ more) i j := by
  obtain ⟨before, since, rfl, hj⟩ := h
  exact ⟨before, since ++ more, by simp, hj⟩

/-- A rebuild that was outwaited has been outwaited for good. -/
theorem Outwaits.append {j : Nat} (h : Outwaits log i j) (more : List (Nat × CallEvent)) :
    Outwaits (log ++ more) i j := by
  obtain ⟨before, since, after, rfl, hj⟩ := h
  exact ⟨before, since, after ++ more, by simp, hj⟩

/-- **The books of a keeper**, against what was seen of the calls. -/
structure Keeper.Accounts (k : Keeper) (log : List (Nat × CallEvent)) : Prop where
  /-- The calls with a rebuild in progress are those that were seen to begin one and not to end it. -/
  rebuilding_iff : ∀ i, k.Rebuilding i ↔ (i, .began) ∈ log ∧ (i, .ended) ∉ log
  /-- At most one rebuild is in progress. -/
  unique : ∀ i j, k.Rebuilding i → k.Rebuilding j → i = j
  /-- The keeper is idle exactly when none is. -/
  idle_iff : k.idle = true ↔ ∀ i, ¬ k.Rebuilding i
  /-- It counts the rebuilds that ended. -/
  completed : k.completed = log.countP (·.2.isEnded)
  /-- A call that returned ran one rebuild, begun and ended within the call, if it got the result of one;
  else it ran none. -/
  outcome : ∀ (i : Nat) (c : Call) (mode : TriggerMode) (a : Answer), k.calls[i]? = some c →
    (i, .called mode) ∈ log → c.phase = .returned a → CallRecord mode a (share i log)
  /-- A call that was content with another rebuild had met it, and returned after its end. -/
  outwaits : ∀ i, (i, .returned .coalesced) ∈ log → ∃ j, Outwaits log i j
  /-- When all calls are over, each is one rebuild, or was content with another, or was refused. -/
  total : (∀ c ∈ k.calls, ∃ a, c.phase = .returned a) →
    log.countP (·.2.isCalled) =
      k.completed + log.countP (·.2.isCoalesced) + log.countP (·.2.isRefused)

/-! ### The ledger -/

/-- What holds of the keeper and the log after every act. -/
structure Ledger (k : Keeper) (log : List (Nat × CallEvent)) : Prop where
  /-- Nobody is busy when the keeper is idle, else one call is. -/
  busy : k.calls.countP Call.isBusy + (if k.idle then 1 else 0) = 1
  /-- The rebuilds that ended are counted. -/
  completed : k.completed = log.countP (·.2.isEnded)
  /-- What was seen of a call fits its phase. -/
  fits : ∀ (i : Nat) (c : Call), k.calls[i]? = some c → c.phase.Fits (share i log)
  /-- Only calls are seen. -/
  known : ∀ x ∈ log, x.1 < k.calls.length
  /-- Whoever fell asleep met a rebuild. -/
  meets : ∀ i, (i, .waited) ∈ log → ∃ j, Meets log i j
  /-- Whoever was content with another rebuild returned after its end. -/
  outwaits : ∀ i, (i, .returned .coalesced) ∈ log → ∃ j, Outwaits log i j

namespace Ledger

/-- Before the first call there is nothing to be booked. -/
theorem create (steps : List Step) (interval : Nat) (world : World) :
    Ledger (Keeper.create steps interval world) [] where
  busy := rfl
  completed := rfl
  fits _ _ h := by cases h
  known := nofun
  meets := nofun
  outwaits := nofun

/-- The books do not depend on the timer, the clock or the world. -/
theorem congr (h : Ledger k log) (hcalls : k'.calls = k.calls) (hidle : k'.idle = k.idle)
    (hcompleted : k'.completed = k.completed) : Ledger k' log := by
  obtain ⟨h₁, h₂, h₃, h₄, h₅, h₆⟩ := h
  exact ⟨by rw [hcalls, hidle]; exact h₁, hcompleted.trans h₂, by rw [hcalls]; exact h₃,
    by rw [hcalls]; exact h₄, h₅, h₆⟩

/-- While a call is busy, the keeper is not idle. -/
theorem idle_eq_false (h : Ledger k log) (hc : k.calls[i]? = some c) (hbusy : c.isBusy = true) :
    k.idle = false := by
  have hpos : 0 < k.calls.countP Call.isBusy :=
    List.countP_pos_iff.2 ⟨c, List.mem_of_getElem? hc, hbusy⟩
  have hone := h.busy
  cases hidle : k.idle with
  | false => rfl
  | true =>
    rw [hidle, if_pos rfl] at hone
    omega

/-- While the keeper is not idle, some call is busy. -/
theorem exists_busy (h : Ledger k log) (hidle : k.idle = false) : ∃ j, k.Rebuilding j := by
  have hone := h.busy
  rw [hidle] at hone
  have hpos : 0 < k.calls.countP Call.isBusy := by
    rw [if_neg Bool.false_ne_true] at hone
    omega
  obtain ⟨c, hmem, hbusy⟩ := List.countP_pos_iff.1 hpos
  obtain ⟨j, hj⟩ := List.mem_iff_getElem?.1 hmem
  exact ⟨j, c, hj, hbusy⟩

/-- The log says which calls are busy. -/
theorem rebuilding_iff (h : Ledger k log) (i : Nat) :
    k.Rebuilding i ↔ (i, .began) ∈ log ∧ (i, .ended) ∉ log := by
  rw [← mem_share, ← mem_share]
  constructor
  · rintro ⟨c, hc, hbusy⟩
    exact (h.fits i c hc).of_isBusy hbusy
  · rintro ⟨hbegan, hended⟩
    have hi := h.known _ (mem_share.1 hbegan)
    refine ⟨k.calls[i], List.getElem?_eq_getElem hi, ?_⟩
    -- a call that is through with its rebuild has been seen to end it
    by_contra hbusy
    have hfree : k.calls[i].phase.isBusy = false := Bool.eq_false_iff.2 hbusy
    exact hended ((h.fits i _ (List.getElem?_eq_getElem hi)).ended_of_began hfree hbegan)

/-- Whoever falls asleep now meets a rebuild. -/
theorem meets_now (h : Ledger k log) (hidle : k.idle = false) (i : Nat) :
    ∃ j, Meets (log ++ [(i, .waited)]) i j := by
  -- some call is busy, and the log says which
  obtain ⟨j, hj⟩ := h.exists_busy hidle
  exact ⟨j, log, [], rfl, (h.rebuilding_iff j).1 hj⟩

/-- Whoever met a rebuild and finds none running has waited for its end. -/
theorem outwaits_now (h : Ledger k log) (hidle : k.idle = true) (hwaited : (i, .waited) ∈ log) :
    ∃ j, Outwaits (log ++ [(i, .returned .coalesced)]) i j := by
  obtain ⟨j, before, since, hlog, hbegan, hunended⟩ := h.meets i hwaited
  refine ⟨j, before, since, [], by simp [hlog], hbegan, hunended, ?_⟩
  -- nobody is busy now, so the end of that rebuild has been seen, and it was not seen before
  have hnone : ¬ k.Rebuilding j := by
    rintro ⟨c, hc, hbusy⟩
    rw [h.idle_eq_false hc hbusy] at hidle
    cases hidle
  have hended : (j, .ended) ∈ log := by
    by_contra hnot
    exact hnone ((h.rebuilding_iff j).2 ⟨by simp [hlog, hbegan], hnot⟩)
  rw [hlog, List.mem_append, List.mem_cons] at hended
  rcases hended with hmem | heq | hmem
  · exact absurd hmem hunended
  · cases heq
  · exact hmem

/-- Waking all who sleep leaves the books as they are. -/
theorem rouseAll (h : Ledger k log) : Ledger k.rouseAll log where
  busy := by
    have hsame : (k.rouseAll.calls).countP Call.isBusy = k.calls.countP Call.isBusy := by
      rw [Keeper.rouseAll, List.countP_map]
      exact List.countP_congr fun c _ => by simp [Call.isBusy]
    rw [hsame]
    exact h.busy
  completed := h.completed
  fits i c hc := by
    rw [Keeper.rouseAll, List.getElem?_map] at hc
    obtain ⟨d, hd, rfl⟩ := Option.map_eq_some_iff.1 hc
    exact (h.fits i d hd).rouse
  known x hx := by simpa [Keeper.rouseAll] using h.known x hx
  meets := h.meets
  outwaits := h.outwaits

/-- To wake all who sleep changes nothing in the books. -/
theorem woken (h : Ledger k log) (hcalls : k₁.calls = k.calls ∨ k₁.calls = k.rouseAll.calls) :
    Ledger { k with calls := k₁.calls } log := by
  rcases hcalls with hsame | hroused
  · exact h.congr hsame rfl rfl
  · exact h.rouseAll.congr hroused rfl rfl

/-- **A call begins.** -/
theorem add (h : Ledger k log) (onTimer : Bool) (hbusy : phase.isBusy = false)
    (hfits : phase.Fits phase.arrival.toList) :
    Ledger (k.addCall phase onTimer)
      (log ++ phase.arrival.toList.map (k.calls.length, ·)) := by
  -- nothing has been seen of a call with this number
  have hnew : share k.calls.length log = [] := by
    rw [share, List.filterMap_eq_nil_iff]
    intro x hx
    exact if_neg (h.known x hx).ne
  have hcalled : ∀ x ∈ phase.arrival.toList.map (k.calls.length, ·), x.2.isCalled = true := by
    intro x hx
    obtain ⟨e, he, rfl⟩ := List.mem_map.1 hx
    exact CallPhase.isCalled_of_arrival (Option.mem_toList.1 he)
  -- nothing but the call itself is written of its beginning
  have hold : ∀ x ∈ log ++ phase.arrival.toList.map (k.calls.length, ·), x.2.isCalled = false → x ∈ log := by
    intro x hx hother
    rcases List.mem_append.1 hx with hx | hx
    · exact hx
    · rw [hcalled x hx] at hother
      cases hother
  have hnone : ∀ x ∈ phase.arrival.toList.map (k.calls.length, ·), ¬ x.2.isEnded = true := by
    intro x hx hended
    have hcalled := hcalled x hx
    cases hx : x.2 <;> simp [hx, CallEvent.isCalled, CallEvent.isEnded] at hcalled hended
  refine ⟨?_, ?_, ?_, ?_, ?_, ?_⟩
  · -- a call is not busy when it begins
    rw [Keeper.addCall, List.countP_append, List.countP_singleton, Call.isBusy, hbusy]
    exact h.busy
  · rw [List.countP_append, List.countP_eq_zero.2 hnone]
    exact h.completed
  · intro i c hc
    -- the new call is the last one, and all others are where they were
    rw [Keeper.addCall, List.getElem?_append] at hc
    split at hc
    · rename_i hi
      rw [share_append, share_other (by omega), List.append_nil]
      exact h.fits i c hc
    · rename_i hi
      obtain ⟨hlt, rfl⟩ := List.getElem?_eq_some_iff.1 hc
      obtain rfl : i = k.calls.length := by simp at hlt; omega
      rw [share_append, hnew, share_self]
      simpa using hfits
  · intro x hx
    rw [Keeper.addCall, List.length_append]
    rcases List.mem_append.1 hx with hx | hx
    · have := h.known x hx
      omega
    · obtain ⟨e, -, rfl⟩ := List.mem_map.1 hx
      simp
  · intro i hi
    obtain ⟨j, hj⟩ := h.meets i (hold _ hi rfl)
    exact ⟨j, hj.append _⟩
  · intro i hi
    obtain ⟨j, hj⟩ := h.outwaits i (hold _ hi rfl)
    exact ⟨j, hj.append _⟩

/-- **A call goes on.** -/
theorem pass (h : Ledger k log) (hc : k.calls[i]? = some c) (hp : Keeper.Passage k c.phase phase k₁) :
    Ledger (k₁.setPhase i phase) (log ++ (c.phase.passage phase).toList.map (i, ·)) := by
  have hfits := h.fits i c hc
  have h₁ := h.woken hp.calls
  obtain ⟨c₁, hc₁, hbusy₁⟩ := Keeper.exists_woken hc hp.calls
  refine ⟨?_, ?_, ?_, ?_, ?_, ?_⟩
  · -- what the call gains the keeper loses, and the sum stays one
    have hcount := countP_set_add hc₁ { c₁ with phase := phase } Call.isBusy
    have hbefore := h₁.busy
    have hafter : (if ({ c₁ with phase := phase } : Call).isBusy then 1 else 0) +
        (if k₁.idle then 1 else 0) = (if c.isBusy then 1 else 0) + (if k.idle then 1 else 0) :=
      hp.busy (h.idle_eq_false hc)
    rw [Keeper.calls_setPhase hc₁]
    show (k₁.calls.set i { c₁ with phase := phase }).countP Call.isBusy + (if k₁.idle then 1 else 0) = 1
    rw [hbusy₁] at hcount
    change k₁.calls.countP Call.isBusy + (if k.idle then 1 else 0) = 1 at hbefore
    omega
  · -- the end of a rebuild is seen when it is recorded
    rw [List.countP_append, ← h.completed]
    show k₁.completed = _
    rw [hp.completed]
    cases c.phase.passage phase with
    | none => rfl
    | some e => simp [List.countP_singleton]
  · -- what is seen now belongs to the share of the call that goes on
    intro j d hd
    rw [Keeper.calls_setPhase hc₁, List.getElem?_set] at hd
    split at hd
    · rename_i hij
      subst hij
      rw [if_pos (List.getElem?_eq_some_iff.1 hc₁).1] at hd
      cases hd
      rw [share_append, share_self]
      exact hp.fits _ hfits
    · rename_i hij
      rw [share_append, share_other hij, List.append_nil]
      exact h₁.fits j d hd
  · intro x hx
    rw [Keeper.calls_setPhase hc₁, List.length_set, Keeper.length_woken hp.calls]
    rcases List.mem_append.1 hx with hx | hx
    · exact h.known x hx
    · obtain ⟨e, -, rfl⟩ := List.mem_map.1 hx
      exact (List.getElem?_eq_some_iff.1 hc).1
  · intro j hj
    rcases List.mem_append.1 hj with hj | hj
    · obtain ⟨m, hm⟩ := h.meets j hj
      exact ⟨m, hm.append _⟩
    · -- the call that falls asleep is the one that goes on
      obtain ⟨e, he, heq⟩ := List.mem_map.1 hj
      obtain ⟨rfl, rfl⟩ := Prod.mk.inj heq
      have hseen := Option.mem_toList.1 he
      rw [hseen]
      exact h.meets_now (hp.waited hseen) i
  · intro j hj
    rcases List.mem_append.1 hj with hj | hj
    · obtain ⟨m, hm⟩ := h.outwaits j hj
      exact ⟨m, hm.append _⟩
    · -- the call that returns is the one that goes on, and it has been seen asleep
      obtain ⟨e, he, heq⟩ := List.mem_map.1 hj
      obtain ⟨rfl, rfl⟩ := Prod.mk.inj heq
      have hseen := Option.mem_toList.1 he
      obtain ⟨hidle, hphase⟩ := hp.coalesced _ hfits hseen
      rw [hphase] at hfits
      rw [hseen]
      exact h.outwaits_now hidle (mem_share.1 (by rw [show share i log = _ from hfits]; simp))

/-- What is seen of a call that begins is booked. -/
theorem seen_add (h : Ledger k log) (onTimer : Bool) (hbusy : phase.isBusy = false)
    (hfits : phase.Fits phase.arrival.toList) (hcalls : k'.calls = k.calls ++ [⟨phase, onTimer⟩])
    (hidle : k'.idle = k.idle) (hcompleted : k'.completed = k.completed) :
    Ledger k' (log ++ k.seen k.calls.length k') := by
  rw [Keeper.seen_add hcalls]
  exact (h.add onTimer hbusy hfits).congr hcalls hidle hcompleted

/-- What is seen of a call that goes on is booked. -/
theorem seen_pass (h : Ledger k log) (hc : k.calls[i]? = some c)
    (hp : Keeper.Passage k c.phase phase k₁) :
    Ledger (k₁.setPhase i phase) (log ++ k.seen i (k₁.setPhase i phase)) := by
  rw [Keeper.seen_setPhase hc hp.calls]
  exact h.pass hc hp

/-- What changes neither the calls nor the two numbers needs no entry. -/
theorem seen_nothing (h : Ledger k log) (hcalls : k'.calls = k.calls) (hidle : k'.idle = k.idle)
    (hcompleted : k'.completed = k.completed) : Ledger k' (log ++ k.seen k.calls.length k') := by
  rw [Keeper.seen_nothing hcalls, List.append_nil]
  exact h.congr hcalls hidle hcompleted

/-- **One act of the keeper.** -/
theorem step {a : KeeperAct} (h : Ledger k log) (hstep : k.step b a = some k') :
    Ledger k' (log ++ k.seen (k.subject a) k') := by
  cases Keeper.Happens.of_step hstep with
  | began r =>
    exact h.seen_add false (CallPhase.isBusy_request r k.now) (CallPhase.fits_request r k.now) rfl rfl rfl
  | moved hc hadvance => exact h.seen_pass hc hadvance.passes
  | itemMoved hc hrun =>
    -- the rebuild moves inside the call that runs it
    exact h.seen_pass hc <| .unseen (.inl rfl) rfl rfl rfl rfl fun events hfits =>
      ⟨hfits.1, Run.result?_ne_closing hrun⟩
  | @woke i p onTimer hc =>
    exact h.seen_pass hc <| .unseen (.inl rfl) rfl rfl (by cases p <;> rfl) rfl fun events hfits =>
      hfits.rouse
  | expired hc hdue =>
    exact h.seen_pass hc <| .unseen (.inl rfl) rfl rfl rfl rfl fun events hfits => .inl hfits
  | fired htick hlook hfiring =>
    -- the thread of the timer calls like anybody else
    exact h.seen_add true (CallPhase.isBusy_request (.trigger .coalesce) k.now)
      (CallPhase.fits_request (.trigger .coalesce) k.now) rfl rfl rfl
  | resumed htick hover => exact h.seen_nothing rfl rfl rfl
  | looked htick hlook hfiring => exact h.seen_nothing rfl rfl rfl
  | passed span => exact h.seen_nothing rfl rfl rfl
  | edited e => exact h.seen_nothing rfl rfl rfl
  | gated closed => exact h.seen_nothing rfl rfl rfl

/-- **One act of the service**, which is one of the keeper or leaves its books alone. -/
theorem step_service {s s' : Service} {a : ServiceAct} (h : Ledger s.keeper log)
    (hstep : s.step b a = some s') : Ledger s'.keeper (log ++ s.note (a, b) s') := by
  cases a with
  | keeper a =>
    obtain ⟨k', hk, rfl⟩ := Option.map_eq_some_iff.1 hstep
    exact h.step hk
  | tell i =>
    -- to tell of an edit changes the world alone
    simp only [Service.step, Service.tellUntold] at hstep
    split at hstep
    · cases hstep
    · cases hstep
      split
      · exact h.seen_nothing rfl rfl rfl
      · exact h.seen_nothing rfl rfl rfl
  | publish c => cases hstep; exact h.seen_nothing rfl rfl rfl
  | relay =>
    simp only [Service.step, Service.moveRelay] at hstep
    split at hstep
    · -- the relay calls like anybody else
      cases hstep
      exact h.seen_add false (CallPhase.isBusy_request _ _) (CallPhase.fits_request _ _) rfl rfl rfl
    -- it looks at a call of its own, and the keeper stays as it is
    · split at hstep
      · cases hstep
      · cases hstep
        exact h.seen_nothing rfl rfl rfl
    · obtain ⟨r, -, rfl⟩ := Option.map_eq_some_iff.1 hstep
      exact h.seen_nothing rfl rfl rfl
  | beginClosing => cases hstep; exact h.seen_nothing rfl rfl rfl
  | close i =>
    simp only [Service.step, Service.moveClosing] at hstep
    split at hstep
    · obtain ⟨⟨r, more⟩, -, rfl⟩ := Option.map_eq_some_iff.1 hstep
      exact h.seen_nothing rfl rfl rfl
    · cases hstep

/-- At most one call is busy. -/
theorem unique (h : Ledger k log) {i j : Nat} (hi : k.Rebuilding i) (hj : k.Rebuilding j) : i = j := by
  obtain ⟨c, hc, hbusy⟩ := hi
  obtain ⟨d, hd, hother⟩ := hj
  by_contra hne
  -- without the first call, the second one would still be counted
  have hcount := countP_set_add hc ⟨.starting, c.onTimer⟩ Call.isBusy
  have hpos : 0 < (k.calls.set i ⟨.starting, c.onTimer⟩).countP Call.isBusy := by
    refine List.countP_pos_iff.2 ⟨d, List.mem_of_getElem? (i := j) ?_, hother⟩
    rw [List.getElem?_set_ne hne]
    exact hd
  have hone := h.busy
  rw [if_pos hbusy] at hcount
  have hfree : (if (⟨.starting, c.onTimer⟩ : Call).isBusy then 1 else 0) = 0 := rfl
  omega

/-- The keeper is idle when no call is busy. -/
theorem idle_iff (h : Ledger k log) : k.idle = true ↔ ∀ i, ¬ k.Rebuilding i := by
  constructor
  · rintro hidle i ⟨c, hc, hbusy⟩
    rw [h.idle_eq_false hc hbusy] at hidle
    cases hidle
  · intro hnone
    by_contra hbusy
    obtain ⟨j, hj⟩ := h.exists_busy (by simpa using hbusy)
    exact hnone j hj

/-- A call that is over ran one rebuild, or was content with another one, or was refused. -/
theorem balance (h : Ledger k log) (hc : k.calls[i]? = some c) {a : Answer}
    (hover : c.phase = .returned a) :
    (share i log).countP (·.isCalled) = (share i log).countP (·.isEnded) +
      (share i log).countP (·.isCoalesced) + (share i log).countP (·.isRefused) := by
  have hfits := h.fits i c hc
  rw [hover] at hfits
  obtain hnil | ⟨mode, hrecord⟩ := hfits
  · simp [hnil]
  · exact hrecord.balance

/-- When all calls are over, the same holds of all of them together. -/
theorem total (h : Ledger k log) (hover : ∀ c ∈ k.calls, ∃ a, c.phase = .returned a) :
    log.countP (·.2.isCalled) =
      k.completed + log.countP (·.2.isCoalesced) + log.countP (·.2.isRefused) := by
  rw [h.completed, countP_shares h.known CallEvent.isCalled, countP_shares h.known CallEvent.isEnded,
    countP_shares h.known CallEvent.isCoalesced, countP_shares h.known CallEvent.isRefused,
    ← List.sum_map_add, ← List.sum_map_add]
  -- call by call
  refine congrArg List.sum (List.map_congr_left fun i hi => ?_)
  have hi := List.mem_range.1 hi
  obtain ⟨a, ha⟩ := hover _ (List.getElem_mem hi)
  exact h.balance (List.getElem?_eq_getElem hi) ha

/-- So the books are right. -/
theorem books (h : Ledger k log) : k.Accounts log where
  rebuilding_iff := h.rebuilding_iff
  unique _ _ := h.unique
  idle_iff := h.idle_iff
  completed := h.completed
  outcome i c mode a hc hcalled hover := by
    have hfits := h.fits i c hc
    rw [hover] at hfits
    rw [← mem_share] at hcalled
    obtain hnil | ⟨mode', hrecord⟩ := hfits
    · rw [hnil] at hcalled
      cases hcalled
    · rwa [hrecord.mode_eq hcalled]
  outwaits := h.outwaits
  total := h.total

end Ledger

/-! ### The books of the service -/

/-- **Every call is accounted for**, whatever the threads of the service do and in whatever order, and
whatever the archive answers. -/
theorem Service.accounts {s₀ s : Service} {steps : List Step} {interval : Nat} {world : World}
    (hfresh : s₀.keeper = Keeper.create steps interval world)
    (h : Course (fun s (m : ServiceAct × Backend) => s.step m.2 m.1) Service.note s₀ log s) :
    s.keeper.Accounts log := by
  suffices hledger : Ledger s.keeper log from hledger.books
  -- over the course, with the ledger as its invariant
  induction h with
  | start => exact hfresh ▸ Ledger.create steps interval world
  | act before hstep ih => exact ih.step_service hstep

/-- Three calls and one that closes the keeper. The second and the third call wait for the rebuild of the
first. -/
def closingActs : List (ServiceAct × Backend) :=
  let acts : List KeeperAct := List.flatten
    [[.begin (.trigger .coalesce), .move 0, .begin (.trigger .coalesce), .move 1,
        .begin (.trigger .runAfterCurrent), .move 2, .begin .cleanup, .move 3, .move 3, .wake 1, .move 1],
      List.replicate 7 (.move 0), [.move 1, .move 2], List.replicate 4 (.move 3)]
  acts.map fun a => (.keeper a, World.initial.archive.backend)

/-- The second call is content with the rebuild of the first, and the third one is refused. -/
theorem Service.accounts_closing : ∃ log s,
    Course (fun s (m : ServiceAct × Backend) => s.step m.2 m.1) Service.note
      (Service.create (Keeper.create [] 60 World.initial)).attachRelay log s ∧
    s.keeper.Accounts log ∧ log.countP (·.2.isCalled) = 3 ∧ log.countP (·.2.isEnded) = 1 ∧
    log.countP (·.2.isCoalesced) = 1 ∧ log.countP (·.2.isRefused) = 1 := by
  have hcourse : (carryOut (fun s (m : ServiceAct × Backend) => s.step m.2 m.1) Service.note closingActs
      ([], (Service.create (Keeper.create [] 60 World.initial)).attachRelay)).map (fun r =>
        (r.1.countP (·.2.isCalled), r.1.countP (·.2.isEnded), r.1.countP (·.2.isCoalesced),
          r.1.countP (·.2.isRefused))) = some (3, 1, 1, 1) := by
    decide +kernel
  obtain ⟨⟨log, s⟩, hcarried, hcounts⟩ := Option.map_eq_some_iff.1 hcourse
  have h := Course.of_carryOut closingActs .start hcarried
  simp only [Prod.mk.injEq] at hcounts
  exact ⟨log, s, h, Service.accounts rfl h, hcounts⟩

end SensorCatalog
