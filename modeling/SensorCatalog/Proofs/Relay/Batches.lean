import SensorCatalog.Proofs.Course
import SensorCatalog.Relay.Basic

/-!
# The batches of a relay

The log of a relay says when a change is told, when the thread takes it, and when a call begins and ends
(`RelayNote`). What the thread takes between two calls is a batch (`Relay.batches`), and what it has taken
since the last call is drained but not yet relayed (`Relay.drained`). `Relay.Performs` has one rule for each
thing that can happen.

The queue is first in, first out, and nobody but the thread takes from it. So as long as the thread is there,
what was put into the queue is what was taken, followed by what is in the queue (`Relay.Tracks`). Everything
else follows from this and from what the thread has drained in each of its phases: the batches are pieces of
what was told, one after the other (`Relay.relays`). A change is left over only if it was told after the
order to end, or drained when this order came.
-/

namespace SensorCatalog

/-- What is worth noting of a relay. -/
inductive RelayNote where
  /-- The relay is told a change. -/
  | sent (c : Change)
  /-- The relay is given the order to end. -/
  | ordered
  /-- The thread takes a change. -/
  | took (c : Change)
  /-- The thread takes the order to end. -/
  | stopped
  /-- A call for a change of this kind begins. -/
  | called (k : ChangeKind)
  /-- The call is over. -/
  | returned (outcome : RelayOutcome)
  deriving DecidableEq

namespace RelayNote

/-- The change that was told. -/
@[simp] def sent? : RelayNote → Option Change
  | .sent c => some c
  | _ => none

/-- The change that was taken. -/
@[simp] def took? : RelayNote → Option Change
  | .took c => some c
  | _ => none

/-- What was put into the queue. -/
@[simp] def message? : RelayNote → Option Message
  | .sent c => some (.change c)
  | .ordered => some .shutdown
  | _ => none

/-- The kind that a call is for. -/
@[simp] def called? : RelayNote → Option ChangeKind
  | .called k => some k
  | _ => none

/-- Whether a call is over. -/
@[simp] def isReturned : RelayNote → Bool
  | .returned _ => true
  | _ => false

end RelayNote

/-- The change in a message. -/
def Message.change? : Message → Option Change
  | .change c => some c
  | .shutdown => none

/-- Whether the thread is about to take a message. -/
def RelayPhase.isTaking : RelayPhase → Bool
  | .receiving | .draining _ => true
  | .calling _ | .ended => false

/-- Whether the thread is making a call. -/
def RelayPhase.isCalling : RelayPhase → Bool
  | .calling _ => true
  | .receiving | .draining _ | .ended => false

/-- A relay that takes messages is not in the middle of a call. -/
theorem RelayPhase.isCalling_of_isTaking {p : RelayPhase} (h : p.isTaking = true) : p.isCalling = false := by
  cases p with
  | receiving | draining | ended => rfl
  | calling c => cases h

/-- A relay that takes messages has not come to its end. -/
theorem RelayPhase.ne_ended_of_isTaking {p : RelayPhase} (h : p.isTaking = true) : p ≠ .ended := by
  rintro rfl
  cases h

namespace Relay

/-- The note of an act. -/
def note (r : Relay) (a : RelayAct) (_ : Relay) : List RelayNote :=
  match a with
  | .tell c => [.sent c]
  | .take =>
    match r.phase, r.queue with
    | .draining latest, [] => [.called latest.kind]
    | _, .change c :: _ => [.took c]
    | _, .shutdown :: _ => [.stopped]
    | _, [] => []
  | .finish outcome => [.returned outcome]
  | .close .order => if r.canOrder then [.ordered] else []
  | .close _ => []

/-! ### What a log says -/

/-- The changes that were told. -/
def sent (log : List RelayNote) : List Change := log.filterMap RelayNote.sent?

/-- What was put into the queue. -/
def messages (log : List RelayNote) : List Message := log.filterMap RelayNote.message?

/-- The changes that the thread took. -/
def taken (log : List RelayNote) : List Change := log.filterMap RelayNote.took?

/-- The kinds that calls were made for. -/
def calls (log : List RelayNote) : List ChangeKind := log.filterMap RelayNote.called?

/-- Puts what is taken to the open batch. A call closes the batch. -/
@[simp] def gatherNote (g : List (List Change) × List Change) : RelayNote → List (List Change) × List Change
  | .took c => (g.1, g.2 ++ [c])
  | .called _ => (g.1 ++ [g.2], [])
  | _ => g

/-- The closed batches, and the open one. -/
def gather (log : List RelayNote) : List (List Change) × List Change := log.foldl gatherNote ([], [])

/-- **Batches**: what the thread took before the first call, between the first and the second one, and so
on. -/
def batches (log : List RelayNote) : List (List Change) := (gather log).1

/-- What the thread took since the last call. -/
def drained (log : List RelayNote) : List Change := (gather log).2

/-- Batches are gathered note by note. -/
theorem batches_append (log more : List RelayNote) :
    batches (log ++ more) = (more.foldl gatherNote (batches log, drained log)).1 := by
  rw [batches, gather, List.foldl_append]
  rfl

/-- What is open of the last batch is gathered note by note. -/
theorem drained_append (log more : List RelayNote) :
    drained (log ++ more) = (more.foldl gatherNote (batches log, drained log)).2 := by
  rw [drained, gather, List.foldl_append]
  rfl

/-- A longer log has more batches, and the same ones at the beginning. -/
theorem batches_mono (log more : List RelayNote) : batches log <+: batches (log ++ more) := by
  rw [batches_append]
  -- no note takes a batch away
  show (batches log, drained log).1 <+: _
  generalize (batches log, drained log) = g
  induction more generalizing g with
  | nil => exact List.prefix_refl _
  | cons n more ih =>
    refine List.IsPrefix.trans ?_ (ih (gatherNote g n))
    cases n <;> simp [gatherNote]

/-- **Each change that was taken is in one batch**, the open one included. -/
theorem taken_eq (log : List RelayNote) : taken log = (batches log).flatten ++ drained log := by
  induction log using List.reverseRecOn with
  | nil => rfl
  | append_singleton log n ih =>
    rw [batches_append, drained_append, taken, List.filterMap_append, ← taken, ih]
    cases n <;> simp [gatherNote]

/-- There are as many batches as calls. -/
theorem length_batches (log : List RelayNote) : (batches log).length = (calls log).length := by
  induction log using List.reverseRecOn with
  | nil => rfl
  | append_singleton log n ih =>
    rw [batches_append, calls, List.filterMap_append, ← calls, List.length_append, ← ih]
    cases n <;> simp [gatherNote]

/-- One more note may close the open batch. -/
@[simp] theorem batches_concat (log : List RelayNote) (n : RelayNote) :
    batches (log ++ [n]) = (gatherNote (batches log, drained log) n).1 :=
  batches_append log [n]

/-- One more note has its effect on the open batch. -/
@[simp] theorem drained_concat (log : List RelayNote) (n : RelayNote) :
    drained (log ++ [n]) = (gatherNote (batches log, drained log) n).2 :=
  drained_append log [n]

/-- One more note adds the change that is sent with it. -/
@[simp] theorem sent_concat (log : List RelayNote) (n : RelayNote) :
    sent (log ++ [n]) = sent log ++ n.sent?.toList := by
  cases n <;> simp [sent]

/-- One more note adds the message that is put into the queue with it. -/
@[simp] theorem messages_concat (log : List RelayNote) (n : RelayNote) :
    messages (log ++ [n]) = messages log ++ n.message?.toList := by
  cases n <;> simp [messages]

/-- One more note adds the change that is taken with it. -/
@[simp] theorem taken_concat (log : List RelayNote) (n : RelayNote) :
    taken (log ++ [n]) = taken log ++ n.took?.toList := by
  cases n <;> simp [taken]

/-- One more note adds the call that begins with it. -/
@[simp] theorem calls_concat (log : List RelayNote) (n : RelayNote) :
    calls (log ++ [n]) = calls log ++ n.called?.toList := by
  cases n <;> simp [calls]

/-- What is sent are the changes among the messages. -/
theorem sent_eq_filterMap_messages (log : List RelayNote) :
    sent log = (messages log).filterMap Message.change? := by
  rw [sent, messages, List.filterMap_filterMap]
  congr 1
  funext n
  cases n <;> rfl

/-! ### What can happen -/

/-- **What can happen to a relay**, with the note of it. -/
inductive Performs (r : Relay) : RelayAct → List RelayNote → Relay → Prop where
  | told (c : Change) : Performs r (.tell c) [.sent c] (r.tell c)
  | took {c : Change} {rest : List Message} (hphase : r.phase.isTaking = true)
    (hqueue : r.queue = .change c :: rest) :
    Performs r .take [.took c] { r with phase := .draining c, queue := rest }
  | stopped {rest : List Message} (hphase : r.phase.isTaking = true) (hqueue : r.queue = .shutdown :: rest) :
    Performs r .take [.stopped] { r with phase := .ended, queue := [] }
  | called {latest : Change} (hphase : r.phase = .draining latest) (hqueue : r.queue = []) :
    Performs r .take [.called latest.kind] { r with phase := .calling latest, queue := [] }
  | returned {c : Change} (outcome : RelayOutcome) (hphase : r.phase = .calling c) :
    Performs r (.finish outcome) [.returned outcome] (r.finish outcome)
  | ordered (hcan : r.canOrder = true) :
    Performs r (.close .order) [.ordered] ({ r with canOrder := false }.send .shutdown)
  -- all other sections touch neither the thread nor the queue
  | closed (x : RelaySection) (subscribed hasThread : Bool) :
    Performs r (.close x) [] { r with subscribed, hasThread }

variable {r u : Relay} {a : RelayAct} {log : List RelayNote}

/-- Every act is one of these. -/
theorem Performs.of_step (h : r.step a = some u) : Performs r a (r.note a u) u := by
  cases a with
  | tell c =>
    cases h
    exact .told c
  | take =>
    rw [step, take] at h
    unfold note
    -- the messages of a queue are taken one by one, outside a batch or in the middle of one
    split at h
    · rename_i c rest hphase hqueue
      cases h
      simp only [hphase, hqueue]
      exact .took (by rw [hphase]; rfl) hqueue
    · rename_i rest hphase hqueue
      cases h
      simp only [hphase, hqueue]
      exact .stopped (by rw [hphase]; rfl) hqueue
    · rename_i latest c rest hphase hqueue
      cases h
      simp only [hphase, hqueue]
      exact .took (by rw [hphase]; rfl) hqueue
    · rename_i latest rest hphase hqueue
      cases h
      simp only [hphase, hqueue]
      exact .stopped (by rw [hphase]; rfl) hqueue
    -- the queue is empty, so the open batch is complete
    · rename_i latest hphase hqueue
      cases h
      simp only [hphase, hqueue]
      exact .called hphase hqueue
    · cases h
  | finish outcome =>
    rw [step] at h
    split at h
    · rename_i c hphase
      cases h
      exact .returned outcome hphase
    · cases h
  | close x =>
    obtain ⟨⟨u, more⟩, hclose, rfl⟩ := Option.map_eq_some_iff.1 h
    cases x with
    -- a relay is closed in four sections, and only the order to end is a message
    | unsubscribe =>
      cases hclose
      exact .closed .unsubscribe false r.hasThread
    | order =>
      rw [close] at hclose
      unfold note
      split at hclose
      · rename_i hcan
        cases hclose
        simp only [hcan]
        exact .ordered hcan
      · rename_i hcan
        cases hclose
        simp only [hcan]
        exact .closed .order r.subscribed r.hasThread
    | release =>
      rw [close] at hclose
      split at hclose
      · cases hclose
        exact .closed .release r.subscribed false
      · cases hclose
        exact .closed .release r.subscribed r.hasThread
    | join =>
      rw [close] at hclose
      split at hclose
      · cases hclose
        exact .closed .join r.subscribed r.hasThread
      · cases hclose

/-- No act has more than one note. -/
theorem length_note_le (r : Relay) (a : RelayAct) (u : Relay) : (r.note a u).length ≤ 1 := by
  unfold note
  split
  -- only to take a message and to give the order may or may not leave a note
  case h_2 => split <;> exact Nat.le_of_ble_eq_true rfl
  case h_4 => split <;> exact Nat.le_of_ble_eq_true rfl
  all_goals exact Nat.le_of_ble_eq_true rfl

/-! ### What a relay keeps track of -/

@[simp] theorem finish_queue (r : Relay) (outcome : RelayOutcome) : (r.finish outcome).queue = r.queue := by
  unfold finish
  split <;> rfl

@[simp] theorem finish_phase (r : Relay) (outcome : RelayOutcome) :
    (r.finish outcome).phase = .receiving := by
  unfold finish
  split <;> rfl

@[simp] theorem finish_canOrder (r : Relay) (outcome : RelayOutcome) :
    (r.finish outcome).canOrder = r.canOrder := by
  unfold finish
  split <;> rfl

/-- Each call that is over is counted as a success or as a failure, or it was refused. -/
theorem finish_counts (r : Relay) (outcome : RelayOutcome) :
    (r.finish outcome).rebuilds + (r.finish outcome).failures +
      (if outcome = .fault .closing then 1 else 0) = r.rebuilds + r.failures + 1 := by
  unfold finish
  split
  -- a success, a refusal, any other fault, and a panic
  case h_1 =>
    show r.rebuilds + 1 + r.failures + 0 = r.rebuilds + r.failures + 1
    omega
  case h_2 => rfl
  case h_3 f hclosing =>
    have hf : f ≠ .closing := fun e => hclosing (e ▸ rfl)
    simp [hf, Nat.add_assoc]
  case h_4 => rfl

@[simp] theorem send_phase (r : Relay) (m : Message) : (r.send m).phase = r.phase := by
  unfold send
  split <;> rfl

@[simp] theorem send_canOrder (r : Relay) (m : Message) : (r.send m).canOrder = r.canOrder := by
  unfold send
  split <;> rfl

@[simp] theorem send_counts (r : Relay) (m : Message) :
    (r.send m).rebuilds = r.rebuilds ∧ (r.send m).failures = r.failures := by
  unfold send
  split <;> exact ⟨rfl, rfl⟩

/-- As long as the thread is there, a message is put at the end of the queue. -/
theorem send_queue (h : r.phase ≠ .ended) (m : Message) : (r.send m).queue = r.queue ++ [m] := by
  rw [send, if_neg h]

@[simp] theorem tell_phase (r : Relay) (c : Change) : (r.tell c).phase = r.phase := send_phase ..

@[simp] theorem tell_canOrder (r : Relay) (c : Change) : (r.tell c).canOrder = r.canOrder :=
  send_canOrder ..

@[simp] theorem tell_counts (r : Relay) (c : Change) :
    (r.tell c).rebuilds = r.rebuilds ∧ (r.tell c).failures = r.failures :=
  send_counts ..

/-- A change that is told is put at the end of the queue. -/
theorem tell_queue (h : r.phase ≠ .ended) (c : Change) : (r.tell c).queue = r.queue ++ [.change c] := by
  rw [tell, send_queue (by exact h)]

/-- What the thread has drained, in each of its phases. -/
@[simp] def Drains (log : List RelayNote) : RelayPhase → Prop
  | .draining latest => (drained log).getLast? = some latest
  | .receiving | .calling _ => drained log = []
  | .ended => True

/-- **What has become of the changes.** -/
structure Tracks (r : Relay) (log : List RelayNote) : Prop where
  /-- First in, first out: what came into the queue was taken, or is there still. -/
  fifo : r.phase ≠ .ended → messages log = (taken log).map .change ++ r.queue
  /-- Also when it has ended, the thread has taken the first of what was told. -/
  taken_first : taken log <+: sent log
  drains : Drains log r.phase
  /-- Each call was for the kind of the last change of its batch. -/
  calls : List.Forall₂ (fun k batch => batch.getLast?.map Change.kind = some k) (calls log) (batches log)

/-- **What has become of the calls.** -/
structure Tallies (r : Relay) (log : List RelayNote) : Prop where
  /-- Those that are over succeeded, failed or were refused. -/
  outcomes : r.rebuilds + r.failures + log.count (.returned (.fault .closing)) = log.countP RelayNote.isReturned
  /-- All are over but the one that the thread is at. -/
  finished : (Relay.calls log).length = log.countP RelayNote.isReturned + (if r.phase.isCalling then 1 else 0)

/-- **What has become of the order to end.** -/
structure Obeys (r : Relay) (log : List RelayNote) : Prop where
  unordered : r.canOrder = true → .ordered ∉ log
  ordered_once : log.count .ordered ≤ 1
  ended : r.phase = .ended ↔ .stopped ∈ log

/-- The changes among what was put into the queue are those that were told. -/
theorem sent_of_messages {cs : List Change} {rest : List Message} (h : messages log = cs.map .change ++ rest) :
    sent log = cs ++ rest.filterMap Message.change? := by
  rw [sent_eq_filterMap_messages, h, List.filterMap_append, List.filterMap_map]
  show cs.filterMap some ++ _ = _
  rw [List.filterMap_some]

/-- An order that was put into the queue was given, after the changes that stand before it. -/
theorem exists_ordered {cs : List Change} {rest : List Message}
    (h : messages log = cs.map .change ++ .shutdown :: rest) :
    ∃ earlier later, log = earlier ++ .ordered :: later ∧ sent earlier = cs := by
  obtain ⟨first, second, rfl, hfirst, hsecond⟩ := List.filterMap_eq_append_iff.1 h
  obtain ⟨between, n, later, rfl, hbetween, hn, -⟩ := List.filterMap_eq_cons_iff.1 hsecond
  -- of the notes that put a message into the queue only one is that of an order
  cases n with
  | ordered =>
    refine ⟨first ++ between, later, (List.append_assoc ..).symm, ?_⟩
    have hmessages : messages (first ++ between) = cs.map .change ++ [] := by
      rw [messages, List.filterMap_append, hfirst, List.filterMap_eq_nil_iff.2 hbetween]
    rw [sent_of_messages hmessages, List.filterMap_nil, List.append_nil]
  | sent c | took c | stopped | called k | returned outcome => cases hn

/-- A new relay has an empty log. -/
theorem Tracks.create : Tracks create [] where
  fifo _ := rfl
  taken_first := List.prefix_refl _
  drains := rfl
  calls := .nil

/-- Each act keeps the log and the queue together. -/
theorem Tracks.step {ns : List RelayNote} (h : Tracks r log) (hstep : Performs r a ns u) :
    Tracks u (log ++ ns) := by
  cases hstep with
  | told c =>
    constructor
    case fifo =>
      intro hphase
      rw [tell_phase] at hphase
      simp [h.fifo hphase, tell_queue hphase]
    case taken_first => simpa using h.taken_first.trans (List.prefix_append _ _)
    case drains => simpa using h.drains
    case calls => simpa using h.calls
  | @took c rest hphase hqueue =>
    -- the change moves from the queue to the open batch
    have hfifo : messages (log ++ [.took c]) = (taken (log ++ [.took c])).map .change ++ rest := by
      simp [h.fifo (RelayPhase.ne_ended_of_isTaking hphase), hqueue]
    constructor
    case fifo => exact fun _ => hfifo
    case taken_first => exact sent_of_messages hfifo ▸ List.prefix_append _ _
    case drains => simp
    case calls => simpa using h.calls
  -- the thread is at its end, and the queue is of no concern any more
  | stopped hphase hqueue =>
    constructor
    case fifo => exact fun hended => absurd rfl hended
    case taken_first => simpa using h.taken_first
    case drains => trivial
    case calls => simpa using h.calls
  | @called latest hphase hqueue =>
    have hdrains := h.drains
    rw [hphase, Drains] at hdrains
    constructor
    case fifo => exact fun _ => by simp [h.fifo (by simp [hphase]), hqueue]
    case taken_first => simpa using h.taken_first
    case drains => simp
    case calls =>
      -- the open batch is closed, and the call is for its last change
      rw [calls_concat, batches_concat]
      exact List.rel_append h.calls (.cons (by rw [hdrains]; rfl) .nil)
  -- the end of a call neither takes nor sends anything
  | @returned c outcome hphase =>
    constructor
    case fifo => exact fun _ => by simp [h.fifo (by simp [hphase])]
    case taken_first => simpa using h.taken_first
    case drains => simpa [hphase] using h.drains
    case calls => simpa using h.calls
  -- the order is put behind all changes that were sent
  | ordered hcan =>
    constructor
    case fifo =>
      intro hphase
      rw [send_phase] at hphase
      rw [messages_concat, taken_concat, h.fifo hphase, send_queue (by exact hphase)]
      simp
    case taken_first => simpa using h.taken_first
    case drains => simpa using h.drains
    case calls => simpa using h.calls
  | closed x subscribed hasThread =>
    rw [List.append_nil]
    exact ⟨h.fifo, h.taken_first, h.drains, h.calls⟩

/-- A new relay has counted nothing. -/
theorem Tallies.create : Tallies create [] := ⟨rfl, rfl⟩

/-- Each act keeps the counters and the log together. -/
theorem Tallies.step {ns : List RelayNote} (h : Tallies r log) (hstep : Performs r a ns u) :
    Tallies u (log ++ ns) := by
  have houtcomes := h.outcomes
  have hfinished := h.finished
  cases hstep with
  | told c => exact ⟨by simpa using houtcomes, by simpa using hfinished⟩
  | took hphase hqueue =>
    rw [RelayPhase.isCalling_of_isTaking hphase] at hfinished
    exact ⟨by simpa using houtcomes, by simpa [RelayPhase.isCalling] using hfinished⟩
  | stopped hphase hqueue =>
    rw [RelayPhase.isCalling_of_isTaking hphase] at hfinished
    exact ⟨by simpa using houtcomes, by simpa [RelayPhase.isCalling] using hfinished⟩
  -- a call has begun, and it is the one that is not over
  | called hphase hqueue =>
    exact ⟨by simpa using houtcomes, by simpa [RelayPhase.isCalling, hphase] using hfinished⟩
  -- a call is over, and its outcome is counted once
  | returned outcome hphase =>
    have hcall := finish_counts r outcome
    constructor
    case outcomes =>
      rw [List.count_append, List.countP_append, List.count_singleton, List.countP_singleton]
      simp only [RelayNote.isReturned, if_true, beq_iff_eq, RelayNote.returned.injEq]
      omega
    case finished => simpa [RelayPhase.isCalling, hphase] using hfinished
  | ordered hcan => exact ⟨by simpa using houtcomes, by simpa using hfinished⟩
  | closed x subscribed hasThread =>
    rw [List.append_nil]
    exact ⟨houtcomes, hfinished⟩

/-- A new relay has no order. -/
theorem Obeys.create : Obeys create [] := ⟨fun _ => by simp, by simp, by simp [Relay.create]⟩

/-- Each act keeps to the order, if one was given. -/
theorem Obeys.step {ns : List RelayNote} (h : Obeys r log) (hstep : Performs r a ns u) :
    Obeys u (log ++ ns) := by
  have hended := h.ended
  cases hstep with
  | told c =>
    exact ⟨by simpa using h.unordered, by simpa using h.ordered_once, by simpa using hended⟩
  | took hphase hqueue =>
    have hnot := RelayPhase.ne_ended_of_isTaking hphase
    exact ⟨by simpa using h.unordered, by simpa using h.ordered_once, by simpa [hnot] using hended⟩
  | stopped hphase hqueue => exact ⟨by simpa using h.unordered, by simpa using h.ordered_once, by simp⟩
  | called hphase hqueue =>
    exact ⟨by simpa using h.unordered, by simpa using h.ordered_once, by simpa [hphase] using hended⟩
  | returned outcome hphase =>
    exact ⟨by simpa using h.unordered, by simpa using h.ordered_once, by simpa [hphase] using hended⟩
  | ordered hcan =>
    -- it could still be given, so it was not given before
    have hnone : log.count .ordered = 0 := List.count_eq_zero.2 (h.unordered hcan)
    exact ⟨fun hstill => by simp at hstill, by simp [hnone], by simpa using hended⟩
  | closed x subscribed hasThread =>
    rw [List.append_nil]
    exact ⟨h.unordered, h.ordered_once, hended⟩

/-- Everything that is done to a relay since it was created, with the notes. -/
abbrev Runs (log : List RelayNote) (r : Relay) : Prop := Course Relay.step Relay.note create log r

/-- In every course the log and the queue keep together. -/
theorem Runs.tracks (h : Runs log r) : Tracks r log := by
  induction h with
  | start => exact .create
  | act _ hstep ih => exact ih.step (.of_step hstep)

/-- In every course the log and the counters keep together. -/
theorem Runs.tallies (h : Runs log r) : Tallies r log := by
  induction h with
  | start => exact .create
  | act _ hstep ih => exact ih.step (.of_step hstep)

/-- In every course the log and the order to end keep together. -/
theorem Runs.obeys (h : Runs log r) : Obeys r log := by
  induction h with
  | start => exact .create
  | act _ hstep ih => exact ih.step (.of_step hstep)

/-- After the end of the thread no call begins. -/
theorem silent_of_ended {v : Relay} (hended : v.phase = .ended) (h : Course Relay.step Relay.note v log r) :
    r.phase = .ended ∧ calls log = [] := by
  -- over the course after the end; only a thread that is running takes, calls or returns
  induction h with
  | start => exact ⟨hended, rfl⟩
  | act _ hstep ih =>
    obtain ⟨hphase, hcalls⟩ := ih
    generalize hns : Relay.note _ _ _ = ns
    have hperforms := Performs.of_step hstep
    rw [hns] at hperforms
    cases hperforms with
    | told c => exact ⟨by rw [tell_phase, hphase], by simpa using hcalls⟩
    | took hrunning _ => simp [hphase, RelayPhase.isTaking] at hrunning
    | stopped hrunning _ => simp [hphase, RelayPhase.isTaking] at hrunning
    | called hdraining _ => simp [hphase] at hdraining
    | returned _ hcalling => simp [hphase] at hcalling
    | ordered _ => exact ⟨by rw [send_phase]; exact hphase, by simpa using hcalls⟩
    | closed => exact ⟨hphase, by simpa using hcalls⟩

/-- When a call begins, the batch for it has been told. -/
theorem Runs.told {before after : List RelayNote} {k : ChangeKind}
    (h : Runs (before ++ .called k :: after) r) :
    ((batches (before ++ .called k :: after)).take ((calls before).length + 1)).flatten <+: sent before := by
  obtain ⟨t, a, v, hbefore, hstep, hnote, -⟩ := h.cut length_note_le
  -- the call closes a batch, and later ones come behind it
  have hmono := batches_mono (before ++ [.called k]) after
  rw [List.append_assoc, List.singleton_append, batches_concat, gatherNote] at hmono
  have htake := List.prefix_iff_eq_take.1 hmono
  rw [List.length_append, List.length_singleton, length_batches] at htake
  calc ((batches (before ++ .called k :: after)).take ((calls before).length + 1)).flatten
      = (batches before ++ [drained before]).flatten := congrArg List.flatten htake.symm
    _ = taken before := by rw [List.flatten_append, List.flatten_singleton, taken_eq]
    _ <+: sent before := (Runs.tracks hbefore).taken_first

/-- After the thread has taken the order to end, no call begins. Left over is what it had drained by then, and
what was told after the order. -/
theorem Runs.stopped {before after : List RelayNote} (h : Runs (before ++ .stopped :: after) r) :
    (∀ k, .called k ∉ after) ∧
      ∃ earlier later, before = earlier ++ .ordered :: later ∧
        sent earlier = (batches (before ++ .stopped :: after)).flatten ++ drained before := by
  obtain ⟨t, a, v, hbefore, hstep, hnote, hafter⟩ := h.cut length_note_le
  have htracks := Runs.tracks hbefore
  have hperforms := Performs.of_step hstep
  rw [hnote] at hperforms
  cases hperforms with
  | @stopped rest hphase hqueue =>
    obtain ⟨-, hcalls⟩ := silent_of_ended rfl hafter
    refine ⟨fun k hk => ?_, ?_⟩
    · have hmem : k ∈ calls after := List.mem_filterMap.2 ⟨_, hk, rfl⟩
      rw [hcalls] at hmem
      cases hmem
    · -- without a call there is no further batch
      have hbatches : batches before = batches (before ++ .stopped :: after) := by
        refine (batches_mono before _).eq_of_length ?_
        rw [length_batches, length_batches, calls, calls, List.filterMap_append, ← calls, ← calls]
        rw [show calls (.stopped :: after) = calls after from rfl, hcalls, List.append_nil]
      -- the order stood in the queue, and nothing was left before it
      have hfifo := htracks.fifo (RelayPhase.ne_ended_of_isTaking hphase)
      rw [hqueue] at hfifo
      obtain ⟨earlier, later, hordered, hsent⟩ := exists_ordered hfifo
      refine ⟨earlier, later, hordered, ?_⟩
      calc sent earlier = taken before := hsent
        _ = (batches before).flatten ++ drained before := taken_eq before
        _ = (batches (before ++ .stopped :: after)).flatten ++ drained before := by rw [← hbatches]

/-- **How a relay relays changes.** -/
structure Relays (r : Relay) (log : List RelayNote) : Prop where
  /-- There is one batch for each call, and the call is for the kind of its last change. -/
  calls : List.Forall₂ (fun k batch => batch.getLast?.map Change.kind = some k) (calls log) (batches log)
  nonempty : [] ∉ batches log
  /-- The batches are pieces of what was told, one after the other from the beginning. -/
  covered : (batches log).flatten <+: sent log
  /-- When a call begins, everything in its batch has been told. -/
  told : ∀ before k after, log = before ++ .called k :: after →
    ((batches log).take ((Relay.calls before).length + 1)).flatten <+: sent before
  /-- Nothing is left over while the thread waits for a message. -/
  relayed : r.phase = .receiving → r.queue = [] → (batches log).flatten = sent log
  /-- The order to end is given once at most. -/
  ordered_once : log.count .ordered ≤ 1
  /-- After the thread has taken this order, no call begins. Left over is what it had drained by then, and what
  was told after the order. -/
  stopped : ∀ before after, log = before ++ .stopped :: after →
    (∀ k, .called k ∉ after) ∧
      ∃ earlier later, before = earlier ++ .ordered :: later ∧
        sent earlier = (batches log).flatten ++ drained before
  /-- A call that is over succeeded, failed or was refused because the keeper is being closed. -/
  outcomes : r.rebuilds + r.failures + log.count (.returned (.fault .closing)) = log.countP RelayNote.isReturned
  /-- Each call that began is over, but for the one that the thread is at. -/
  finished : (Relay.calls log).length = log.countP RelayNote.isReturned + (if r.phase.isCalling then 1 else 0)
  /-- The thread ends by taking the order to do so, and in no other way. -/
  ended : r.phase = .ended ↔ .stopped ∈ log
  /-- Whatever its call comes to, the thread goes on with the queue. -/
  unstoppable : ∀ c outcome, r.phase = .calling c →
    ∃ u, r.step (.finish outcome) = some u ∧ u.phase = .receiving ∧ u.queue = r.queue

/-- **Changes are relayed in batches**, none of them twice, and none is lost on the way. -/
theorem relays (h : Runs log r) : Relays r log := by
  have htracks := h.tracks
  constructor
  case calls => exact htracks.calls
  case nonempty =>
    -- an empty batch would have no last change
    intro hmem
    obtain ⟨i, hi, hempty⟩ := List.getElem_of_mem hmem
    have hk := htracks.calls.get (by rwa [← htracks.calls.length_eq] at hi) hi
    simp [hempty] at hk
  case covered => exact (List.prefix_append _ _).trans (taken_eq log ▸ htracks.taken_first)
  case told =>
    rintro before k after rfl
    exact h.told
  case relayed =>
    intro hphase hqueue
    -- the queue is empty and the relay is at rest, so all that was sent was taken, and no batch is open
    have hfifo := htracks.fifo (by simp [hphase])
    have hdrains := htracks.drains
    rw [hphase, Drains] at hdrains
    calc (batches log).flatten = taken log := by rw [taken_eq, hdrains, List.append_nil]
      _ = sent log := by rw [sent_of_messages hfifo, hqueue, List.filterMap_nil, List.append_nil]
  case ordered_once => exact h.obeys.ordered_once
  case stopped =>
    rintro before after rfl
    exact h.stopped
  case outcomes => exact h.tallies.outcomes
  case finished => exact h.tallies.finished
  case ended => exact h.obeys.ended
  case unstoppable =>
    intro c outcome hphase
    exact ⟨r.finish outcome, by rw [step, hphase], finish_phase .., finish_queue ..⟩

/-- Two changes are folded into one call, which breaks off. Meanwhile two more changes are told, the relay is
closed, and another change is told. -/
def foldingActs : List RelayAct :=
  [.tell (.sensorInsertion "gauge"), .take, .tell (.templateInsertion "level"), .take, .take,
    .tell (.sensorDeletion "gauge"), .tell (.sensorDeletion "pump"), .close .unsubscribe, .close .order,
    .tell (.sensorInsertion "vane"), .finish (.panic .untyped), .take, .take, .take, .close .release,
    .close .join]

/-- The call is for the template, and the sensors that go are drained but not relayed. -/
theorem relays_folding : ∃ log r, Runs log r ∧ Relays r log ∧ r.phase = .ended ∧ r.failures = 1 ∧
    batches log = [[.sensorInsertion "gauge", .templateInsertion "level"]] ∧
    calls log = [.templateInsertion] ∧
    drained log = [.sensorDeletion "gauge", .sensorDeletion "pump"] ∧ (sent log).length = 5 := by
  have hcourse : (carryOut Relay.step Relay.note foldingActs ([], create)).map (fun x =>
      (x.2.phase, x.2.failures, batches x.1, calls x.1, drained x.1, (sent x.1).length)) =
      some (.ended, 1, [[.sensorInsertion "gauge", .templateInsertion "level"]], [.templateInsertion],
        [.sensorDeletion "gauge", .sensorDeletion "pump"], 5) := rfl
  obtain ⟨⟨log, r⟩, hcarried, hends⟩ := Option.map_eq_some_iff.1 hcourse
  have h : Runs log r := Course.of_carryOut foldingActs .start hcarried
  simp only [Prod.mk.injEq] at hends
  exact ⟨log, r, h, relays h, hends⟩

end Relay

end SensorCatalog
