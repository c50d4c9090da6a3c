import SensorCatalog.Proofs.Keeper.Step
import SensorCatalog.Proofs.Rebuild.Step

/-!
# What is seen of a call

Of a call that wants a rebuild five things are seen (`CallEvent`): that it is made, that it falls asleep
because a rebuild is running, that it begins a rebuild, that this rebuild is over and recorded, and that the
call returns. They can be read off the phases of the call before and after an act (`CallPhase.passage`), and
nothing is seen of calls that want something else.

What has been seen of a call is determined by its phase up to a few possibilities, which
`CallPhase.Fits` lists; `CallRecord` lists those for a call that is over. Between `began` and `ended` a rebuild
is in progress, and these are exactly the phases `CallPhase.isBusy`.

* `Keeper.Passage` says all that matters about the passage of one call into another phase.
* `CallPhase.Advance.passes` — each act of a call is such a passage.
-/

namespace SensorCatalog

open Keeper (answerOf)

/-- What is seen of a call that wants a rebuild. -/
inductive CallEvent where
  | called (mode : TriggerMode)
  /-- It finds a rebuild running and falls asleep. -/
  | waited
  | began
  /-- Its rebuild is over and recorded. -/
  | ended
  | returned (a : Answer)

namespace CallEvent

def isCalled : CallEvent → Bool
  | .called _ => true
  | _ => false

def isBegan : CallEvent → Bool
  | .began => true
  | _ => false

def isEnded : CallEvent → Bool
  | .ended => true
  | _ => false

def isCoalesced : CallEvent → Bool
  | .returned .coalesced => true
  | _ => false

def isRefused : CallEvent → Bool
  | .returned (.refused .closing) => true
  | _ => false

end CallEvent

/-- Whether an answer is the result of a rebuild: its report, or its fault. -/
def Answer.IsResult : Answer → Prop
  | .completed _ => True
  | .refused f => f ≠ .closing
  | _ => False

/-- **All that can be seen of a call that is over**, given what it wanted and what it got. -/
inductive CallRecord : TriggerMode → Answer → List CallEvent → Prop where
  -- it ran a rebuild
  | served (mode : TriggerMode) {a : Answer} (ha : a.IsResult) :
    CallRecord mode a [.called mode, .began, .ended, .returned a]
  -- it waited for another rebuild, and then ran one
  | servedAfter {a : Answer} (ha : a.IsResult) :
    CallRecord .runAfterCurrent a [.called .runAfterCurrent, .waited, .began, .ended, .returned a]
  -- it waited for another rebuild, and was content
  | coalesced : CallRecord .coalesce .coalesced [.called .coalesce, .waited, .returned .coalesced]
  -- the keeper was being closed
  | refused (mode : TriggerMode) :
    CallRecord mode (.refused .closing) [.called mode, .returned (.refused .closing)]
  -- it waited for another rebuild, and then the keeper was being closed
  | refusedAfter : CallRecord .runAfterCurrent (.refused .closing)
      [.called .runAfterCurrent, .waited, .returned (.refused .closing)]

/-- What has been seen of a call in the middle of its rebuild. -/
inductive Engaged : List CallEvent → Prop where
  | atOnce (mode : TriggerMode) : Engaged [.called mode, .began]
  | afterWaiting : Engaged [.called .runAfterCurrent, .waited, .began]

/-- What has been seen of a call whose rebuild is recorded, and that will return an answer. -/
def Served (a : Answer) (events : List CallEvent) : Prop :=
  a.IsResult ∧ ∃ before, Engaged before ∧ events = before ++ [.ended]

variable {events : List CallEvent}

/-- In the middle of a rebuild its beginning has been seen, and its end has not. -/
theorem Engaged.mem (h : Engaged events) : .began ∈ events ∧ .ended ∉ events := by
  cases h <;> simp

/-- A call that is over has seen the end of each rebuild it began. -/
theorem CallRecord.ended_of_began {mode : TriggerMode} {a : Answer} (h : CallRecord mode a events)
    (hbegan : .began ∈ events) : .ended ∈ events := by
  cases h <;> simp_all

/-- A call was asked for in one mode only. -/
theorem CallRecord.mode_eq {mode mode' : TriggerMode} {a : Answer} (h : CallRecord mode a events)
    (hcalled : .called mode' ∈ events) : mode' = mode := by
  cases h <;> simp_all

/-- The result of a rebuild is neither contentment with another one nor a refusal. -/
theorem Answer.IsResult.unlike {a : Answer} (ha : a.IsResult) :
    (CallEvent.returned a).isCoalesced = false ∧ (CallEvent.returned a).isRefused = false := by
  cases a with
  | completed r => exact ⟨rfl, rfl⟩
  | refused f =>
    cases f with
    | closing => exact absurd rfl ha
    | _ => exact ⟨rfl, rfl⟩
  | _ => cases ha

/-- One call, and one rebuild at most, in the place of which it may be content or refused. -/
theorem CallRecord.balance {mode : TriggerMode} {a : Answer} (h : CallRecord mode a events) :
    events.countP (·.isCalled) = events.countP (·.isEnded) + events.countP (·.isCoalesced) +
      events.countP (·.isRefused) := by
  cases h with
  | served mode ha =>
    obtain ⟨hcoalesced, hrefused⟩ := ha.unlike
    simp only [List.countP_cons, List.countP_nil, hcoalesced, hrefused]
    rfl
  | servedAfter ha =>
    obtain ⟨hcoalesced, hrefused⟩ := ha.unlike
    simp only [List.countP_cons, List.countP_nil, hcoalesced, hrefused]
    rfl
  | _ => rfl

/-- A call whose rebuild is recorded has seen its end. -/
theorem Served.ended {a : Answer} (h : Served a events) : .ended ∈ events := by
  obtain ⟨-, before, -, rfl⟩ := h
  simp

namespace CallPhase

/-- Whether a call in this phase has a rebuild in progress. -/
def isBusy : CallPhase → Bool
  | .running _ | .recording _ => true
  | _ => false

/-- What is seen of a call that begins in this phase. -/
def arrival : CallPhase → Option CallEvent
  | .looking (.trigger mode) _ => some (.called mode)
  | _ => none

/-- What is seen of a call that goes from one phase to another. -/
def passage : CallPhase → CallPhase → Option CallEvent
  -- a call that looks again has been seen asleep before
  | .looking (.trigger _) false, .asleep _ => some .waited
  | .looking (.trigger _) _, .running _ => some .began
  | .looking (.trigger _) _, .returned a => some (.returned a)
  | .recording _, .announcing _ _ => some .ended
  -- a call that closes the keeper announces, too
  | .announcing _ .done, _ => none
  | .announcing _ _, .returned a => some (.returned a)
  | .timing _ (.rearm _), .returned a => some (.returned a)
  | _, _ => none

/-- **What has been seen of a call in this phase.** -/
def Fits (events : List CallEvent) : CallPhase → Prop
  | .looking (.trigger mode) false => events = [.called mode]
  | .looking (.trigger mode) true | .asleep (.trigger mode) => events = [.called mode, .waited]
  | .running r => Engaged events ∧ r.result? ≠ some (.error .closing)
  | .recording result => Engaged events ∧ result ≠ .error .closing
  | .announcing rearm a => Served a events ∨ rearm = false ∧ a = .done ∧ events = []
  | .timing _ (.rearm a) => Served a events
  | .returned a => events = [] ∨ ∃ mode, CallRecord mode a events
  | _ => events = []

variable {phase : CallPhase}

/-- The only thing seen of a call as it begins is that it was made. -/
theorem isCalled_of_arrival {e : CallEvent} (h : phase.arrival = some e) : e.isCalled = true := by
  unfold arrival at h
  split at h
  · cases h; rfl
  · cases h

/-- Only sleepers are woken, and they are not busy. -/
@[simp] theorem isBusy_rouse (phase : CallPhase) : phase.rouse.isBusy = phase.isBusy := by
  cases phase <;> rfl

/-- What has been seen fits after the call is woken, too. -/
theorem Fits.rouse (h : phase.Fits events) : phase.rouse.Fits events := by
  cases phase with
  | asleep p => cases p <;> exact h
  | _ => exact h

/-- What is seen of a call as it is made fits its first phase. -/
theorem fits_request (r : Request) (now : Nat) : (r.phase now).Fits (r.phase now).arrival.toList := by
  cases r with
  | setMinutes minutes =>
    rw [Request.phase]
    -- without a minute it is refused at once
    split
    · exact .inl rfl
    · rfl
  | waitIdleFor span =>
    rw [Request.phase]
    -- an instant beyond the clock breaks it off at once
    split
    · rfl
    · exact .inl rfl
  | _ => rfl

/-- A call that was just made is not busy. -/
theorem isBusy_request (r : Request) (now : Nat) : (r.phase now).isBusy = false := by
  cases r with
  | setMinutes minutes => rw [Request.phase]; split <;> rfl
  | waitIdleFor span => rw [Request.phase]; split <;> rfl
  | _ => rfl

/-- A busy call is in the middle of a rebuild. -/
theorem Fits.of_isBusy (h : phase.Fits events) (hbusy : phase.isBusy = true) :
    .began ∈ events ∧ .ended ∉ events := by
  cases phase with
  | running r => exact h.1.mem
  | recording result => exact h.1.mem
  | _ => cases hbusy

/-- A rebuild that was begun is over unless the call is still busy with it. -/
theorem Fits.ended_of_began (h : phase.Fits events) (hbusy : phase.isBusy = false)
    (hbegan : .began ∈ events) : .ended ∈ events := by
  -- in all phases but those after a rebuild nothing like it has been seen
  cases phase with
  | running r => cases hbusy
  | recording result => cases hbusy
  | looking p again =>
    cases p with
    | trigger mode =>
      cases again with
      | false => obtain rfl : events = _ := h; simp at hbegan
      | true => obtain rfl : events = _ := h; simp at hbegan
    | _ => obtain rfl : events = [] := h; cases hbegan
  | asleep p =>
    cases p with
    | trigger mode => obtain rfl : events = _ := h; simp at hbegan
    | _ => obtain rfl : events = [] := h; cases hbegan
  | announcing rearm a =>
    obtain h | ⟨-, -, rfl⟩ := h
    · exact h.ended
    · cases hbegan
  | timing sections use =>
    cases use with
    | rearm a => exact Served.ended h
    | _ => obtain rfl : events = [] := h; cases hbegan
  | returned a =>
    obtain rfl | ⟨mode, h⟩ := h
    · cases hbegan
    · exact h.ended_of_began hbegan
  | _ => obtain rfl : events = [] := h; cases hbegan

end CallPhase

/-! ### Acts as passages -/

/-- **The passage of a call into another phase**, with all that matters of it. The keeper `k₁` is the one
after the act, but for the phase of the call. -/
structure Keeper.Passage (k : Keeper) (phase phase' : CallPhase) (k₁ : Keeper) : Prop where
  /-- At most, other calls are woken. -/
  calls : k₁.calls = k.calls ∨ k₁.calls = k.rouseAll.calls
  /-- What is seen fits the new phase. -/
  fits : ∀ events, phase.Fits events → phase'.Fits (events ++ (phase.passage phase').toList)
  /-- A rebuild begins when none is running, and afterwards none is running. -/
  busy : (phase.isBusy = true → k.idle = false) →
    (if phase'.isBusy then 1 else 0) + (if k₁.idle then 1 else 0) =
      (if phase.isBusy then 1 else 0) + (if k.idle then 1 else 0)
  /-- Every recorded end is counted. -/
  completed : k₁.completed = k.completed + if (phase.passage phase').any CallEvent.isEnded then 1 else 0
  /-- One falls asleep only while a rebuild is running. -/
  waited : phase.passage phase' = some .waited → k.idle = false
  /-- One that is content with another rebuild has waited, and finds none running when it looks again. -/
  coalesced : ∀ events, phase.Fits events → phase.passage phase' = some (.returned .coalesced) →
    k.idle = true ∧ phase = .looking (.trigger .coalesce) true

open Keeper (Passage)

variable {b : Backend} {k k₁ : Keeper} {phase phase' : CallPhase}

/-- A passage of which nothing is seen. -/
theorem Keeper.Passage.unseen (hcalls : k₁.calls = k.calls ∨ k₁.calls = k.rouseAll.calls)
    (hidle : k₁.idle = k.idle) (hcompleted : k₁.completed = k.completed)
    (hunseen : phase.passage phase' = none) (hbusy : phase'.isBusy = phase.isBusy)
    (hfits : ∀ events, phase.Fits events → phase'.Fits events) : Passage k phase phase' k₁ where
  calls := hcalls
  fits events h := by simpa [hunseen] using hfits events h
  busy _ := by rw [hbusy, hidle]
  completed := by simp [hunseen, hcompleted]
  waited h := by simp [hunseen] at h
  coalesced _ _ h := by simp [hunseen] at h

/-- The answer completes the record of a call whose rebuild is recorded. -/
theorem Served.record {a : Answer} (h : Served a events) :
    ∃ mode, CallRecord mode a (events ++ [.returned a]) := by
  obtain ⟨ha, before, hbefore, rfl⟩ := h
  cases hbefore with
  -- one that waited and then ran a rebuild was not to be content with another
  | atOnce mode => exact ⟨mode, .served mode ha⟩
  | afterWaiting => exact ⟨_, .servedAfter ha⟩

/-- A call whose rebuild is recorded returns the answer. -/
theorem Keeper.Passage.answered {a : Answer} (hcalls : k₁.calls = k.calls ∨ k₁.calls = k.rouseAll.calls)
    (hidle : k₁.idle = k.idle) (hcompleted : k₁.completed = k.completed) (hbusy : phase.isBusy = false)
    (hseen : phase.passage (.returned a) = some (.returned a))
    (hfits : ∀ events, phase.Fits events → Served a events) : Passage k phase (.returned a) k₁ where
  calls := hcalls
  fits events h := by
    rw [hseen]
    exact .inr (hfits events h).record
  busy _ := by rw [hbusy, hidle]; rfl
  completed := by rw [hseen, hcompleted]; rfl
  waited h := by rw [hseen] at h; cases h
  coalesced events h heq := by
    rw [hseen] at heq
    cases heq
    exact (hfits events h).1.elim

/-- A call that has used the timer gives its answer, or goes on; no rebuild begins or ends by it. -/
theorem Keeper.Passage.afterTiming {sections : List TimerSection} {use : TimerUse} (outcome : Except Fault Unit)
    (hcalls : k₁.calls = k.calls) (hidle : k₁.idle = k.idle) (hcompleted : k₁.completed = k.completed) :
    Passage k (.timing sections use) (CallPhase.afterTiming use outcome) k₁ := by
  cases use with
  -- after a rebuild the answer is given, whatever came of the timer
  | rearm a => exact .answered (.inl hcalls) hidle hcompleted rfl rfl fun events h => h
  | start =>
    cases outcome with
    | ok _ => exact .unseen (.inl hcalls) hidle hcompleted rfl rfl fun events h => .inl h
    | error f => exact .unseen (.inl hcalls) hidle hcompleted rfl rfl fun events h => h
  | adjust =>
    cases outcome with
    | ok _ => exact .unseen (.inl hcalls) hidle hcompleted rfl rfl fun events h => .inl h
    | error f => exact .unseen (.inl hcalls) hidle hcompleted rfl rfl fun events h => .inl h
  | close => exact .unseen (.inl hcalls) hidle hcompleted rfl rfl fun events h => h

/-- **Every act of a call is such a passage.** -/
theorem CallPhase.Advance.passes {onTimer : Bool} (h : phase.Advance b k onTimer phase' k₁) :
    Passage k phase phase' k₁ := by
  cases h with
  | @refused mode again hclosing hagain =>
    have hseen : passage (.looking (.trigger mode) again) (.returned (.refused .closing)) =
        some (.returned (.refused .closing)) := by cases again <;> rfl
    refine ⟨.inl rfl, fun events h => ?_, fun _ => rfl, by rw [hseen]; rfl, by simp [hseen], by simp [hseen]⟩
    -- it finds the mark either at its first look, or after it has waited
    rw [hseen]
    cases again with
    | false => obtain rfl : events = _ := h; exact .inr ⟨mode, .refused mode⟩
    | true =>
      obtain rfl := (hagain rfl).2
      obtain rfl : events = _ := h
      exact .inr ⟨_, .refusedAfter⟩
  | @begun mode again hopen hidle hagain =>
    have hseen : passage (.looking (.trigger mode) again)
        (.running (Run.start k.steps (!k.initialized))) = some .began := by cases again <;> rfl
    refine ⟨.inl rfl, fun events h => ?_, fun _ => ?_, by rw [hseen]; rfl, by simp [hseen], by simp [hseen]⟩
    -- what is seen is the beginning of a rebuild, at once or after waiting
    · rw [hseen]
      refine ⟨?_, by simp [Run.result?, Run.start]⟩
      cases again with
      | false => obtain rfl : events = _ := h; exact .atOnce mode
      | true =>
        obtain rfl := hagain rfl
        obtain rfl : events = _ := h
        exact .afterWaiting
    · -- the call is busy now, and the keeper no longer idle
      rw [hidle]
      rfl
  -- it found a rebuild running before and none now, so the one it waited for is over
  | coalesced hidle =>
    refine ⟨.inl rfl, fun events h => ?_, fun _ => rfl, rfl, by simp [passage], fun _ _ _ => ⟨hidle, rfl⟩⟩
    obtain rfl : events = _ := h
    exact .inr ⟨_, .coalesced⟩
  | @slept p again hidle hopen =>
    -- a trigger is seen to fall asleep once, and other calls never
    cases p with
    | trigger mode =>
      cases again with
      | false =>
        refine ⟨.inl rfl, fun events h => ?_, fun _ => rfl, rfl, fun _ => hidle, by simp [passage]⟩
        obtain rfl : events = _ := h
        rfl
      | true => exact .unseen (.inl rfl) rfl rfl rfl rfl fun events h => h
    | _ => exact .unseen (.inl rfl) rfl rfl rfl rfl fun events h => h
  -- of calls that want no rebuild nothing is ever seen
  | sawIdle hidle => exact .unseen (.inl rfl) rfl rfl rfl rfl fun events h => .inl h
  | sawIdleInTime hidle => exact .unseen (.inl rfl) rfl rfl rfl rfl fun events h => .inl h
  | closed hidle => exact .unseen (.inl rfl) rfl rfl rfl rfl fun events h => .inr ⟨rfl, rfl, h⟩
  | ran h =>
    exact .unseen (.inl rfl) rfl rfl rfl rfl fun events hfits => ⟨hfits.1, Run.result?_ne_closing h⟩
  | @ended r result h =>
    -- that the rebuild is over is not seen before it is recorded
    exact .unseen (.inl rfl) rfl rfl rfl rfl fun events hfits =>
      ⟨hfits.1, fun he => hfits.2 (by rw [h, he])⟩
  | @recorded result =>
    refine ⟨.inl rfl, fun events h => .inl ⟨?_, events, h.1, rfl⟩, fun hbusy => ?_, rfl, by simp [passage],
      by simp [passage]⟩
    · cases result with
      | ok report => trivial
      | error f => exact fun hf => h.2 (by rw [hf])
    · -- the call was busy, so nobody else was
      rw [hbusy rfl]
      rfl
  | @announced a =>
    -- `done` is the answer to those who closed the keeper, and of them nothing has been seen
    by_cases ha : a = .done
    · subst ha
      refine .unseen (.inr rfl) rfl rfl rfl rfl fun events h => ?_
      obtain h | ⟨-, -, h⟩ := h
      · exact h.1.elim
      · exact .inl h
    · refine .answered (.inr rfl) rfl rfl rfl ?_ fun events h => ?_
      · cases a <;> first | rfl | exact absurd rfl ha
      · exact h.resolve_right fun h => ha h.2.1
  | @rearmed a =>
    -- only after a rebuild is the timer set again
    refine .unseen (.inr rfl) rfl rfl (by cases a <;> rfl) rfl fun events h => ?_
    exact h.resolve_right fun h => by cases h.1
  | timed => exact .afterTiming _ rfl rfl rfl
  | turnedDown h => exact .afterTiming _ rfl rfl rfl
  | @proceeded s rest more use t h =>
    exact .unseen (.inl rfl) rfl rfl (by cases use <;> rfl) rfl fun events hfits => by
      cases use <;> exact hfits
  | unwelcome hclosing => exact .unseen (.inl rfl) rfl rfl rfl rfl fun events h => .inl h
  | startedBefore hopen hstarted => exact .unseen (.inl rfl) rfl rfl rfl rfl fun events h => .inl h
  | started hopen hstarted => exact .unseen (.inl rfl) rfl rfl rfl rfl fun events h => h
  | unstarted => exact .unseen (.inl rfl) rfl rfl rfl rfl fun events h => .inl h
  | closedBefore hclosing => exact .unseen (.inl rfl) rfl rfl rfl rfl fun events h => .inl h
  | closing hopen => exact .unseen (.inl rfl) rfl rfl rfl rfl fun events h => h

end SensorCatalog
