import SensorCatalog.Bus.Audience
import SensorCatalog.Proofs.Bus.Delivery

/-!
# Subscribers that act, as a dispatch

An `Audience` publishes by recursion: a change is handed to each subscriber in turn, and what a subscriber publishes is
delivered before it goes on. `Audience.Plays` says that this is a course of the dispatch: from the audience before, with
some deliveries under way, to the audience after, with the same or other ones. What the journal has of subscribers that
were reached is what the course notes of those who were told.

`Audience.isPlayed_publish` says so of publishing. It goes by induction on the depth, and for each depth over the
subscribers that are reached and over the actions of each of them. With it, what can be relied on in a dispatch can be
relied on here (`Audience.handled_publish`).
-/

namespace SensorCatalog

/-- The publication and the subscription of which this notes that one reached the other. -/
@[simp] def Note.handled? : Note → Option (Nat × Nat)
  | .handled publication subscription _ _ => some (publication, subscription)
  | _ => none

/-- The publication and the subscription of which the course notes that one reached the other. -/
@[simp] def BusNote.handled? {α : Type} : BusNote α → Option (Nat × Nat)
  | .told publication s => some (publication, s.id)
  | _ => none

/-- How a subscriber with these actions ends. -/
def Action.outcome : List Action → CallbackEnd
  | [] => .returned
  | .panic p :: _ => .panicked p
  | _ :: rest => outcome rest

namespace Audience

/-- An audience with the deliveries that are under way. -/
def dispatch (a : Audience) (deliveries : List (Delivery Subscriber)) : Dispatch Subscriber :=
  ⟨a.bus, deliveries, a.publications⟩

/-- Which publications reached which subscriptions, according to the journal. -/
def handled (a : Audience) : List (Nat × Nat) := a.journal.filterMap Note.handled?

/-- **What an audience does is a course of the dispatch.** -/
structure Plays (log : List (BusNote Subscriber)) (a : Audience) (ds : List (Delivery Subscriber)) (b : Audience)
    (es : List (Delivery Subscriber)) : Prop where
  course : Course Dispatch.step Dispatch.note (a.dispatch ds) log (b.dispatch es)
  handled : b.handled = a.handled ++ log.filterMap BusNote.handled?

variable {log more : List (BusNote Subscriber)} {a b c : Audience} {ds es fs : List (Delivery Subscriber)}

/-- Nothing done is a course of nothing. -/
theorem Plays.refl (a : Audience) (ds : List (Delivery Subscriber)) : Plays [] a ds a ds :=
  ⟨.start, (List.append_nil _).symm⟩

/-- What is done one after the other is one course. -/
theorem Plays.trans (h : Plays log a ds b es) (h' : Plays more b es c fs) : Plays (log ++ more) a ds c fs where
  course := h.course.trans h'.course
  handled := by rw [h'.handled, h.handled, List.filterMap_append, List.append_assoc]

/-- One act of the dispatch, if the journal gets what the act notes. -/
theorem Plays.act (act : DispatchAct Subscriber) {n : BusNote Subscriber}
    (hstep : (a.dispatch ds).step act = some (b.dispatch es))
    (hnote : (a.dispatch ds).note act (b.dispatch es) = [n])
    (hhandled : b.handled = a.handled ++ n.handled?.toList) : Plays [n] a ds b es := by
  have hcourse : Course Dispatch.step Dispatch.note (a.dispatch ds) _ _ := .single hstep
  rw [hnote] at hcourse
  refine ⟨hcourse, ?_⟩
  rw [hhandled, ← List.nil_append [n], filterMap_concat, List.filterMap_nil, List.nil_append]

/-- Whether a way to publish is one in the dispatch, at any depth. -/
def IsPlayed (publish : Publish) : Prop :=
  ∀ a change n b ds, publish a change = some (n, b) → (a.dispatch ds).isAtWork = true →
    ∃ log, Plays (.published a.publications change :: log ++ [.concluded a.publications n]) a ds b ds

/-- What a journal notes is noted at its end. -/
@[simp] theorem handled_note (a : Audience) (n : Note) : (a.note n).handled = a.handled ++ n.handled?.toList :=
  filterMap_concat _ a.journal n

/-- Notes about other things go without an act. -/
theorem Plays.note (h : Plays log a ds b es) {n : Note} (hn : n.handled? = none) : Plays log a ds (b.note n) es where
  course := h.course
  handled := by rw [handled_note, hn, Option.toList_none, List.append_nil, h.handled]

/-- A subscriber that subscribes another one makes one act. -/
theorem Plays.subscribe (hwork : (a.dispatch ds).isAtWork = true) (name : String) (kinds : ChangeKinds)
    (actions : List Action) :
    Plays [.subscribed ⟨a.bus.nextId, kinds, ⟨name, actions⟩⟩] a ds (a.subscribe name kinds actions) ds :=
  .act (.subscribe kinds ⟨name, actions⟩) (if_pos hwork) rfl (List.append_nil _).symm

/-- A subscriber that ends a subscription makes one act, whether or not the subscription was there. -/
theorem Plays.unsubscribe (hwork : (a.dispatch ds).isAtWork = true) {name : String} {removed : Bool}
    (h : a.unsubscribe name = some (removed, b)) : ∃ id, Plays [.unsubscribed id removed] a ds b ds := by
  obtain ⟨id, -, hid⟩ := Option.map_eq_some_iff.1 h
  cases hid
  exact ⟨id, .act (.unsubscribe id) (if_pos hwork) rfl (List.append_nil _).symm⟩

/-- **A subscriber acts.** -/
theorem plays_act {publish : Publish} (hpublish : IsPlayed publish) {name : String} {actions : List Action}
    (h : act publish a name actions = some b) (hwork : ∀ a : Audience, (a.dispatch ds).isAtWork = true) :
    ∃ log, Plays log a ds b ds := by
  -- by the actions in turn; a panic leaves the ones after it undone
  induction actions generalizing a with
  | nil =>
    cases h
    exact ⟨[], .refl _ ds⟩
  | cons action rest ih =>
    cases action with
    | panic p =>
      cases h
      exact ⟨[], .refl _ ds⟩
    | unsubscribe target =>
      rw [act] at h
      split at h
      -- a name that is not known is passed over
      · exact ih h
      · rename_i hremoved
        obtain ⟨id, hfirst⟩ := Plays.unsubscribe (hwork _) hremoved
        obtain ⟨log, hrest⟩ := ih h
        exact ⟨_, (hfirst.note rfl).trans hrest⟩
    | subscribe other kinds actions =>
      rw [act] at h
      obtain ⟨log, hrest⟩ := ih h
      exact ⟨_, (Plays.subscribe (hwork _) other kinds actions).trans hrest⟩
    | publish change =>
      rw [act] at h
      split at h
      · cases h
      -- what is published goes through the whole dispatch before the next action
      · rename_i hpublished
        obtain ⟨_, hfirst⟩ := hpublish _ _ _ _ ds hpublished (hwork _)
        obtain ⟨log, hrest⟩ := ih h
        exact ⟨_, (hfirst.note rfl).trans hrest⟩

/-- **A change is handed to subscribers in turn.** However one of them ends, the next one follows. -/
theorem plays_deliver {publish : Publish} (hpublish : IsPlayed publish) {p reached : Nat} {change : Change}
    {rest : List (Subscription Subscriber)} (h : deliver publish p change a rest = some b) :
    ∃ log, Plays log a (⟨p, change, reached, rest, none⟩ :: ds) b (⟨p, change, reached, [], none⟩ :: ds) := by
  -- by the subscribers that are still to be reached
  induction rest generalizing a with
  | nil =>
    cases h
    exact ⟨[], .refl _ _⟩
  | cons s rest ih =>
    rw [deliver] at h
    split at h
    · cases h
    · rename_i c hacted
      -- three courses for the first of them: it is told, it acts, and it ends
      have htold : Plays [.told p s] a (⟨p, change, reached, s :: rest, none⟩ :: ds)
          (a.note (.handled p s.id s.subscriber.name change)) (⟨p, change, reached, rest, some s⟩ :: ds) :=
        .act .tell rfl rfl (handled_note ..)
      obtain ⟨_, hacts⟩ : ∃ log, Plays log _ (⟨p, change, reached, rest, some s⟩ :: ds) c _ :=
        plays_act hpublish hacted fun _ => rfl
      have hended : Plays [.ended p (Action.outcome s.subscriber.actions)] c
          (⟨p, change, reached, rest, some s⟩ :: ds) c (⟨p, change, reached, rest, none⟩ :: ds) :=
        .act (.finish (Action.outcome s.subscriber.actions)) rfl rfl (List.append_nil _).symm
      obtain ⟨_, hrest⟩ := ih h
      exact ⟨_, ((htold.trans hacts).trans hended).trans hrest⟩

/-- **Publishing is a course of the dispatch**, at any depth. -/
theorem isPlayed_publish (fuel : Nat) : IsPlayed (publish fuel) := by
  -- the depth bounds the publications inside of publications
  induction fuel with
  | zero =>
    intro a change n b ds h
    cases h
  | succ fuel ih =>
    intro a change n b ds h hwork
    obtain ⟨c, hdelivered, hc⟩ := Option.map_eq_some_iff.1 h
    cases hc
    have hbegins : Plays [.published a.publications change] a ds { a with publications := a.publications + 1 }
        (⟨a.publications, change, (a.bus.matching change.kind).length, a.bus.matching change.kind, none⟩ :: ds) :=
      .act (.publish change) (if_pos hwork) rfl (List.append_nil _).symm
    obtain ⟨log, hdelivers⟩ := plays_deliver ih hdelivered
    have hends : Plays [.concluded a.publications (a.bus.matching change.kind).length] b
        (⟨a.publications, change, (a.bus.matching change.kind).length, [], none⟩ :: ds) b ds :=
      .act .conclude rfl rfl (List.append_nil _).symm
    exact ⟨log, (hbegins.trans hdelivers).trans hends⟩

/-- What the course notes of a publication is what the journal has of it. -/
theorem share_handled (p : Nat) (log : List (BusNote Subscriber)) :
    share p (log.filterMap BusNote.handled?) = (Dispatch.told p log).map (·.id) := by
  rw [share, Dispatch.told, List.filterMap_filterMap, List.map_filterMap]
  refine List.filterMap_congr fun n _ => ?_
  cases n with
  | told q s => by_cases hq : q = p <;> simp [hq]
  | subscribed | unsubscribed | published | ended | concluded => rfl

-- only a note that somebody was told counts on either side
/-- **Whom a change reaches in an audience**: those who match it when it is published, once each, in their order. -/
theorem handled_publish {fuel n : Nat} {change : Change} (h : Plays log empty [] a [])
    (hpublish : publish fuel a change = some (n, b)) :
    n = (a.bus.matching change.kind).length ∧
      share a.publications b.handled = (a.bus.matching change.kind).map (·.id) := by
  obtain ⟨during, hplays⟩ := isPlayed_publish fuel a change n b [] hpublish rfl
  obtain ⟨hruns, hhandled⟩ := h.trans hplays
  rw [List.cons_append] at hruns hhandled
  have hbefore := (Dispatch.Runs.account hruns).2.1
  obtain ⟨htold, hn⟩ := Dispatch.Runs.complete hruns (List.mem_append_right _ (List.mem_singleton_self _))
  -- the publication is known from its own notes, so what was handled before it was handled for others
  have hmatching : a.bus.matching change.kind = Dispatch.reachedBy change (Dispatch.present log) := by
    rw [Bus.matching, show a.bus.subscriptions = _ from (Dispatch.Runs.orderly h.course).table]
    rfl
  refine ⟨hmatching ▸ hn, ?_⟩
  calc share a.publications b.handled
      = (Dispatch.told a.publications
          (log ++ .published a.publications change :: (during ++ [.concluded a.publications n]))).map (·.id) := by
        rw [hhandled, ← share_handled]
        rfl
    _ = (a.bus.matching change.kind).map (·.id) := by
        rw [Dispatch.told_append_published, hbefore, List.nil_append, htold, hmatching]

end Audience

end SensorCatalog
