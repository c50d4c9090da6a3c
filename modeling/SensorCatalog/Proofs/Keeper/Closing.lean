import SensorCatalog.Proofs.Keeper.Requests
import SensorCatalog.Proofs.Timer.Step

/-!
# Closing the keeper

The call that finds the keeper open closes it: it marks the keeper, shuts the timer down, waits for the end of its
thread, and then waits until no rebuild is running. When it returns, the keeper is closed for good (`Keeper.Closed`).
A call that finds the keeper marked returns at once, although the first one may be far from its end
(`Keeper.Reaches.returned_early`).

What any call to close the keeper ensures when it returns is that no rebuild begins from then on, and that whoever asks
for one or wants to start the keeper is refused (`Keeper.Reaches.closing`).

The mark is never taken away (`Keeper.Marked`). While the keeper is marked but not closed, there is a call that has
still to do its part (`CallPhase.Closes`), and `Keeper.Marked.step` follows this call.
-/

namespace SensorCatalog

variable {b : Backend} {k k' k₁ : Keeper} {i : Nat} {c : Call} {phase phase' : CallPhase} {onTimer : Bool}

/-! ### The timer -/

/-- **A timer that is shut down**, and has no deadline. -/
structure Timer.Stopped (t : Timer) : Prop where
  shutDown : t.shutDown = true
  unarmed : t.deadline = none

namespace Timer

variable {t t' : Timer} {now : Nat} {s : TimerSection} {e : SectionEnd}

/-- It cannot be set any more. -/
theorem Stopped.performs (h : t.Stopped) (hperform : t.Performs now onTimer s t' e) : t'.Stopped := by
  -- of the sections that touch the timer only those of an open one can set it
  cases hperform with
  | spawned hopen hthread | armed hopen hclock =>
    rw [h.shutDown] at hopen
    cases hopen
  | disarmed => exact ⟨h.shutDown, rfl⟩
  | adjusted hcheck => exact ⟨h.shutDown, h.unarmed⟩
  | stopped => exact ⟨rfl, rfl⟩
  | released hthread => exact ⟨h.shutDown, h.unarmed⟩
  | _ => exact h

/-- Its thread does not fire. -/
theorem Stopped.look (h : t.Stopped) (hlook : t.look now = some t') : t'.Stopped := by
  obtain ⟨-, ⟨-, rfl⟩ | ⟨hopen, -⟩⟩ := look_cases hlook
  · exact ⟨h.shutDown, h.unarmed⟩
  · rw [h.shutDown] at hopen
    cases hopen

end Timer

/-! ### Calls that close the keeper -/

/-- **A call that has marked the keeper and is not through with closing it.** It has shut the timer down, or will do
so with its next act. -/
def CallPhase.Closes (t : Timer) : CallPhase → Prop
  | .timing sections .close => (∃ rest, sections = .stop :: rest) ∨ t.Stopped
  | .looking .close _ | .asleep .close => t.Stopped
  | _ => False

namespace CallPhase

/-- A call that closes the keeper does so whether it is woken or not. -/
theorem Closes.rouse {t : Timer} (h : phase.Closes t) : phase.rouse.Closes t := by
  cases phase with
  | asleep p => cases p <;> exact h
  | _ => exact h

/-- It does not matter to it what others do with the timer. -/
theorem Closes.congr {t t' : Timer} (h : phase.Closes t) (hstopped : t.Stopped → t'.Stopped) : phase.Closes t' := by
  -- only the phases of a call that closes the keeper are about the timer
  cases phase with
  | timing sections use =>
    cases use with
    | close => exact Or.imp_right hstopped h
    | _ => exact h
  | looking p again | asleep p =>
    cases p with
    | close => exact hstopped h
    | _ => exact h
  | _ => exact h

/-- Such a call was made to close the keeper, and has not returned. -/
theorem Closes.serves {t : Timer} (h : phase.Closes t) {r : Request} (hserves : phase.Serves r) :
    r = .cleanup ∧ phase ≠ .closing ∧ ∀ a, phase ≠ .returned a := by
  -- such a call uses the timer to close it, or waits for the rebuild that is running
  cases phase with
  | timing sections use =>
    cases use with
    | close => exact ⟨hserves, nofun, nofun⟩
    | _ => exact h.elim
  | looking p again | asleep p =>
    cases p with
    | close => exact ⟨hserves, nofun, nofun⟩
    | _ => exact h.elim
  | _ => exact h.elim

end CallPhase

/-! ### Closed keepers -/

namespace Keeper

/-- **A keeper that is closed for good.** -/
structure Closed (k : Keeper) : Prop where
  shuttingDown : k.shuttingDown = true
  /-- No rebuild is running. -/
  idle : k.idle = true
  timer : k.timer.Stopped

/-- What an act cannot undo. -/
structure Endures (k k' : Keeper) : Prop where
  shuttingDown : k.shuttingDown = true → k'.shuttingDown = true
  timer : k.timer.Stopped → k'.timer.Stopped
  /-- While the keeper is marked, no rebuild begins. -/
  idle : k.shuttingDown = true → k.idle = true → k'.idle = true

/-- What is closed remains so in each act of a call. -/
theorem Endures.of_advance (hadv : phase.Advance b k onTimer phase' k₁) : k.Endures k₁ := by
  cases hadv with
  -- a rebuild begins only while the keeper is open
  | begun hopen hidle hagain =>
    refine ⟨id, id, fun hmarked => ?_⟩
    rw [hopen] at hmarked
    cases hmarked
  | recorded => exact ⟨id, id, fun _ _ => rfl⟩
  | turnedDown hperform | proceeded hperform =>
    exact ⟨id, fun hstopped => hstopped.performs (.of_perform hperform), fun _ => id⟩
  | closing hopen => exact ⟨fun _ => rfl, id, fun _ => id⟩
  | _ => exact ⟨id, id, fun _ => id⟩

/-- What is closed remains so in each act. -/
theorem Endures.of_step {a : KeeperAct} (hstep : k.step b a = some k') : k.Endures k' := by
  cases Happens.of_step hstep with
  | moved hc hadv =>
    have hkeeps := of_advance hadv
    exact ⟨hkeeps.shuttingDown, hkeeps.timer, hkeeps.idle⟩
  | fired htick hlook hfiring | looked htick hlook hfiring =>
    exact ⟨id, fun hstopped => hstopped.look hlook, fun _ => id⟩
  | resumed htick hover => exact ⟨id, fun hstopped => ⟨hstopped.shutDown, hstopped.unarmed⟩, fun _ => id⟩
  | _ => exact ⟨id, id, fun _ => id⟩

/-- A keeper that is closed stays closed. -/
theorem Closed.endures (h : k.Closed) (hkeeps : k.Endures k') : k'.Closed :=
  ⟨hkeeps.shuttingDown h.shuttingDown, hkeeps.idle h.shuttingDown h.idle, hkeeps.timer h.timer⟩

end Keeper

namespace CallPhase

/-- **A call that closes the keeper** goes on with it, and it is through when it finds that no rebuild is running. -/
theorem Closes.advance (h : phase.Closes k.timer) (hmarked : k.shuttingDown = true)
    (hadv : phase.Advance b k onTimer phase' k₁) : k₁.Closed ∨ phase'.Closes k₁.timer := by
  -- the call shuts the timer down first, and then looks until no rebuild is running
  cases hadv with
  | @closed again hidle => exact .inl ⟨hmarked, hidle, h⟩
  | @slept p again hidle hopen =>
    cases p with
    | close => exact .inr h
    | _ => exact h.elim
  | @timed use =>
    cases use with
    | close =>
      rcases h with ⟨rest, heq⟩ | hstopped
      · cases heq
      · exact .inr hstopped
    | _ => exact h.elim
  | @turnedDown s rest use t f hperform =>
    cases use with
    | close =>
      have hperforms := Timer.Performs.of_perform hperform
      rcases h with ⟨rest', heq⟩ | hstopped
      · -- nobody refuses to shut the timer down
        cases heq
        cases hperforms
      · exact .inr (hstopped.performs hperforms)
    | _ => exact h.elim
  | @proceeded s rest more use t hperform =>
    cases use with
    | close =>
      have hperforms := Timer.Performs.of_perform hperform
      rcases h with ⟨rest', heq⟩ | hstopped
      · cases heq
        cases hperforms with
        | stopped => exact .inr (.inr ⟨rfl, rfl⟩)
      · exact .inr (.inr (hstopped.performs hperforms))
    | _ => exact h.elim
  | _ => exact h.elim

/-- A call that closes the keeper goes on with it, whoever moves. -/
theorem Closes.turns (h : phase.Closes k.timer) (hmarked : k.shuttingDown = true) (hkeeps : k.Endures k')
    (hturns : phase.Turns b k i k' phase') : k'.Closed ∨ phase'.Closes k'.timer := by
  cases hturns with
  | stayed => exact .inr (h.congr hkeeps.timer)
  | woken => exact .inr (h.rouse.congr hkeeps.timer)
  | advanced hadv hk =>
    subst hk
    rcases h.advance hmarked hadv with hclosed | hcloses
    · exact .inl ⟨hclosed.shuttingDown, hclosed.idle, hclosed.timer⟩
    · exact .inr hcloses
  | itemMoved hrun => exact h.elim
  | expired => exact h.elim

/-- A call to close the keeper finds the mark, or makes it. -/
theorem Turns.marked (hturns : phase.Turns b k i k' phase') (hmarked : phase = .closing ∨ k.shuttingDown = true)
    (hkeeps : k.Endures k') : phase' = .closing ∨ k'.shuttingDown = true := by
  rcases hmarked with rfl | hmarked
  -- the call moves by itself, since it neither sleeps nor runs a rebuild
  · cases hturns with
    | stayed | woken => exact .inl rfl
    | advanced hadv hk =>
      subst hk
      cases hadv with
      | closedBefore hclosing => exact .inr hclosing
      | closing hopen => exact .inr rfl
  · exact .inr (hkeeps.shuttingDown hmarked)

/-- No call begins a rebuild while the keeper is marked. -/
theorem Turns.isBusy (hturns : phase.Turns b k i k' phase') (hmarked : k.shuttingDown = true)
    (hbusy : phase'.isBusy = true) : phase.isBusy = true := by
  cases hturns.works hbusy with
  | begins hopen hidle hbegun =>
    rw [hmarked] at hopen
    cases hopen
  | goesOn hrun => rfl
  | ends hresult => rfl
  | stays hbusy => exact hbusy

/-- **A call that comes to a marked keeper**: it has been refused, or it has not yet looked. -/
def Turned : CallPhase → Prop
  | .looking (.trigger _) false | .starting => True
  | .returned a => a = .refused .closing
  | _ => False

/-- A call that is turned down once the keeper is marked remains so, whoever moves. -/
theorem Turned.turns (h : phase.Turned) (hmarked : k.shuttingDown = true) (hturns : phase.Turns b k i k' phase') :
    phase'.Turned := by
  cases hturns with
  | stayed => exact h
  | woken =>
    cases phase with
    | asleep p => exact h.elim
    | _ => exact h
  | advanced hadv hk =>
    unfold Turned at h
    -- by the three kinds of calls that are turned down
    split at h
    · cases hadv with
      | refused hclosing hagain => rfl
      | begun hopen hidle hagain =>
        rw [hmarked] at hopen
        cases hopen
      | slept hidle hopen =>
        have hopen := hopen _ rfl rfl
        rw [hmarked] at hopen
        cases hopen
    · cases hadv with
      | unwelcome hclosing => rfl
      | startedBefore hopen hstarted | started hopen hstarted =>
        rw [hmarked] at hopen
        cases hopen
    · cases hadv
    · exact h.elim
  | itemMoved hrun => exact h.elim
  | expired => exact h.elim

/-- A call that asks for a rebuild or a start can be turned down from its beginning on. -/
theorem turned_request {r : Request} (hr : r.IsTrigger ∨ r = .start) (now : Nat) : (r.phase now).Turned := by
  rcases hr with ⟨mode, rfl⟩ | rfl
  · trivial
  · trivial

end CallPhase

/-! ### The mark -/

namespace Keeper

variable {log more : List Request} {a : KeeperAct}

/-- **What the mark of a keeper means**, given the requests that were made. -/
structure Marked (k : Keeper) (log : List Request) : Prop where
  /-- Each call serves its request. -/
  serves : k.Serves log
  /-- A call to close the keeper that has begun to do so finds the mark. -/
  entered : ∀ i phase, k.phase? i = some phase → log[i]? = some .cleanup → phase = .closing ∨ k.shuttingDown = true
  /-- A marked keeper is closed, or one of these calls goes on with it. -/
  closes : k.shuttingDown = true → k.Closed ∨ ∃ i phase, k.phase? i = some phase ∧ phase.Closes k.timer

/-- Only a call that goes on with closing the keeper marks it. -/
theorem marked_or_closes (hstep : k.step b a = some k') (hmarked : k'.shuttingDown = true) :
    k.shuttingDown = true ∨ ∃ i phase, k'.phase? i = some phase ∧ phase.Closes k'.timer := by
  -- whoever finds the mark there has not made it
  cases Happens.of_step hstep with
  | @moved i c phase k₁ hc hadv =>
    have hself := phase?_moved hc hadv
    obtain ⟨before, onTimer⟩ := c
    cases hadv with
    | closing hopen => exact .inr ⟨i, _, hself, .inl ⟨_, rfl⟩⟩
    | unwelcome hclosing | closedBefore hclosing | refused hclosing hagain => exact .inl hclosing
    | _ => exact .inl hmarked
  | _ => exact .inl hmarked

/-- **One act**, in which the calls that close the keeper keep what is said of them. -/
theorem Marked.step (h : k.Marked log) (hstep : k.step b a = some k') :
    k'.Marked (log ++ k.asked (a, b) k') := by
  have hturns := Turns.of_step hstep
  have hkeeps := Endures.of_step hstep
  constructor
  case serves => exact h.serves.step hstep
  case entered =>
    intro j p' hp' hlog
    rcases hturns.phases j p' hp' with ⟨p, hp, hturn⟩ | ⟨rfl, r, hr, rfl⟩
    · rw [h.serves.getElem?_append hp] at hlog
      exact hturn.marked (h.entered j p hp hlog) hkeeps
    · -- a call that only begins has done nothing
      rw [hr, ← h.serves.length_eq, List.getElem?_concat_length] at hlog
      cases hlog
      exact .inl rfl
  case closes =>
    intro hmarked
    rcases marked_or_closes hstep hmarked with hbefore | hnow
    · rcases h.closes hbefore with hclosed | ⟨j, p, hp, hcloses⟩
      · exact .inl (hclosed.endures hkeeps)
      · obtain ⟨p', hp', hturn⟩ := hturns.of_phase? hp
        rcases hcloses.turns hbefore hkeeps hturn with hclosed | hstill
        · exact .inl hclosed
        · exact .inr ⟨j, p', hp', hstill⟩
    · exact .inr hnow

/-- **Any number of acts** of a new keeper. -/
theorem Reaches.marked {steps : List Step} {interval : Nat} {world : World}
    (h : (create steps interval world).Reaches log k) : k.Marked log := by
  induction h with
  | start => exact ⟨.create steps interval world, nofun, nofun⟩
  | act before hstep ih => exact ih.step hstep

/-! ### After a return -/

/-- **A keeper since it was marked**, as compared with the one then. The list has the requests that were made since. -/
structure Since (k : Keeper) (more : List Request) (k' : Keeper) : Prop where
  shuttingDown : k'.shuttingDown = true
  length : k'.calls.length = k.calls.length + more.length
  /-- No rebuild begins. -/
  busy : ∀ j phase, k'.phase? j = some phase → phase.isBusy = true → k.Rebuilding j
  /-- Nobody is welcome. -/
  turned : ∀ j r phase, more[j]? = some r → r.IsTrigger ∨ r = .start →
    k'.phase? (k.calls.length + j) = some phase → phase.Turned
  closed : k.Closed → k'.Closed

/-- Nothing has been asked since just now. -/
theorem Since.start (h : k.shuttingDown = true) : k.Since [] k where
  shuttingDown := h
  length := rfl
  busy j phase hphase hbusy := rebuilding_iff_phase?.2 ⟨phase, hphase, hbusy⟩
  turned _ _ _ hr := by cases hr
  closed := id

/-- **One act** of a keeper that is being closed. -/
theorem Since.step {k₀ : Keeper} (h : k₀.Since more k) (hstep : k.step b a = some k') :
    k₀.Since (more ++ k.asked (a, b) k') k' := by
  have hturns := Turns.of_step hstep
  have hkeeps := Endures.of_step hstep
  constructor
  case shuttingDown => exact hkeeps.shuttingDown h.shuttingDown
  case length => rw [hturns.length, h.length, List.length_append, Nat.add_assoc]
  case closed =>
    intro hclosed
    exact (h.closed hclosed).endures hkeeps
  case busy =>
    intro j p' hp' hbusy
    rcases hturns.phases j p' hp' with ⟨p, hp, hturn⟩ | ⟨-, r, -, rfl⟩
    · exact h.busy j p hp (hturn.isBusy h.shuttingDown hbusy)
    · rw [CallPhase.isBusy_request] at hbusy
      cases hbusy
  case turned =>
    intro j r p' hr hrequest hp'
    rcases hturns.phases _ p' hp' with ⟨p, hp, hturn⟩ | ⟨hj, r', hr', rfl⟩
    · -- the call was made before this act
      have hlt := lt_of_phase? hp
      rw [h.length] at hlt
      rw [List.getElem?_append_left (by omega)] at hr
      exact (h.turned j r p hr hrequest hp).turns h.shuttingDown hturn
    · rw [h.length] at hj
      obtain rfl : j = more.length := by omega
      rw [hr', List.getElem?_concat_length] at hr
      cases hr
      exact CallPhase.turned_request hrequest k.now

/-- **Any number of acts** of a keeper that is being closed. -/
theorem Reaches.since {k₀ : Keeper} (h : k₀.Reaches more k) (hmarked : k₀.shuttingDown = true) : k₀.Since more k := by
  induction h with
  | start => exact .start hmarked
  | act before hstep ih => exact ih.step hstep

/-- **A call is refused** because the keeper is being closed: it has been, or it is with its next act. -/
def Refuses (k : Keeper) (i : Nat) : Prop :=
  k.phase? i = some (.returned (.refused .closing)) ∨
    ∀ b, ∃ k', k.step b (.move i) = some k' ∧ k'.phase? i = some (.returned (.refused .closing))

/-- A call that is turned down is refused with its next act, if it has not been refused. -/
theorem refuses_of_turned (hmarked : k.shuttingDown = true) (hphase : k.phase? i = some phase) (h : phase.Turned) :
    k.Refuses i := by
  obtain ⟨c, hc, rfl⟩ := Option.map_eq_some_iff.1 hphase
  have hself := (@phase?_setPhase k k i c (.returned (.refused .closing)) hc (.inl rfl)).1
  have hmove : ∀ b, k.step b (.move i) = k.moveCall b i c := fun b => by
    rw [Keeper.step, hc, Option.bind_some]
  obtain ⟨phase, onTimer⟩ := c
  unfold CallPhase.Turned at h
  -- it looks for the first time, or it is about to start the keeper, or it has been refused already
  split at h
  · rename_i mode hlooking
    refine .inr fun b => ⟨_, ?_, hself⟩
    rw [hmove, moveCall, hlooking]
    simp only [look, if_pos hmarked]
  · rename_i hstarting
    refine .inr fun b => ⟨_, ?_, hself⟩
    rw [hmove, moveCall, hstarting]
    simp only [if_pos hmarked]
  · rename_i a hreturned
    refine .inl (hphase.trans ?_)
    rw [hreturned, h]
  · exact h.elim

/-- **What a call to close the keeper ensures** with its return, after the requests in `log`. The keeper is `k` then and
`k'` later on, and `more` has the requests that were made since. -/
structure Ensures (log : List Request) (k : Keeper) (more : List Request) (k' : Keeper) : Prop where
  /-- No rebuild begins any more. -/
  nothing_begins : ∀ j, k'.Rebuilding j → k.Rebuilding j
  /-- Who asks for a rebuild or wants to start the keeper is refused. -/
  refused : ∀ j r, more[j]? = some r → r.IsTrigger ∨ r = .start → k'.Refuses (k.calls.length + j)
  /-- The keeper is closed for good, unless another call was in the middle of closing it. -/
  closed : (∀ j phase, k.phase? j = some phase → log[j]? = some .cleanup →
    phase = .closing ∨ ∃ a, phase = .returned a) → k'.Closed

variable {steps : List Step} {interval : Nat} {world : World}

/-- **Closing the keeper.** From the return of any call to close the keeper on, no rebuild begins, and whoever asks for
one or wants to start the keeper is refused. Only if no other call is in the middle of closing it is it certain that no
rebuild is running and that the timer is shut down: else this one has returned early. -/
theorem Reaches.closing {answer : Answer} (h : (create steps interval world).Reaches log k)
    (hcleanup : log[i]? = some .cleanup) (hover : k.phase? i = some (.returned answer)) (h' : k.Reaches more k') :
    Ensures log k more k' := by
  have hmarks := h.marked
  -- the call has returned, so it is past the act in which it finds the mark or makes it
  have hmarked : k.shuttingDown = true := by
    rcases hmarks.entered i _ hover hcleanup with hno | hmarked
    · cases hno
    · exact hmarked
  have hsince := h'.since hmarked
  constructor
  case nothing_begins =>
    intro j hj
    obtain ⟨phase, hphase, hbusy⟩ := rebuilding_iff_phase?.1 hj
    exact hsince.busy j phase hphase hbusy
  case refused =>
    intro j r hr hrequest
    have hj := (List.getElem?_eq_some_iff.1 hr).1
    have hlt : k.calls.length + j < k'.calls.length := by
      rw [hsince.length]
      omega
    have hphase := phase?_of_getElem? (List.getElem?_eq_getElem hlt)
    exact refuses_of_turned hsince.shuttingDown hphase (hsince.turned j r _ hr hrequest hphase)
  case closed =>
    intro hnobody
    refine hsince.closed ?_
    rcases hmarks.closes hmarked with hclosed | ⟨j, phase, hphase, hcloses⟩
    · exact hclosed
    · -- whoever goes on with closing the keeper is neither before it nor after it
      obtain ⟨r, hr, hserves⟩ := hmarks.serves.phases j phase hphase
      obtain ⟨rfl, hclosing, hreturned⟩ := hcloses.serves hserves
      rcases hnobody j phase hphase hr with hbefore | ⟨a, hafter⟩
      · exact absurd hbefore hclosing
      · exact absurd hafter (hreturned a)

/-- One call runs a rebuild and another one waits to have one, when somebody closes the keeper. -/
def closingCourse : List (KeeperAct × Backend) :=
  [.begin (.trigger .runAfterCurrent), .move 0, .begin (.trigger .runAfterCurrent), .move 1, .begin .cleanup,
    .move 2, .move 2, .move 2, .move 2, .move 2, .move 0, .move 0, .move 0, .move 0, .move 0, .move 0, .move 0,
    .move 1, .move 2, .move 2].map (·, World.initial.archive.backend)

/-- Then others ask for a rebuild and want to start the keeper. -/
def lateCourse : List (KeeperAct × Backend) :=
  [.begin (.trigger .coalesce), .move 3, .begin .start].map (·, World.initial.archive.backend)

/-- The call that waits is refused when the rebuild is over, and so are those that come later. -/
theorem Reaches.closing_waiting : ∃ log k more k', (create [] (seconds 3600) World.initial).Reaches log k ∧
    log[2]? = some .cleanup ∧ k.phase? 2 = some (.returned .done) ∧ k.Reaches more k' ∧
    more = [.trigger .coalesce, .start] ∧ Ensures log k more k' ∧ k'.Closed := by
  obtain ⟨log, k, more, k', hk, hk', rfl, hdone, hmore⟩ : ∃ log k more k',
      carryOut act asked closingCourse ([], create [] (seconds 3600) World.initial) = some (log, k) ∧
      carryOut act asked lateCourse ([], k) = some (more, k') ∧
      log = [.trigger .runAfterCurrent, .trigger .runAfterCurrent, .cleanup] ∧
      k.phase? 2 = some (.returned .done) ∧ more = [.trigger .coalesce, .start] :=
    ⟨_, _, _, _, rfl, rfl, rfl, rfl, rfl⟩
  have h := Course.of_carryOut closingCourse .start hk
  have h' := Course.of_carryOut lateCourse .start hk'
  have hensures := Reaches.closing h rfl hdone h'
  refine ⟨_, k, more, k', h, rfl, hdone, h', hmore, hensures, hensures.closed fun j phase hphase hlog => ?_⟩
  -- nobody else closes the keeper
  match j, hlog with
  | 2, _ =>
    rw [hdone] at hphase
    cases hphase
    exact .inr ⟨.done, rfl⟩

/-- A rebuild is running and the timer is set, when two calls close the keeper. The first one has only marked it, and
the second one is over. -/
def hastyCourse : List (KeeperAct × Backend) :=
  [.begin .start, .move 0, .move 0, .move 0, .begin (.trigger .coalesce), .move 1, .begin .cleanup, .move 2,
    .begin .cleanup, .move 3].map (·, World.initial.archive.backend)

/-- **A call to close the keeper may return early**: a rebuild is running, and the timer is set and not shut down. -/
theorem Reaches.returned_early : ∃ log k, (create [] (seconds 3600) World.initial).Reaches log k ∧
    log[3]? = some .cleanup ∧ k.phase? 3 = some (.returned .done) ∧ k.Rebuilding 1 ∧ k.idle = false ∧
    k.timer.shutDown = false ∧ k.timer.isArmed = true := by
  obtain ⟨log, k, hk, hcleanup, hdone, hrunning, hidle, hopen, harmed⟩ : ∃ log k,
      carryOut act asked hastyCourse ([], create [] (seconds 3600) World.initial) = some (log, k) ∧
      log[3]? = some .cleanup ∧ k.phase? 3 = some (.returned .done) ∧
      k.phase? 1 = some (.running (Run.start [] true)) ∧ k.idle = false ∧ k.timer.shutDown = false ∧
      k.timer.isArmed = true :=
    ⟨_, _, rfl, rfl, rfl, rfl, rfl, rfl, rfl⟩
  exact ⟨log, k, Course.of_carryOut hastyCourse .start hk, hcleanup, hdone,
    rebuilding_iff_phase?.2 ⟨_, hrunning, rfl⟩, hidle, hopen, harmed⟩

end Keeper

end SensorCatalog
