import SensorCatalog.Proofs.Service.Calm

/-!
# What calls are about

`Keeper.Reaches` is a course of a keeper: its acts in any order, each of which meets answers of its own. Its log
lists the requests in the order in which the calls began, so the number of a call is the place of its request. The
thread of the timer asks for a rebuild each time that it fires.

From the phase of a call one can tell what it was asked for, until it has returned (`CallPhase.Serves`). That each call
has its request in the log and serves it (`Keeper.Serves`) holds at first and is kept by every act.

`CallPhase.Turns` says what an act can mean for a call, and `Keeper.Turns.of_step` that each call of a keeper either was
there before and takes such a turn, or begins in this act. What holds of the phases of all calls is carried along by
cases on these.
-/

namespace SensorCatalog

variable {b : Backend} {k k' k₁ : Keeper} {i : Nat} {c : Call} {phase phase' : CallPhase} {onTimer : Bool}

/-! ### Calls by their numbers -/

namespace Keeper

/-- A call that is in a phase has a number that was given out. -/
theorem lt_of_phase? (h : k.phase? i = some phase) : i < k.calls.length := by
  obtain ⟨c, hc, -⟩ := Option.map_eq_some_iff.1 h
  exact (List.getElem?_eq_some_iff.1 hc).1

/-- A call runs a rebuild exactly if it is in a busy phase. -/
theorem rebuilding_iff_phase? : k.Rebuilding i ↔ ∃ phase, k.phase? i = some phase ∧ phase.isBusy = true := by
  constructor
  · rintro ⟨c, hc, hbusy⟩
    exact ⟨c.phase, phase?_of_getElem? hc, hbusy⟩
  · rintro ⟨phase, hphase, hbusy⟩
    obtain ⟨c, hc, rfl⟩ := Option.map_eq_some_iff.1 hphase
    exact ⟨c, hc, hbusy⟩

/-- A call is over exactly if it has returned an answer. -/
theorem isOver_iff : k.isOver i = true ↔ ∃ a, k.phase? i = some (.returned a) := by
  unfold isOver phase?
  cases hc : k.calls[i]? with
  | none => simp
  | some c =>
    obtain ⟨p, onTimer⟩ := c
    cases p <;> simp

/-- The call that acts is in its new phase then. -/
theorem phase?_moved (hc : k.calls[i]? = some c) (hadv : c.phase.Advance b k onTimer phase k₁) :
    (k₁.setPhase i phase).phase? i = some phase :=
  (phase?_setPhase hc hadv.passes.calls).1

/-- To go to another phase is not to make a call. -/
theorem length_setPhase (k : Keeper) (i : Nat) (phase : CallPhase) :
    (k.setPhase i phase).calls.length = k.calls.length :=
  List.length_modify _ _ _

end Keeper

/-! ### Requests -/

namespace Request

/-- The call wants a rebuild. -/
def IsTrigger (r : Request) : Prop := ∃ mode, r = .trigger mode

/-- The call changes the interval. -/
def IsChange (r : Request) : Prop := (∃ interval, r = .setInterval interval) ∨ ∃ minutes, r = .setMinutes minutes

end Request

/-- What a call waits for tells what it was asked for. -/
def Purpose.Serves : Purpose → Request → Prop
  | .trigger mode, r => r = .trigger mode
  | .idle, r => r = .waitIdle
  | .idleUntil _, r => ∃ span, r = .waitIdleFor span
  | .close, r => r = .cleanup

/-- So does what a call uses the timer for. -/
def TimerUse.Serves : TimerUse → Request → Prop
  | .rearm _, r => r.IsTrigger
  | .start, r => r = .start
  | .adjust, r => r.IsChange
  | .close, r => r = .cleanup

namespace CallPhase

/-- **A call in this phase can have this request.** -/
def Serves : CallPhase → Request → Prop
  | .looking p _, r | .asleep p, r => p.Serves r
  | .running _, r | .recording _, r => r.IsTrigger
  -- a call that closes the keeper announces, too
  | .announcing rearm a, r => (r.IsTrigger ∧ a ≠ .done) ∨ (r = .cleanup ∧ rearm = false ∧ a = .done)
  | .timing _ use, r => use.Serves r
  | .starting, r | .unstarting _, r => r = .start
  | .closing, r => r = .cleanup
  | .returned _, _ => True

variable {r : Request}

/-- A call serves the request it was made with. -/
theorem serves_request (r : Request) (now : Nat) : (r.phase now).Serves r := by
  cases r with
  | trigger mode | start | cleanup | waitIdle => rfl
  | setInterval interval => exact .inl ⟨interval, rfl⟩
  | setMinutes minutes =>
    rw [Request.phase]
    -- it is refused at once, or it has a new interval to try
    split
    · trivial
    · exact .inr ⟨minutes, rfl⟩
  | waitIdleFor span =>
    rw [Request.phase]
    -- it looks for idleness, or an instant beyond the clock breaks it off
    split
    · exact ⟨span, rfl⟩
    · trivial

/-- A call that is woken keeps to its request. -/
theorem Serves.rouse (h : phase.Serves r) : phase.rouse.Serves r := by
  cases phase with
  | asleep p => exact h
  | _ => exact h

/-- Whatever comes of its use of the timer, a call keeps to its request. -/
theorem Serves.afterTiming {use : TimerUse} (h : use.Serves r) (outcome : Except Fault Unit) :
    (CallPhase.afterTiming use outcome).Serves r := by
  cases use with
  | rearm a => trivial
  | close => exact h
  | start =>
    cases outcome with
    | ok _ => trivial
    | error f => exact h
  | adjust =>
    cases outcome with
    | ok _ => trivial
    -- a refused start has its mark taken back first
    | error f => trivial

/-- **A call keeps to its request.** -/
theorem Serves.advance (h : phase.Serves r) (hadv : phase.Advance b k onTimer phase' k₁) : phase'.Serves r := by
  cases hadv with
  -- a rebuild is begun for a trigger only
  | begun hopen hidle hagain => exact ⟨_, h⟩
  | slept hidle hopen => exact h
  | closed hidle => exact .inr ⟨h, rfl, rfl⟩
  | ran hrun => exact h
  | ended hresult => exact h
  | @recorded result =>
    refine .inl ⟨h, ?_⟩
    -- the result of a rebuild is not the answer to those who closed the keeper
    cases result with
    | ok report => nofun
    | error f => nofun
  | rearmed =>
    -- whoever closes the keeper does not set the timer again
    rcases h with ⟨htrigger, -⟩ | ⟨-, hno, -⟩
    · exact htrigger
    · cases hno
  | timed | turnedDown hperform => exact .afterTiming h _
  | proceeded hperform => exact h
  | started hopen hstarted => exact h
  | closing hopen => exact h
  -- the call returns
  | refused | coalesced | sawIdle | sawIdleInTime | announced | unwelcome | startedBefore | unstarted | closedBefore =>
    trivial

end CallPhase

/-! ### Courses -/

namespace Keeper

/-- An act that meets a backend. -/
def act (k : Keeper) (m : KeeperAct × Backend) : Option Keeper := k.step m.2 m.1

/-- What is asked for in an act, if a call begins with it. -/
def asked (k : Keeper) (m : KeeperAct × Backend) (k' : Keeper) : List Request :=
  match m.1 with
  | .begin r => [r]
  -- the thread of the timer may only look at the clock
  | .tick => if k'.calls.length = k.calls.length then [] else [.trigger .coalesce]
  | _ => []

/-- When the timer fires, its thread asks for a rebuild. -/
theorem asked_of_fired (hcalls : k'.calls = k.calls ++ [c]) : k.asked (.tick, b) k' = [.trigger .coalesce] :=
  if_neg (by simp [hcalls])

/-- When it does not, nobody is asked for anything. -/
theorem asked_of_calls (hcalls : k'.calls = k.calls) : k.asked (.tick, b) k' = [] :=
  if_pos (by rw [hcalls])

/-- Only who closes the keeper asks for it. -/
theorem eq_cleanup_of_asked {a : KeeperAct} (h : k.asked (a, b) k' = [.cleanup]) : a = .begin .cleanup := by
  unfold asked at h
  cases a with
  | «begin» r =>
    cases h
    rfl
  | tick =>
    simp only at h
    split at h <;> cases h
  | _ => cases h

end Keeper

/-- **What an act means for a call** that was there before. -/
inductive CallPhase.Turns (b : Backend) (k : Keeper) (i : Nat) (k' : Keeper) : CallPhase → CallPhase → Prop where
  | stayed {phase : CallPhase} : Turns b k i k' phase phase
  | woken {phase : CallPhase} : Turns b k i k' phase phase.rouse
  | advanced {phase phase' : CallPhase} {onTimer : Bool} {k₁ : Keeper}
    (hadv : phase.Advance b k onTimer phase' k₁) (hk : k' = k₁.setPhase i phase') : Turns b k i k' phase phase'
  | itemMoved {r r' : Run} {w : World} {j : Nat} (hrun : r.step b k.world (.item j) = some (r', w)) :
    Turns b k i k' (.running r) (.running r')
  | expired {deadline : Nat} : Turns b k i k' (.asleep (.idleUntil deadline)) (.returned (.idle k.idle))

/-- **How a call comes to be busy with a rebuild**, or remains so. -/
inductive CallPhase.Works (b : Backend) (k k' : Keeper) : CallPhase → CallPhase → Prop where
  | begins {mode : TriggerMode} {again : Bool} (hopen : k.shuttingDown = false) (hidle : k.idle = true)
    (hbusy : k'.idle = false) :
    Works b k k' (.looking (.trigger mode) again) (.running (Run.start k.steps (!k.initialized)))
  | goesOn {r r' : Run} {w : World} {a : Actor} (hrun : r.step b k.world a = some (r', w)) :
    Works b k k' (.running r) (.running r')
  | ends {r : Run} {result : Except Fault Report} (hresult : r.result? = some result) :
    Works b k k' (.running r) (.recording result)
  | stays {phase : CallPhase} (hbusy : phase.isBusy = true) : Works b k k' phase phase

/-- Of the turns of a call only these four leave it busy. -/
theorem CallPhase.Turns.works (hturns : phase.Turns b k i k' phase') (hbusy : phase'.isBusy = true) :
    phase.Works b k k' phase' := by
  cases hturns with
  | stayed => exact .stays hbusy
  | woken =>
    rw [isBusy_rouse] at hbusy
    -- a sleeper that is woken looks again, and that is not to be busy
    cases phase with
    | asleep p => cases hbusy
    | _ => exact .stays hbusy
  | advanced hadv hk =>
    subst hk
    cases hadv with
    -- of the acts of a call three lead to a busy phase
    | begun hopen hidle hagain => exact .begins hopen hidle rfl
    | ran hrun => exact .goesOn hrun
    | ended hresult => exact .ends hresult
    | @timed use | @turnedDown s rest use t f hperform =>
      -- the use of the timer may have followed a rebuild, but this is over
      cases use <;> cases hbusy
    | _ => cases hbusy
  | itemMoved hrun => exact .goesOn hrun
  | expired => cases hbusy

/-- A call serves its request after each turn. -/
theorem CallPhase.Serves.turns {r : Request} (h : phase.Serves r) (hturns : phase.Turns b k i k' phase') :
    phase'.Serves r := by
  cases hturns with
  | stayed => exact h
  | woken => exact h.rouse
  | advanced hadv hk => exact h.advance hadv
  | itemMoved hrun => exact h
  | expired => trivial

namespace Keeper

/-- **What an act means for all calls.** The list has the request of the call that begins in it, if one does. -/
structure Turns (b : Backend) (k : Keeper) (asked : List Request) (k' : Keeper) : Prop where
  /-- A call was there before and takes its turn, or it is the one that begins. -/
  phases : ∀ j p', k'.phase? j = some p' →
    (∃ p, k.phase? j = some p ∧ p.Turns b k j k' p') ∨ j = k.calls.length ∧ ∃ r, asked = [r] ∧ p' = r.phase k.now
  length : k'.calls.length = k.calls.length + asked.length

/-- No call is lost. -/
theorem Turns.of_phase? {asked : List Request} (h : Turns b k asked k') (hp : k.phase? i = some phase) :
    ∃ phase', k'.phase? i = some phase' ∧ phase.Turns b k i k' phase' := by
  have hlt := lt_of_phase? hp
  have hi : i < k'.calls.length := by
    rw [h.length]
    omega
  -- some call has this number after the act, and it cannot be the new one
  have hp' := phase?_of_getElem? (List.getElem?_eq_getElem hi)
  rcases h.phases i _ hp' with ⟨p, hbefore, hturns⟩ | ⟨heq, -⟩
  · rw [hp] at hbefore
    cases hbefore
    exact ⟨_, hp', hturns⟩
  · omega

/-- No call takes part. -/
theorem Turns.of_calls (hcalls : k'.calls = k.calls) : Turns b k [] k' where
  phases j p hp := by
    rw [phase?, hcalls] at hp
    exact .inl ⟨p, hp, .stayed⟩
  length := by rw [hcalls]; rfl

/-- A call begins. -/
theorem Turns.of_add {r : Request} (hcalls : k'.calls = k.calls ++ [⟨r.phase k.now, onTimer⟩]) :
    Turns b k [r] k' where
  phases j p hp := by
    rw [phase?_addCall hcalls] at hp
    split at hp
    -- the new call stands last, and all others are where they were
    · rename_i hj
      cases hp
      exact .inr ⟨hj, r, rfl, rfl⟩
    · exact .inl ⟨p, hp, .stayed⟩
  length := by rw [hcalls]; exact List.length_append

/-- A call goes on, and others may be woken. -/
theorem Turns.of_pass (hc : k.calls[i]? = some c) (hcalls : k₁.calls = k.calls ∨ k₁.calls = k.rouseAll.calls)
    (hturns : c.phase.Turns b k i (k₁.setPhase i phase) phase) : Turns b k [] (k₁.setPhase i phase) where
  phases j p hp := by
    obtain ⟨hself, hothers⟩ := @phase?_setPhase k k₁ i c phase hc hcalls
    by_cases hj : j = i
    -- the call that acted is in its new phase, and any other is as before or was woken
    · subst hj
      rw [hself] at hp
      cases hp
      exact .inl ⟨c.phase, phase?_of_getElem? hc, hturns⟩
    · rcases hothers j hj with hsame | hroused
      · exact .inl ⟨p, hsame.symm.trans hp, .stayed⟩
      · rw [hroused] at hp
        obtain ⟨q, hq, rfl⟩ := Option.map_eq_some_iff.1 hp
        exact .inl ⟨q, hq, .woken⟩
  length := by
    rw [length_setPhase, length_woken hcalls]
    rfl

/-- **Every act is of one of these three kinds.** -/
theorem Turns.of_step {a : KeeperAct} (hstep : k.step b a = some k') : Turns b k (k.asked (a, b) k') k' := by
  -- the tick of the timer either makes a call or does not
  have hquiet : k'.calls = k.calls → Turns b k (k.asked (.tick, b) k') k' := by
    intro hcalls
    rw [asked_of_calls hcalls]
    exact .of_calls hcalls
  have hfire : k'.calls = k.calls ++ [⟨.looking (.trigger .coalesce) false, true⟩] →
      Turns b k (k.asked (.tick, b) k') k' := by
    intro hcalls
    rw [asked_of_fired hcalls]
    exact .of_add hcalls
  cases Happens.of_step hstep with
  | began r => exact .of_add rfl
  | moved hc hadv => exact .of_pass hc hadv.passes.calls (.advanced hadv rfl)
  | itemMoved hc hrun => exact .of_pass hc (.inl rfl) (.itemMoved hrun)
  | woke hc => exact .of_pass hc (.inl rfl) .woken
  | expired hc hdue => exact .of_pass hc (.inl rfl) .expired
  | fired htick hlook hfiring => exact hfire rfl
  | resumed htick hover => exact hquiet rfl
  | looked htick hlook hfiring => exact hquiet rfl
  | passed span => exact .of_calls rfl
  | edited e => exact .of_calls rfl
  | gated closed => exact .of_calls rfl

/-- **Courses of a keeper.** The log lists the requests of the calls in their order. -/
abbrev Reaches (k : Keeper) (log : List Request) (k' : Keeper) : Prop := Course act asked k log k'

/-- Each call has a request, and its phase serves it. -/
structure Serves (k : Keeper) (log : List Request) : Prop where
  /-- There is one request for each call. -/
  length_eq : log.length = k.calls.length
  /-- Nobody does anything else. -/
  phases : ∀ i phase, k.phase? i = some phase → ∃ r, log[i]? = some r ∧ phase.Serves r

variable {log : List Request}

/-- Requests that follow are those of other calls. -/
theorem Serves.getElem?_append (h : k.Serves log) (hp : k.phase? i = some phase) (more : List Request) :
    (log ++ more)[i]? = log[i]? := by
  refine List.getElem?_append_left ?_
  rw [h.length_eq]
  exact lt_of_phase? hp

/-- An act adds the request of the call that begins in it, and all others keep to theirs. -/
theorem Serves.step {a : KeeperAct} (h : k.Serves log) (hstep : k.step b a = some k') :
    k'.Serves (log ++ k.asked (a, b) k') := by
  have hturns := Turns.of_step hstep
  refine ⟨by rw [List.length_append, h.length_eq, hturns.length], fun j p' hp' => ?_⟩
  -- the call was there before, or it is the one that is made
  rcases hturns.phases j p' hp' with ⟨p, hp, hturn⟩ | ⟨rfl, r, hr, rfl⟩
  · obtain ⟨r, hr, hserves⟩ := h.phases j p hp
    exact ⟨r, (h.getElem?_append hp _).trans hr, hserves.turns hturn⟩
  · refine ⟨r, ?_, CallPhase.serves_request r k.now⟩
    rw [hr, ← h.length_eq, List.getElem?_concat_length]

/-- A new keeper has no calls. -/
theorem Serves.create (steps : List Step) (interval : Nat) (world : World) :
    (create steps interval world).Serves [] :=
  ⟨rfl, nofun⟩

end Keeper

end SensorCatalog
