import SensorCatalog.Proofs.Rebuild.Readers

/-!
# Sessions are given back

A rebuild has a session of its own, and so has each item that is at work. Meanwhile others have sessions with the
same archive, and edit it so that sessions are refused or opened again (`Sharing`). The log says which session
is opened, refused or given back, and by whom (`SessionNote`). It can be replayed: `handedOut` says who has a session
after all of it, unless somebody opened a second one or gave back one that he did not have.

Who has a session is seen from the phase of the rebuild as well (`Run.isHolding`). Each act moves this, the log and
the two counters of the archive together (`Run.handles_of_step`), so the replay never fails and the counters never
disagree with it (`Sharing.Conserves`). A rebuild that is over holds nothing, whatever came of it
(`Sharing.conserves_sessions`).
-/

namespace SensorCatalog

/-- What happens to sessions. -/
inductive SessionNote where
  /-- The archive hands out a session to the rebuild or to one of its items. -/
  | opened (who : Actor)
  /-- The archive refuses one. -/
  | refused (who : Actor)
  /-- It is given back. -/
  | closed (who : Actor)
  /-- Somebody who has nothing to do with the rebuild gets a session. -/
  | openedElsewhere
  /-- Such a session is given back. -/
  | closedElsewhere
  deriving DecidableEq

namespace SessionNote

/-- Whether an item gets a session. -/
def isItemOpened : SessionNote → Bool
  | .opened (.item _) => true
  | _ => false

/-- Whether a session is given back. -/
def isClosed : SessionNote → Bool
  | .closed _ | .closedElsewhere => true
  | _ => false

/-- Who has a session after this, if these had one before. Nobody opens a second one, and only one that is open is
given back. -/
def hand (out : List Actor) : SessionNote → Option (List Actor)
  | .opened who => if who ∈ out then none else some (who :: out)
  | .closed who => if who ∈ out then some (out.erase who) else none
  | _ => some out

end SessionNote

/-- **Who has a session** after everything in a log. -/
def handedOut (log : List SessionNote) : Option (List Actor) := log.foldlM SessionNote.hand []

/-- What is handed out at the end of a log depends on what was before. -/
theorem handedOut_append {log more : List SessionNote} {out : List Actor} (h : handedOut log = some out) :
    handedOut (log ++ more) = more.foldlM SessionNote.hand out := by
  unfold handedOut at h ⊢
  rw [List.foldlM_append, h]
  rfl

/-! ### Who holds a session -/

/-- The note of the next act of an item. -/
def ItemPhase.sessionNotes (b : Backend) (who : Actor) : ItemPhase → List SessionNote
  | .waiting => [if b.opening.isOk then .opened who else .refused who]
  | .closing _ => [.closed who]
  | _ => []

/-- Whether the item in this place has a session. -/
def FanOut.isHolding (f : FanOut) (i : Nat) : Bool := f.items[i]?.any fun item => item.phase.isHolding

namespace Run

/-- Whether somebody has a session. -/
def isHolding (r : Run) : Actor → Bool
  | .main =>
    match r.phase with
    | .between _ | .executing _ _ _ | .joining _ _ _ _ | .closing => true
    | .opening | .reporting | .finished _ => false
  | .item i =>
    match r.phase with
    | .joining _ f _ _ => f.isHolding i
    | _ => false

/-- The note of an act, when somebody meets a backend. -/
def sessionNotes (b : Backend) (r : Run) : Actor → List SessionNote
  | .main =>
    match r.phase with
    | .opening => [if b.opening.isOk then .opened .main else .refused .main]
    | .closing => [.closed .main]
    | _ => []
  | .item i =>
    match r.phase with
    | .joining _ f _ _ =>
      match f.items[i]? with
      | some item => item.phase.sessionNotes b (.item i)
      | none => []
    | _ => []

end Run

/-- **What an act means for sessions.** -/
inductive Handles (who : Actor) (holding holding' : Actor → Bool) (s s' : Sessions) :
    List SessionNote → Prop where
  | opened (hfree : holding who = false) (hafter : ∀ a, holding' a = (decide (a = who) || holding a))
    (hs : s' = s.openOne) : Handles who holding holding' s s' [.opened who]
  | refused (hsame : ∀ a, holding' a = holding a) (hs : s' = s) : Handles who holding holding' s s' [.refused who]
  | closed (hheld : holding who = true) (hafter : ∀ a, holding' a = (decide (a ≠ who) && holding a))
    (hs : s' = s.closeOne) : Handles who holding holding' s s' [.closed who]
  | nothing (hsame : ∀ a, holding' a = holding a) (hs : s' = s) : Handles who holding holding' s s' []

/-- A program does not touch the sessions of others. -/
theorem Program.Advance.sessions_eq {b : Backend} {p rest : Program} {ws : List Write} {fs : List Fault}
    {w w' : World} (h : p.Advance b w rest ws fs w') : w'.sessions = w.sessions := by
  cases h <;> rfl

/-- An item gets a session or gives it back, and nobody else does meanwhile. -/
theorem ItemPhase.Advance.handles {b : Backend} {procedure : String} {work : Work} {w w' : World}
    {phase phase' : ItemPhase} {effect : ItemEffect} {who : Actor} {holding holding' : Actor → Bool}
    (h : Advance b procedure work w phase phase' w' effect) (hbefore : holding who = phase.isHolding)
    (hafter : ∀ a, holding' a = if a = who then phase'.isHolding else holding a) :
    Handles who holding holding' w.sessions w'.sessions (phase.sessionNotes b who) := by
  -- an item that has a session still, or still has none, changes nothing
  have hsame : phase'.isHolding = phase.isHolding → ∀ a, holding' a = holding a := by
    intro heq a
    rw [hafter]
    split
    · rename_i ha
      rw [ha, hbefore, heq]
    · rfl
  cases h with
  | opened ho =>
    simp only [sessionNotes, ho, Outcome.isOk, if_true]
    refine .opened hbefore (fun a => ?_) rfl
    by_cases ha : a = who <;> simp [hafter, ha, isHolding]
  | refused ho hno =>
    simp only [sessionNotes, ho, hno, Bool.false_eq_true, if_false]
    exact .refused (hsame rfl) rfl
  | asked | wrote | ended | reported | left => exact .nothing (hsame rfl) rfl
  | closed =>
    refine .closed hbefore (fun a => ?_) rfl
    by_cases ha : a = who <;> simp [hafter, ha, isHolding]

namespace FanOut

variable {f : FanOut} {i : Nat} {item : Item}

/-- An item at work has a session or has none. -/
theorem isHolding_of_getElem? (h : f.items[i]? = some item) : f.isHolding i = item.phase.isHolding := by
  rw [isHolding, h]
  rfl

/-- Only the item that moves can get a session or give one back. -/
theorem isHolding_moved (h : f.items[i]? = some item) (phase : ItemPhase) (j : Nat) :
    (f.moved i item phase).isHolding j = if j = i then phase.isHolding else f.isHolding j := by
  have hi : i < f.items.length := (List.getElem?_eq_some_iff.1 h).1
  by_cases hji : j = i
  · subst hji
    simp [isHolding, moved, hi]
  · simp [isHolding, moved, hji, List.getElem?_set_ne (Ne.symm hji)]

/-- At first no item has a session. -/
theorem isHolding_start (threads : Nat) (procedures : List String) (work : String → Work) :
    (FanOut.start threads procedures work).isHolding i = false := by
  simp only [isHolding, start, List.getElem?_map]
  cases procedures[i]? <;> rfl

/-- When all items are through, none has. -/
theorem isHolding_of_gone (h : ∀ item ∈ f.items, item.phase = .gone) : f.isHolding i = false := by
  unfold isHolding
  cases hitem : f.items[i]? with
  | none => rfl
  | some item => simp [h item (List.mem_of_getElem? hitem), ItemPhase.isHolding]

end FanOut

namespace Run

variable {B : Backend → Prop} {b : Backend} {r r' : Run} {w w' : World} {a : Actor} {steps : List Step}
  {firstRun : Bool} {c₀ : Catalog}

/-- **Each act moves the phase, the log and the counters together.** -/
theorem handles_of_step (hstory : Story B steps firstRun c₀ r w.catalog) (h : r.step b w a = some (r', w')) :
    Handles a r.isHolding r'.isHolding w.sessions w'.sessions (r.sessionNotes b a) := by
  cases Happens.of_step h with
  | opened hphase ho =>
    simp only [sessionNotes, hphase, ho, Outcome.isOk, if_true]
    refine .opened ?_ (fun a => ?_) rfl
    · simp [isHolding, hphase]
    · cases a <;> simp [isHolding, hphase, go]
  | refused hphase ho =>
    simp only [sessionNotes, hphase, isOk_of_refusal ho, Bool.false_eq_true, if_false]
    exact .refused (fun a => by cases a <;> simp [isHolding, hphase, go]) rfl
  -- between the opening and the closing the rebuild keeps its session
  | begun hphase | through hphase | ended hphase | reported hphase =>
    simp only [sessionNotes, hphase]
    exact .nothing (fun a => by cases a <;> simp [isHolding, hphase, go, conclude]) rfl
  | went hphase hadv =>
    simp only [sessionNotes, hphase]
    exact .nothing (fun a => by cases a <;> simp [isHolding, hphase]) hadv.sessions_eq
  | spread hphase =>
    -- all items wait
    simp only [sessionNotes, hphase]
    exact .nothing (fun a => by cases a <;> simp [isHolding, hphase, go, FanOut.isHolding_start]) rfl
  -- the item handles its own session, and the others have theirs
  | @itemMoved i name f f' next todo e' w' hphase hitem =>
    obtain ⟨item, phase, effect, hi, -, hact, rfl, -⟩ := FanOut.step_cases hitem
    simp only [sessionNotes, hphase, hi]
    refine hact.handles ?_ fun a => ?_
    · simp [isHolding, hphase, FanOut.isHolding_of_getElem? hi]
    · cases a with
      | main => simp [isHolding, hphase]
      | item j => simp [isHolding, hphase, FanOut.isHolding_moved hi]
  | joined hphase hover =>
    -- all items are gone, and had given back their sessions before
    have hgone := hstory.all_gone hphase hover
    simp only [sessionNotes, hphase]
    exact .nothing (fun a => by cases a <;> simp [isHolding, hphase, go, FanOut.isHolding_of_gone hgone]) rfl
  | closed hphase =>
    simp only [sessionNotes, hphase]
    refine .closed ?_ (fun a => ?_) rfl
    · simp [isHolding, hphase]
    · cases a <;> simp [isHolding, hphase, go]

end Run

/-! ### Others have sessions too -/

/-- A rebuild that shares the archive with others. -/
structure Sharing where
  run : Run
  world : World
  /-- How many sessions others have open. -/
  others : Nat

/-- What can happen. -/
inductive SharingAct where
  /-- The rebuild goes on, or somebody edits the archive. -/
  | live (a : Run.LiveAct)
  /-- Somebody else opens a session. -/
  | opens
  /-- Somebody else gives a session back. -/
  | closes

namespace Sharing

/-- A rebuild before its first act. All sessions that are open are those of others. -/
def start (steps : List Step) (firstRun : Bool) (w : World) : Sharing :=
  ⟨Run.start steps firstRun, w, w.sessions.isOpen⟩

/-- One act; `none` when it cannot happen now. -/
def step (s : Sharing) : SharingAct → Option Sharing
  | .live a => (Run.liveStep (s.run, s.world) a).map fun (run, world) => { s with run, world }
  | .opens =>
    match s.world.opened with
    | .ok world => some { s with world, others := s.others + 1 }
    | _ => none
  | .closes =>
    if s.others = 0 then none else some { s with world := s.world.closeSession, others := s.others - 1 }

/-- The notes of an act. -/
def note (s : Sharing) (a : SharingAct) (_ : Sharing) : List SessionNote :=
  match a with
  | .live (.moves a) => s.run.sessionNotes s.world.archive.backend a
  | .live (.edits _) => []
  | .opens => [.openedElsewhere]
  | .closes => [.closedElsewhere]

/-- **Courses of a rebuild that shares the archive.** -/
abbrev Runs (s : Sharing) (log : List SessionNote) (t : Sharing) : Prop := Course step note s log t

end Sharing

/-! ### Sessions are conserved -/

/-- **The log, those who hold a session, and the counter of open sessions agree.** -/
structure Held (log : List SessionNote) (out : List Actor) (holding : Actor → Bool) (others : Nat) (s : Sessions) :
    Prop where
  replay : handedOut log = some out
  nodup : out.Nodup
  holding : ∀ who, who ∈ out ↔ holding who = true
  isOpen_eq : s.isOpen = others + out.length

section Held

variable {log ns : List SessionNote} {out : List Actor} {who : Actor} {holding holding' : Actor → Bool}
  {others : Nat} {s s' : Sessions}

theorem Held.step (h : Held log out holding others s) (hhandles : Handles who holding holding' s s' ns) :
    ∃ out', Held (log ++ ns) out' holding' others s' := by
  have hopen := h.isOpen_eq
  cases hhandles with
  -- it had none, so it is not in the list yet
  | opened hfree hafter hs =>
    have hnot : who ∉ out := fun hmem => by simp [(h.holding who).1 hmem] at hfree
    refine ⟨who :: out, ?_, List.nodup_cons.2 ⟨hnot, h.nodup⟩, fun a => ?_, ?_⟩
    · simp [handedOut_append h.replay, SessionNote.hand, hnot]
    · simp [hafter, h.holding]
    · rw [hs, List.length_cons]
      show s.isOpen + 1 = others + (out.length + 1)
      omega
  -- it has one, so it is in the list, and once only
  | closed hheld hafter hs =>
    have hmem : who ∈ out := (h.holding who).2 hheld
    refine ⟨out.erase who, ?_, h.nodup.erase who, fun a => ?_, ?_⟩
    · simp [handedOut_append h.replay, SessionNote.hand, hmem]
    · simp [hafter, h.nodup.mem_erase_iff, h.holding]
    · -- it is one of those that were counted
      have hpos := List.length_pos_of_mem hmem
      rw [hs, List.length_erase_of_mem hmem]
      show s.isOpen - 1 = others + (out.length - 1)
      omega
  | refused hsame hs =>
    refine ⟨out, ?_, h.nodup, fun a => ?_, hs ▸ hopen⟩
    · simp [handedOut_append h.replay, SessionNote.hand]
    · rw [hsame, h.holding]
  | nothing hsame hs =>
    refine ⟨out, by rw [List.append_nil, h.replay], h.nodup, fun a => ?_, hs ▸ hopen⟩
    rw [hsame, h.holding]

/-- A session that is given back was counted. -/
theorem Held.pos (h : Held log out holding others s) (hhandles : Handles who holding holding' s s' ns)
    (hclosed : ns.any SessionNote.isClosed = true) : 0 < s.isOpen := by
  have hopen := h.isOpen_eq
  cases hhandles with
  | closed hheld hafter hs =>
    have hpos := List.length_pos_of_mem ((h.holding who).2 hheld)
    omega
  | opened | refused | nothing => simp [SessionNote.isClosed] at hclosed

/-- The archive counts each session that it hands out. -/
theorem Handles.opened_eq (h : Handles who holding holding' s s' ns) :
    s'.opened = s.opened + ns.count (.opened .main) + ns.countP SessionNote.isItemOpened ∧
      ns.count .openedElsewhere = 0 ∧ ns.count .closedElsewhere = 0 := by
  cases h with
  | opened hfree hafter hs =>
    rw [hs]
    cases who <;> exact ⟨rfl, rfl, rfl⟩
  | closed _ _ hs | refused _ hs | nothing _ hs =>
    rw [hs]
    exact ⟨rfl, rfl, rfl⟩

end Held

/-- **How a rebuild began**, as far as its own session goes. -/
inductive Begun (log : List SessionNote) (r : Run) : Prop where
  | notYet (hphase : r.phase = .opening) (hnone : ∀ who, .opened who ∉ log) (hfirst : .refused .main ∉ log)
  -- the session was refused, and that was all
  | refused {result : Except Fault Report} (hphase : r.phase = .finished result)
    (hnone : ∀ who, .opened who ∉ log) (hfirst : .refused .main ∈ log)
  | opened (hphase : r.phase ≠ .opening) (hone : log.count (.opened .main) = 1) (hfirst : .refused .main ∉ log)

namespace Run

variable {b : Backend} {r r' : Run} {w w' : World} {a : Actor}

/-- A rebuild that has acted has its first phase behind it. -/
theorem phase_ne_opening (h : r.step b w a = some (r', w')) : r'.phase ≠ .opening := by
  cases Happens.of_step h <;> simp [go, conclude]

/-- The session of the rebuild itself is opened or refused in its first phase, and in no other one. -/
theorem not_mem_sessionNotes (hphase : r.phase ≠ .opening) (b : Backend) (a : Actor) :
    .opened .main ∉ r.sessionNotes b a ∧ .refused .main ∉ r.sessionNotes b a := by
  cases a with
  | main =>
    unfold sessionNotes
    cases hp : r.phase with
    | opening => exact absurd hp hphase
    | _ => simp
  -- only an item that is at work is told of here, and never the rebuild itself
  | item i =>
    unfold sessionNotes
    cases hp : r.phase with
    | joining name f next todo =>
      cases hi : f.items[i]? with
      | none => simp [hi]
      | some item =>
        simp only [hi, ItemPhase.sessionNotes]
        split
        · split <;> simp
        · simp
        · simp
    | _ => simp

end Run

/-- The session of the rebuild itself is opened or refused once. -/
theorem Begun.step {log : List SessionNote} {b : Backend} {r r' : Run} {w w' : World} {a : Actor} (h : Begun log r)
    (hstep : r.step b w a = some (r', w')) : Begun (log ++ r.sessionNotes b a) r' := by
  cases h with
  -- this act is the first, so the session is opened or refused now
  | notYet hphase hnone hfirst =>
    cases Run.Happens.of_step hstep with
    | opened _ ho =>
      have hzero : log.count (.opened .main) = 0 := List.count_eq_zero.2 (hnone .main)
      refine .opened (by simp [Run.go]) ?_ ?_
      · simp [Run.sessionNotes, hphase, ho, Outcome.isOk, hzero]
      · simpa [Run.sessionNotes, hphase, ho, Outcome.isOk] using hfirst
    | refused _ ho =>
      have hno := Run.isOk_of_refusal ho
      refine .refused rfl (fun who => ?_) ?_
      · simpa [Run.sessionNotes, hphase, hno] using hnone who
      · simp [Run.sessionNotes, hphase, hno]
    | begun hlater | through hlater | went hlater | ended hlater | spread hlater | itemMoved hlater
    | joined hlater | closed hlater | reported hlater =>
      rw [hphase] at hlater
      cases hlater
  | refused hphase hnone hfirst =>
    rw [Run.step_of_finished hphase] at hstep
    cases hstep
  -- later acts tell of items only, or of the return of the session
  | opened hphase hone hfirst =>
    obtain ⟨hopened, hrefused⟩ := Run.not_mem_sessionNotes hphase b a
    refine .opened (Run.phase_ne_opening hstep) ?_ ?_
    · rw [List.count_append, hone, List.count_eq_zero.2 hopened]
    · exact fun hmem => (List.mem_append.1 hmem).elim hfirst hrefused

/-- What others do says nothing about the rebuild. -/
theorem Begun.append_of_not_mem {log more : List SessionNote} {r : Run} (h : Begun log r)
    (hopened : ∀ who, .opened who ∉ more) (hrefused : .refused .main ∉ more) : Begun (log ++ more) r := by
  have hfirst : .refused .main ∈ log ++ more ↔ .refused .main ∈ log := by simp [hrefused]
  have hnone : ∀ who, .opened who ∈ log ++ more ↔ .opened who ∈ log := fun who => by simp [hopened who]
  cases h with
  | notYet hphase hn hf => exact .notYet hphase (fun who => (hnone who).not.2 (hn who)) (hfirst.not.2 hf)
  | refused hphase hn hf => exact .refused hphase (fun who => (hnone who).not.2 (hn who)) (hfirst.2 hf)
  | opened hphase hone hf =>
    refine .opened hphase ?_ (hfirst.not.2 hf)
    rw [List.count_append, hone, List.count_eq_zero.2 (hopened .main)]

namespace Sharing

/-- **Sessions are conserved.** -/
structure Conserves (s₀ s : Sharing) (log : List SessionNote) (out : List Actor) : Prop where
  held : Held log out s.run.isHolding s.others s.world.sessions
  opened_eq : s.world.sessions.opened = s₀.world.sessions.opened + log.count .openedElsewhere +
    log.count (.opened .main) + log.countP SessionNote.isItemOpened
  others_eq : s.others + log.count .closedElsewhere = s₀.others + log.count .openedElsewhere
  begun : Begun log s.run

variable {s s₀ t u : Sharing} {log : List SessionNote} {out : List Actor} {a : SharingAct}
  {steps : List Step} {firstRun : Bool} {w : World} {c₀ : Catalog}

/-- **What can happen**, to the rebuild and beside it. -/
inductive Happens (s : Sharing) : SharingAct → Sharing → Prop where
  | moved {a : Actor} {run : Run} {world : World}
    (h : s.run.step s.world.archive.backend s.world a = some (run, world)) :
    Happens s (.live (.moves a)) { s with run, world }
  | edited (e : Edit) : Happens s (.live (.edits e)) { s with world := s.world.edit e }
  | opened : Happens s .opens { s with world := s.world.openSession, others := s.others + 1 }
  | closed (hothers : s.others ≠ 0) :
    Happens s .closes { s with world := s.world.closeSession, others := s.others - 1 }

/-- What can happen where sessions are shared. -/
theorem Happens.of_step (h : s.step a = some t) : Happens s a t := by
  cases a with
  | live a =>
    obtain ⟨⟨run, world⟩, hlive, rfl⟩ := Option.map_eq_some_iff.1 h
    cases a with
    | moves a => exact .moved hlive
    | edits e => cases hlive; exact .edited e
  | opens =>
    rw [step, World.opened] at h
    cases ho : s.world.archive.backend.opening with
    | ok u => simp only [ho] at h; cases h; exact .opened
    | fault f => simp only [ho] at h; cases h
    | panic p => simp only [ho] at h; cases h
  | closes =>
    rw [step] at h
    split at h
    · cases h
    · rename_i hothers
      cases h
      exact .closed hothers

/-- Who has sessions beside a rebuild is no part of its story. -/
theorem story_of_step (hstory : Run.Story (fun _ => True) steps firstRun c₀ s.run s.world.catalog)
    (hstep : s.step a = some t) : Run.Story (fun _ => True) steps firstRun c₀ t.run t.world.catalog := by
  cases Happens.of_step hstep with
  | moved h => exact hstory.step trivial h
  | edited | opened | closed => exact hstory

/-- At first nothing was opened that was to be counted. -/
theorem Conserves.start (steps : List Step) (firstRun : Bool) (w : World) :
    Conserves (start steps firstRun w) (start steps firstRun w) [] [] where
  held := ⟨rfl, List.nodup_nil, fun who => by cases who <;> simp [Sharing.start, Run.isHolding, Run.start], rfl⟩
  opened_eq := rfl
  others_eq := rfl
  begun := .notYet rfl (by simp) (by simp)

/-- Each act keeps the count, whoever opens or closes a session. -/
theorem Conserves.step (h : Conserves s₀ s log out)
    (hstory : Run.Story (fun _ => True) steps firstRun c₀ s.run s.world.catalog)
    (hstep : s.step a = some t) : ∃ out', Conserves s₀ t (log ++ s.note a t) out' := by
  have hopen := h.held.isOpen_eq
  have hopened := h.opened_eq
  have hothers := h.others_eq
  cases Happens.of_step hstep with
  | moved hmoved =>
    -- the rebuild moves its own sessions, and leaves those of others alone
    have hhandles := Run.handles_of_step hstory hmoved
    obtain ⟨out', hheld⟩ := h.held.step hhandles
    obtain ⟨hcount, helsewhere, hback⟩ := hhandles.opened_eq
    refine ⟨out', hheld, ?_, ?_, h.begun.step hmoved⟩
    · simp only [note, List.count_append, List.countP_append]
      omega
    · simp only [note, List.count_append]
      omega
  -- a change of the data is no matter of sessions
  | edited e =>
    rw [note, List.append_nil]
    exact ⟨out, h.held, hopened, hothers, h.begun⟩
  -- somebody else opens one, and it is counted among those of others
  | opened =>
    refine ⟨out, ⟨?_, h.held.nodup, h.held.holding, ?_⟩, ?_, ?_, ?_⟩
    · simp [note, handedOut_append h.held.replay, SessionNote.hand]
    · show s.world.sessions.isOpen + 1 = s.others + 1 + out.length
      omega
    · show s.world.sessions.opened + 1 = _
      simp only [note, List.count_append, List.countP_append, List.count_singleton_self]
      simp [SessionNote.isItemOpened]
      omega
    · simp [note]
      omega
    · exact h.begun.append_of_not_mem (by simp [note]) (by simp [note])
  -- somebody else gives one back, and had one to give back
  | closed hsome =>
    refine ⟨out, ⟨?_, h.held.nodup, h.held.holding, ?_⟩, ?_, ?_, ?_⟩
    · simp [note, handedOut_append h.held.replay, SessionNote.hand]
    · show s.world.sessions.isOpen - 1 = s.others - 1 + out.length
      omega
    · show s.world.sessions.opened = _
      simpa [note, SessionNote.isItemOpened] using hopened
    · simp [note]
      omega
    · exact h.begun.append_of_not_mem (by simp [note]) (by simp [note])

/-- Every course has its story and its account of sessions. -/
theorem Runs.conserves (h : Runs (start steps firstRun w) log s) :
    Run.Story (fun _ => True) steps firstRun w.catalog s.run s.world.catalog ∧
      ∃ out, Conserves (start steps firstRun w) s log out := by
  induction h with
  | start => exact ⟨.start steps firstRun w.catalog, [], .start steps firstRun w⟩
  | act _ hstep ih =>
    obtain ⟨hstory, out, hconserves⟩ := ih
    exact ⟨story_of_step hstory hstep, hconserves.step hstory hstep⟩

/-- **Sessions are given back.** At each moment the archive counts as open the sessions of others and those that
the rebuild and its items were handed out and have not given back. Nobody gives back a session that he has not,
and each one is still counted when it is given back. When the rebuild is over, whatever came of it, all its
sessions are given back. It was handed out none if its own one was refused, else this one and one for each item that
was not refused. -/
theorem conserves_sessions (h : Runs (start steps firstRun w) log s) :
    ∃ out, handedOut log = some out ∧ (∀ who, who ∈ out ↔ s.run.isHolding who = true) ∧ out.Nodup ∧
      s.world.sessions.isOpen = s.others + out.length ∧
      s.others + log.count .closedElsewhere = w.sessions.isOpen + log.count .openedElsewhere ∧
      (∀ a t, s.step a = some t → (s.note a t).any SessionNote.isClosed = true →
        0 < s.world.sessions.isOpen) ∧
      (∀ result, s.run.result? = some result →
        out = [] ∧ s.world.sessions.isOpen = s.others ∧
        s.world.sessions.opened = w.sessions.opened + log.count .openedElsewhere +
          if .refused .main ∈ log then 0 else 1 + log.countP SessionNote.isItemOpened) := by
  obtain ⟨hstory, out, hheld, hopened, hothers, hbegun⟩ := h.conserves
  refine ⟨out, hheld.replay, hheld.holding, hheld.nodup, hheld.isOpen_eq, hothers, ?_, ?_⟩
  · intro a t hstep hclosed
    -- a session is given back by one who has it, so there was one
    cases Happens.of_step hstep with
    | moved hmoved => exact hheld.pos (Run.handles_of_step hstory hmoved) hclosed
    | edited | opened => simp [note, SessionNote.isClosed] at hclosed
    | closed hsome =>
      have := hheld.isOpen_eq
      omega
  · intro result hover
    have hphase := Run.phase_of_result? hover
    -- in the last phase nobody has a session
    have hnone : out = [] := by
      refine List.eq_nil_iff_forall_not_mem.2 fun who hwho => ?_
      have := (hheld.holding who).1 hwho
      cases who <;> simp [Run.isHolding, hphase] at this
    have hopen := hheld.isOpen_eq
    rw [hnone, List.length_nil] at hopen
    refine ⟨hnone, hopen, ?_⟩
    -- the session of the rebuild was opened or refused, as it is over
    cases hbegun with
    | notYet hopening => simp [hphase] at hopening
    | refused _ hno hfirst =>
      have hitems : log.countP SessionNote.isItemOpened = 0 := by
        refine List.countP_eq_zero.2 fun n hn hitem => ?_
        cases n with
        | opened who => exact hno who hn
        | refused | closed | openedElsewhere | closedElsewhere => cases hitem
      rw [if_pos hfirst, hopened, List.count_eq_zero.2 (hno .main), hitems]
      rfl
    | opened _ hone hfirst =>
      rw [if_neg hfirst, hopened, hone, Nat.add_assoc]
      rfl

/-- Work for two procedures, and a step that breaks off. -/
def brokenSteps : List Step :=
  [⟨"side by side", .fanOut 2 ["gauge", "pump"] FanOut.markAndAsk .done⟩, ⟨"broken", .panic (.text "lost")⟩]

/-- Somebody else has a session while the rebuild begins. Then sessions are refused, so only the first item gets
one. -/
def refusingActs : List SharingAct :=
  List.flatten
    [[.opens], List.replicate 3 (.live (.moves .main)), [.live (.moves (.item 0)),
      .live (.edits (.refuseSessions true)), .live (.moves (.item 1)), .closes],
      List.replicate 6 (.live (.moves (.item 0))), List.replicate 2 (.live (.moves (.item 1))),
      List.replicate 7 (.live (.moves .main))]

/-- Three sessions were handed out, and all of them are given back. -/
theorem conserves_sessions_refusing : ∃ log s out, Runs (start brokenSteps false .initial) log s ∧
    s.run.result?.isSome = true ∧ handedOut log = some out ∧ out = [] ∧ .refused (.item 1) ∈ log ∧
    s.world.sessions = ⟨0, 3⟩ := by
  have hcourse : (carryOut step note refusingActs ([], start brokenSteps false .initial)).map (fun x =>
      (x.2.run.result?.isSome, decide (.refused (.item 1) ∈ x.1), x.2.world.sessions)) =
      some (true, true, ⟨0, 3⟩) := by
    decide
  obtain ⟨⟨log, s⟩, hcarried, hends⟩ := Option.map_eq_some_iff.1 hcourse
  simp only [Prod.mk.injEq, decide_eq_true_eq] at hends
  obtain ⟨hover, hrefused, hsessions⟩ := hends
  have h : Runs (start brokenSteps false .initial) log s := Course.of_carryOut refusingActs .start hcarried
  obtain ⟨result, hresult⟩ := Option.isSome_iff_exists.1 hover
  obtain ⟨out, hreplay, -, -, -, -, -, hreturned⟩ := conserves_sessions h
  exact ⟨log, s, out, h, hover, hreplay, (hreturned result hresult).1, hrefused, hsessions⟩

end Sharing

end SensorCatalog
