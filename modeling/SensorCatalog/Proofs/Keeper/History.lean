import SensorCatalog.Proofs.Keeper.Requests
import SensorCatalog.Proofs.Rebuild.Run

/-!
# What the keeper remembers

What a keeper shows of itself is determined by the rebuilds so far: how many there were, whether one of them succeeded,
the report of the last success, and a state that depends on the last result and on whether there was a success before
it (`Keeper.History`).

The keeper does not keep the list of the rebuilds. Each of its fields is written when the end of a rebuild is recorded,
and from its mark of a success alone it tells a rebuild, when this begins, whether it is to be judged as a first one.
Only one rebuild runs at a time, so nobody succeeds in between, and the judgement is right (`CallPhase.Runs`). Hence a
rebuild that follows a success is never said to have left nothing of use.

The log is taken of the rebuilds as they run: `Stage.began` says how a rebuild is to be judged, and `Stage.ended` what
came of it. `Keeper.Writes` lists what an act can write into it, and `Keeper.remembers` is the result.
-/

namespace SensorCatalog

variable {b : Backend} {k k' k₁ : Keeper} {i : Nat} {c : Call} {phase phase' : CallPhase} {onTimer : Bool}

/-! ### Rebuilds that are over -/

/-- **A rebuild that is over.** -/
structure PastRun where
  /-- Whether it was judged as a first one. -/
  first : Bool
  result : Except Fault Report

/-- What is seen of a rebuild. -/
inductive Stage where
  /-- It begins, and is to be judged as a first one or not. -/
  | began (first : Bool)
  /-- Its end is recorded. -/
  | ended (result : Except Fault Report)

namespace PastRun

def succeeded (x : PastRun) : Bool := x.result.isOk

def stages (x : PastRun) : List Stage := [.began x.first, .ended x.result]

/-- **What can come of a rebuild**: a fault, or the verdict on a report. -/
def Possible (x : PastRun) : Prop :=
  (∃ f, x.result = .error f ∧ ∀ reason, f ≠ .unusable reason) ∨ ∃ report : Report, x.result = report.verdict x.first

variable {x : PastRun}

/-- Only of a first rebuild is it said that it left nothing of use. -/
theorem Possible.first_of_unusable (h : x.Possible) {reason : String}
    (hresult : x.result = .error (.unusable reason)) : x.first = true := by
  rcases h with ⟨f, hf, hother⟩ | ⟨report, hverdict⟩
  -- a fault of another kind is not the one that is asked about
  · rw [hresult] at hf
    cases hf
    exact absurd rfl (hother reason)
  -- a verdict of this kind is given to a first rebuild only
  · rw [hresult, Report.verdict] at hverdict
    split at hverdict
    · rename_i hjudged
      exact (Bool.and_eq_true_iff.1 hjudged).1
    · cases hverdict

/-- A first rebuild that succeeds leaves procedures and offerings. -/
theorem Possible.usable_of_first (h : x.Possible) {report : Report} (hresult : x.result = .ok report)
    (hfirst : x.first = true) : 0 < report.procedures ∧ 0 < report.offerings := by
  rcases h with ⟨f, hf, -⟩ | ⟨report', hverdict⟩
  · rw [hresult] at hf
    cases hf
  · rw [hresult, hfirst, Report.verdict] at hverdict
    split at hverdict
    -- the verdict on a first rebuild that left too little would be a fault
    · cases hverdict
    · rename_i husable
      cases hverdict
      have hsome : report.procedures ≠ 0 ∧ report.offerings ≠ 0 := by
        simpa [Report.isUsable] using husable
      exact ⟨Nat.pos_of_ne_zero hsome.1, Nat.pos_of_ne_zero hsome.2⟩

end PastRun

namespace Run

variable {r r' : Run} {w w' : World}

/-- No session could be opened, or the rebuild ends with the verdict on its report. -/
theorem possible_of_step {a : Actor} (h : r.step b w a = some (r', w')) {result : Except Fault Report}
    (hresult : r'.result? = some result) : PastRun.Possible ⟨r.firstRun, result⟩ := by
  cases Happens.of_step h with
  | refused hphase ho =>
    -- the rebuild ends with the fault of the opening, and that is never the verdict on a report
    cases hresult
    refine .inl ?_
    cases hopening : b.opening with
    | ok u =>
      -- it did not fail to open the session
      rw [hopening] at ho
      cases ho
    | fault f =>
      rw [hopening] at ho
      cases ho
      exact ⟨_, rfl, nofun⟩
    | panic p =>
      rw [hopening] at ho
      cases ho
      exact ⟨_, rfl, nofun⟩
  | reported hphase =>
    cases hresult
    exact .inr ⟨_, rfl⟩
  -- at any other step the rebuild is not over
  | _ => cases hresult

end Run

namespace CallPhase

/-- **A call whose rebuild is in progress**, and is judged as a first one or not. -/
def Runs (first : Bool) : CallPhase → Prop
  | .running r => r.firstRun = first ∧ ∀ result, r.result? = some result → PastRun.Possible ⟨first, result⟩
  | .recording result => PastRun.Possible ⟨first, result⟩
  | _ => False

/-- A call goes on running the rebuild it runs, and what comes of it is possible. -/
theorem runs_of_step {first : Bool} {r r' : Run} {w w' : World} {a : Actor} (h : (running r).Runs first)
    (hstep : r.step b w a = some (r', w')) : (running r').Runs first := by
  obtain ⟨rfl, -⟩ := h
  exact ⟨(Run.kept_of_step hstep).2, fun result hresult => Run.possible_of_step hstep hresult⟩

/-- A call that is busy was so before, or it begins a rebuild. -/
theorem Turns.runs (hturns : phase.Turns b k i k' phase') (hbusy : phase'.isBusy = true) :
    (phase.isBusy = true ∧ ∀ first, phase.Runs first → phase'.Runs first) ∨
      k.idle = true ∧ k'.idle = false ∧ phase'.Runs (!k.initialized) := by
  cases hturns.works hbusy with
  | begins hopen hidle hbegun => exact .inr ⟨hidle, hbegun, rfl, nofun⟩
  -- a call that looked found the keeper idle, so it begins with the keeper's own judgement
  | goesOn hrun => exact .inl ⟨rfl, fun first h => runs_of_step h hrun⟩
  | ends hresult => exact .inl ⟨rfl, fun first h => h.2 _ hresult⟩
  | stays hbusy => exact .inl ⟨hbusy, fun first h => h⟩

end CallPhase

/-! ### The history -/

/-- What is seen of a call that goes from one phase to another. -/
def CallPhase.stages : CallPhase → CallPhase → List Stage
  | .looking _ _, .running r => [.began r.firstRun]
  | .recording result, .announcing _ _ => [.ended result]
  | _, _ => []

namespace Keeper

/-- What is seen of the rebuilds in an act. -/
def stages (k : Keeper) (m : KeeperAct × Backend) (k' : Keeper) : List Stage :=
  match m.1 with
  | .move i =>
    match k.phase? i, k'.phase? i with
    | some phase, some phase' => phase.stages phase'
    | _, _ => []
  | _ => []

/-- The state of the catalog after these rebuilds. -/
def healthOf (past : List PastRun) : Health :=
  match past.getLast? with
  | none => .unknown
  | some ⟨_, .ok report⟩ => if report.errors = [] then .healthy else .degraded
  | some ⟨_, .error _⟩ => if past.dropLast.any (·.succeeded) then .degraded else .unhealthy

/-- After a success the catalog is not said to be of no use. -/
theorem healthOf_ne_unhealthy {past : List PastRun} (h : past.any (·.succeeded) = true) :
    healthOf past ≠ .unhealthy := by
  rcases List.eq_nil_or_concat past with rfl | ⟨before, ⟨first, result⟩, rfl⟩
  · cases h
  · unfold healthOf
    rw [List.concat_eq_append, List.getLast?_concat, List.dropLast_concat]
    cases result with
    | ok report =>
      show (if report.errors = [] then Health.healthy else .degraded) ≠ _
      split <;> nofun
    | error f =>
      -- the last rebuild failed, so the success is one before it
      have hbefore : before.any (·.succeeded) = true := by
        rw [List.concat_eq_append, List.any_append, Bool.or_eq_true] at h
        exact h.resolve_right (by simp [PastRun.succeeded, Except.isOk, Except.toBool])
      show (if before.any (·.succeeded) then Health.degraded else .unhealthy) ≠ _
      rw [if_pos hbefore]
      nofun

/-- The report of the last success. -/
def lastSuccess? (past : List PastRun) : Option Report := (past.filterMap (·.result.toOption)).getLast?

/-- **What a keeper keeps** of the rebuilds that are over, and of the one in progress, of which it is given whether it
is judged as a first one. -/
structure Tally (k : Keeper) (past : List PastRun) (current : Option Bool) : Prop where
  /-- The keeper is idle exactly if no rebuild is in progress. -/
  idle : k.idle = current.isNone
  completed : k.completed = past.length
  initialized : k.initialized = past.any (·.succeeded)
  health : k.health = healthOf past
  lastReport : k.lastReport = (lastSuccess? past).map (·.summary)
  /-- A rebuild is judged as a first one exactly if none before it succeeded. -/
  first : ∀ n x, past[n]? = some x → x.first = !(past.take n).any (·.succeeded)
  current_first : ∀ first, current = some first → first = !past.any (·.succeeded)

/-- **The history of a keeper** in what it keeps, with what follows for the rebuilds. -/
structure History (k : Keeper) (past : List PastRun) (current : Option Bool) : Prop extends Tally k past current where
  /-- After a success no rebuild is said to have left nothing of use. -/
  not_unusable : ∀ n x reason, past[n]? = some x → (past.take n).any (·.succeeded) = true →
    x.result ≠ .error (.unusable reason)
  /-- The first success leaves procedures and offerings. -/
  first_success : ∀ n x report, past[n]? = some x → (past.take n).any (·.succeeded) = false →
    x.result = .ok report → 0 < report.procedures ∧ 0 < report.offerings
  /-- After a success the catalog is never again said to be of no use. -/
  not_unhealthy : k.initialized = true → k.health ≠ .unhealthy

/-- The same is kept of the rebuilds. -/
structure Rests (k k' : Keeper) : Prop where
  idle : k'.idle = k.idle
  completed : k'.completed = k.completed
  initialized : k'.initialized = k.initialized
  health : k'.health = k.health
  lastReport : k'.lastReport = k.lastReport

/-- **What an act writes** into the log, and what the keeper keeps of it. -/
inductive Writes (k : Keeper) : List Stage → Keeper → Prop where
  | began {k' : Keeper} (hidle : k.idle = true) (hrests : Rests { k with idle := false } k') :
    Writes k [.began (!k.initialized)] k'
  | ended {k' : Keeper} {i : Nat} {result : Except Fault Report} (hphase : k.phase? i = some (.recording result))
    (hrests : Rests (k.record result) k') : Writes k [.ended result] k'
  | nothing {k' : Keeper} (hrests : Rests k k') : Writes k [] k'

variable {a : KeeperAct} {log : List Stage} {past : List PastRun} {current : Option Bool}

/-- Only the beginning of a rebuild and the record of its end touch what the keeper keeps of its rebuilds. -/
theorem Writes.of_step (hstep : k.step b a = some k') : Writes k (k.stages (a, b) k') k' := by
  cases Happens.of_step hstep with
  | @moved i c phase k₁ hc hadv =>
    have hbefore := phase?_of_getElem? hc
    have hseen : k.stages (.move i, b) (k₁.setPhase i phase) = c.phase.stages phase := by
      simp only [stages, hbefore, phase?_moved hc hadv]
    rw [hseen]
    -- of the calls, one that begins a rebuild and one that records its end are seen, and no other
    obtain ⟨before, onTimer⟩ := c
    cases hadv with
    | begun hopen hidle hagain => exact .began hidle ⟨rfl, rfl, rfl, rfl, rfl⟩
    | recorded => exact .ended hbefore ⟨rfl, rfl, rfl, rfl, rfl⟩
    | _ => exact .nothing ⟨rfl, rfl, rfl, rfl, rfl⟩
  | _ => exact .nothing ⟨rfl, rfl, rfl, rfl, rfl⟩

/-- The tally stands when the same is kept of the rebuilds. -/
theorem Tally.rests (h : Tally k past current) (hrests : Rests k k') : Tally k' past current where
  idle := hrests.idle.trans h.idle
  completed := hrests.completed.trans h.completed
  initialized := hrests.initialized.trans h.initialized
  health := hrests.health.trans h.health
  lastReport := hrests.lastReport.trans h.lastReport
  first := h.first
  current_first := h.current_first

/-- A rebuild begins. -/
theorem Tally.begin (h : Tally k past none) : Tally { k with idle := false } past (some (!k.initialized)) where
  idle := rfl
  completed := h.completed
  initialized := h.initialized
  health := h.health
  lastReport := h.lastReport
  first := h.first
  current_first first hfirst := by
    cases hfirst
    rw [h.initialized]

/-- **The end of a rebuild is recorded.** That it left nothing of use is a matter of the first rebuilds only, and the
keeper has not seen a success then. -/
theorem Tally.record {first : Bool} {result : Except Fault Report} (h : Tally k past (some first))
    (hpossible : PastRun.Possible ⟨first, result⟩) : Tally (k.record result) (past ++ [⟨first, result⟩]) none where
  idle := rfl
  -- there is one more rebuild than before
  completed := by
    rw [List.length_append, ← h.completed]
    rfl
  -- a success is kept for good
  initialized := by
    rw [List.any_append, ← h.initialized, List.any_cons, List.any_nil, Bool.or_false]
    rfl
  health := by
    have hinitialized := h.initialized
    unfold healthOf
    rw [List.getLast?_concat, List.dropLast_concat, ← hinitialized]
    cases result with
    | ok report =>
      show (if report.isDegraded then Health.degraded else .healthy) = _
      cases herrors : report.errors <;> simp [Report.isDegraded, herrors]
    | error f =>
      cases f with
      -- it is said of a first rebuild only, so no success came before it
      | unusable reason =>
        have hfirst := (h.current_first first rfl).symm.trans (hpossible.first_of_unusable rfl)
        rw [← hinitialized, Bool.not_eq_true'] at hfirst
        rw [hfirst]
        rfl
      | _ => rfl
  lastReport := by
    cases result with
    | ok report => simp [lastSuccess?, Keeper.record, Except.toOption]
    | error f => simp [lastSuccess?, Keeper.record, Except.toOption, h.lastReport]
  first n x hx := by
    -- the rebuilds that were over before are judged as before
    rcases Nat.lt_or_ge n past.length with hn | hn
    · rw [List.getElem?_append_left hn] at hx
      rw [List.take_append_of_le_length hn.le]
      exact h.first n x hx
    · -- the last one is the one that was in progress
      obtain rfl : n = past.length := by
        have := (List.getElem?_eq_some_iff.1 hx).1
        rw [List.length_append] at this
        exact le_antisymm (Nat.lt_succ_iff.1 this) hn
      rw [List.getElem?_concat_length] at hx
      cases hx
      rw [List.take_left]
      exact h.current_first first rfl
  current_first _ hfirst := by cases hfirst

/-- What holds of a keeper and of what was seen of its rebuilds. -/
structure Recorded (k : Keeper) (log : List Stage) (past : List PastRun) (current : Option Bool) : Prop where
  tally : Tally k past current
  /-- One rebuild was seen after the other. -/
  log_eq : log = past.flatMap (·.stages) ++ current.toList.map .began
  possible : ∀ x ∈ past, x.Possible
  /-- Only the rebuild in progress is run by a call. -/
  runs : ∀ i phase, k.phase? i = some phase → phase.isBusy = true → ∃ first, current = some first ∧ phase.Runs first
  /-- There is a ledger, so no two rebuilds run at once. -/
  ledger : ∃ events, Ledger k events

/-- A call that is busy after an act runs the rebuild that was in progress before, or begins one. -/
theorem Recorded.runs_or_begins (h : Recorded k log past current) (hstep : k.step b a = some k')
    (hphase : k'.phase? i = some phase) (hbusy : phase.isBusy = true) :
    (∃ first, current = some first ∧ phase.Runs first) ∨
      k.idle = true ∧ k'.idle = false ∧ phase.Runs (!k.initialized) := by
  rcases (Turns.of_step hstep).phases i phase hphase with ⟨p, hp, hturn⟩ | ⟨-, r, -, rfl⟩
  · rcases hturn.runs hbusy with ⟨hwas, hruns⟩ | hbegun
    · obtain ⟨first, hcurrent, hfirst⟩ := h.runs i p hp hwas
      exact .inl ⟨first, hcurrent, hruns first hfirst⟩
    · exact .inr hbegun
  -- a call that was just made is not busy
  · rw [CallPhase.isBusy_request] at hbusy
    cases hbusy

/-- **After an act** the rebuilds are the same, or one has begun, or the one in progress is over. -/
theorem Recorded.step (h : Recorded k log past current) (hstep : k.step b a = some k') :
    ∃ past' current', Recorded k' (log ++ k.stages (a, b) k') past' current' := by
  obtain ⟨events, hledger⟩ := h.ledger
  have hledger' := hledger.step hstep
  have hwrites := Writes.of_step hstep
  generalize k.stages (a, b) k' = seen at hwrites ⊢
  cases hwrites with
  | began hidle hrests =>
    -- the keeper was idle, so the new rebuild is the only one
    have hnone : current = none := by
      rw [h.tally.idle, Option.isNone_iff_eq_none] at hidle
      exact hidle
    subst hnone
    refine ⟨past, some (!k.initialized), ?_⟩
    constructor
    case tally => exact h.tally.begin.rests hrests
    case log_eq => rw [h.log_eq, Option.toList_none, List.map_nil, List.append_nil]; rfl
    case possible => exact h.possible
    case ledger => exact ⟨_, hledger'⟩
    case runs =>
      intro j p hp hbusy
      rcases h.runs_or_begins hstep hp hbusy with ⟨first, hno, -⟩ | ⟨-, -, hruns⟩
      · cases hno
      · exact ⟨_, rfl, hruns⟩
  | @ended _ i result hphase hrests =>
    -- the call that records is the one that runs the rebuild in progress
    obtain ⟨first, rfl, hpossible⟩ := h.runs i _ hphase rfl
    refine ⟨past ++ [⟨first, result⟩], none, ?_⟩
    constructor
    case tally => exact (h.tally.record hpossible).rests hrests
    case log_eq =>
      rw [h.log_eq, List.flatMap_append, List.append_assoc, List.append_assoc]
      rfl
    case possible =>
      intro x hx
      rcases List.mem_append.1 hx with hx | hx
      · exact h.possible x hx
      · cases List.mem_singleton.1 hx
        exact hpossible
    case ledger => exact ⟨_, hledger'⟩
    case runs =>
      -- the call that recorded the end was the only one
      intro j p hp hbusy
      obtain ⟨c, hc, hcbusy⟩ := rebuilding_iff_phase?.2 ⟨p, hp, hbusy⟩
      have hidle := hledger'.idle_eq_false hc hcbusy
      rw [hrests.idle] at hidle
      cases hidle
  -- the log and the tally are as before, and so is the rebuild that is in progress
  | nothing hrests =>
    refine ⟨past, current, ?_⟩
    constructor
    case tally => exact h.tally.rests hrests
    case log_eq => rw [List.append_nil, h.log_eq]
    case possible => exact h.possible
    case ledger => exact ⟨_, hledger'⟩
    case runs =>
      intro j p hp hbusy
      rcases h.runs_or_begins hstep hp hbusy with hruns | ⟨hidle, hbegun, -⟩
      · exact hruns
      · rw [hrests.idle, hidle] at hbegun
        cases hbegun

/-- A new keeper has seen no rebuild. -/
theorem Recorded.create (steps : List Step) (interval : Nat) (world : World) :
    Recorded (create steps interval world) [] [] none where
  tally := ⟨rfl, rfl, rfl, rfl, rfl, nofun, nofun⟩
  log_eq := rfl
  possible := nofun
  runs := nofun
  ledger := ⟨[], .create steps interval world⟩

/-- The history follows from the tally and from what can come of a rebuild. -/
theorem Recorded.history (h : Recorded k log past current) : History k past current where
  toTally := h.tally
  not_unusable n x reason hx hsuccess hresult := by
    -- a rebuild that is said to have left nothing of use was a first one, and after a success none is
    have hfirst := (h.possible x (List.mem_of_getElem? hx)).first_of_unusable hresult
    rw [h.tally.first n x hx, hsuccess] at hfirst
    cases hfirst
  first_success n x report hx hnone hresult := by
    refine (h.possible x (List.mem_of_getElem? hx)).usable_of_first hresult ?_
    rw [h.tally.first n x hx, hnone]
    rfl
  not_unhealthy hinitialized := by
    rw [h.tally.health]
    rw [h.tally.initialized] at hinitialized
    exact healthOf_ne_unhealthy hinitialized

/-- **What a keeper shows of itself is determined by the rebuilds so far.** One follows the other, whoever asks for
them and in whatever order the threads move, and whatever comes of them. -/
theorem remembers {steps : List Step} {interval : Nat} {world : World}
    (h : Course act stages (create steps interval world) log k) :
    ∃ past current, log = past.flatMap (·.stages) ++ current.toList.map .began ∧ History k past current := by
  suffices hrecorded : ∃ past current, Recorded k log past current by
    obtain ⟨past, current, hrecorded⟩ := hrecorded
    exact ⟨past, current, hrecorded.log_eq, hrecorded.history⟩
  -- over the course, as each act leaves a history again
  induction h with
  | start => exact ⟨[], none, .create steps interval world⟩
  | act before hstep ih =>
    obtain ⟨past, current, hrecorded⟩ := ih
    exact hrecorded.step hstep

/-- A step that fills the catalog, if the archive answers. -/
def fillStep : Step where
  name := "fill"
  program := .reading (fun _ => .writes .done [.setIds .procedures (SortedSet.empty.insert "p"),
    .setIds .offerings (SortedSet.empty.insert "o")]) (.query .procedureIdentifiers)

/-- The archive is silent during the first rebuild and answers during the second one. No session can be opened for the
third one, and the fourth one is in progress. -/
def recoveringCourse : List (KeeperAct × Backend) :=
  let good := World.initial.archive.backend
  let silent := { good with answers := fun q => .fault (.query q.name "no answer") }
  let gone := { good with opening := .fault (.unreachable "gone") }
  List.flatten
    [[.begin (.trigger .coalesce), .begin (.trigger .coalesce), .begin (.trigger .coalesce),
        .begin (.trigger .coalesce)].map (·, good),
      List.replicate 10 (.move 0, silent), List.replicate 12 (.move 1, good), List.replicate 4 (.move 2, gone),
      [(.move 3, good)]]

/-- The state of the catalog is that of a failure after a success, and the rebuild in progress is not judged as a first
one. -/
theorem remembers_recovering : ∃ log k past,
    Course act stages (create [fillStep] (seconds 3600) World.initial) log k ∧ History k past (some false) ∧
    past.length = 3 ∧ k.initialized = true ∧ k.health = .degraded := by
  have hcourse : (carryOut act stages recoveringCourse ([], create [fillStep] (seconds 3600) World.initial)).map
      (fun r => (r.2.completed, r.2.initialized, r.2.health, r.2.idle)) = some (3, true, .degraded, false) := by
    decide +kernel
  obtain ⟨⟨log, k⟩, hcarried, hshown⟩ := Option.map_eq_some_iff.1 hcourse
  simp only [Prod.mk.injEq] at hshown
  obtain ⟨hcompleted, hinitialized, hhealth, hidle⟩ := hshown
  have h := Course.of_carryOut recoveringCourse .start hcarried
  obtain ⟨past, current, -, hhistory⟩ := remembers h
  -- the keeper is not idle, and it has seen a success
  have hcurrent : current = some false := by
    cases current with
    | none =>
      have hnone := hhistory.idle
      rw [hidle] at hnone
      cases hnone
    | some first =>
      have hfirst := hhistory.current_first first rfl
      rw [← hhistory.initialized, hinitialized] at hfirst
      rw [hfirst]
      rfl
  subst hcurrent
  exact ⟨log, k, past, h, hhistory, hhistory.completed.symm.trans hcompleted, hinitialized, hhealth⟩

end Keeper

end SensorCatalog
