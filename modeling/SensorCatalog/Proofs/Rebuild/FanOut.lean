import SensorCatalog.Rebuild.Run
import SensorCatalog.Proofs.Course

/-!
# What items do for themselves

The items of a fan-out move in any order, and each meets answers of its own. Nevertheless what an item
does is determined by the work that it was given and by the backends that it met: this is its `Deed`, the
list of its writes and, once the work is over, the outcome. `Deed.of` computes it from the list of backends
without looking at other items, at the catalog or at the sessions.

* `ItemPhase.Advance` lists the eight kinds of acts of an item, and `FanOut.step_cases` says that each act
  of a fan-out is one of them.
* `ItemPhase.Fits` relates the phase of an item to its deed, and `ItemPhase.Fits.advance` carries it over
  each act.
* `FanOut.Story` puts the items together: the catalog has the writes of all items, in the order of a log
  whose shares are what the items wrote, the collector has what they reported, and the latch counts the
  items that have not counted down. `FanOut.Story.step` is the step lemma.
* `FanOut.HoldsOpen` says that each item at work has one session open.

`FanOut.Story.settled` says what this comes to when the latch is down.
-/

namespace SensorCatalog

namespace Outcome

variable {α : Type}

/-- Whether there is a result. -/
def isOk : Outcome α → Bool
  | .ok _ => true
  | _ => false

/-- An outcome is good if it is a value. -/
theorem isOk_iff {o : Outcome α} : o.isOk = true ↔ ∃ v, o = .ok v := by
  cases o <;> simp [isOk]

end Outcome

/-! ### Deeds -/

namespace Work

/-- What is done by work that meets some backends, one at each query and each write: its writes, and its
outcome once it is over. -/
def perform : Work → List Backend → List Write × Option (Outcome Unit)
  | .done, _ => ([], some (.ok ()))
  | .fail f, _ => ([], some (.fault f))
  | .panic p, _ => ([], some (.panic p))
  | .query _ _, [] => ([], none)
  | .query q next, b :: bs => (next (b.answers q)).perform bs
  | .write _ _, [] => ([], none)
  | .write x next, _ :: bs => (x :: (next.perform bs).1, (next.perform bs).2)

/-- The outcome of work that is over. -/
def ending? : Work → Option (Outcome Unit)
  | .done => some (.ok ())
  | .fail f => some (.fault f)
  | .panic p => some (.panic p)
  | _ => none

/-- Work that is at its end asks and writes nothing more. -/
theorem perform_of_ending {work : Work} {o : Outcome Unit} (h : work.ending? = some o)
    (bs : List Backend) : work.perform bs = ([], some o) := by
  cases work <;> simp_all [ending?, perform]

end Work

/-- What an item has done. -/
structure Deed where
  /-- Its writes, in order. -/
  writes : List Write
  /-- How it went, once it is over. -/
  outcome : Option (Outcome Unit)

namespace Deed

/-- **The deed of an item** with some work that meets these backends. The first one opens its session or
refuses to, and then nothing is written. -/
def of (work : Work) : List Backend → Deed
  | [] => ⟨[], none⟩
  | b :: bs =>
    match b.opening with
    | .ok _ => ⟨(work.perform bs).1, (work.perform bs).2⟩
    | .fault f => ⟨[], some (.fault f)⟩
    | .panic p => ⟨[], some (.panic p)⟩

/-- Whether the item succeeded. -/
def succeeded (d : Deed) : Bool := d.outcome.any Outcome.isOk

/-- Whether the item failed. -/
def failed (d : Deed) : Bool := d.outcome.any fun o => !o.isOk

/-- The fault by which an outcome is reported for a procedure, if it is one to report. -/
def faultOf? (procedure : String) : Outcome Unit → Option Fault
  | .ok _ => none
  | .fault f => some (.worker procedure f)
  | .panic p => some (.workerPanicked procedure p.message)

/-- The fault by which a deed is reported. -/
def fault? (procedure : String) (d : Deed) : Option Fault := d.outcome.bind (faultOf? procedure)

end Deed

/-! ### The acts of an item -/

namespace ItemPhase

/-- Whether the item has an open session. -/
def isHolding : ItemPhase → Bool
  | .working _ | .closing _ => true
  | _ => false

/-- **The acts of an item.** -/
inductive Advance (b : Backend) (procedure : String) (work : Work) (w : World) :
    ItemPhase → ItemPhase → World → ItemEffect → Prop where
  | opened (h : b.opening = .ok ()) : Advance b procedure work w .waiting (.working work) w.openSession .nothing
  -- without a session there is none to give back
  | refused {o : Outcome Unit} (h : b.opening = o) (ho : o.isOk = false) :
    Advance b procedure work w .waiting (.reporting o) w .nothing
  | asked {q : Query} {next : Outcome q.Reply → Work} :
    Advance b procedure work w (.working (.query q next)) (.working (next (b.answers q))) w .nothing
  | wrote {x : Write} {next : Work} :
    Advance b procedure work w (.working (.write x next)) (.working next) (w.write x) .nothing
  -- also when the work failed or broke off
  | ended {rest : Work} {o : Outcome Unit} (h : rest.ending? = some o) :
    Advance b procedure work w (.working rest) (.closing o) w .nothing
  | closed {o : Outcome Unit} :
    Advance b procedure work w (.closing o) (.reporting o) w.closeSession .nothing
  -- the counters and the collector are told before the latch is
  | reported {o : Outcome Unit} :
    Advance b procedure work w (.reporting o) .leaving w (effectOf procedure o)
  | left : Advance b procedure work w .leaving .gone w .countDown

/-- What an item does is one of its acts. -/
theorem Advance.of_advance {b : Backend} {procedure : String} {work : String → Work} {w : World}
    {phase : ItemPhase} {r : ItemPhase × World × ItemEffect}
    (h : phase.advance b procedure work w = some r) :
    Advance b procedure (work procedure) w phase r.1 r.2.1 r.2.2 := by
  cases phase with
  | waiting =>
    rw [advance] at h
    cases ho : b.opening with
    | ok u => simp only [ho, Option.some.injEq] at h; subst h; exact .opened ho
    | fault f => simp only [ho, Option.some.injEq] at h; subst h; exact .refused ho rfl
    | panic p => simp only [ho, Option.some.injEq] at h; subst h; exact .refused ho rfl
  | working rest =>
    cases rest with
    | done => cases h; exact .ended rfl
    | fail f => cases h; exact .ended rfl
    | panic p => cases h; exact .ended rfl
    | query q next => cases h; exact .asked
    | write x next => cases h; exact .wrote
  | closing o => cases h; exact .closed
  | reporting o => cases h; exact .reported
  | leaving => cases h; exact .left
  | gone => cases h

/-- An item that is not through can always go on. -/
theorem advance_isSome {phase : ItemPhase} (h : phase.isGone = false) (b : Backend) (procedure : String)
    (work : String → Work) (w : World) : (phase.advance b procedure work w).isSome := by
  cases phase with
  | waiting => rw [advance]; cases b.opening <;> rfl
  | working rest => cases rest <;> rfl
  | closing o => rfl
  | reporting o => rfl
  | leaving => rfl
  | gone => cases h

/-- What the next act of an item writes. -/
def written : ItemPhase → List Write
  | .working (.write x _) => [x]
  | _ => []

/-- The outcome that the next act of an item reports. -/
def reports : ItemPhase → List (Outcome Unit)
  | .reporting o => [o]
  | _ => []

/-- An act has the catalog written into what the phase says. -/
theorem Advance.catalog_eq {b : Backend} {procedure : String} {work : Work} {w w' : World}
    {phase phase' : ItemPhase} {effect : ItemEffect}
    (h : Advance b procedure work w phase phase' w' effect) :
    w'.catalog = w.catalog.writeAll phase.written := by
  cases h with
  | ended h => rename_i rest o; cases rest <;> first | rfl | cases h
  | _ => rfl

/-- **An item in its phase** has met the backends `bs`, has written `ws`, and has reported `os`. What it
has done so far, followed by what is left of its work, is its deed, whatever it meets from now on. -/
def Fits (work : Work) (bs : List Backend) (ws : List Write) (os : List (Outcome Unit)) : ItemPhase → Prop
  | .waiting => bs = [] ∧ ws = [] ∧ os = []
  | .working rest =>
    os = [] ∧ ∀ cs, Deed.of work (bs ++ cs) = ⟨ws ++ (rest.perform cs).1, (rest.perform cs).2⟩
  | .closing o | .reporting o => os = [] ∧ ∀ cs, Deed.of work (bs ++ cs) = ⟨ws, some o⟩
  | .leaving | .gone => ∃ o, os = [o] ∧ ∀ cs, Deed.of work (bs ++ cs) = ⟨ws, some o⟩

/-- After each act the item has done what its work does over the backends that it has met. -/
theorem Fits.advance {b : Backend} {procedure : String} {work : Work} {w w' : World}
    {phase phase' : ItemPhase} {effect : ItemEffect} {bs : List Backend} {ws : List Write}
    {os : List (Outcome Unit)} (hf : phase.Fits work bs ws os)
    (h : Advance b procedure work w phase phase' w' effect) :
    phase'.Fits work (bs ++ [b]) (ws ++ phase.written) (os ++ phase.reports) := by
  cases h with
  | opened h =>
    -- nothing has been met yet, so the deed begins with this backend
    obtain ⟨rfl, rfl, rfl⟩ := hf
    exact ⟨rfl, fun cs => by simp [Deed.of, h, written]⟩
  | refused h ho =>
    -- the deed is over before the work begins
    obtain ⟨rfl, rfl, rfl⟩ := hf
    subst h
    refine ⟨rfl, fun cs => ?_⟩
    rw [List.nil_append, List.singleton_append, Deed.of]
    cases he : b.opening with
    | ok u => rw [he] at ho; cases ho
    | fault f => rfl
    | panic p => rfl
  | asked =>
    -- this backend is the next one that the rest of the work meets
    refine ⟨by simp [hf.1, reports], fun cs => ?_⟩
    have := hf.2 (b :: cs)
    simpa [Work.perform, written] using this
  | wrote =>
    -- the same, and the write moves from what is left to what was done
    refine ⟨by simp [hf.1, reports], fun cs => ?_⟩
    have := hf.2 (b :: cs)
    simpa [Work.perform, written] using this
  | ended h =>
    -- what is left has an outcome already, whatever it would meet
    rename_i rest o
    have hw : (ItemPhase.working rest).written = [] := by cases rest <;> first | rfl | cases h
    refine ⟨by simp [hf.1, reports], fun cs => ?_⟩
    have := hf.2 (b :: cs)
    simpa [Work.perform_of_ending h, hw] using this
  | closed =>
    -- from here on the backends have no part in the deed
    refine ⟨by simp [hf.1, reports], fun cs => ?_⟩
    simpa [written] using hf.2 (b :: cs)
  | reported =>
    -- the outcome of the deed is what is reported
    rename_i o
    refine ⟨o, by simp [hf.1, reports], fun cs => ?_⟩
    simpa [written] using hf.2 (b :: cs)
  | left =>
    obtain ⟨o, rfl, h⟩ := hf
    refine ⟨o, rfl, fun cs => ?_⟩
    simpa [written] using h (b :: cs)

/-- Whether the item is about to count down. -/
def isLeaving : ItemPhase → Bool
  | .leaving => true
  | _ => false

/-- What an act of an item means for the others is read off the phase in which it finds the item. -/
theorem Advance.apply_eq {b : Backend} {procedure : String} {work : Work} {w w' : World}
    {phase phase' : ItemPhase} {effect : ItemEffect}
    (h : Advance b procedure work w phase phase' w' effect) (f : FanOut) (e : Collector) :
    f.apply e effect =
      ({ f with
          latch := f.latch - phase.isLeaving.toNat
          succeeded := f.succeeded + phase.reports.countP Outcome.isOk
          failed := f.failed + phase.reports.countP fun o => !o.isOk },
        ⟨e.faults ++ phase.reports.filterMap (Deed.faultOf? procedure)⟩) := by
  cases h with
  -- the only act that moves the counters and the collector
  | reported =>
    rename_i o
    cases o <;>
      simp [FanOut.apply, effectOf, reports, isLeaving, Outcome.isOk, Deed.faultOf?, Collector.push,
        List.filterMap_cons]
  | _ => simp [FanOut.apply, reports, isLeaving]

/-- The latch counts down as the item leaves. -/
theorem Advance.isGone_add {b : Backend} {procedure : String} {work : Work} {w w' : World}
    {phase phase' : ItemPhase} {effect : ItemEffect}
    (h : Advance b procedure work w phase phase' w' effect) :
    (if !phase'.isGone then 1 else 0) + phase.isLeaving.toNat = if !phase.isGone then 1 else 0 := by
  cases h <;> rfl

/-- An item that begins to have a session opens one, and an item that has one gives it back. -/
theorem Advance.isOpen_add {b : Backend} {procedure : String} {work : Work} {w w' : World}
    {phase phase' : ItemPhase} {effect : ItemEffect}
    (h : Advance b procedure work w phase phase' w' effect)
    (hpos : phase.isHolding = true → 0 < w.sessions.isOpen) :
    w'.sessions.isOpen + (if phase.isHolding then 1 else 0) =
      w.sessions.isOpen + if phase'.isHolding then 1 else 0 := by
  cases h with
  | closed =>
    -- closing subtracts one, so a session has to be open
    have := hpos rfl
    change w.sessions.isOpen - 1 + 1 = w.sessions.isOpen + 0
    omega
  | _ => rfl

end ItemPhase

/-! ### All items together -/

namespace FanOut

/-- A fan-out with what its items share. -/
abbrev Shared := FanOut × Collector × World

/-- One act of an item, which meets a backend. -/
def move (s : Shared) (m : Nat × Backend) : Option Shared := s.1.step m.2 m.1 s.2.1 s.2.2

/-- **Courses of a fan-out.** The log lists which item moved, and what backend it met. -/
abbrev Moves (s : Shared) (moves : List (Nat × Backend)) (t : Shared) : Prop :=
  Course move (fun _ m _ => [m]) s moves t

/-- The fan-out after an act of one of its items. -/
def moved (f : FanOut) (i : Nat) (item : Item) (phase : ItemPhase) : FanOut :=
  { f with
    items := f.items.set i { item with phase := phase }
    latch := f.latch - item.phase.isLeaving.toNat
    succeeded := f.succeeded + item.phase.reports.countP Outcome.isOk
    failed := f.failed + item.phase.reports.countP fun o => !o.isOk }

/-- **The acts of a fan-out.** Each is an act of one of its items. An item begins only when a thread is
free. -/
theorem step_cases {b : Backend} {i : Nat} {f f' : FanOut} {e e' : Collector} {w w' : World}
    (h : f.step b i e w = some (f', e', w')) :
    ∃ item phase effect, f.items[i]? = some item ∧
      (item.phase.isWaiting = true → f.active < f.threads) ∧
      ItemPhase.Advance b item.procedure (f.work item.procedure) w item.phase phase w' effect ∧
      f' = f.moved i item phase ∧
      e' = ⟨e.faults ++ item.phase.reports.filterMap (Deed.faultOf? item.procedure)⟩ := by
  rw [step] at h
  cases hitem : f.items[i]? with
  | none => simp [hitem] at h
  | some item =>
    simp only [hitem] at h
    split at h
    · cases h
    · rename_i hfree
      cases hadv : item.phase.advance b item.procedure f.work w with
      | none => simp [hadv] at h
      | some r =>
        obtain ⟨phase, w₁, effect⟩ := r
        have hact := ItemPhase.Advance.of_advance hadv
        simp only [hadv, Option.some.injEq, Prod.mk.injEq, hact.apply_eq] at h
        obtain ⟨rfl, rfl, rfl⟩ := h
        refine ⟨item, phase, effect, rfl, fun hw => ?_, hact, rfl, rfl⟩
        simpa [hw] using hfree

/-- **What the items have done.** The log of writes and the list of reports interleave what the items did,
each for itself. -/
structure Account (work : String → Work) (items : List Item) (moves : List (Nat × Backend))
    (log : List (Nat × Write)) (reports : List (Nat × String × Outcome Unit)) : Prop where
  /-- Each item has done what fits its phase. -/
  fits : ∀ i item, items[i]? = some item → ∃ os,
    share i reports = os.map (item.procedure, ·) ∧
      item.phase.Fits (work item.procedure) (share i moves) (share i log) os
  /-- Nobody else wrote. -/
  writers : ∀ x ∈ log, x.1 < items.length
  /-- Nobody else reported. -/
  reporters : ∀ r ∈ reports, r.1 < items.length

/-- **The story of a fan-out**, from the catalog and the faults that it found to those that it leaves. -/
structure Story (procedures : List String) (work : String → Work) (c₀ : Catalog) (faults₀ : List Fault)
    (moves : List (Nat × Backend)) (f : FanOut) (e : Collector) (c : Catalog) : Prop where
  /-- The work is what it was. -/
  work_eq : f.work = work
  /-- There is one item for each procedure. -/
  names : f.items.map (·.procedure) = procedures
  /-- The latch counts the items that have not counted down. -/
  latch_eq : f.latch = f.items.countP fun item => !item.phase.isGone
  /-- The catalog, the collector and the counters come from what the items did. -/
  account : ∃ log reports, Account work f.items moves log reports ∧
    c = c₀.writeAll (log.map (·.2)) ∧
    e.faults = faults₀ ++ reports.filterMap (fun r => Deed.faultOf? r.2.1 r.2.2) ∧
    f.succeeded = reports.countP (fun r => r.2.2.isOk) ∧
    f.failed = reports.countP (fun r => !r.2.2.isOk)

variable {procedures : List String} {work : String → Work}

/-- At first no item has done anything. -/
theorem Story.start (threads : Nat) (e : Collector) (c : Catalog) :
    Story procedures work c e.faults [] (FanOut.start threads procedures work) e c where
  work_eq := rfl
  names := by simp [FanOut.start, Function.comp_def]
  latch_eq := by simp [FanOut.start, List.countP_map, Function.comp_def, ItemPhase.isGone]
  account := by
    refine ⟨[], [], ⟨fun i item hitem => ⟨[], rfl, ?_⟩, by simp, by simp⟩, rfl, by simp, rfl, rfl⟩
    obtain ⟨p, -, rfl⟩ := List.mem_map.1 (List.mem_of_getElem? hitem)
    exact ⟨rfl, rfl, rfl⟩

/-- Each act is entered into the account of the item that makes it. -/
theorem Account.step {items : List Item} {moves : List (Nat × Backend)} {log : List (Nat × Write)}
    {reports : List (Nat × String × Outcome Unit)} (h : Account work items moves log reports)
    {b : Backend} {i : Nat} {item : Item} {phase : ItemPhase} {w w' : World} {effect : ItemEffect}
    (hitem : items[i]? = some item)
    (hact : ItemPhase.Advance b item.procedure (work item.procedure) w item.phase phase w' effect) :
    Account work (items.set i { item with phase := phase }) (moves ++ [(i, b)])
      (log ++ item.phase.written.map (i, ·))
      (reports ++ item.phase.reports.map fun o => (i, item.procedure, o)) := by
  have hi : i < items.length := (List.getElem?_eq_some_iff.1 hitem).1
  -- a report is tagged with the procedure first and then with the item
  have hreports : (item.phase.reports.map fun o => (i, item.procedure, o)) =
      (item.phase.reports.map (item.procedure, ·)).map (i, ·) := by simp
  refine ⟨fun j item' hj => ?_, ?_, ?_⟩
  · by_cases hij : i = j
    · -- the item that moved
      subst hij
      rw [List.getElem?_set_self hi, Option.some.injEq] at hj
      subst hj
      obtain ⟨os, hos, hfits⟩ := h.fits i item hitem
      refine ⟨os ++ item.phase.reports, ?_, ?_⟩
      · rw [share_append, hos, hreports, share_self, List.map_append]
      · have := hfits.advance hact
        simpa [share] using this
    · -- any other item is where it was
      rw [List.getElem?_set_ne hij] at hj
      obtain ⟨os, hos, hfits⟩ := h.fits j item' hj
      refine ⟨os, ?_, ?_⟩
      · rw [share_append, hos, hreports, share_other hij, List.append_nil]
      · rw [share_append, share_append, share_other hij, List.append_nil]
        simpa [share, hij] using hfits
  · intro x hx
    rw [List.length_set]
    rcases List.mem_append.1 hx with hx | hx
    · exact h.writers x hx
    · obtain ⟨y, -, rfl⟩ := List.mem_map.1 hx
      exact hi
  · intro r hr
    rw [List.length_set]
    rcases List.mem_append.1 hr with hr | hr
    · exact h.reporters r hr
    · obtain ⟨o, -, rfl⟩ := List.mem_map.1 hr
      exact hi

/-- **The story goes on** with each act, whoever moves and whatever backend he meets. -/
theorem Story.step {c₀ : Catalog} {faults₀ : List Fault} {moves : List (Nat × Backend)} {f f' : FanOut}
    {e e' : Collector} {w w' : World} (h : Story procedures work c₀ faults₀ moves f e w.catalog)
    {b : Backend} {i : Nat} (hstep : f.step b i e w = some (f', e', w')) :
    Story procedures work c₀ faults₀ (moves ++ [(i, b)]) f' e' w'.catalog := by
  obtain ⟨item, phase, effect, hitem, -, hact, rfl, rfl⟩ := step_cases hstep
  obtain ⟨log, reports, hacc, hc, he, hs, hf⟩ := h.account
  rw [h.work_eq] at hact
  refine ⟨h.work_eq, ?_, ?_, _, _, hacc.step hitem hact, ?_, ?_, ?_, ?_⟩
  · -- the item that moved keeps its name
    rw [← h.names]
    have hi : i < f.items.length := (List.getElem?_eq_some_iff.1 hitem).1
    refine List.ext_getElem? fun j => ?_
    simp only [moved, List.getElem?_map, List.getElem?_set]
    by_cases hij : i = j
    · subst hij
      rw [if_pos rfl, if_pos hi, hitem]
      rfl
    · rw [if_neg hij]
  · -- only an item that counts down becomes gone
    have hlatch := countP_set_add hitem { item with phase := phase } fun item => !item.phase.isGone
    have hgone := hact.isGone_add
    have := h.latch_eq
    simp only [moved] at *
    omega
  · -- the new entries come at the end of the log
    rw [hact.catalog_eq, hc]
    simp [Catalog.writeAll, Function.comp_def]
  · simp [he, List.filterMap_map]
  · simp [moved, hs, List.countP_map, Function.comp_def]
  · simp [moved, hf, List.countP_map, Function.comp_def]

/-- When the fan-out is over, all of its items are through. -/
theorem Story.all_gone {c₀ c : Catalog} {faults₀ : List Fault} {moves : List (Nat × Backend)}
    {f : FanOut} {e : Collector} (h : Story procedures work c₀ faults₀ moves f e c)
    (hover : f.isOver = true) : ∀ item ∈ f.items, item.phase = .gone := by
  intro item hitem
  have hzero : f.items.countP (fun item => !item.phase.isGone) = 0 := by
    rw [← h.latch_eq]
    simpa [isOver] using hover
  have := List.countP_eq_zero.1 hzero item hitem
  cases hp : item.phase <;> simp_all [ItemPhase.isGone]

/-- As long as it is not, some item has still to go on. -/
theorem Story.exists_item {c₀ c : Catalog} {faults₀ : List Fault} {moves : List (Nat × Backend)}
    {f : FanOut} {e : Collector} (h : Story procedures work c₀ faults₀ moves f e c)
    (hover : f.isOver = false) : ∃ item ∈ f.items, item.phase.isGone = false := by
  have hpos : 0 < f.items.countP fun item => !item.phase.isGone := by
    rw [← h.latch_eq]
    exact Nat.pos_of_ne_zero (by simpa [isOver] using hover)
  obtain ⟨item, hitem, hgone⟩ := List.countP_pos_iff.1 hpos
  exact ⟨item, hitem, by simpa using hgone⟩

/-- **The deeds of all items**, each with the procedure that it is about. -/
def deeds (procedures : List String) (work : String → Work) (moves : List (Nat × Backend)) :
    List (String × Deed) :=
  procedures.mapIdx fun i p => (p, Deed.of (work p) (share i moves))

/-- The deeds are in the order of the procedures. -/
theorem getElem?_deeds (moves : List (Nat × Backend)) (i : Nat) :
    (deeds procedures work moves)[i]? =
      procedures[i]?.map fun p => (p, Deed.of (work p) (share i moves)) := by
  simp [deeds]

/-- An item that is through has made one report, and it is that of its deed. -/
theorem Account.deed {items : List Item} {moves : List (Nat × Backend)} {log : List (Nat × Write)}
    {reports : List (Nat × String × Outcome Unit)} (h : Account work items moves log reports)
    (hgone : ∀ item ∈ items, item.phase = .gone) {i : Nat} {item : Item} (hitem : items[i]? = some item) :
    ∃ o, share i reports = [(item.procedure, o)] ∧
      Deed.of (work item.procedure) (share i moves) = ⟨share i log, some o⟩ := by
  obtain ⟨os, hos, hfits⟩ := h.fits i item hitem
  rw [hgone item (List.mem_of_getElem? hitem)] at hfits
  obtain ⟨o, rfl, hdeed⟩ := hfits
  have := hdeed []
  rw [List.append_nil] at this
  exact ⟨o, by simpa using hos, this⟩

/-- The reports are those of the deeds, in some order. -/
theorem Account.perm_deeds {items : List Item} {moves : List (Nat × Backend)} {log : List (Nat × Write)}
    {reports : List (Nat × String × Outcome Unit)} (h : Account work items moves log reports)
    (hgone : ∀ item ∈ items, item.phase = .gone) :
    (reports.map fun r => (r.2.1, some r.2.2)).Perm
      ((deeds (items.map (·.procedure)) work moves).map fun d => (d.1, d.2.outcome)) := by
  have hshares := (perm_shares h.reporters).map fun r => (r.2.1, some r.2.2)
  refine hshares.trans (List.Perm.of_eq ?_)
  -- the share of each item is one report, and this is the one of its deed
  have hone : ∀ i ∈ List.range items.length,
      ((share i reports).map (i, ·)).map (fun r => (r.2.1, some r.2.2)) =
        ((deeds (items.map (·.procedure)) work moves).map fun d => (d.1, d.2.outcome))[i]?.toList := by
    intro i hi
    have hitem := List.getElem?_eq_getElem (List.mem_range.1 hi)
    obtain ⟨o, hreport, hdeed⟩ := h.deed hgone hitem
    simp [hreport, getElem?_deeds, hitem, hdeed]
  have hlen : items.length =
      ((deeds (items.map (·.procedure)) work moves).map fun d => (d.1, d.2.outcome)).length := by
    simp [deeds]
  rw [List.map_flatMap, List.flatMap_congr hone, hlen]
  exact flatMap_getElem? _

/-- **What a fan-out has done when its latch is down**: `ws` are the writes and `fs` the faults
that it added. -/
structure Settled (procedures : List String) (work : String → Work) (moves : List (Nat × Backend))
    (f : FanOut) (ws : List Write) (fs : List Fault) : Prop where
  /-- The work for each procedure is over. -/
  ended : ∀ d ∈ deeds procedures work moves, d.2.outcome.isSome
  /-- So many succeeded. -/
  succeeded_eq : f.succeeded = (deeds procedures work moves).countP (·.2.succeeded)
  /-- All others failed. -/
  failed_eq : f.failed = (deeds procedures work moves).countP (·.2.failed)
  /-- Together they are all. -/
  total : f.succeeded + f.failed = procedures.length
  /-- The writes of all items have been made, those of failed items included. -/
  writes : Interleaves ws ((deeds procedures work moves).map (·.2.writes))
  /-- There is one fault for each failed item, and no other. -/
  faults : fs.Perm ((deeds procedures work moves).filterMap fun d => d.2.fault? d.1)

/-- When the fan-out is over, all accounts are settled. -/
theorem Story.settled {c₀ c : Catalog} {faults₀ : List Fault} {moves : List (Nat × Backend)}
    {f : FanOut} {e : Collector} (h : Story procedures work c₀ faults₀ moves f e c)
    (hover : f.isOver = true) :
    ∃ ws fs, Settled procedures work moves f ws fs ∧ c = c₀.writeAll ws ∧ e.faults = faults₀ ++ fs := by
  obtain ⟨log, reports, hacc, hc, he, hs, hf⟩ := h.account
  have hgone := h.all_gone hover
  have hperm := hacc.perm_deeds hgone
  rw [h.names] at hperm
  have hlen : f.items.length = procedures.length := by simp [← h.names]
  refine ⟨_, _, ⟨?_, ?_, ?_, ?_, ⟨log, rfl, fun i => ?_⟩, ?_⟩, hc, he⟩
  · -- the item has reported an outcome, and this is the one of its deed
    intro d hd
    have : (d.1, d.2.outcome) ∈ reports.map fun r => (r.2.1, some r.2.2) :=
      hperm.mem_iff.2 (List.mem_map_of_mem (f := fun d : String × Deed => (d.1, d.2.outcome)) hd)
    obtain ⟨r, -, hr⟩ := List.mem_map.1 this
    rw [← (Prod.mk.inj hr).2]
    rfl
  · -- reports and deeds are the same up to order, so they are counted alike
    have := hperm.countP_eq fun x => x.2.any Outcome.isOk
    simpa [List.countP_map, Function.comp_def, Deed.succeeded, hs] using this
  · have := hperm.countP_eq fun x => x.2.any fun o => !o.isOk
    simpa [List.countP_map, Function.comp_def, Deed.failed, hf] using this
  · -- each report was counted on one side
    have hparts := reports.length_eq_countP_add_countP fun r => r.2.2.isOk
    have hall : reports.length = procedures.length := by simpa [deeds] using hperm.length_eq
    simp only [Bool.not_eq_true, Bool.decide_eq_false] at hparts
    omega
  · -- the share of an item in the log is what its deed writes
    rw [List.getElem?_map, getElem?_deeds]
    cases hitem : f.items[i]? with
    | none =>
      -- nobody else wrote
      have hi : f.items.length ≤ i := List.getElem?_eq_none_iff.1 hitem
      have hp : procedures[i]? = none := List.getElem?_eq_none (hlen ▸ hi)
      rw [hp]
      refine List.eq_nil_iff_forall_not_mem.2 fun x hx => ?_
      have := hacc.writers _ (mem_share.1 hx)
      simp only at this
      omega
    | some item =>
      obtain ⟨o, -, hdeed⟩ := hacc.deed hgone hitem
      have hp : procedures[i]? = some item.procedure := by rw [← h.names, List.getElem?_map, hitem]; rfl
      rw [hp, Option.map_some, Option.map_some, hdeed]
      rfl
  · have := hperm.filterMap fun x => x.2.bind (Deed.faultOf? x.1)
    simpa [List.filterMap_map, Function.comp_def, Deed.fault?] using this

/-- **Open sessions.** Each item at work has one, besides those that were open before. -/
def HoldsOpen (isOpen₀ : Nat) (f : FanOut) (w : World) : Prop :=
  w.sessions.isOpen = isOpen₀ + f.items.countP fun item => item.phase.isHolding

/-- At first no item has a session. -/
theorem HoldsOpen.start (threads : Nat) (w : World) :
    HoldsOpen w.sessions.isOpen (FanOut.start threads procedures work) w := by
  simp [HoldsOpen, FanOut.start, List.countP_map, Function.comp_def, ItemPhase.isHolding]

/-- An act opens a session for its item, or gives it back, or does neither. -/
theorem HoldsOpen.step {isOpen₀ : Nat} {f f' : FanOut} {e e' : Collector} {w w' : World}
    (h : HoldsOpen isOpen₀ f w) {b : Backend} {i : Nat} (hstep : f.step b i e w = some (f', e', w')) :
    HoldsOpen isOpen₀ f' w' := by
  obtain ⟨item, phase, effect, hitem, -, hact, rfl, rfl⟩ := step_cases hstep
  -- the session of the item that moved is counted before and after
  have hopen := countP_set_add hitem { item with phase := phase } fun item => item.phase.isHolding
  -- if the item has a session, this one is open
  have hpos : item.phase.isHolding = true → 0 < w.sessions.isOpen := fun hh => by
    have := List.countP_pos_iff (p := fun item : Item => item.phase.isHolding).2
      ⟨item, List.mem_of_getElem? hitem, hh⟩
    unfold HoldsOpen at h
    omega
  have hheld := hact.isOpen_add hpos
  simp only [HoldsOpen, moved] at *
  omega

end FanOut

end SensorCatalog
