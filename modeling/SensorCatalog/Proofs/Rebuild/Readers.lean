import SensorCatalog.Proofs.Rebuild.Changes
import SensorCatalog.Proofs.Rebuild.Determined

/-!
# What readers see while a rebuild goes on

A rebuild writes the catalog bit by bit while others read it, and at the same time somebody may edit the archive
that it reads from. `Run.liveStep` is the rebuild among such edits: whoever moves meets the archive as it is at that
moment, with the data and the faults that it has then.

Nevertheless a reader hardly finds a gap. Each category is written by one write of a standard rebuild, but for the
six categories whose keys are procedures. These are pruned first and then entered key by key, by items that move in
any order. What such a category has for one procedure (`Catalog.IsPlace`) changes once all the same: if the procedure
is listed then pruning leaves it alone, and only one item enters it, since the archive lists no procedure twice
(`Archive.listsOnce`). If it is not listed then it is pruned and no item enters it.

So at each moment a reader sees what was there before the rebuild, or already what there will be after it
(`Catalog.OldOrNew`, `Run.readers_see_old_or_new`). Only when none of the procedures stays that one of the six
categories knew, pruning leaves nothing of it, and it is empty until the first new one is entered
(`Run.pruned_to_nothing`).
-/

namespace SensorCatalog

variable {α : Type}

/-! ### The standard steps -/

/-- A backend that lists no procedure twice. -/
def Backend.ListsOnce (b : Backend) : Prop := ∀ ids, b.answers .procedureIdentifiers = .ok ids → ids.Nodup

/-- The archive lists no procedure twice, whatever its data are and whatever goes wrong. -/
theorem Archive.listsOnce (a : Archive) : a.backend.ListsOnce := by
  intro ids hids
  have hreply : a.content.reply .procedureIdentifiers = .ok ids := reply_of_answers hids
  cases hreply
  exact a.content.sensors.keys.sorted.imp fun h => ne_of_lt h

namespace Standard

open Catalog (Leaves Reads Within IsPlace)

variable {B : Backend → Prop} {view : Catalog → α} {threads : Nat} {s : Step}

/-- The writes of a reading are of different categories. -/
theorem nodup_of_comes {x : String × Reading (List Write)} (hx : x ∈ readings) {ws : List Write}
    (h : x.2.Comes B (.ok ws)) : (ws.flatMap Write.categories).Nodup := by
  -- the result of each reading is a list of writes whose categories are written down in it
  simp only [readings, List.mem_cons, List.not_mem_nil, or_false] at hx
  rcases hx with rfl | rfl | rfl | rfl | rfl | rfl | rfl | rfl | rfl | rfl <;>
    simp only [offerings, properties, features, relatedFeatures, composites, capabilities, observations,
      templates, globalTime, offeringTimes, Reading.comes_ok_bind', Reading.comes_ok_pure] at h
  · obtain ⟨ids, -, rows, -, rfl⟩ := h
    simp [Write.categories]
  · obtain ⟨ids, -, rows, -, rfl⟩ := h
    simp [Write.categories]
  · obtain ⟨ids, -, rows, -, envelope, -, rfl⟩ := h
    simp [Write.categories]
  · obtain ⟨related, -, rfl⟩ := h
    simp [Write.categories]
  · obtain ⟨found, -, rfl⟩ := h
    simp [Write.categories]
  · obtain ⟨formats, -, types, -, rfl⟩ := h
    simp [Write.categories]
  · obtain ⟨ids, -, rfl⟩ := h
    simp [Write.categories]
  · obtain ⟨found, -, rfl⟩ := h
    simp [Write.categories]
  · obtain ⟨time, -, rfl⟩ := h
    simp [Write.categories]
  · obtain ⟨ids, -, rows, -, rfl⟩ := h
    simp [Write.categories]

/-- Pruning writes each of its categories once. -/
theorem nodup_of_prune (keep : SortedSet) :
    ((Write.setIds .procedures keep :: Write.retain keep).flatMap Write.categories).Nodup := by
  simp [Write.retain, Association.ofProcedures, Write.categories]

/-- What is known of a procedure is written category by category. -/
theorem nodup_of_entry (p : String) (e : Entry) : ((Write.entry p e).flatMap Write.categories).Nodup := by
  simp [Write.entry, Write.categories]

variable {k : Category} {n : Nat}

/-- The step `procedures` prunes, and then its items share what is left to be changed. -/
theorem atMost_procedures
    (h : ∀ ids, (Reading.query .procedureIdentifiers).Comes B (.ok ids) → ∃ m j,
      Within view (.setIds .procedures (setOf ids) :: Write.retain (setOf ids)) m ∧
      Allots (fun p i => ∀ e, Within view (Write.entry p e) i) ids j ∧ m + j ≤ n) :
    (procedures threads).AtMost B view n := by
  -- the list of procedures comes first, and what is done then depends on it
  refine Program.atMost_reading fun ids hids => ?_
  obtain ⟨m, j, hprune, hitems, hle⟩ := h ids hids
  have hwork : Allots (fun p => (procedureWork p).AtMost B view) ids j := by
    refine hitems.imp fun p i hp => ?_
    refine Work.atMost_ofReading fun ws hws => ?_
    obtain ⟨e, -, hdone⟩ := Reading.comes_ok_bind.1 hws
    rw [Reading.comes_ok_done.1 hdone]
    exact hp e
  -- nothing comes after the fan-out
  have hspread : (Program.fanOut threads ids procedureWork .done).AtMost B view j :=
    ⟨j, 0, hwork, .done 0, le_refl j⟩
  exact (Program.atMost_writes hprune hspread).mono hle

/-- A step leaves alone what it does not own. -/
theorem atMost_of_other (hview : Reads k view) (hs : s ∈ steps threads) (hname : s.name ≠ owner k) :
    s.program.AtMost B view 0 := by
  rcases mem_steps.1 hs with rfl | ⟨x, hx, rfl⟩
  · -- whatever is listed and entered is about procedures
    have hleaves : ∀ ws : List Write, (∀ x ∈ ws, ∀ j ∈ x.categories, owner j = "procedures") → Leaves view ws :=
      fun ws hws => hview.leaves fun x hx hkx => hname (hws x hx k hkx).symm
    refine atMost_procedures fun ids _ => ⟨0, 0, ?_, Allots.zero fun p _ e => ?_, le_refl 0⟩
    · refine (hleaves _ fun x hx => ?_).within 0
      rcases List.mem_cons.1 hx with rfl | hx
      · simp [Write.categories, owner]
      · exact owner_of_mem_retain hx
    · exact (hleaves _ fun x hx => owner_of_mem_entry hx).within 0
  · refine Program.atMost_reading fun ws hws => ?_
    have hleaves : Leaves view ws := hview.leaves fun w hw hkw =>
      hname ((writes_of_comes hx hws w hw).2 k hkw).symm
    exact Program.atMost_writes (hleaves.within 0) (.done 0)

/-- A step that reads and then writes changes its categories once. -/
theorem atMost_of_reading {x : String × Reading (List Write)} (hx : x ∈ readings) (hview : Reads k view) :
    (Program.ofReading x.2).AtMost B view 1 := by
  refine Program.atMost_reading fun ws hws => ?_
  exact Program.atMost_writes (hview.within_one (nodup_of_comes hx hws)) (.done 0)

/-- The list of procedures is changed once, by pruning. -/
theorem atMost_of_ids : (procedures threads).AtMost B (fun c => c.get (.ids .procedures)) 1 := by
  have hview : Reads (.ids .procedures) fun c => c.get (.ids .procedures) := fun _ _ h => h
  refine atMost_procedures fun ids _ => ⟨1, 0, ?_, Allots.zero fun p _ e => ?_, le_refl 1⟩
  · exact hview.within_one (nodup_of_prune _)
  · refine (hview.leaves fun x hx => ?_).within 0
    rcases Write.mem_entry.1 hx with ⟨a, -, rfl⟩ | rfl <;> simp [Write.categories]

/-- **A place that is kept for a procedure is changed once**, by pruning or by the only item that enters it. -/
theorem atMost_of_place {p : String} {view : Catalog → Option α} {part : Entry → Option α}
    (hplace : IsPlace p view part) (hview : Reads k view) (hB : ∀ b, B b → b.ListsOnce) :
    (procedures threads).AtMost B view 1 := by
  refine atMost_procedures fun ids hids => ?_
  have hnodup : ids.Nodup := by
    cases hids with
    | answered hb hq hdone =>
      rw [Reading.comes_ok_done.1 hdone]
      exact hB _ hb _ hq
  have hother : ∀ q ∈ ids, q ≠ p → ∀ e, Within view (Write.entry q e) 0 := fun q _ hq e =>
    (hplace.other q e hq).within 0
  by_cases hp : p ∈ ids
  · -- pruning leaves it alone
    have hprune : Leaves view (.setIds .procedures (setOf ids) :: Write.retain (setOf ids)) :=
      List.forall_mem_cons.2 ⟨hplace.setIds _ _ List.mem_cons_self, hplace.keep _ (SortedSet.mem_ofList.2 hp)⟩
    refine ⟨0, 1, hprune.within 0, Allots.one (by simpa using hnodup) ?_ hother, le_refl 1⟩
    exact fun q _ _ e => hview.within_one (nodup_of_entry q e)
  · -- there is no item for it
    refine ⟨1, 0, hview.within_one (nodup_of_prune _), Allots.zero fun q hq => ?_, le_refl 1⟩
    exact hother q hq fun hqp => hp (hqp ▸ hq)

end Standard

/-! ### A rebuild among edits -/

namespace Run

/-- What happens while a rebuild goes on. -/
inductive LiveAct where
  /-- The rebuild goes on. -/
  | moves (a : Actor)
  /-- Somebody else edits the archive: its data, or what goes wrong. -/
  | edits (e : Edit)

/-- The rebuild meets the archive as it is at the moment. -/
def liveStep (s : Run × World) : LiveAct → Option (Run × World)
  | .moves a => s.1.step s.2.archive.backend s.2 a
  | .edits e => some (s.1, s.2.edit e)

/-- **Courses of a rebuild among edits.** The log lists what happened. -/
abbrev Live (s : Run × World) (acts : List LiveAct) (t : Run × World) : Prop :=
  Course liveStep (fun _ a _ => [a]) s acts t

variable {B : Backend → Prop} {view : Catalog → α} {n : Nat} {s t u : Run × World} {acts more : List LiveAct}

/-- From step to step it is paid for what is looked at. -/
theorem Live.spends (h : Live s acts t) (hB : ∀ a : Archive, B a.backend) (hs : s.1.AtMost B view n) :
    ∃ m, t.1.AtMost B view m ∧ Catalog.Spends view s.2.catalog t.2.catalog n m := by
  induction h with
  | start => exact ⟨n, hs, .refl _ _ _⟩
  | @act log t u a before hstep ih =>
    obtain ⟨m, hm, hspent⟩ := ih
    cases a with
    | moves a =>
      obtain ⟨m', hm', hspends⟩ := hm.step (hB t.2.archive) hstep
      exact ⟨m', hm', hspent.trans hspends⟩
    | edits e =>
      -- nobody edits the catalog
      cases hstep
      exact ⟨m, hm, hspent⟩

/-- **What changes once at most is old or new.** -/
theorem Live.old_or_new (h : Live s acts t) (h' : Live t more u) (hB : ∀ a : Archive, B a.backend)
    (hs : s.1.AtMost B view 1) : view t.2.catalog = view s.2.catalog ∨ view t.2.catalog = view u.2.catalog := by
  obtain ⟨m, hm, hspent⟩ := h.spends hB hs
  rcases hspent.same_or_less with hsame | hless
  · exact .inl hsame
  · -- the one change has been made
    rw [Nat.lt_one_iff] at hless
    subst hless
    obtain ⟨m', -, hspent'⟩ := h'.spends hB hm
    exact .inr (hspent'.same_or_less.resolve_right (Nat.not_lt_zero m')).symm

end Run

/-! ### Old or new -/

/-- The step that prunes and enters these has one category besides: the list of the procedures. -/
theorem Category.eq_or_mem_ofProcedures {k : Category} (hk : Standard.owner k = "procedures") :
    k = .ids .procedures ∨ k ∈ Category.ofProcedures := by
  have hall : ∀ k ∈ Category.all, Standard.owner k = "procedures" →
      k = .ids .procedures ∨ k ∈ Category.ofProcedures := by
    decide
  exact hall k (Category.mem_all k) hk

namespace Catalog

/-- **Old or new**: what a reader finds now is what was there before, or what there will be. -/
structure OldOrNew (old now new : Catalog) : Prop where
  /-- Each category as a whole, unless its keys are procedures. -/
  category : ∀ k, k ∉ Category.ofProcedures → now.get k = old.get k ∨ now.get k = new.get k
  /-- What an association about procedures has for one of them, if anything. -/
  cell : ∀ a ∈ Association.ofProcedures, ∀ p, cell a p now = cell a p old ∨ cell a p now = cell a p new
  /-- The time of a procedure, if there is one. -/
  time : ∀ p, time p now = time p old ∨ time p now = time p new

/-- Whether a category, if it is one of those whose keys are procedures, has something for a procedure. -/
def Knows (c : Catalog) (k : Category) (p : String) : Prop :=
  match k with
  | .association a => (cell a p c).isSome
  | .procedureTimes => (time p c).isSome
  | _ => False

/-- What has something for a procedure is not empty. -/
theorem Knows.not_isVoid {c : Catalog} {k : Category} {p : String} (h : c.Knows k p) : k.isVoid (c.get k) = false := by
  -- an empty map has nothing for anybody
  have hmap : ∀ {β : Type} (m : SortedMap β), (m.get? p).isSome → m.isEmpty = false := by
    intro β m hm
    refine Bool.eq_false_iff.2 fun hempty => ?_
    rw [SortedMap.isEmpty_iff.1 hempty, SortedMap.get?_empty] at hm
    cases hm
  cases k with
  | association a => exact hmap _ h
  | procedureTimes => exact hmap _ h
  | _ => exact h.elim

/-- **No gap**: what is there before and afterwards is also there now. -/
structure NoGap (old now new : Catalog) : Prop where
  /-- What is known of a procedure that stays is not taken away for a while. -/
  entry : ∀ k ∈ Category.ofProcedures, ∀ p, old.Knows k p → new.Knows k p → now.Knows k p
  /-- No category is emptied for a while, unless its keys are procedures of which none stays. -/
  category : ∀ k, (k ∈ Category.ofProcedures → ∃ p, old.Knows k p ∧ new.Knows k p) →
    k.isVoid (old.get k) = false → k.isVoid (new.get k) = false → k.isVoid (now.get k) = false

/-- Where one finds what is old or what is new, there is no gap. -/
theorem OldOrNew.noGap {old now new : Catalog} (h : OldOrNew old now new) : NoGap old now new := by
  have hentry : ∀ k ∈ Category.ofProcedures, ∀ p, old.Knows k p → new.Knows k p → now.Knows k p := by
    intro k hk p hold hnew
    rcases List.mem_append.1 hk with hk | hk
    · obtain ⟨a, ha, rfl⟩ := List.mem_map.1 hk
      -- what is found is the old or the new, and something was there in both cases
      rcases h.cell a ha p with hsame | hsame
      · exact (congrArg Option.isSome hsame).trans hold
      · exact (congrArg Option.isSome hsame).trans hnew
    · obtain rfl := List.mem_singleton.1 hk
      rcases h.time p with hsame | hsame
      · exact (congrArg Option.isSome hsame).trans hold
      · exact (congrArg Option.isSome hsame).trans hnew
  refine ⟨hentry, fun k hstays hold hnew => ?_⟩
  by_cases hk : k ∈ Category.ofProcedures
  · -- the procedure that stays keeps the category from being empty
    obtain ⟨p, hpold, hpnew⟩ := hstays hk
    exact (hentry k hk p hpold hpnew).not_isVoid
  · rcases h.category k hk with hsame | hsame
    · rw [hsame, hold]
    · rw [hsame, hnew]

end Catalog

namespace Run

variable {B : Backend → Prop} {view : Catalog → α} {k : Category} {threads : Nat} {firstRun : Bool}

/-- What only its owner changes, and that once, is changed once by all standard steps together. -/
theorem atMost_one (hview : Catalog.Reads k view)
    (hown : ∀ s ∈ Standard.steps threads, s.name = Standard.owner k → s.program.AtMost B view 1) :
    (Run.start (Standard.steps threads) firstRun).AtMost B view 1 :=
  Allots.one (Standard.names_nodup threads) hown fun _ hs hname => Standard.atMost_of_other hview hs hname

/-- **Each other category is changed once.** -/
theorem atMost_category (hk : k ∉ Category.ofProcedures) :
    (Run.start (Standard.steps threads) firstRun).AtMost B (fun c => c.get k) 1 := by
  have hview : Catalog.Reads k fun c => c.get k := fun _ _ h => h
  refine atMost_one hview fun s hs hname => ?_
  by_cases howner : Standard.owner k = "procedures"
  · -- of the categories of the step `procedures` there is only one that is meant here
    obtain rfl := (Category.eq_or_mem_ofProcedures howner).resolve_right hk
    rw [Standard.program_of_procedures hs hname]
    exact Standard.atMost_of_ids
  · obtain ⟨x, hx, hkx⟩ := Standard.exists_reading howner
    rw [Standard.program_of_name hx hs (hname.trans hkx)]
    exact Standard.atMost_of_reading hx hview

/-- **Each place that is kept for a procedure is changed once.** -/
theorem atMost_place {p : String} {view : Catalog → Option α} {part : Entry → Option α}
    (hplace : Catalog.IsPlace p view part) (hview : Catalog.Reads k view)
    (hk : Standard.owner k = "procedures") (hB : ∀ b, B b → b.ListsOnce) :
    (Run.start (Standard.steps threads) firstRun).AtMost B view 1 := by
  refine atMost_one hview fun s hs hname => ?_
  rw [Standard.program_of_procedures hs (hname.trans hk)]
  exact Standard.atMost_of_place hplace hview hB

variable {steps : List Step} {w w' w'' : World} {r r' : Run} {acts more : List LiveAct}

/-- **Readers see what is old or what is new.** At each moment of a standard rebuild, whatever the catalog held
before, in whatever order the items move, and however others edit the archive and its faults meanwhile, each
category is as it was before the rebuild or as it is at its end, and so is what the six categories about procedures
have for each procedure. So nothing that is there before and afterwards is ever missing. One of the six can be
empty for a while only if no procedure that it knows stays (see `pruned_to_nothing`). -/
theorem readers_see_old_or_new (hsteps : Standard.steps? threads = .ok steps)
    (h : Live (Run.start steps firstRun, w) acts (r, w')) (h' : Live (r, w') more (r', w'')) :
    Catalog.OldOrNew w.catalog w'.catalog w''.catalog ∧ Catalog.NoGap w.catalog w'.catalog w''.catalog := by
  obtain ⟨-, rfl⟩ := Standard.steps?_eq_ok.1 hsteps
  have hB : ∀ a : Archive, a.backend.ListsOnce := Archive.listsOnce
  have holdOrNew : Catalog.OldOrNew w.catalog w'.catalog w''.catalog := by
    constructor
    -- a category of another step is replaced in one write, and one of this step changes place by place
    case category =>
      intro k hk
      exact h.old_or_new h' hB (atMost_category hk)
    case cell =>
      intro a ha p
      have hview : Catalog.Reads (.association a) (Catalog.cell a p) := fun c d hcd =>
        congrArg (SortedMap.get? · p) hcd
      exact h.old_or_new h' hB
        (atMost_place (Catalog.isPlace_cell ha p) hview (Standard.owner_association.2 ha) fun _ hb => hb)
    case time =>
      intro p
      have hview : Catalog.Reads .procedureTimes (Catalog.time p) := fun c d hcd =>
        congrArg (SortedMap.get? · p) hcd
      exact h.old_or_new h' hB (atMost_place (Catalog.isPlace_time p) hview rfl fun _ hb => hb)
  exact ⟨holdOrNew, holdOrNew.noGap⟩

/-- Two lists of acts that can be carried out one after the other are two courses. What is found of the world between
them and of the state at their end is so. -/
theorem exists_live_of_carryOut {s : Run × World} {p : World → Run × World → Bool} (first second : List LiveAct)
    (h : ((carryOut liveStep (fun _ a _ => [a]) first ([], s)).any fun t =>
      (carryOut liveStep (fun _ a _ => [a]) second ([], t.2)).any fun u => p t.2.2 u.2) = true) :
    ∃ acts r w more r' w', Live s acts (r, w) ∧ Live (r, w) more (r', w') ∧ p w (r', w') = true := by
  simp only [Option.any_eq_true] at h
  obtain ⟨⟨acts, r, w⟩, hfirst, ⟨more, r', w'⟩, hsecond, hends⟩ := h
  exact ⟨acts, r, w, more, r', w', Course.of_carryOut first .start hfirst, Course.of_carryOut second .start hsecond,
    hends⟩

/-- The troubled archive, and a catalog with an offering and two sensors that are not as they are told there. -/
def outdatedWorld : World :=
  { World.initial with
    archive := troubledArchive
    catalog := Catalog.empty.writeAll
      [.setIds .offerings (.ofList ["shed"]), .setKey .offeringsForProcedure "lost" (.ofList ["shed"]),
        .setKey .offeringsForProcedure "pump" (.ofList ["shed"])] }

/-- The first item has not finished yet, and the second one has not begun. -/
def firstHalf : List LiveAct :=
  List.replicate 23 (.moves .main) ++ List.replicate 12 (.moves (.item 0))

/-- The troubles are over, so the second item can enter its sensor, and the rebuild comes to its end. -/
def secondHalf : List LiveAct :=
  .edits .clearFaults :: List.replicate 5 (.moves (.item 0)) ++ List.replicate 17 (.moves (.item 1)) ++
    List.replicate 54 (.moves .main)

/-- After the first half of this rebuild the offering is the new one, and the first sensor has been entered in
part. The second one has still its old offering, though it is to get the new one. -/
theorem readers_see_old_or_new_midway : ∃ acts r w' more r' w'',
    Live (Run.start (Standard.steps 2) true, outdatedWorld) acts (r, w') ∧ Live (r, w') more (r', w'') ∧
      r'.result?.isSome = true ∧ Catalog.OldOrNew outdatedWorld.catalog w'.catalog w''.catalog ∧
      w'.catalog.ids .offerings ≠ outdatedWorld.catalog.ids .offerings ∧
      w'.catalog.related .offeringsForProcedure "pump" ≠ w''.catalog.related .offeringsForProcedure "pump" := by
  -- both halves are carried out, and then the catalogs are compared
  obtain ⟨acts, r, w', more, r', w'', h, h', hends⟩ := exists_live_of_carryOut
    (s := (Run.start (Standard.steps 2) true, outdatedWorld))
    (p := fun w t => t.1.result?.isSome
      && decide (w.catalog.ids .offerings ≠ outdatedWorld.catalog.ids .offerings)
      && decide (w.catalog.related .offeringsForProcedure "pump" ≠
          t.2.catalog.related .offeringsForProcedure "pump"))
    firstHalf secondHalf (by decide +kernel)
  simp only [Bool.and_eq_true, decide_eq_true_eq] at hends
  obtain ⟨⟨hover, hnew⟩, hold⟩ := hends
  have hsteps : Standard.steps? 2 = .ok (Standard.steps 2) := rfl
  exact ⟨acts, r, w', more, r', w'', h, h', hover, (readers_see_old_or_new hsteps h h').1, hnew, hold⟩

/-- An archive with one sensor, and a catalog that knows another one from before. -/
def replacedWorld : World :=
  { World.initial with
    archive := { Archive.empty with
      content := { Content.empty with
        sensors := .ofList [("pump", ⟨.ofList ["shed"], .empty, .empty, "plain"⟩)] } }
    catalog := Catalog.empty.writeAll
      [.setIds .procedures (.ofList ["lost"]), .setKey .offeringsForProcedure "lost" (.ofList ["shed"])] }

/-- The only item has its session, and has not entered anything. -/
def afterPruning : List LiveAct := List.replicate 23 (.moves .main) ++ [.moves (.item 0)]

/-- The item enters its sensor, and the rebuild comes to its end. -/
def afterEntering : List LiveAct :=
  List.replicate 16 (.moves (.item 0)) ++ List.replicate 52 (.moves .main)

/-- **A category can be pruned to nothing** before the first procedure is entered. It was not empty, and it is not
at the end of the rebuild. But the only procedure that it knew is listed no longer, and the one that is listed has
not been entered yet. -/
theorem pruned_to_nothing : ∃ steps k acts r w' more r' w'',
    Standard.steps? 2 = .ok steps ∧ k ∈ Category.ofProcedures ∧
      Live (Run.start steps false, replacedWorld) acts (r, w') ∧ Live (r, w') more (r', w'') ∧
      r'.result?.isSome = true ∧ k.isVoid (replacedWorld.catalog.get k) = false ∧
      k.isVoid (w'.catalog.get k) = true ∧ k.isVoid (w''.catalog.get k) = false := by
  let k : Category := .association .offeringsForProcedure
  -- again both halves are carried out, and then the catalogs are looked at
  obtain ⟨acts, r, w', more, r', w'', h, h', hends⟩ := exists_live_of_carryOut
    (s := (Run.start (Standard.steps 2) false, replacedWorld))
    (p := fun w t => t.1.result?.isSome && k.isVoid (w.catalog.get k) && !k.isVoid (t.2.catalog.get k))
    afterPruning afterEntering (by decide +kernel)
  simp only [Bool.and_eq_true, Bool.not_eq_true'] at hends
  obtain ⟨⟨hover, hnow⟩, hnew⟩ := hends
  exact ⟨Standard.steps 2, k, acts, r, w', more, r', w'', rfl, by decide, h, h', hover, rfl, hnow, hnew⟩

end Run

end SensorCatalog
