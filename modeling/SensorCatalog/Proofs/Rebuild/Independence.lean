import SensorCatalog.Proofs.Rebuild.Determined

/-!
# Steps do not depend on each other

Any standard steps can be carried out one after the other, in any order and as often as one likes. While all
that they meet is one backend, only which steps there are counts for what they leave.

This is seen place by place: a category, or what a category about procedures has for one of them.
`Standard.Acts` says that a step acts on such a place by a function, each time by the same one, that a second
time changes nothing, and that no other step touches the place. So if the step is among those that are carried
out, the place is changed by this function, and else it is not changed (`Standard.Acts.of_turns`). It does not
matter that queries go unanswered: a step that breaks off acts by the identity, and so does the work for a
procedure of which something cannot be read.

`Run.steps_independent` compares two pipelines of standard steps.
-/

namespace SensorCatalog

open Turn (allWrites)

namespace Standard

/-- **Standard steps**, with the work for procedures on some number of threads. -/
def IsStep (s : Step) : Prop := ∃ threads, threads ≠ 0 ∧ s ∈ steps threads

theorem IsStep.plain {s : Step} : IsStep s → s.program.Plain := fun ⟨_, hthreads, hs⟩ =>
  plain_of_mem hthreads hs

variable {α : Type} {b : Backend} {name : String} {view : Catalog → α} {f : α → α}

/-- **The step of this name acts on what is looked at** by a function, while all that it meets is the backend
`b`. -/
structure Acts (b : Backend) (name : String) (view : Catalog → α) (f : α → α) : Prop where
  /-- The step does this each time. -/
  own : ∀ {s ws fs e}, IsStep s → s.name = name → s.program.Does (· = b) ws fs e →
    ∀ c : Catalog, view (c.writeAll ws) = f (view c)
  /-- Other steps leave it alone. -/
  other : ∀ {s ws fs e}, IsStep s → s.name ≠ name → s.program.Does (· = b) ws fs e →
    ∀ c : Catalog, view (c.writeAll ws) = view c
  /-- A second time nothing changes. -/
  again : ∀ v, f (f v) = f v

/-- What is looked at is a part of a category of the step, so that other steps leave it alone. -/
theorem Acts.intro {k : Category} (hk : owner k = name)
    (hview : ∀ c d : Catalog, d.get k = c.get k → view d = view c)
    (hown : ∀ {s ws fs e}, IsStep s → s.name = name → s.program.Does (· = b) ws fs e →
      ∀ c : Catalog, view (c.writeAll ws) = f (view c))
    (hagain : ∀ v, f (f v) = f v) : Acts b name view f where
  own := hown
  other := by
    rintro s ws fs e ⟨threads, -, hs⟩ hname hdoes c
    refine hview c _ (c.get_writeAll_of_not_mem fun x hx hkx => hname ?_)
    rw [← hk, owner_of_does hs hdoes x hx k hkx]
  again := hagain

/-- **What comes of steps one after the other**: all that counts is whether the step is among them. -/
theorem Acts.of_turns (h : Acts b name view f) {turns : List Turn} (hholds : ∀ t ∈ turns, t.Holds (· = b))
    (hsteps : ∀ t ∈ turns, IsStep t.step) (c : Catalog) :
    (name ∈ (Turn.steps turns).map (·.name) → view (c.writeAll (allWrites turns)) = f (view c)) ∧
      (name ∉ (Turn.steps turns).map (·.name) → view (c.writeAll (allWrites turns)) = view c) := by
  -- turn by turn, from the catalog that the turns before have left
  induction turns generalizing c with
  | nil => exact ⟨fun hin => absurd hin List.not_mem_nil, fun _ => rfl⟩
  | cons t turns ih =>
    have hstep := hsteps t List.mem_cons_self
    have hdoes := hholds t List.mem_cons_self
    obtain ⟨hyes, hno⟩ := ih (fun u hu => hholds u (List.mem_cons_of_mem _ hu))
      (fun u hu => hsteps u (List.mem_cons_of_mem _ hu)) (c.writeAll t.writes)
    rw [allWrites, List.flatMap_cons, Catalog.writeAll_append, ← allWrites]
    simp only [Turn.steps, List.map_cons, List.mem_cons] at hyes hno ⊢
    by_cases hname : t.step.name = name
    · refine ⟨fun _ => ?_, fun hnot => absurd (.inl hname.symm) hnot⟩
      -- what this turn has done is done again, or it is left alone
      have hown := h.own hstep hname hdoes c
      by_cases hlater : name ∈ (turns.map (·.step)).map (·.name)
      · rw [hyes hlater, hown, h.again]
      · rw [hno hlater, hown]
    · have hother := h.other hstep hname hdoes c
      constructor
      · intro hin
        rw [hyes (hin.resolve_left (Ne.symm hname)), hother]
      · intro hnot
        rw [hno fun hlater => hnot (.inr hlater), hother]

/-! ### The places -/

/-- A step that reads and then writes has the same writes each time. -/
theorem writes_of_reading (b : Backend) {x : String × Reading (List Write)} (hx : x ∈ readings) :
    ∃ ws₀ : List Write, (∀ w ∈ ws₀, w.replaces = true) ∧
      ∀ {s ws fs e}, IsStep s → s.name = x.1 → s.program.Does (· = b) ws fs e → ws = ws₀ := by
  by_cases hok : ∃ ws, x.2.Comes (· = b) (.ok ws)
  · -- the reading has a result, and there is only one that it can have over one backend
    obtain ⟨ws₀, hws₀⟩ := hok
    refine ⟨ws₀, fun w hw => (writes_of_comes hx hws₀ w hw).1, ?_⟩
    rintro s ws fs e ⟨threads, -, hs⟩ hname hdoes
    rw [program_of_name hx hs hname] at hdoes
    rcases Program.Does.of_ofReading hdoes with ⟨hws, -⟩ | ⟨⟨o, ho, hno⟩, -⟩
    · cases hws.eq_run.trans hws₀.eq_run.symm
      rfl
    · cases ho.eq_run.trans hws₀.eq_run.symm
      cases hno
  · -- the reading has no result, so the step never writes
    refine ⟨[], by simp, ?_⟩
    rintro s ws fs e ⟨threads, -, hs⟩ hname hdoes
    rw [program_of_name hx hs hname] at hdoes
    rcases Program.Does.of_ofReading hdoes with ⟨hws, -⟩ | ⟨-, hnone, -⟩
    · exact absurd ⟨ws, hws⟩ hok
    · exact hnone

/-- A step that reads and then writes makes a category anew, or it breaks off. -/
theorem exists_acts_of_reading (b : Backend) {x : String × Reading (List Write)} (hx : x ∈ readings)
    {k : Category} (hk : owner k = x.1) : ∃ f, Acts b x.1 (fun c => c.get k) f := by
  obtain ⟨ws₀, hreplaces, hws⟩ := writes_of_reading b hx
  by_cases htouched : ∃ w ∈ ws₀, k ∈ w.categories
  · -- the category is touched, so all that it has comes from these writes
    refine ⟨fun _ => (Catalog.empty.writeAll ws₀).get k, .intro hk (fun _ _ h => h) ?_ fun _ => rfl⟩
    intro s ws fs e hs hname hdoes c
    rw [hws hs hname hdoes]
    exact Catalog.get_writeAll_of_replaces c Catalog.empty hreplaces htouched
  · -- it is not touched, so it stays as it is
    refine ⟨id, .intro hk (fun _ _ h => h) ?_ fun _ => rfl⟩
    intro s ws fs e hs hname hdoes c
    rw [hws hs hname hdoes]
    exact c.get_writeAll_of_not_mem fun w hw hkw => htouched ⟨w, hw, hkw⟩

/-- The step `procedures` refreshes the procedures in the same way each time, or it never writes anything. -/
theorem refreshes_or_nothing (hopen : b.opening.isOk = true) :
    (∃ keep found, ∀ {s ws fs e}, IsStep s → s.name = "procedures" → s.program.Does (· = b) ws fs e →
      Refreshes keep found ws) ∨
    ∀ {s ws fs e}, IsStep s → s.name = "procedures" → s.program.Does (· = b) ws fs e → ws = [] := by
  -- each time the procedures are listed in the same way, or not at all
  have hdoes : ∀ {s ws fs e}, IsStep s → s.name = "procedures" → s.program.Does (· = b) ws fs e →
      (∃ ids, b.answers .procedureIdentifiers = .ok ids ∧ Refreshes (setOf ids) (foundFrom b.answers) ws) ∨
        (b.answers .procedureIdentifiers).isOk = false ∧ ws = [] := by
    rintro s ws fs e ⟨threads, -, hs⟩ hname hdoes
    rw [program_of_procedures hs hname] at hdoes
    exact refreshes_of_backend hdoes hopen
  cases hlist : b.answers .procedureIdentifiers with
  | ok ids =>
    refine .inl ⟨setOf ids, foundFrom b.answers, fun hs hname h => ?_⟩
    rcases hdoes hs hname h with ⟨ids', hids', hrefreshes⟩ | ⟨hno, -⟩
    · cases hlist.symm.trans hids'
      exact hrefreshes
    · rw [hlist] at hno
      cases hno
  | _ =>
    refine .inr fun hs hname h => ?_
    rcases hdoes hs hname h with ⟨ids', hids', -⟩ | ⟨-, hnone⟩
    · cases hlist.symm.trans hids'
    · exact hnone

/-- The list of procedures is made anew, or it stays as it is. -/
theorem exists_acts_ids (hopen : b.opening.isOk = true) :
    ∃ f, Acts b "procedures" (fun c => c.ids .procedures) f := by
  have hview : ∀ c d : Catalog, d.get (.ids .procedures) = c.get (.ids .procedures) →
      d.ids .procedures = c.ids .procedures := fun _ _ h => h
  rcases refreshes_or_nothing hopen with ⟨keep, found, hrefreshes⟩ | hnone
  · refine ⟨fun _ => keep, .intro rfl hview (fun hs hname h c => ?_) fun _ => rfl⟩
    exact (hrefreshes hs hname h).prunes.ids_eq c
  · refine ⟨id, .intro rfl hview (fun hs hname h c => ?_) fun _ => rfl⟩
    rw [hnone hs hname h]
    rfl

/-- What is kept for a procedure is made anew, left alone or forgotten, each time in the same way. -/
theorem exists_acts_of_isPlace (hopen : b.opening.isOk = true) {p : String} {view : Catalog → Option α}
    {part : Entry → Option α} (hplace : Catalog.IsPlace p view part) {k : Category}
    (hk : owner k = "procedures") (hview : ∀ c d : Catalog, d.get k = c.get k → view d = view c) :
    ∃ f, Acts b "procedures" view f := by
  rcases refreshes_or_nothing hopen with ⟨keep, found, hrefreshes⟩ | hnone
  · refine ⟨refreshed keep found p part, .intro hk hview (fun hs hname h c => ?_)
      (refreshed_refreshed keep found p part)⟩
    exact (hrefreshes hs hname h).view_eq hplace c
  · refine ⟨id, .intro hk hview (fun hs hname h c => ?_) fun _ => rfl⟩
    rw [hnone hs hname h]
    rfl

/-! ### Pipelines -/

/-- **Turns of the same steps** leave the same catalog, in whatever order and however often they are taken. -/
theorem writeAll_eq_of_turns (hopen : b.opening.isOk = true) {left right : List Turn}
    (hleft : ∀ t ∈ left, t.Holds (· = b)) (hright : ∀ t ∈ right, t.Holds (· = b))
    (hleftSteps : ∀ t ∈ left, IsStep t.step) (hrightSteps : ∀ t ∈ right, IsStep t.step)
    (hsame : ∀ name, name ∈ (Turn.steps left).map (·.name) ↔ name ∈ (Turn.steps right).map (·.name))
    (c : Catalog) : c.writeAll (allWrites left) = c.writeAll (allWrites right) := by
  -- what each name makes of a view does not depend on the turns that take it
  have hview : ∀ {α : Type} {name : String} {view : Catalog → α}, (∃ f, Acts b name view f) →
      view (c.writeAll (allWrites left)) = view (c.writeAll (allWrites right)) := by
    rintro α name view ⟨f, hacts⟩
    obtain ⟨hyes, hno⟩ := hacts.of_turns hleft hleftSteps c
    obtain ⟨hyes', hno'⟩ := hacts.of_turns hright hrightSteps c
    by_cases hin : name ∈ (Turn.steps left).map (·.name)
    · exact (hyes hin).trans (hyes' ((hsame name).1 hin)).symm
    · exact (hno hin).trans (hno' fun h => hin ((hsame name).2 h)).symm
  refine Catalog.ext fun k => ?_
  by_cases hk : owner k = "procedures"
  · -- the categories about procedures are compared place by place
    cases k with
    | ids i =>
      cases i with
      | procedures => exact hview (exists_acts_ids hopen)
      | _ => exact absurd hk (by decide)
    | association a =>
      refine SortedMap.ext fun p => hview (exists_acts_of_isPlace hopen
        (Catalog.isPlace_cell (owner_association.1 hk) p) hk fun c d h => ?_)
      exact congrArg (SortedMap.get? · p) h
    | procedureTimes =>
      refine SortedMap.ext fun p => hview (exists_acts_of_isPlace hopen (Catalog.isPlace_time p) hk
        fun c d h => ?_)
      exact congrArg (SortedMap.get? · p) h
    | _ => exact absurd hk (by decide)
  · obtain ⟨x, hx, hname⟩ := exists_reading hk
    exact hview (exists_acts_of_reading b hx hname)

end Standard

namespace Run

open Standard (IsStep)

variable {b : Backend} {steps left right : List Step} {firstRun first first' : Bool} {r r' : Run}
  {w w' u u' : World} {s : Run × World} {moves moves' : List (Actor × Backend)}

/-- Where no session can be opened, a rebuild is over after its first act. -/
theorem over_of_closed {a : Actor} (hphase : r.phase = .opening ∨ r.result?.isSome = true)
    (hclosed : b.opening.isOk = false) (hstep : r.step b w a = some (r', w')) :
    r'.result?.isSome = true ∧ w'.catalog = w.catalog := by
  cases Happens.of_step hstep with
  | refused hopening ho => exact ⟨rfl, rfl⟩
  | opened hopening ho =>
    rw [ho] at hclosed
    cases hclosed
  -- it is never so far
  | begun hlater | through hlater | went hlater | ended hlater | spread hlater | itemMoved hlater
  | joined hlater | closed hlater | reported hlater => simp [hlater, result?] at hphase

/-- So it leaves the catalog as it was. -/
theorem Moves.catalog_eq_of_closed (h : Moves (Run.start steps firstRun, w) moves s)
    (hmoves : ∀ m ∈ moves, m.2.opening.isOk = false) :
    (s.1.phase = .opening ∨ s.1.result?.isSome = true) ∧ s.2.catalog = w.catalog := by
  induction h with
  | start => exact ⟨.inl rfl, rfl⟩
  | @act log t u m before hstep ih =>
    obtain ⟨hphase, hcatalog⟩ := ih fun m hm => hmoves m (List.mem_append_left _ hm)
    have hclosed := hmoves m (List.mem_append_right _ List.mem_cons_self)
    obtain ⟨hover, hsame⟩ := over_of_closed hphase hclosed hstep
    exact ⟨.inr hover, hsame.trans hcatalog⟩

/-- **Steps are independent.** Two pipelines of standard steps that have the same steps, in any order, with any
repetitions and on any numbers of threads, leave the same catalog, if they find the same one and all that they
meet is one backend. Both make progress until they are over. -/
theorem steps_independent (hleft : ∀ s ∈ left, IsStep s) (hright : ∀ s ∈ right, IsStep s)
    (hsame : ∀ name, name ∈ left.map (·.name) ↔ name ∈ right.map (·.name))
    (hcatalog : w.catalog = u.catalog)
    (h : Moves (Run.start left first, w) moves (r, w')) (hmoves : ∀ m ∈ moves, m.2 = b)
    (h' : Moves (Run.start right first', u) moves' (r', u')) (hmoves' : ∀ m ∈ moves', m.2 = b) :
    Progresses b (Run.start left first) moves.length r w' ∧
      Progresses b (Run.start right first') moves'.length r' u' ∧
      (r.result?.isSome = true → r'.result?.isSome = true → w'.catalog = u'.catalog) := by
  refine ⟨h.progresses (fun s hs => (hleft s hs).plain) hmoves,
    h'.progresses (fun s hs => (hright s hs).plain) hmoves', fun hover hover' => ?_⟩
  by_cases hopen : b.opening.isOk = true
  · -- both have carried out their steps
    rcases h.turns (B := (· = b)) hmoves hover with ⟨-, b', rfl, hclosed⟩ | ⟨turns, hholds, hturns, hc⟩
    · exact absurd (hclosed.symm.trans hopen) (by decide)
    rcases h'.turns (B := (· = b)) hmoves' hover' with ⟨-, b', rfl, hclosed⟩ | ⟨turns', hholds', hturns', hc'⟩
    · exact absurd (hclosed.symm.trans hopen) (by decide)
    rw [hc, hc', ← hcatalog]
    subst hturns hturns'
    exact Standard.writeAll_eq_of_turns hopen hholds hholds'
      (fun t ht => hleft _ (List.mem_map_of_mem ht)) (fun t ht => hright _ (List.mem_map_of_mem ht)) hsame
      w.catalog
  · -- without a session neither of them does anything
    have hclosed : b.opening.isOk = false := by simpa using hopen
    have hsame := (h.catalog_eq_of_closed fun m hm => hmoves m hm ▸ hclosed).2
    have hsame' := (h'.catalog_eq_of_closed fun m hm => hmoves' m hm ▸ hclosed).2
    exact hsame.trans (hcatalog.trans hsame'.symm)

/-- The offerings before the procedures, and once more afterwards. -/
def offeringsTwice : List Step :=
  [⟨"offerings", .ofReading Standard.offerings⟩, ⟨"procedures", Standard.procedures 2⟩,
    ⟨"offerings", .ofReading Standard.offerings⟩]

/-- The offerings after the procedures. -/
def offeringsLast : List Step :=
  [⟨"procedures", Standard.procedures 1⟩, ⟨"offerings", .ofReading Standard.offerings⟩]

/-- In the troubled world these two pipelines leave the same catalog. -/
theorem steps_independent_troubled : ∃ moves r w' moves' r' u',
    Moves (Run.start offeringsTwice true, troubledWorld) moves (r, w') ∧ r.result?.isSome = true ∧
    Moves (Run.start offeringsLast false, troubledWorld) moves' (r', u') ∧ r'.result?.isSome = true ∧
    w'.catalog = u'.catalog := by
  have hofferings : IsStep ⟨"offerings", .ofReading Standard.offerings⟩ :=
    ⟨1, by decide, by simp [Standard.steps]⟩
  have hprocedures : ∀ threads, threads ≠ 0 → IsStep ⟨"procedures", Standard.procedures threads⟩ :=
    fun threads hthreads => ⟨threads, hthreads, by simp [Standard.steps]⟩
  have htwice : ∀ s ∈ offeringsTwice, IsStep s := by
    simp [offeringsTwice, hofferings, hprocedures]
  have hlast : ∀ s ∈ offeringsLast, IsStep s := by
    simp [offeringsLast, hofferings, hprocedures]
  have hsame : ∀ name, name ∈ offeringsTwice.map (·.name) ↔ name ∈ offeringsLast.map (·.name) := by
    simp [offeringsTwice, offeringsLast, or_comm]
  obtain ⟨moves, r, w', h, hmoves, hover⟩ := Moves.exists_finished (b := troubledWorld.archive.backend)
    (fun s hs => (htwice s hs).plain) .start (by simp)
  obtain ⟨moves', r', u', h', hmoves', hover'⟩ := Moves.exists_finished (b := troubledWorld.archive.backend)
    (fun s hs => (hlast s hs).plain) .start (by simp)
  refine ⟨moves, r, w', moves', r', u', h, hover, h', hover', ?_⟩
  -- both are over, so the catalogs they leave can be compared
  exact (steps_independent htwice hlast hsame rfl h hmoves h' hmoves').2.2 hover hover'

end Run

end SensorCatalog
