import SensorCatalog.Proofs.Rebuild.Progress

/-!
# The catalog after a rebuild

While the archive stays as it is, the catalog that a standard rebuild leaves is determined category by
category, by the archive and by what the catalog held before. Neither the number of threads nor the order
in which anybody moves has a part in it.

* `Standard.Determined` says what the catalog is: a category of a step whose queries are all answered is
  true to the data, one of a step with a query that is not answered is what it was, and what is known of
  a procedure is true or what it was, depending on the six queries about it.
* `Run.determined` says that each course of a rebuild leads there, in a number of acts that is known from
  the beginning, and that somebody can move until it is over.
* `Standard.Determined.shows` is about an archive in which nothing goes wrong: the catalog is true to the
  data in all its categories.

`Run.Moves.progresses` and `Run.Moves.turns` are about any pipeline of steps: it comes to its end, and if a
session could be opened each step has had its turn then.
-/

namespace SensorCatalog

namespace Run

/-- A rebuild with what it works on, moved by someone who meets a backend. -/
def move (s : Run × World) (m : Actor × Backend) : Option (Run × World) := s.1.step m.2 s.2 m.1

/-- **Courses of a rebuild.** The log lists who moved, and what backend he met. -/
abbrev Moves (s : Run × World) (moves : List (Actor × Backend)) (t : Run × World) : Prop :=
  Course move (fun _ m _ => [m]) s moves t

variable {steps : List Step} {firstRun : Bool} {w : World} {s : Run × World}
  {moves : List (Actor × Backend)} {b : Backend}

/-- Every course of a rebuild has its story. -/
theorem Moves.story {B : Backend → Prop} (h : Moves (Run.start steps firstRun, w) moves s)
    (hmoves : ∀ m ∈ moves, B m.2) : Story B steps firstRun w.catalog s.1 s.2.catalog := by
  induction h with
  | start => exact .start steps firstRun w.catalog
  | @act log t u m before hstep ih =>
    have hlog : ∀ m ∈ log, B m.2 := fun m hm => hmoves m (List.mem_append_left _ hm)
    exact (ih hlog).step (hmoves m (List.mem_append_right _ List.mem_cons_self)) hstep

/-- A course of a plain rebuild, while the archive stays as it is. -/
theorem Moves.left_eq (h : Moves (Run.start steps firstRun, w) moves s) (hmoves : ∀ m ∈ moves, m.2 = b)
    (hplain : ∀ s ∈ steps, s.program.Plain) :
    s.1.Plain ∧ s.2.archive = w.archive ∧
      moves.length + s.1.left b = (Run.start steps firstRun).left b := by
  induction h with
  | start => exact ⟨hplain, rfl, by simp⟩
  | @act log t u m before hstep ih =>
    have hlog : ∀ m ∈ log, m.2 = b := fun m hm => hmoves m (List.mem_append_left _ hm)
    -- the archive has not changed, so the same backend is met again
    obtain ⟨hp, harchive, hleft⟩ := ih hlog
    obtain rfl : m.2 = b := hmoves m (List.mem_append_right _ List.mem_cons_self)
    have hstory := Moves.story (B := (· = m.2)) before hlog
    obtain ⟨hp', harchive', -⟩ := hp.step hstep
    have hone := left_of_step hstory hstep
    refine ⟨hp', harchive'.trans harchive, ?_⟩
    rw [List.length_append, List.length_singleton]
    omega

end Run

namespace Standard

open Reading (query)

/-! ### From turns to categories -/

/-- No two steps have the same name. -/
theorem names_nodup (threads : Nat) : ((steps threads).map (·.name)).Nodup := by
  change List.Nodup ["offerings", "procedures", _, _, _, _, _, _, _, _, _]
  decide

/-- The owner of a category is one of the steps. -/
theorem owner_mem_names (threads : Nat) (k : Category) : owner k ∈ (steps threads).map (·.name) := by
  have hall : ∀ k ∈ Category.all, owner k ∈ (steps 0).map (·.name) := by decide
  exact hall k (Category.mem_all k)

/-- All categories but those about procedures are read and then written. -/
theorem exists_reading {k : Category} (hk : owner k ≠ "procedures") : ∃ x ∈ readings, owner k = x.1 := by
  obtain ⟨s, hs, hname⟩ := List.mem_map.1 (owner_mem_names 1 k)
  rcases mem_steps.1 hs with rfl | ⟨x, hx, rfl⟩
  · exact absurd hname.symm hk
  · exact ⟨x, hx, hname.symm⟩

/-- **A category has what its owner makes of it.** All other turns leave it alone. -/
theorem get_of_turns {B : Backend → Prop} {threads : Nat} {turns : List Turn}
    (hholds : ∀ t ∈ turns, t.Holds B) (hsteps : Turn.steps turns = steps threads) (c : Catalog)
    (k : Category) :
    ∃ t ∈ turns, t.step ∈ steps threads ∧ t.step.name = owner k ∧ ∃ c₁ : Catalog, c₁.get k = c.get k ∧
      (c.writeAll (Turn.allWrites turns)).get k = (c₁.writeAll t.writes).get k := by
  have hmem : ∀ t ∈ turns, t.step ∈ steps threads := fun t ht => hsteps ▸ List.mem_map_of_mem ht
  have hnodup := names_nodup threads
  have hk := owner_mem_names threads k
  rw [← hsteps, Turn.steps, List.map_map] at hnodup hk
  -- the turn of the owner, and what comes before and after it
  obtain ⟨t, ht, hname⟩ := List.mem_map.1 hk
  obtain ⟨before, after, rfl⟩ := List.append_of_mem ht
  -- the names of the other turns are other names
  have hleaves : ∀ u ∈ before ++ after, ∀ x ∈ u.writes, k ∉ x.categories := by
    intro u hu x hx hkx
    have hu' : u ∈ before ++ t :: after := by
      rcases List.mem_append.1 hu with hu | hu
      · exact List.mem_append_left _ hu
      · exact List.mem_append_right _ (List.mem_cons_of_mem _ hu)
    have hown : owner k = u.step.name := owner_of_does (hmem u hu') (hholds u hu') x hx k hkx
    rw [List.map_append, List.map_cons, List.nodup_middle, List.nodup_cons] at hnodup
    refine hnodup.1 ?_
    rw [hname, hown, ← List.map_append]
    exact List.mem_map_of_mem (f := (fun s : Step => s.name) ∘ fun t : Turn => t.step) hu
  refine ⟨t, ht, hmem t ht, hname, c.writeAll (Turn.allWrites before), ?_, ?_⟩
  -- the turns before do not write into the category
  · refine c.get_writeAll_of_not_mem fun x hx => ?_
    obtain ⟨u, hu, hx⟩ := List.mem_flatMap.1 hx
    exact hleaves u (List.mem_append_left _ hu) x hx
  -- neither do the turns after it
  · have hsplit : Turn.allWrites (before ++ t :: after) =
        Turn.allWrites before ++ t.writes ++ Turn.allWrites after := by
      simp [Turn.allWrites]
    rw [hsplit, Catalog.writeAll_append, Catalog.writeAll_append]
    refine Catalog.get_writeAll_of_not_mem _ fun x hx => ?_
    obtain ⟨u, hu, hx⟩ := List.mem_flatMap.1 hx
    exact hleaves u (List.mem_append_right _ hu) x hx

/-- The step of a name that is among the readings. -/
theorem program_of_name {threads : Nat} {x : String × Reading (List Write)} (hx : x ∈ readings) {s : Step}
    (hs : s ∈ steps threads) (hname : s.name = x.1) : s.program = .ofReading x.2 := by
  have hin : (⟨x.1, .ofReading x.2⟩ : Step) ∈ steps threads := mem_steps.2 (.inr ⟨x, hx, rfl⟩)
  have := List.inj_on_of_nodup_map (names_nodup threads) hs hin hname
  rw [this]

/-- The step of this name is the one that works through the procedures. -/
theorem program_of_procedures {threads : Nat} {s : Step} (hs : s ∈ steps threads)
    (hname : s.name = "procedures") : s.program = procedures threads := by
  have hin : (⟨"procedures", procedures threads⟩ : Step) ∈ steps threads := mem_steps.2 (.inl rfl)
  have := List.inj_on_of_nodup_map (names_nodup threads) hs hin hname
  rw [this]

/-! ### The catalog that a rebuild leaves -/

/-- What can be found of a procedure. -/
def found (a : Archive) (p : String) : Option Entry :=
  match (procedureEntry p).run a.answers with
  | .ok e => some e
  | _ => none

/-- **The catalog that a rebuild leaves**, from the archive `a` and the catalog `c` that it found. -/
structure Determined (a : Archive) (c c' : Catalog) : Prop where
  /-- A step whose queries are all answered makes its categories true to the data. -/
  answered : ∀ x ∈ readings, (∀ q ∈ x.2.asked a.answers, (a.answers q).isOk = true) →
    ∀ k, owner k = x.1 → a.content.Shows k (c'.get k)
  /-- A step with a query that is not answered leaves its categories as they were. -/
  unanswered : ∀ x ∈ readings, (∃ q ∈ x.2.asked a.answers, (a.answers q).isOk = false) →
    ∀ k, owner k = x.1 → c'.get k = c.get k
  /-- The procedures are the sensors. -/
  procedures : (a.answers .procedureIdentifiers).isOk = true →
    ∀ p, p ∈ c'.ids .procedures ↔ a.content.Has .procedures p
  /-- Nothing is known of others. -/
  gone : (a.answers .procedureIdentifiers).isOk = true → ∀ p, ¬ a.content.Has .procedures p →
    (∀ b ∈ Association.ofProcedures, (c'.associations b).get? p = none) ∧ c'.procedureTimes.get? p = none
  /-- What is known of a sensor whose six queries are answered is true to the data. -/
  entered : (a.answers .procedureIdentifiers).isOk = true → ∀ p, a.content.Has .procedures p →
    (∀ q ∈ queriesAbout p, (a.answers q).isOk = true) →
      (∀ b ∈ Association.ofProcedures, Found ((c'.associations b).get? p) (a.content.Relates b p)) ∧
        c'.procedureTimes.get? p = Period.union (a.content.times fun b => b.procedure == p)
  /-- What is known of a sensor with a query that is not answered is what was known. -/
  kept : (a.answers .procedureIdentifiers).isOk = true → ∀ p, a.content.Has .procedures p →
    (∃ q ∈ queriesAbout p, (a.answers q).isOk = false) →
      (∀ b ∈ Association.ofProcedures, (c'.associations b).get? p = (c.associations b).get? p) ∧
        c'.procedureTimes.get? p = c.procedureTimes.get? p
  /-- If the procedures cannot be listed, nothing about them changes. -/
  unlisted : (a.answers .procedureIdentifiers).isOk = false →
    ∀ k, owner k = "procedures" → c'.get k = c.get k

variable {a : Archive}

/-- What comes of a reading while the archive stays as it is. -/
theorem eq_run_of_comes {α : Type} {r : Reading α} {o : Outcome α} (h : r.Comes (· = a.backend) o) :
    o = r.run a.answers :=
  h.eq_run

/-- The entry of a procedure is found if all is answered, and only then. -/
theorem found_eq_some {p : String} {e : Entry} :
    found a p = some e ↔ (procedureEntry p).run a.answers = .ok e :=
  foundFrom_eq_some

/-- What the step `procedures` writes, if it can list them. -/
theorem refreshes_of_does {threads : Nat} {ws : List Write} {fs : List Fault} {e : Ending}
    (hopen : a.plan.refusesSessions = false) (hlist : (a.answers .procedureIdentifiers).isOk = true)
    (h : (Standard.procedures threads).Does (· = a.backend) ws fs e) :
    Refreshes (setOf a.content.sensors.keys.toList) (found a) ws := by
  have hok : a.backend.opening.isOk = true := by simp [Archive.backend, hopen, Outcome.isOk]
  rcases refreshes_of_backend h hok with ⟨ids, hids, hrefreshes⟩ | ⟨hno, -⟩
  · -- the procedures that are listed are the sensors
    cases Archive.reply_of_answers hids
    exact hrefreshes
  · exact absurd (hlist.symm.trans hno) (by decide)

/-! ### One turn after the other -/

section Turns

variable {threads : Nat} {turns : List Turn} (hholds : ∀ t ∈ turns, t.Holds (· = a.backend))
  (hsteps : Turn.steps turns = steps threads) (c : Catalog)

include hholds hsteps

/-- What the turn of a step that reads and then writes makes of a category. -/
theorem get_of_reading {x : String × Reading (List Write)} (hx : x ∈ readings) {k : Category}
    (hk : owner k = x.1) :
    ∃ (c₁ : Catalog) (ws : List Write), c₁.get k = c.get k ∧
      (c.writeAll (Turn.allWrites turns)).get k = (c₁.writeAll ws).get k ∧
      (x.2.run a.answers = .ok ws ∨ (x.2.run a.answers).isOk = false ∧ ws = []) := by
  obtain ⟨t, ht, hmem, hname, c₁, hc₁, hget⟩ := get_of_turns hholds hsteps c k
  have hdoes := hholds t ht
  rw [Turn.Holds, program_of_name hx hmem (hname.trans hk)] at hdoes
  refine ⟨c₁, t.writes, hc₁, hget, ?_⟩
  rcases Program.Does.of_ofReading hdoes with ⟨hws, -⟩ | ⟨⟨o, ho, hno⟩, hws, -⟩
  · exact .inl hws.eq_run.symm
  · exact .inr ⟨ho.eq_run ▸ hno, hws⟩

/-- What the turn of the step `procedures` makes of a category. -/
theorem get_of_procedures {k : Category} (hk : owner k = "procedures") :
    ∃ (c₁ : Catalog) (ws : List Write), c₁.get k = c.get k ∧
      (c.writeAll (Turn.allWrites turns)).get k = (c₁.writeAll ws).get k ∧
      ∃ fs e, (Standard.procedures threads).Does (· = a.backend) ws fs e := by
  obtain ⟨t, ht, hmem, hname, c₁, hc₁, hget⟩ := get_of_turns hholds hsteps c k
  have hdoes := hholds t ht
  rw [Turn.Holds, program_of_procedures hmem (hname.trans hk)] at hdoes
  exact ⟨c₁, t.writes, hc₁, hget, _, _, hdoes⟩

/-- What the six categories about procedures have for one of them. -/
theorem places_of_turns (hopen : a.plan.refusesSessions = false)
    (hlist : (a.answers .procedureIdentifiers).isOk = true) (p : String) :
    (∀ b ∈ Association.ofProcedures,
      (c.writeAll (Turn.allWrites turns)).cell b p =
        if p ∈ setOf a.content.sensors.keys.toList then
          match found a p with
          | some e => entryOf (e.part b)
          | none => c.cell b p
        else none) ∧
    (c.writeAll (Turn.allWrites turns)).time p =
      if p ∈ setOf a.content.sensors.keys.toList then
        match found a p with
        | some e => e.time
        | none => c.time p
      else none := by
  constructor
  · -- each of the five associations is a view of its own at the procedure
    intro b hb
    obtain ⟨c₁, ws, hc₁, hget, fs, e, hdoes⟩ :=
      get_of_procedures hholds hsteps c (owner_association.2 hb)
    have hview := (refreshes_of_does hopen hlist hdoes).view_eq (Catalog.isPlace_cell hb p) c₁
    simp only [Catalog.get, Catalog.cell] at hc₁ hget hview ⊢
    rw [hget, ← hc₁]
    exact hview
  · obtain ⟨c₁, ws, hc₁, hget, fs, e, hdoes⟩ :=
      get_of_procedures hholds hsteps c (k := .procedureTimes) rfl
    have hview := (refreshes_of_does hopen hlist hdoes).view_eq (Catalog.isPlace_time p) c₁
    simp only [Catalog.get, Catalog.time] at hc₁ hget hview ⊢
    rw [hget, ← hc₁]
    exact hview

/-- **What turns over one archive leave.** -/
theorem determined_of_turns (hopen : a.plan.refusesSessions = false) :
    Determined a c (c.writeAll (Turn.allWrites turns)) := by
  have hsensor : ∀ p, p ∈ setOf a.content.sensors.keys.toList ↔ a.content.Has .procedures p :=
    fun p => SortedSet.mem_ofList.trans Content.mem_keys_toList
  constructor
  case answered =>
    intro x hx hok k hk
    -- a reading with an answer to each of its queries has the result of its own replies
    obtain ⟨c₁, ws, -, hget, hrun | ⟨hno, -⟩⟩ := get_of_reading hholds hsteps c hx hk
    · -- what was read is what the data say, and its writes tell it
      obtain ⟨ws', hrun', hshows⟩ := tells_of_mem a.content hx
      have := Reading.run_mono (fun q v => Archive.reply_of_answers) hrun
      rw [hrun'] at this
      cases this
      rw [hget]
      exact hshows k hk c₁
    · rw [Reading.isOk_run_iff.2 hok] at hno
      cases hno
  case unanswered =>
    rintro x hx ⟨q, hq, hno⟩ k hk
    obtain ⟨c₁, ws, hc₁, hget, hrun | ⟨-, rfl⟩⟩ := get_of_reading hholds hsteps c hx hk
    · -- a reading with a result has asked nothing in vain
      have hok := Reading.isOk_run_iff.1 (show (x.2.run a.answers).isOk = true by rw [hrun]; rfl) q hq
      rw [hno] at hok
      cases hok
    · exact hget.trans hc₁
  case procedures =>
    intro hlist p
    -- the list of procedures is written at the beginning, and no worker touches it
    obtain ⟨c₁, ws, -, hget, fs, e, hdoes⟩ := get_of_procedures hholds hsteps c (k := .ids .procedures) rfl
    simp only [Catalog.get] at hget
    rw [hget, (refreshes_of_does hopen hlist hdoes).prunes.ids_eq c₁]
    exact hsensor p
  case gone =>
    intro hlist p hp
    have hnot : p ∉ setOf a.content.sensors.keys.toList := fun h => hp ((hsensor p).1 h)
    obtain ⟨hcell, htime⟩ := places_of_turns hholds hsteps c hopen hlist p
    exact ⟨fun b hb => (hcell b hb).trans (if_neg hnot), htime.trans (if_neg hnot)⟩
  case entered =>
    intro hlist p hp hok
    obtain ⟨s, hs⟩ := hp
    obtain ⟨e, he, hrelates, htells⟩ := tells_procedureEntry a.content hs
    obtain ⟨e', he'⟩ := Outcome.isOk_iff.1 (isOk_run_procedureEntry.2 hok)
    -- what the item reads is what the data say
    have := Reading.run_mono (fun q v => Archive.reply_of_answers) he'
    rw [he] at this
    cases this
    have hin := (hsensor p).2 ⟨s, hs⟩
    have hfound := found_eq_some.2 he'
    obtain ⟨hcell, htime⟩ := places_of_turns hholds hsteps c hopen hlist p
    simp only [if_pos hin, hfound] at hcell htime
    exact ⟨fun b hb => (congrArg (Found · _) (hcell b hb)).mpr (hrelates b hb), htime.trans htells⟩
  case kept =>
    rintro hlist p hp ⟨q, hq, hno⟩
    have hin := (hsensor p).2 hp
    have hfound : found a p = none := by
      cases hf : found a p with
      | none => rfl
      | some e =>
        have hrun := found_eq_some.1 hf
        have hok := isOk_run_procedureEntry.1
          (show ((procedureEntry p).run a.answers).isOk = true by rw [hrun]; rfl) q hq
        rw [hno] at hok
        cases hok
    obtain ⟨hcell, htime⟩ := places_of_turns hholds hsteps c hopen hlist p
    simp only [if_pos hin, hfound] at hcell htime
    exact ⟨hcell, htime⟩
  case unlisted =>
    intro hno k hk
    -- without the list of procedures the step has written nothing
    obtain ⟨c₁, ws, hc₁, hget, fs, e, hdoes⟩ := get_of_procedures hholds hsteps c hk
    rcases of_procedures hdoes with ⟨ids, ws₁, hids, -⟩ | ⟨-, rfl, -⟩
    · have hok : ((query .procedureIdentifiers).run a.answers).isOk = true := by
        rw [← eq_run_of_comes hids]
        rfl
      have := Reading.isOk_run_iff.1 hok .procedureIdentifiers (by simp [query, Reading.asked])
      rw [hno] at this
      cases this
    · exact hget.trans hc₁

end Turns

/-- **Nothing goes wrong.** Where all answers are what the data say, a rebuild makes the catalog true to them
in all categories. -/
theorem Determined.shows {c c' : Catalog} (h : Determined a c c')
    (hsound : ∀ q, a.answers q = a.content.reply q) (k : Category) : a.content.Shows k (c'.get k) := by
  have hanswers : a.answers = a.content.reply := funext hsound
  have hlist : (a.answers .procedureIdentifiers).isOk = true := by rw [hanswers]; rfl
  -- all six queries about a sensor are answered
  have habout : ∀ p, a.content.Has .procedures p → ∀ q ∈ queriesAbout p, (a.answers q).isOk = true := by
    rintro p ⟨s, hs⟩
    obtain ⟨e, he, -⟩ := tells_procedureEntry a.content hs
    refine isOk_run_procedureEntry.1 ?_
    rw [hanswers, he]
    rfl
  -- and so are those of the other steps
  have hreading : ∀ x ∈ readings, owner k = x.1 → a.content.Shows k (c'.get k) := by
    intro x hx hk
    obtain ⟨ws, hrun, -⟩ := tells_of_mem a.content hx
    refine h.answered x hx (Reading.isOk_run_iff.1 ?_) k hk
    rw [hanswers, hrun]
    rfl
  have hassociation : ∀ b ∈ Association.ofProcedures,
      a.content.Shows (.association b) (c'.associations b) := by
    -- a sensor has what its entry tells, and whoever is none has nothing
    intro b hb p
    by_cases hp : a.content.Has .procedures p
    · exact (h.entered hlist p hp (habout p hp)).1 b hb
    · rw [(h.gone hlist p hp).1 b hb]
      refine found_none fun x hx => hp ?_
      simp only [Association.ofProcedures, List.mem_cons, List.not_mem_nil, or_false] at hb
      rcases hb with rfl | rfl | rfl | rfl | rfl
      · exact ⟨_, hx.choose_spec.1⟩
      · exact ⟨_, hx.choose_spec.1⟩
      · exact ⟨_, hx.choose_spec.1⟩
      · exact hx.1
      · exact hx.1
  -- the categories about procedures are told bit by bit, all others at once
  by_cases hk : owner k = "procedures"
  · cases k with
    | ids i =>
      cases i with
      | procedures => exact h.procedures hlist
      | _ => exact absurd hk (by decide)
    | association b => exact hassociation b (owner_association.1 hk)
    | procedureTimes =>
      intro p
      refine ⟨fun hp => (h.entered hlist p hp (habout p hp)).2, fun hp => (h.gone hlist p hp).2⟩
    | _ => exact absurd hk (by decide)
  · obtain ⟨x, hx, hname⟩ := exists_reading hk
    exact hreading x hx hname

end Standard

namespace Run

open Standard (Determined)

variable {steps : List Step} {firstRun : Bool} {w w' : World} {r : Run} {moves : List (Actor × Backend)}

/-- **A rebuild comes to its end** from wherever it is. -/
theorem Moves.exists_finished {b : Backend} (hplain : ∀ s ∈ steps, s.program.Plain)
    (h : Moves (Run.start steps firstRun, w) moves (r, w')) (hmoves : ∀ m ∈ moves, m.2 = b) :
    ∃ more r' w'', Moves (Run.start steps firstRun, w) more (r', w'') ∧ (∀ m ∈ more, m.2 = b) ∧
      r'.result?.isSome = true := by
  -- by induction on the number of acts that are left
  induction hn : r.left b generalizing moves r w' with
  | zero => exact ⟨moves, r, w', h, hmoves, left_eq_zero_iff.1 hn⟩
  | succ n ih =>
    have hstory := h.story (B := (· = b)) hmoves
    have hunfinished : r.result? = none := by
      cases hr : r.result? with
      | none => rfl
      | some result =>
        have := left_eq_zero_iff (b := b).2 (by rw [hr]; rfl)
        omega
    obtain ⟨a, ha⟩ := exists_step (b := b) hstory (h.left_eq hmoves hplain).1 hunfinished
    obtain ⟨⟨r', w''⟩, hstep⟩ := Option.isSome_iff_exists.1 ha
    -- whoever moves, one act less is left
    have hleft : r.left b = r'.left b + 1 := left_of_step hstory hstep
    have hnext := h.act (a := (a, b)) hstep
    have hleft' : r'.left b = n := by omega
    refine ih hnext ?_ hleft'
    intro m hm
    rcases List.mem_append.1 hm with hm | hm
    · exact hmoves m hm
    · rw [List.mem_singleton.1 hm]

/-- **A rebuild makes progress** while all that it meets is one backend. -/
structure Progresses (b : Backend) (r₀ : Run) (acts : Nat) (r : Run) (w : World) : Prop where
  /-- The number of its acts is known from the beginning. -/
  left_eq : acts + r.left b = r₀.left b
  /-- Until it is over, somebody can move. -/
  exists_act : r.result? = none → ∃ a, (r.step b w a).isSome

/-- A plain rebuild over one backend makes progress. -/
theorem Moves.progresses {b : Backend} (hplain : ∀ s ∈ steps, s.program.Plain)
    (h : Moves (Run.start steps firstRun, w) moves (r, w')) (hmoves : ∀ m ∈ moves, m.2 = b) :
    Progresses b (Run.start steps firstRun) moves.length r w' := by
  obtain ⟨hp, -, hleft⟩ := h.left_eq hmoves hplain
  exact ⟨hleft, exists_step (h.story (B := (· = b)) hmoves) hp⟩

/-- A rebuild that is over could not open a session, or each step has had its turn. -/
theorem Moves.turns {B : Backend → Prop} (h : Moves (Run.start steps firstRun, w) moves (r, w'))
    (hmoves : ∀ m ∈ moves, B m.2) (hover : r.result?.isSome = true) :
    (w'.catalog = w.catalog ∧ ∃ b, B b ∧ b.opening.isOk = false) ∨
      ∃ turns, (∀ t ∈ turns, t.Holds B) ∧ Turn.steps turns = steps ∧
        w'.catalog = w.catalog.writeAll (Turn.allWrites turns) := by
  obtain ⟨result, hresult⟩ := Option.isSome_iff_exists.1 hover
  rcases (h.story hmoves).finished hresult with ⟨hsame, b, hb, hrefused⟩ | ⟨turns, hholds, hturns, hc, -⟩
  · refine .inl ⟨hsame, b, hb, ?_⟩
    cases ho : b.opening with
    | ok u => rw [ho] at hrefused; cases hrefused
    | _ => rfl
  · exact .inr ⟨turns, hholds, hturns, hc⟩

/-- While the archive stays as it is, what a standard rebuild leaves is determined. -/
theorem Moves.catalog_determined {threads : Nat} (h : Moves (Run.start steps firstRun, w) moves (r, w'))
    (hsteps : Standard.steps? threads = .ok steps) (hopen : w.archive.plan.refusesSessions = false)
    (hfixed : ∀ m ∈ moves, m.2 = w.archive.backend) (hover : r.result?.isSome = true) :
    Determined w.archive w.catalog w'.catalog := by
  obtain ⟨-, rfl⟩ := Standard.steps?_eq_ok.1 hsteps
  rcases h.turns (B := (· = w.archive.backend)) hfixed hover with
    ⟨-, b, rfl, hclosed⟩ | ⟨turns, hholds, hturns, hc⟩
  · -- the session could be opened
    simp [Archive.backend, hopen, Outcome.isOk] at hclosed
  · rw [hc]
    exact Standard.determined_of_turns hholds hturns w.catalog hopen

/-- If nothing goes wrong either, it is true to the data. -/
theorem Moves.catalog_shows {threads : Nat} (h : Moves (Run.start steps firstRun, w) moves (r, w'))
    (hsteps : Standard.steps? threads = .ok steps) (hharmless : w.archive.plan.IsHarmless)
    (hfixed : ∀ m ∈ moves, m.2 = w.archive.backend) (hover : r.result?.isSome = true) (k : Category) :
    w.archive.content.Shows k (w'.catalog.get k) :=
  (h.catalog_determined hsteps hharmless.opens hfixed hover).shows
    (congrFun (Archive.answers_of_harmless hharmless)) k

/-- **A standard rebuild is determined.** While the archive stays as it is and sessions can be opened, on
any number of threads, from any catalog and in any order of acts: the number of acts is known from the
beginning, until the rebuild is over somebody can move, and when it is over the catalog is determined
category by category. -/
theorem determined {threads : Nat} (hsteps : Standard.steps? threads = .ok steps)
    (hopen : w.archive.plan.refusesSessions = false)
    (h : Moves (Run.start steps firstRun, w) moves (r, w'))
    (hfixed : ∀ m ∈ moves, m.2 = w.archive.backend) :
    moves.length + r.left w.archive.backend = (Run.start steps firstRun).left w.archive.backend ∧
    (r.result? = none → ∃ a, (r.step w.archive.backend w' a).isSome) ∧
    (r.result?.isSome = true → w'.archive = w.archive ∧ Determined w.archive w.catalog w'.catalog) := by
  -- a pool needs a thread, or there are no steps
  rw [Standard.steps?] at hsteps
  split at hsteps
  · cases hsteps
  rename_i hthreads
  cases hsteps
  have hplain : ∀ s ∈ Standard.steps threads, s.program.Plain :=
    fun s hs => Standard.plain_of_mem hthreads hs
  have hstory := h.story (B := (· = w.archive.backend)) hfixed
  obtain ⟨hp, harchive, hleft⟩ := h.left_eq hfixed hplain
  refine ⟨hleft, exists_step hstory hp, fun hover => ⟨harchive, ?_⟩⟩
  obtain ⟨result, hresult⟩ := Option.isSome_iff_exists.1 hover
  rcases hstory.finished hresult with ⟨-, b, rfl, hrefused⟩ | ⟨turns, hholds, hturns, hc, -⟩
  · -- the session could be opened
    simp [Archive.backend, hopen, refusal] at hrefused
  · rw [hc]
    exact Standard.determined_of_turns hholds hturns w.catalog hopen

/-- An archive with two sensors in one offering. What is asked about the second one breaks off, and the
box around all features is not told. -/
def troubledArchive : Archive :=
  let sensor (parents : List String) : Sensor :=
    ⟨.ofList ["yard"], .ofList ["rain"], .ofList parents, "plain"⟩
  ⟨{ Content.empty with
      sensors := .ofList [("gauge", sensor []), ("pump", sensor ["gauge"])]
      featureTypes := .ofList ["point"] },
    { FaultPlan.none with
      failingQueries := .ofList ["global_envelope"]
      panickingProcedures := .ofList ["pump"] }⟩

/-- The archive together with a catalog that has an old entry of the second sensor. -/
def troubledWorld : World :=
  { World.initial with
    archive := troubledArchive
    catalog := Catalog.empty.write (.setKey .offeringsForProcedure "pump" (.ofList ["old"])) }

/-- A rebuild on two threads. The second sensor is listed and keeps its old entry, and the features are not
touched. -/
theorem determined_troubled : ∃ moves r w',
    Moves (Run.start (Standard.steps 2) true, troubledWorld) moves (r, w') ∧ r.result?.isSome = true ∧
      "pump" ∈ w'.catalog.ids .procedures ∧
      (w'.catalog.associations .offeringsForProcedure).get? "pump" = some (.ofList ["old"]) ∧
      w'.catalog.ids .features = SortedSet.empty := by
  obtain ⟨moves, r, w', hmoves, hfixed, hover⟩ :=
    Moves.exists_finished (r := Run.start (Standard.steps 2) true) (w := troubledWorld)
      (b := troubledWorld.archive.backend) (fun s hs => Standard.plain_of_mem (by decide) hs) .start
      (by simp)
  have hsteps : Standard.steps? 2 = .ok (Standard.steps 2) := rfl
  have hdet := ((determined hsteps rfl hmoves hfixed).2.2 hover).2
  have hpump : troubledWorld.archive.content.Has .procedures "pump" := ⟨_, rfl⟩
  -- one of the six queries about the second sensor is not answered
  have hkept := hdet.kept (by decide) "pump" hpump ⟨.offeringsForProcedure "pump", by decide, by decide⟩
  have hfeatures := hdet.unanswered ("features_of_interest", Standard.features) (by simp [Standard.readings])
    ⟨.globalEnvelope, by decide, by decide⟩ (.ids .features) rfl
  exact ⟨moves, r, w', hmoves, hover, (hdet.procedures (by decide) "pump").2 hpump,
    hkept.1 .offeringsForProcedure (by decide), hfeatures⟩

end Run

end SensorCatalog
