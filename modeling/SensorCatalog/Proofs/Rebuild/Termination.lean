import SensorCatalog.Proofs.Rebuild.Determined

/-!
# No rebuild goes on for ever

How many acts a rebuild still needs depends on the answers that it is going to get, and there is no bound on it
as long as these are not known. Nevertheless there is no endless course (`Run.terminates`), whatever steps it has,
whatever its parties meet, and in whatever order they move: a program is a tree, and each act goes down in it.

Items that are side by side move in any order, so they are taken as a multiset in which each act puts one member
further down (`Relation.CutExpand`). From there it goes outwards: an item, a fan-out, a program, a list of steps.
-/

namespace SensorCatalog

/-! ### Items side by side -/

/-- One phase of an item comes right after another one. -/
def ItemPhase.Follows (procedure : String) (work : Work) (later earlier : ItemPhase) : Prop :=
  ∃ b w w' effect, Advance b procedure work w earlier later w' effect

/-- The phases of an item come to an end. -/
theorem ItemPhase.follows_wellFounded (procedure : String) (work : Work) :
    WellFounded (Follows procedure work) := by
  -- from the last phase backwards
  have hgone : Acc (Follows procedure work) .gone := by
    refine ⟨_, ?_⟩
    rintro _ ⟨b, w, w', effect, h⟩
    cases h
  have hleaving : Acc (Follows procedure work) .leaving := by
    refine ⟨_, ?_⟩
    rintro _ ⟨b, w, w', effect, h⟩
    cases h
    exact hgone
  have hreporting : ∀ o, Acc (Follows procedure work) (.reporting o) := by
    refine fun o => ⟨_, ?_⟩
    rintro _ ⟨b, w, w', effect, h⟩
    cases h
    exact hleaving
  have hclosing : ∀ o, Acc (Follows procedure work) (.closing o) := by
    refine fun o => ⟨_, ?_⟩
    rintro _ ⟨b, w, w', effect, h⟩
    cases h
    exact hreporting o
  -- by induction on the tree of what is left of the work
  have hworking : ∀ rest, Acc (Follows procedure work) (.working rest) := by
    intro rest
    induction rest with
    | done | fail f | panic p =>
      refine ⟨_, ?_⟩
      rintro _ ⟨b, w, w', effect, h⟩
      cases h
      exact hclosing _
    | query q next ih =>
      refine ⟨_, ?_⟩
      rintro _ ⟨b, w, w', effect, h⟩
      cases h with
      | asked => exact ih _
      | ended hend => cases hend
    | write x next ih =>
      refine ⟨_, ?_⟩
      rintro _ ⟨b, w, w', effect, h⟩
      cases h with
      | wrote => exact ih
      | ended hend => cases hend
  refine ⟨fun phase => ?_⟩
  cases phase with
  | waiting =>
    refine ⟨_, ?_⟩
    rintro _ ⟨b, w, w', effect, h⟩
    cases h with
    | opened => exact hworking work
    | refused => exact hreporting _
  | working rest => exact hworking rest
  | closing o => exact hclosing o
  | reporting o => exact hreporting o
  | leaving => exact hleaving
  | gone => exact hgone

/-- An item after an act of it. -/
def Item.Follows (work : String → Work) (later earlier : Item) : Prop :=
  later.procedure = earlier.procedure ∧
    ItemPhase.Follows earlier.procedure (work earlier.procedure) later.phase earlier.phase

/-- Items come to an end, as their phases do. -/
theorem Item.follows_wellFounded (work : String → Work) : WellFounded (Follows work) := by
  refine ⟨fun ⟨procedure, phase⟩ => ?_⟩
  -- the procedure stays what it is
  induction phase using (ItemPhase.follows_wellFounded procedure (work procedure)).induction with
  | _ phase ih =>
    refine ⟨_, ?_⟩
    rintro ⟨procedure', phase'⟩ ⟨hname, hphase⟩
    obtain rfl : procedure' = procedure := hname
    exact ih phase' hphase

/-- A fan-out after an act of one of its items. -/
def FanOut.Follows (later earlier : FanOut) : Prop :=
  ∃ b i e w e' w', earlier.step b i e w = some (later, e', w')

/-- Changing one member is cutting it off and putting in another one. -/
theorem cutExpand_set {r : Item → Item → Prop} {l : List Item} {i : Nat} {x y : Item} (hx : l[i]? = some x)
    (h : r y x) : Relation.CutExpand r (l.set i y : Multiset Item) (l : Multiset Item) := by
  obtain ⟨hi, rfl⟩ := List.getElem?_eq_some_iff.1 hx
  refine ⟨{y}, l[i], fun z hz => Multiset.mem_singleton.1 hz ▸ h, ?_⟩
  have hset : (l.set i y : Multiset Item) = y ::ₘ (l.eraseIdx i : Multiset Item) :=
    Multiset.coe_eq_coe.2 (List.set_perm_cons_eraseIdx hi y)
  have hold : (l : Multiset Item) = l[i] ::ₘ (l.eraseIdx i : Multiset Item) :=
    Multiset.coe_eq_coe.2 (List.getElem_cons_eraseIdx_perm hi).symm
  rw [hset, hold, ← Multiset.singleton_add, ← Multiset.singleton_add]
  abel

/-- A fan-out comes to an end, as one of its items moves in each act. -/
theorem FanOut.follows_wellFounded : WellFounded FanOut.Follows := by
  refine ⟨fun f => ?_⟩
  have hitems := (Item.follows_wellFounded f.work).cutExpand.apply (f.items : Multiset Item)
  -- the work stays what it is, and the multiset of the items goes down
  generalize hwork : f.work = work at hitems
  generalize hbag : (f.items : Multiset Item) = bag at hitems
  induction hitems generalizing f with
  | intro bag _ ih =>
    subst hbag
    refine ⟨_, ?_⟩
    rintro _ ⟨b, i, e, w, e', w', h⟩
    obtain ⟨item, phase, effect, hitem, -, hact, rfl, -⟩ := step_cases h
    rw [hwork] at hact
    have hfollows : Item.Follows work { item with phase } item := ⟨rfl, b, w, w', effect, hact⟩
    exact ih _ (cutExpand_set hitem hfollows) _ hwork rfl

/-! ### Programs -/

/-- What is left of a program later. -/
inductive Program.Follows : Program → Program → Prop where
  | advanced {b : Backend} {p rest : Program} {ws : List Write} {fs : List Fault} {w w' : World}
    (h : p.Advance b w rest ws fs w') : Follows rest p
  -- when all items are through
  | joined {threads : Nat} {procedures : List String} {work : String → Work} {next : Program} :
    Follows next (.fanOut threads procedures work next)

/-- A program comes to an end, by induction on its tree. -/
theorem Program.follows_wellFounded : WellFounded Program.Follows := by
  refine ⟨fun p => ?_⟩
  induction p with
  | done | fail f | panic x =>
    refine ⟨_, fun q h => ?_⟩
    cases h with
    | advanced h => cases h
  | query q next ih =>
    refine ⟨_, fun q h => ?_⟩
    cases h with
    | advanced h => cases h; exact ih _
  | write x next ih | report f next ih | edit e next ih | arrive next ih | pass next ih =>
    refine ⟨_, fun q h => ?_⟩
    cases h with
    | advanced h => cases h; exact ih
  -- a fan-out is left by its end only, and then the rest is a smaller program
  | fanOut threads procedures work next ih =>
    refine ⟨_, fun q h => ?_⟩
    cases h with
    | advanced h => cases h
    | joined => exact ih

/-! ### From phase to phase -/

/-- One phase of a rebuild with these steps comes right after another one. -/
inductive RunPhase.Follows (steps : List Step) : RunPhase → RunPhase → Prop where
  | opened : Follows steps (.between steps) .opening
  | refused {result : Except Fault Report} : Follows steps (.finished result) .opening
  | begun {s : Step} {todo : List Step} :
    Follows steps (.executing s.name s.program todo) (.between (s :: todo))
  | through : Follows steps .closing (.between [])
  | went {name : String} {p rest : Program} {todo : List Step} (h : rest.Follows p) :
    Follows steps (.executing name rest todo) (.executing name p todo)
  | ended {name : String} {p : Program} {todo : List Step} :
    Follows steps (.between todo) (.executing name p todo)
  | spread {name : String} {threads : Nat} {procedures : List String} {work : String → Work}
    {f : FanOut} {next : Program} {todo : List Step} :
    Follows steps (.joining name f next todo) (.executing name (.fanOut threads procedures work next) todo)
  | moved {name : String} {f f' : FanOut} {next : Program} {todo : List Step} (h : f'.Follows f) :
    Follows steps (.joining name f' next todo) (.joining name f next todo)
  | joined {name : String} {f : FanOut} {next : Program} {todo : List Step} :
    Follows steps (.executing name next todo) (.joining name f next todo)
  | closed : Follows steps .reporting .closing
  | reported {result : Except Fault Report} : Follows steps (.finished result) .reporting

namespace RunPhase

variable {steps todo : List Step}

/-- While the items move, they come down to nothing, and then the program goes on. -/
theorem acc_joining {name : String} {next : Program} (hnext : Acc (Follows steps) (.executing name next todo))
    (f : FanOut) : Acc (Follows steps) (.joining name f next todo) := by
  induction f using FanOut.follows_wellFounded.induction with
  | _ f ih =>
    refine ⟨_, fun q h => ?_⟩
    cases h with
    | moved h => exact ih _ h
    | joined => exact hnext

/-- A step comes to its end, and then the steps after it are to come. -/
theorem acc_executing (hafter : Acc (Follows steps) (.between todo)) (name : String) (p : Program) :
    Acc (Follows steps) (.executing name p todo) := by
  induction p using Program.follows_wellFounded.induction with
  | _ p ih =>
    refine ⟨_, fun q h => ?_⟩
    cases h with
    | went h => exact ih _ h
    | ended => exact hafter
    | spread => exact acc_joining (ih _ .joined) _

/-- A rebuild comes to an end, by induction on the list of its steps. -/
theorem follows_wellFounded (steps : List Step) : WellFounded (Follows steps) := by
  have hfinished : ∀ result, Acc (Follows steps) (.finished result) :=
    fun result => ⟨_, fun q h => by cases h⟩
  have hreporting : Acc (Follows steps) .reporting :=
    ⟨_, fun q h => by cases h; exact hfinished _⟩
  have hclosing : Acc (Follows steps) .closing :=
    ⟨_, fun q h => by cases h; exact hreporting⟩
  -- by induction on the steps that are to come
  have hbetween : ∀ todo, Acc (Follows steps) (.between todo) := by
    intro todo
    induction todo with
    | nil => exact ⟨_, fun q h => by cases h; exact hclosing⟩
    | cons s todo ih => exact ⟨_, fun q h => by cases h; exact acc_executing ih s.name s.program⟩
  refine ⟨fun phase => ?_⟩
  cases phase with
  | opening =>
    refine ⟨_, fun q h => ?_⟩
    cases h with
    | opened => exact hbetween steps
    | refused => exact hfinished _
  | between todo => exact hbetween todo
  | executing name p todo => exact acc_executing (hbetween todo) name p
  | joining name f next todo => exact acc_joining (acc_executing (hbetween todo) name next) f
  | closing => exact hclosing
  | reporting => exact hreporting
  | finished result => exact hfinished result

end RunPhase

namespace Run

variable {b : Backend} {r r' : Run} {w w' : World} {a : Actor}

/-- Each act of a rebuild leads from one phase to another that can follow on it. -/
theorem follows_of_step (h : r.step b w a = some (r', w')) : r'.phase.Follows r.steps r.phase := by
  cases Happens.of_step h with
  | opened hphase _ => rw [hphase]; exact .opened
  | refused hphase _ => rw [hphase]; exact .refused
  | begun hphase => rw [hphase]; exact .begun
  | through hphase => rw [hphase]; exact .through
  | went hphase hadv => rw [hphase]; exact .went (.advanced hadv)
  | ended hphase _ => rw [hphase]; exact .ended
  | spread hphase => rw [hphase]; exact .spread
  | itemMoved hphase hitem => rw [hphase]; exact .moved ⟨b, _, _, w, _, _, hitem⟩
  | joined hphase _ => rw [hphase]; exact .joined
  | closed hphase => rw [hphase]; exact .closed
  | reported hphase => rw [hphase]; exact .reported

/-- **No rebuild goes on for ever.** -/
theorem terminates : WellFounded fun t s : Run × World => ∃ m, move s m = some t := by
  refine ⟨fun ⟨r, w⟩ => ?_⟩
  -- the steps stay what they are, and the phase goes down
  obtain ⟨steps, hsteps⟩ : ∃ steps, r.steps = steps := ⟨_, rfl⟩
  obtain ⟨phase, hphase⟩ : ∃ phase, r.phase = phase := ⟨_, rfl⟩
  induction phase using (RunPhase.follows_wellFounded steps).induction generalizing r w with
  | _ phase ih =>
    refine ⟨_, ?_⟩
    rintro ⟨r', w'⟩ ⟨m, hm⟩
    have hfollows := follows_of_step hm
    rw [hsteps, hphase] at hfollows
    exact ih _ hfollows r' w' ((kept_of_step hm).1.trans hsteps) rfl

end Run

end SensorCatalog
