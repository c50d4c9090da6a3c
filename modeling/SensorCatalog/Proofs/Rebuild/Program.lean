import SensorCatalog.Proofs.Rebuild.FanOut

/-!
# What a step does, from beginning to end

While a step runs, the answers of the archive may change, and its items move in any order. `Program.Does`
says what comes of all this in the end: which writes are made, which faults are reported, and how the step
ends. It is relative to a property `B` of backends, and every backend that the step meets has it. With
`B` true of everything this is what a step can do at all; with `B` true of one backend only it is what the
step does while the archive stays as it is.

* `Reading.Comes` is the same for readings. With one backend it is `Reading.run` (`Reading.comes_iff`).
* `Program.Does.of_reading` takes a program apart that reads first: unless the reading has a result, the
  program does nothing at all.
* `FanOut.Does` is what the deeds of items come to, and `Deed.of_reading` takes the deed of an item apart.
-/

namespace SensorCatalog

variable {α β : Type} {B : Backend → Prop}

/-! ### Readings -/

namespace Reading

/-- **What comes of a reading** whose queries are answered by backends with the property `B`. -/
inductive Comes (B : Backend → Prop) : Reading α → Outcome α → Prop where
  | done {a : α} : Comes B (.done a) (.ok a)
  -- each query may be answered by another backend
  | answered {q : Query} {next : q.Reply → Reading α} {b : Backend} {v : q.Reply} {o : Outcome α}
    (hb : B b) (hq : b.answers q = .ok v) (h : Comes B (next v) o) : Comes B (.ask q next) o
  -- the first query that is not answered is the last one
  | refused {q : Query} {next : q.Reply → Reading α} {b : Backend} {f : ArchiveFault}
    (hb : B b) (hq : b.answers q = .fault f) : Comes B (.ask q next) (.fault f)
  | broken {q : Query} {next : q.Reply → Reading α} {b : Backend} {p : Panic}
    (hb : B b) (hq : b.answers q = .panic p) : Comes B (.ask q next) (.panic p)

/-- As long as the archive stays as it is, there is one thing that can come of a reading. -/
theorem Comes.eq_run {b : Backend} {r : Reading α} {o : Outcome α} (h : r.Comes (· = b) o) :
    o = r.run b.answers := by
  induction h with
  | done => rfl
  | answered hb hq h ih => subst hb; rw [run, hq]; exact ih
  | refused hb hq => subst hb; rw [run, hq]
  | broken hb hq => subst hb; rw [run, hq]

/-- What is read in two parts is read part by part. -/
theorem comes_ok_bind {r : Reading α} {f : α → Reading β} {b : β} :
    (r.bind f).Comes B (.ok b) ↔ ∃ a, r.Comes B (.ok a) ∧ (f a).Comes B (.ok b) := by
  constructor
  · -- over the queries of `r`: until the last one is answered nothing is asked by `f`
    intro h
    induction r with
    | done a => exact ⟨a, .done, h⟩
    | ask q next ih =>
      cases h with
      | answered hb hq h =>
        obtain ⟨a, ha, hf⟩ := ih _ h
        exact ⟨a, .answered hb hq ha, hf⟩
  · rintro ⟨a, ha, hf⟩
    induction r with
    | done a' => cases ha; exact hf
    | ask q next ih =>
      cases ha with
      | answered hb hq ha => exact .answered hb hq (ih _ ha)

/-- A change of the result does not change that there is none. -/
theorem Comes.of_map {r : Reading α} {g : α → β} {o : Outcome β}
    (h : (r.bind fun a => .done (g a)).Comes B o) (ho : o.isOk = false) :
    ∃ o', r.Comes B o' ∧ o'.isOk = false := by
  induction r with
  | done a =>
    cases h
    cases ho
  | ask q next ih =>
    cases h with
    | answered hb hq h =>
      obtain ⟨o', h', ho'⟩ := ih _ h
      exact ⟨o', .answered hb hq h', ho'⟩
    | refused hb hq => exact ⟨_, .refused hb hq, rfl⟩
    | broken hb hq => exact ⟨_, .broken hb hq, rfl⟩

/-- Where nothing is asked the result is at hand. -/
theorem comes_ok_done {a b : α} : (Reading.done a).Comes B (.ok b) ↔ b = a := by
  constructor
  · rintro ⟨⟩
    rfl
  · rintro rfl
    exact .done

end Reading

/-! ### Items -/

namespace Work

/-- Writes cannot fail, so all of them are made. -/
theorem perform_writes (ws : List Write) {bs : List Backend} {o : Outcome Unit}
    (h : ((writes ws).perform bs).2 = some o) : (writes ws).perform bs = (ws, some (.ok ())) := by
  induction ws generalizing bs with
  | nil => rfl
  | cons x ws ih =>
    cases bs with
    -- without a backend the write has not been made, and the work is not over
    | nil => cases h
    | cons b bs => rw [writes, perform] at *; rw [ih h]

/-- Work that reads first: what comes of the reading decides all. -/
theorem perform_ofReading {r : Reading (List Write)} {bs : List Backend} (hbs : ∀ b ∈ bs, B b)
    {o : Outcome Unit} (h : ((ofReading r).perform bs).2 = some o) :
    (∃ ws, r.Comes B (.ok ws) ∧ (ofReading r).perform bs = (ws, some (.ok ()))) ∨
      ∃ oc, r.Comes B oc ∧ oc.isOk = false ∧ o.isOk = false ∧
        (ofReading r).perform bs = ([], some o) := by
  -- each query uses up one backend, so the backends go along with the reading
  induction r generalizing bs with
  | done ws => exact .inl ⟨ws, .done, perform_writes ws h⟩
  | ask q next ih =>
    cases bs with
    -- a query that met nobody has not been asked
    | nil => simp [ofReading, perform] at h
    | cons b bs =>
      have hb : B b := hbs b List.mem_cons_self
      have hbs' : ∀ b ∈ bs, B b := fun b hb => hbs b (List.mem_cons_of_mem _ hb)
      cases hq : b.answers q with
      | ok v =>
        have hstep : (ofReading (.ask q next)).perform (b :: bs) = (ofReading (next v)).perform bs := by
          simp [ofReading, perform, hq]
        rw [hstep] at h ⊢
        rcases ih v hbs' h with ⟨ws, hws, heq⟩ | ⟨oc, hoc, hno, ho, heq⟩
        · exact .inl ⟨ws, .answered hb hq hws, heq⟩
        · exact .inr ⟨oc, .answered hb hq hoc, hno, ho, heq⟩
      | fault f =>
        have hstep : (ofReading (.ask q next)).perform (b :: bs) = ([], some (.fault f)) := by
          simp [ofReading, perform, hq]
        rw [hstep] at h ⊢
        cases h
        exact .inr ⟨_, .refused hb hq, rfl, rfl, rfl⟩
      | panic p =>
        have hstep : (ofReading (.ask q next)).perform (b :: bs) = ([], some (.panic p)) := by
          simp [ofReading, perform, hq]
        rw [hstep] at h ⊢
        cases h
        exact .inr ⟨_, .broken hb hq, rfl, rfl, rfl⟩

end Work

/-- **The deed of an item that reads first.** It has all writes of the result of the reading, or it failed
and has none. It fails because no session could be opened, or because the reading had no result. -/
theorem Deed.of_reading {r : Reading (List Write)} {bs : List Backend} (hbs : ∀ b ∈ bs, B b)
    (h : (Deed.of (Work.ofReading r) bs).outcome.isSome) :
    (∃ ws, r.Comes B (.ok ws) ∧ Deed.of (Work.ofReading r) bs = ⟨ws, some (.ok ())⟩) ∨
      (Deed.of (Work.ofReading r) bs).failed = true ∧ (Deed.of (Work.ofReading r) bs).writes = [] ∧
        ((∃ b, B b ∧ b.opening.isOk = false) ∨ ∃ o, r.Comes B o ∧ o.isOk = false) := by
  cases bs with
  | nil => cases h
  | cons b bs =>
    have hb : B b := hbs b List.mem_cons_self
    -- the first backend opens the session, and the reading meets all others
    cases ho : b.opening with
    | ok u =>
      have hof : Deed.of (Work.ofReading r) (b :: bs) =
          ⟨((Work.ofReading r).perform bs).1, ((Work.ofReading r).perform bs).2⟩ := by
        simp [Deed.of, ho]
      rw [hof] at h ⊢
      obtain ⟨o, ho⟩ := Option.isSome_iff_exists.1 h
      rcases Work.perform_ofReading (fun b hb => hbs b (List.mem_cons_of_mem _ hb)) ho with
        ⟨ws, hws, heq⟩ | ⟨oc, hoc, hno, hfail, heq⟩
      · -- the reading had a result, and the writes are those of it
        exact .inl ⟨ws, hws, by rw [heq]⟩
      · refine .inr ⟨?_, by rw [heq], .inr ⟨oc, hoc, hno⟩⟩
        simp [heq, failed, hfail]
    | fault f =>
      have hof : Deed.of (Work.ofReading r) (b :: bs) = ⟨[], some (.fault f)⟩ := by simp [Deed.of, ho]
      rw [hof]
      exact .inr ⟨rfl, rfl, .inl ⟨b, hb, by rw [ho]; rfl⟩⟩
    | panic p =>
      have hof : Deed.of (Work.ofReading r) (b :: bs) = ⟨[], some (.panic p)⟩ := by simp [Deed.of, ho]
      rw [hof]
      exact .inr ⟨rfl, rfl, .inl ⟨b, hb, by rw [ho]; rfl⟩⟩

/-- **What work side by side comes to**: the writes of all items in some interleaving, and the faults of
those that failed in some order. -/
def FanOut.Does (B : Backend → Prop) (procedures : List String) (work : String → Work) (ws : List Write)
    (fs : List Fault) : Prop :=
  ∃ moves : List (Nat × Backend), (∀ m ∈ moves, B m.2) ∧
    (∀ d ∈ deeds procedures work moves, d.2.outcome.isSome) ∧
    Interleaves ws ((deeds procedures work moves).map (·.2.writes)) ∧
    fs.Perm ((deeds procedures work moves).filterMap fun d => d.2.fault? d.1)

/-! ### Steps -/

/-- How a step ends. -/
inductive Ending where
  /-- It is done. -/
  | done
  /-- It failed. -/
  | fail (f : Fault)
  /-- It broke off. -/
  | panic (p : Panic)

namespace Ending

/-- The fault by which the end of a step is reported, if there is one to report. -/
def fault? (name : String) : Ending → Option Fault
  | .done => none
  | .fail f => some (.step name f)
  | .panic p => some (.stepPanicked name p.message)

/-- Whether the step was carried out. -/
def isDone : Ending → Bool
  | .done => true
  | _ => false

end Ending

namespace Program

/-- **What a program does** when all backends that it meets have the property `B`. -/
inductive Does (B : Backend → Prop) : Program → List Write → List Fault → Ending → Prop where
  | done : Does B .done [] [] .done
  | fail (f : Fault) : Does B (.fail f) [] [] (.fail f)
  | panic (p : Panic) : Does B (.panic p) [] [] (.panic p)
  -- each query may meet another backend
  | query {q : Query} {next : Outcome q.Reply → Program} {b : Backend} {ws : List Write} {fs : List Fault}
    {e : Ending} (hb : B b) (h : Does B (next (b.answers q)) ws fs e) : Does B (.query q next) ws fs e
  | write {x : Write} {next : Program} {ws : List Write} {fs : List Fault} {e : Ending}
    (h : Does B next ws fs e) : Does B (.write x next) (x :: ws) fs e
  | report {f : Fault} {next : Program} {ws : List Write} {fs : List Fault} {e : Ending}
    (h : Does B next ws fs e) : Does B (.report f next) ws (f :: fs) e
  -- all items are through before the program goes on
  | fanOut {threads : Nat} {procedures : List String} {work : String → Work} {next : Program}
    {ws₁ ws : List Write} {fs₁ fs : List Fault} {e : Ending}
    (hitems : FanOut.Does B procedures work ws₁ fs₁) (h : Does B next ws fs e) :
    Does B (.fanOut threads procedures work next) (ws₁ ++ ws) (fs₁ ++ fs) e
  -- what is done to the archive and at the gate is not told here
  | edit {x : Edit} {next : Program} {ws : List Write} {fs : List Fault} {e : Ending}
    (h : Does B next ws fs e) : Does B (.edit x next) ws fs e
  | arrive {next : Program} {ws : List Write} {fs : List Fault} {e : Ending}
    (h : Does B next ws fs e) : Does B (.arrive next) ws fs e
  | pass {next : Program} {ws : List Write} {fs : List Fault} {e : Ending}
    (h : Does B next ws fs e) : Does B (.pass next) ws fs e

/-- A program that writes first has these writes before all others. -/
theorem Does.of_writes {next : Program} {xs ws : List Write} {fs : List Fault} {e : Ending}
    (h : (writes next xs).Does B ws fs e) : ∃ ws', ws = xs ++ ws' ∧ next.Does B ws' fs e := by
  induction xs generalizing ws with
  | nil => exact ⟨ws, rfl, h⟩
  | cons x xs ih =>
    cases h with
    | write h =>
      obtain ⟨ws', rfl, hnext⟩ := ih h
      exact ⟨ws', rfl, hnext⟩

/-- **A program that reads first.** Either the reading has a result and the program goes on with it, or
the program fails and does nothing else. -/
theorem Does.of_reading {next : α → Program} {r : Reading α} {ws : List Write} {fs : List Fault}
    {e : Ending} (h : (reading next r).Does B ws fs e) :
    (∃ a, r.Comes B (.ok a) ∧ (next a).Does B ws fs e) ∨
      (∃ o, r.Comes B o ∧ o.isOk = false) ∧ ws = [] ∧ fs = [] ∧ e.isDone = false := by
  -- over the queries: the first one that is not answered ends the program
  induction r with
  | done a => exact .inl ⟨a, .done, h⟩
  | ask q cont ih =>
    rw [reading] at h
    cases h with
    | query hb h =>
      rename_i b
      cases hq : b.answers q with
      | ok v =>
        rw [hq] at h
        rcases ih v h with ⟨a, ha, hnext⟩ | ⟨⟨o, ho, hno⟩, hrest⟩
        · exact .inl ⟨a, .answered hb hq ha, hnext⟩
        · exact .inr ⟨⟨o, .answered hb hq ho, hno⟩, hrest⟩
      | fault f =>
        rw [hq] at h
        cases h
        exact .inr ⟨⟨_, .refused hb hq, rfl⟩, rfl, rfl, rfl⟩
      | panic p =>
        rw [hq] at h
        cases h
        exact .inr ⟨⟨_, .broken hb hq, rfl⟩, rfl, rfl, rfl⟩

/-- **A program that reads and then writes** makes all its writes, or fails and makes none. -/
theorem Does.of_ofReading {r : Reading (List Write)} {ws : List Write} {fs : List Fault} {e : Ending}
    (h : (ofReading r).Does B ws fs e) :
    (r.Comes B (.ok ws) ∧ fs = [] ∧ e = .done) ∨
      (∃ o, r.Comes B o ∧ o.isOk = false) ∧ ws = [] ∧ fs = [] ∧ e.isDone = false := by
  rcases Does.of_reading h with ⟨xs, hxs, h⟩ | h
  · have h : (writes .done xs).Does B ws fs e := h
    obtain ⟨ws', rfl, hdone⟩ := h.of_writes
    cases hdone
    exact .inl ⟨by rwa [List.append_nil], rfl, rfl⟩
  · exact .inr h

end Program

end SensorCatalog
