import SensorCatalog.Proofs.Rebuild.Determined

/-!
# Both sides of an association

The catalog tells most associations twice, once from each side: the procedures of an offering and the
offerings of a procedure, say. The two sides are gathered by different steps with different queries, some of
them by items of work that is done side by side, and nothing in the steps relates one to the other.

They agree because both are true to the same data. `Catalog.Agrees` says what agrees, and
`Catalog.agrees_of_shows` is about catalogs that are true to some data, however they came about. A rebuild
over data that do not change, with nothing that goes wrong, leaves such a catalog (`Run.sides_agree`).
-/

namespace SensorCatalog

namespace Catalog

/-- **Two sides of an association**: what one of them relates, the other relates in reverse. -/
def Mirrors (c : Catalog) (a b : Association) : Prop := ∀ x y, y ∈ c.related a x ↔ x ∈ c.related b y

/-- **Associations that agree** with each other and with what is listed. -/
structure Agrees (c : Catalog) : Prop where
  /-- The procedures of offerings are the offerings of procedures. -/
  offerings : c.Mirrors .proceduresForOffering .offeringsForProcedure
  /-- The procedures of properties are the properties of procedures. -/
  properties : c.Mirrors .proceduresForProperty .propertiesForProcedure
  /-- The properties of offerings are the offerings of properties. -/
  offerings_properties : c.Mirrors .propertiesForOffering .offeringsForProperty
  /-- Of listed procedures, the children are the parents read from the other side. -/
  hierarchy : ∀ p ∈ c.ids .procedures, ∀ q ∈ c.ids .procedures,
    (q ∈ c.related .childProcedures p ↔ p ∈ c.related .parentProcedures q)
  /-- The offerings that are listed are those that have procedures. -/
  listed : c.ids .offerings = (c.associations .proceduresForOffering).keys
  /-- The features of offerings are listed. -/
  features : ∀ o, ∀ f ∈ c.related .featuresForOffering o, f ∈ c.ids .features
  /-- The observations of procedures are listed. -/
  observations : ∀ p, ∀ i ∈ c.related .observationsForProcedure p, i ∈ c.ids .observations
  /-- No observation is of two procedures. -/
  disjoint : ∀ p q i, i ∈ c.related .observationsForProcedure p → i ∈ c.related .observationsForProcedure q →
    p = q

section Shows

variable {content : Content} {c : Catalog}

/-- What is related in a catalog that is true to the data is related in the data. -/
theorem mem_related_of_shows {a : Association} (h : content.Shows (.association a) (c.associations a))
    (x y : String) : y ∈ c.related a x ↔ content.Relates a x y :=
  (h x).1 y

/-- A key is there if something is related to it, and only then. -/
theorem mem_keys_iff {a : Association} (h : content.Shows (.association a) (c.associations a)) (x : String) :
    x ∈ (c.associations a).keys ↔ ∃ y, content.Relates a x y :=
  SortedMap.mem_keys.trans (h x).exists_iff

/-- **A catalog that is true to some data agrees**, whatever the data are. -/
theorem agrees_of_shows (h : ∀ k, content.Shows k (c.get k)) : c.Agrees := by
  have hrelated : ∀ a x y, y ∈ c.related a x ↔ content.Relates a x y := fun a =>
    mem_related_of_shows (h (.association a))
  -- two sides of an association are told by one relation of the data, so each clause is about the data alone
  have hids : ∀ k x, x ∈ c.ids k ↔ content.Has k x := fun k => h (.ids k)
  constructor
  case offerings =>
    intro o p
    rw [hrelated, hrelated]
    exact .rfl
  case properties =>
    intro x p
    rw [hrelated, hrelated]
    exact .rfl
  case offerings_properties =>
    intro o x
    rw [hrelated, hrelated]
    exact exists₂_congr fun p s => and_congr_right fun _ => and_comm
  case hierarchy =>
    intro p hp q hq
    rw [hrelated, hrelated]
    exact and_iff_right ((hids .procedures p).1 hp)
  case listed =>
    -- an offering is listed if some sensor has it, and this is when it has a procedure
    refine SortedSet.ext fun o => ?_
    rw [hids, mem_keys_iff (h (.association .proceduresForOffering))]
    exact .rfl
  case features =>
    intro o f hf
    rw [hrelated] at hf
    obtain ⟨-, i, b, hi, -, hb⟩ := hf
    exact (hids .features f).2 (.inr ⟨i, b, hi, hb⟩)
  case observations =>
    intro p i hi
    rw [hrelated] at hi
    obtain ⟨-, b, hb, -⟩ := hi
    exact (hids .observations i).2 ⟨b, hb⟩
  case disjoint =>
    intro p q i hp hq
    rw [hrelated] at hp hq
    obtain ⟨-, b, hb, rfl⟩ := hp
    obtain ⟨-, b', hb', rfl⟩ := hq
    -- both were read off one record
    exact congrArg Observation.procedure (Option.some.inj (hb.symm.trans hb'))

end Shows

end Catalog

namespace Run

variable {steps : List Step} {firstRun : Bool} {w w' : World} {r : Run} {moves : List (Actor × Backend)}

/-- **The sides of all associations agree after a rebuild**, whatever the catalog held before, if the data stay
as they are and nothing is made to go wrong. The rebuild makes progress until it is over. -/
theorem sides_agree {threads : Nat} (hsteps : Standard.steps? threads = .ok steps)
    (hharmless : w.archive.plan.IsHarmless) (h : Moves (Run.start steps firstRun, w) moves (r, w'))
    (hfixed : ∀ m ∈ moves, m.2 = w.archive.backend) :
    Progresses w.archive.backend (Run.start steps firstRun) moves.length r w' ∧
      (r.result?.isSome = true → w'.catalog.Agrees) := by
  refine ⟨h.progresses ?_ hfixed, fun hover => ?_⟩
  · obtain ⟨hthreads, rfl⟩ := Standard.steps?_eq_ok.1 hsteps
    exact fun s hs => Standard.plain_of_mem hthreads hs
  · have hdet := h.catalog_determined hsteps hharmless.opens hfixed hover
    exact Catalog.agrees_of_shows (hdet.shows (congrFun (Archive.answers_of_harmless hharmless)))

/-- The troubled world without its troubles. The catalog has still the old entry. -/
def soundWorld : World := { troubledWorld with archive := ⟨troubledArchive.content, FaultPlan.none⟩ }

/-- The second sensor is a part of the first, and the old entry is gone. -/
theorem sides_agree_sound : ∃ moves r w',
    Moves (Run.start (Standard.steps 2) true, soundWorld) moves (r, w') ∧ r.result?.isSome = true ∧
      w'.catalog.Agrees ∧ "pump" ∈ w'.catalog.related .childProcedures "gauge" ∧
      "old" ∉ w'.catalog.related .offeringsForProcedure "pump" := by
  have hsteps : Standard.steps? 2 = .ok (Standard.steps 2) := rfl
  have hharmless : soundWorld.archive.plan.IsHarmless := ⟨rfl, rfl, rfl, rfl⟩
  obtain ⟨moves, r, w', hmoves, hfixed, hover⟩ :=
    Moves.exists_finished (r := Run.start (Standard.steps 2) true) (w := soundWorld)
      (b := soundWorld.archive.backend) (fun s hs => Standard.plain_of_mem (by decide) hs) .start
      (by simp)
  have hagrees := (sides_agree hsteps hharmless hmoves hfixed).2 hover
  have hdet := hmoves.catalog_determined hsteps rfl hfixed hover
  have hshows := hdet.shows (congrFun (Archive.answers_of_harmless hharmless))
  -- the pump names the gauge as its parent, and both are there
  refine ⟨moves, r, w', hmoves, hover, hagrees, ?_, fun hold => ?_⟩
  · exact ((hshows (.association .childProcedures) "gauge").1 "pump").2 ⟨⟨_, rfl⟩, _, rfl, by decide⟩
  · obtain ⟨s, hs, hin⟩ := ((hshows (.association .offeringsForProcedure) "pump").1 "old").1 hold
    cases hs
    exact absurd hin (by decide)

end Run

end SensorCatalog
