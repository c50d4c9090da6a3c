import SensorCatalog.Catalog.Category
import SensorCatalog.Catalog.Hierarchy

/-!
# The catalog

A `Catalog` is what is offered to those who want to know which sensor data there is. It consists of thirty
categories (`Category`), and `Catalog.get` is the view of one of them. Nothing in it refers to the archive
that it was gathered from.

`Catalog.entry` collects what is known of one procedure from the six categories that are about procedures.
-/

namespace SensorCatalog

/-- The catalog of the sensor data. -/
structure Catalog where
  ids : IdCategory → SortedSet
  associations : Association → SortedMap SortedSet
  hierarchy : Hierarchy
  components : SortedMap (List String)
  globalEnvelope : Option Envelope
  offeringEnvelopes : SortedMap Envelope
  globalTime : Option Period
  offeringTimes : SortedMap Period
  procedureTimes : SortedMap Period

/-- What is known of one procedure. -/
structure Entry where
  offerings : SortedSet
  properties : SortedSet
  /-- The procedures that it is a part of. -/
  parents : SortedSet
  /-- The procedures that are part of it. -/
  children : SortedSet
  observations : SortedSet
  time : Option Period
  deriving DecidableEq

def Entry.empty : Entry :=
  ⟨SortedSet.empty, SortedSet.empty, SortedSet.empty, SortedSet.empty, SortedSet.empty, none⟩

namespace Catalog

def empty : Catalog :=
  ⟨fun _ => SortedSet.empty, fun _ => SortedMap.empty, Hierarchy.empty, SortedMap.empty, none,
    SortedMap.empty, none, SortedMap.empty, SortedMap.empty⟩

instance : Inhabited Catalog := ⟨empty⟩

/-- What a category holds. -/
def get (c : Catalog) : (k : Category) → k.Value
  | .ids k => c.ids k
  | .association a => c.associations a
  | .parentFeatures => c.hierarchy.parents
  | .childFeatures => c.hierarchy.children
  | .components => c.components
  | .globalEnvelope => c.globalEnvelope
  | .offeringEnvelopes => c.offeringEnvelopes
  | .globalTime => c.globalTime
  | .offeringTimes => c.offeringTimes
  | .procedureTimes => c.procedureTimes

/-- Two catalogs that agree in every category are equal. -/
theorem ext {c d : Catalog} (h : ∀ k, c.get k = d.get k) : c = d := by
  cases c with
  | mk ids assoc hier comp ge oe gt ot pt =>
    cases d with
    | mk ids' assoc' hier' comp' ge' oe' gt' ot' pt' =>
      have h1 : ids = ids' := funext fun k => h (.ids k)
      have h2 : assoc = assoc' := funext fun a => h (.association a)
      have h3 : hier = hier' := by
        cases hier; cases hier'
        have hp := h .parentFeatures
        have hc := h .childFeatures
        simp only [get] at hp hc
        subst hp hc
        rfl
      have h4 : comp = comp' := h .components
      have h5 : ge = ge' := h .globalEnvelope
      have h6 : oe = oe' := h .offeringEnvelopes
      have h7 : gt = gt' := h .globalTime
      have h8 : ot = ot' := h .offeringTimes
      have h9 : pt = pt' := h .procedureTimes
      subst h1 h2 h3 h4 h5 h6 h7 h8 h9
      rfl

/-- Whether no category holds anything. -/
def isEmpty (c : Catalog) : Bool := Category.all.all fun k => k.isVoid (c.get k)

/-- The identifiers that an association has for a key. -/
def related (c : Catalog) (a : Association) (key : String) : SortedSet := setAt (c.associations a) key

/-- What is known of a procedure. -/
def entry (c : Catalog) (procedure : String) : Entry :=
  ⟨c.related .offeringsForProcedure procedure, c.related .propertiesForProcedure procedure,
    c.related .parentProcedures procedure, c.related .childProcedures procedure,
    c.related .observationsForProcedure procedure, c.procedureTimes.get? procedure⟩

end Catalog

end SensorCatalog
