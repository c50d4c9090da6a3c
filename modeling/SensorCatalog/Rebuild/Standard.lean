import SensorCatalog.Rebuild.Program

/-!
# The standard steps

Eleven steps gather the whole catalog. Each owns some categories, and no two own the same one. All but
`procedures` read everything they need and then replace their categories. `procedures` learns which
procedures there are, forgets all others, and then has the work for each of them done side by side
(`procedureWork`).
-/

namespace SensorCatalog

namespace Standard

open Reading (query forEach)

abbrev setOf (ids : List String) : SortedSet := SortedSet.ofList ids

/-- The association of each identifier with those found for it. -/
def associate (rows : List (String × List String)) : SortedMap SortedSet :=
  SortedMap.ofList (rows.map fun r => (r.1, setOf r.2))

/-- The values that were found, under the identifiers that they were found for. -/
def present {α : Type} (rows : List (String × Option α)) : SortedMap α :=
  SortedMap.ofList (rows.filterMap fun r => r.2.map (r.1, ·))

/-- The association that has all pairs of a list. -/
def collect (pairs : List (String × String)) : SortedMap SortedSet :=
  pairs.foldl (fun m p => addAt m p.1 p.2) SortedMap.empty

/-- What is found in an offering. -/
structure OfferingRow where
  id : String
  procedures : List String
  properties : List String
  features : List String
  /-- The box around them. -/
  envelope : Option Envelope

/-- Reads what is found in an offering. -/
def offeringRow (o : String) : Reading OfferingRow := do
  let procedures ← query (.proceduresForOffering o)
  let properties ← query (.propertiesForOffering o)
  let features ← query (.featuresForOffering o)
  let envelope ← query (.envelopeForOffering o)
  return ⟨o, procedures, properties, features, envelope⟩

/-- The offerings and what is found in them. -/
def offerings : Reading (List Write) := do
  let ids : List String ← query .offeringIdentifiers
  let rows ← forEach offeringRow ids
  return [.setIds .offerings (setOf ids),
    .replace .proceduresForOffering (associate (rows.map fun r => (r.id, r.procedures))),
    .replace .propertiesForOffering (associate (rows.map fun r => (r.id, r.properties))),
    .replace .featuresForOffering (associate (rows.map fun r => (r.id, r.features))),
    .setOfferingEnvelopes (present (rows.map fun r => (r.id, r.envelope)))]

/-- What is known of one procedure. -/
def procedureEntry (p : String) : Reading Entry := do
  let offerings : List String ← query (.offeringsForProcedure p)
  let properties : List String ← query (.propertiesForProcedure p)
  let parents : List String ← query (.parentProcedures p)
  let children : List String ← query (.childProcedures p)
  let observations : List String ← query (.observationsForProcedure p)
  let time : Option Period ← query (.timeForProcedure p)
  return ⟨setOf offerings, setOf properties, setOf parents, setOf children, setOf observations, time⟩

/-- The work for one procedure. -/
def procedureWork (p : String) : Work :=
  Work.ofReading ((procedureEntry p).bind fun e => .done (Write.entry p e))

/-- The procedures, and what is known of each of them. -/
def procedures (threads : Nat) : Program :=
  Program.reading
    (fun ids : List String =>
      Program.writes (.fanOut threads ids procedureWork .done)
        (.setIds .procedures (setOf ids) :: Write.retain (setOf ids)))
    (query .procedureIdentifiers)

/-- The procedures and offerings of a property. -/
structure PropertyRow where
  id : String
  procedures : List String
  offerings : List String

/-- Reads the procedures and offerings of a property. -/
def propertyRow (x : String) : Reading PropertyRow := do
  let procedures ← query (.proceduresForProperty x)
  let offerings ← query (.offeringsForProperty x)
  return ⟨x, procedures, offerings⟩

/-- The observed properties. -/
def properties : Reading (List Write) := do
  let ids : List String ← query .propertyIdentifiers
  let rows ← forEach propertyRow ids
  return [.setIds .properties (setOf ids),
    .replace .proceduresForProperty (associate (rows.map fun r => (r.id, r.procedures))),
    .replace .offeringsForProperty (associate (rows.map fun r => (r.id, r.offerings)))]

/-- Reads the parents of a feature. -/
def featureRow (f : String) : Reading (String × List String) := do
  let parents : List String ← query (.parentFeatures f)
  return (f, parents)

/-- The features of interest, their hierarchy and the box around them. -/
def features : Reading (List Write) := do
  let ids : List String ← query .featureIdentifiers
  let rows ← forEach featureRow ids
  let envelope : Option Envelope ← query .globalEnvelope
  return [.setIds .features (setOf ids), .replaceParents (associate rows), .setGlobalEnvelope envelope]

/-- The related features and their roles. -/
def relatedFeatures : Reading (List Write) := do
  let related : List RelatedFeature ← query .relatedFeatures
  return [.replace .relatedFeaturesForOffering
      (collect (related.flatMap fun r => r.offerings.map (·, r.id))),
    .replace .rolesForRelatedFeature (collect (related.map fun r => (r.id, r.role)))]

/-- The composite phenomena. -/
def composites : Reading (List Write) := do
  let composites : List Composite ← query .compositePhenomena
  return [.setIds .composites (setOf (composites.map (·.id))),
    .setComponents (SortedMap.ofList (composites.map fun c => (c.id, c.components)))]

/-- The formats of descriptions and the types of features. -/
def capabilities : Reading (List Write) := do
  let formats : List String ← query .descriptionFormats
  let types : List String ← query .featureTypes
  return [.setIds .descriptionFormats (setOf formats), .setIds .featureTypes (setOf types)]

/-- The observations. -/
def observations : Reading (List Write) := do
  let ids : List String ← query .observationIdentifiers
  return [.setIds .observations (setOf ids)]

/-- The result templates. -/
def templates : Reading (List Write) := do
  let templates : List NamedTemplate ← query .resultTemplates
  return [.setIds .templates (setOf (templates.map (·.id))),
    .replace .templatesForOffering (collect (templates.map fun t => (t.template.offering, t.id)))]

/-- The time of all observations. -/
def globalTime : Reading (List Write) := do
  let time : Option Period ← query .globalTime
  return [.setGlobalTime time]

/-- Reads the time of an offering. -/
def offeringTimeRow (o : String) : Reading (String × Option Period) := do
  let time : Option Period ← query (.timeForOffering o)
  return (o, time)

/-- The times of the offerings. -/
def offeringTimes : Reading (List Write) := do
  let ids : List String ← query .offeringIdentifiers
  let rows ← forEach offeringTimeRow ids
  return [.setOfferingTimes (present rows)]

/-- The standard steps in their order, with the work for procedures on so many threads. -/
def steps (threads : Nat) : List Step :=
  [⟨"offerings", .ofReading offerings⟩,
    ⟨"procedures", procedures threads⟩,
    ⟨"observable_properties", .ofReading properties⟩,
    ⟨"features_of_interest", .ofReading features⟩,
    ⟨"related_features", .ofReading relatedFeatures⟩,
    ⟨"composite_phenomena", .ofReading composites⟩,
    ⟨"static_capabilities", .ofReading capabilities⟩,
    ⟨"observation_identifiers", .ofReading observations⟩,
    ⟨"result_templates", .ofReading templates⟩,
    ⟨"global_temporal_extent", .ofReading globalTime⟩,
    ⟨"offering_temporal_extent", .ofReading offeringTimes⟩]

/-- What is wrong with no threads at all. -/
def noThreads : Fault :=
  .setting "worker thread count must be greater than 0"

/-- The standard steps, if there is a thread to work on. -/
def steps? (threads : Nat) : Except Fault (List Step) :=
  if threads = 0 then .error noThreads else .ok (steps threads)

/-- The standard step of some name, if there is one. Only `procedures` needs a thread to work on. -/
def step? (threads : Nat) (name : String) : Option (Except Fault Step) :=
  ((steps threads).find? (·.name == name)).map fun s =>
    if s.name = "procedures" ∧ threads = 0 then .error noThreads else .ok s

end Standard

end SensorCatalog
