import SensorCatalog.Archive.Query
import SensorCatalog.Change

/-!
# What the archive holds

`Content` is the data of the archive. `Content.reply` answers each query from it, and `Content.apply` is an
edit. Of the edits only those of sensors, observations and result templates are told to others:
`ContentEdit.change?` says what there is to tell.

Deleting a sensor removes its observations and templates as well, and it is no longer a parent of others.
-/

namespace SensorCatalog

/-- The data of the archive. -/
structure Content where
  sensors : SortedMap Sensor
  observations : SortedMap Observation
  /-- The features that are described. Observations may name others. -/
  features : SortedMap Feature
  /-- The related features, in the order in which they were added. -/
  related : List RelatedFeature
  /-- The composite phenomena, in the order in which they were added. -/
  composites : List Composite
  templates : SortedMap Template
  featureTypes : SortedSet

namespace Content

def empty : Content :=
  ⟨SortedMap.empty, SortedMap.empty, SortedMap.empty, [], [], SortedMap.empty, SortedSet.empty⟩

instance : Inhabited Content := ⟨empty⟩

/-! ### Answers -/

variable (c : Content)

/-- The sensors that satisfy `p`. -/
def sensorsWhere (p : Sensor → Bool) : SortedMap Sensor := c.sensors.filter fun _ s => p s

/-- The observations that satisfy `p`. -/
def observationsWhere (p : Observation → Bool) : SortedMap Observation :=
  c.observations.filter fun _ o => p o

/-- All members of a set of each sensor in a map. -/
def gather (sensors : SortedMap Sensor) (part : Sensor → SortedSet) : SortedSet :=
  SortedSet.ofList (sensors.values.flatMap fun s => (part s).toList)

/-- The features at which some observations were made. -/
def featuresOf (observations : SortedMap Observation) : SortedSet :=
  SortedSet.ofList (observations.values.map (·.feature))

/-- The time of some observations. -/
def timeOf (observations : SortedMap Observation) : Option Period :=
  Period.union (observations.values.map (·.time))

/-- The box around those of some features that have a place. -/
def envelopeOf (features : List Feature) : Option Envelope :=
  Envelope.union (features.filterMap (·.location))

/-- The features that are described or observed. -/
def allFeatures : SortedSet :=
  SortedSet.ofList (c.features.keys.toList ++ c.observations.values.map (·.feature))

/-- The sensor with an identifier, or the refusal to speak of it. -/
def sensor (id : String) : Outcome Sensor :=
  match c.sensors.get? id with
  | some s => .ok s
  | none => .fault (.notFound id)

/-- Something about a sensor, which has to be there. -/
def aboutSensor {α : Type} (id : String) (f : Sensor → α) : Outcome α :=
  match c.sensor id with
  | .ok s => .ok (f s)
  | .fault f => .fault f
  | .panic p => .panic p

/-- The answer to a query. -/
def reply : Answers
  | .offeringIdentifiers => .ok (gather c.sensors (·.offerings)).toList
  | .proceduresForOffering o => .ok (c.sensorsWhere fun s => decide (o ∈ s.offerings)).keys.toList
  | .propertiesForOffering o =>
    .ok (gather (c.sensorsWhere fun s => decide (o ∈ s.offerings)) (·.properties)).toList
  | .featuresForOffering o => .ok (featuresOf (c.observationsWhere fun b => b.offering == o)).toList
  | .envelopeForOffering o =>
    .ok (envelopeOf ((featuresOf (c.observationsWhere fun b => b.offering == o)).toList.filterMap
      c.features.get?))
  | .timeForOffering o => .ok (timeOf (c.observationsWhere fun b => b.offering == o))
  | .procedureIdentifiers => .ok c.sensors.keys.toList
  | .offeringsForProcedure p => c.aboutSensor p fun s => s.offerings.toList
  | .propertiesForProcedure p => c.aboutSensor p fun s => s.properties.toList
  | .parentProcedures p =>
    .ok (match c.sensors.get? p with
      | some s => s.parents.toList
      | none => [])
  | .childProcedures p => .ok (c.sensorsWhere fun s => decide (p ∈ s.parents)).keys.toList
  | .observationsForProcedure p => .ok (c.observationsWhere fun b => b.procedure == p).keys.toList
  | .timeForProcedure p => .ok (timeOf (c.observationsWhere fun b => b.procedure == p))
  | .propertyIdentifiers => .ok (gather c.sensors (·.properties)).toList
  | .proceduresForProperty x => .ok (c.sensorsWhere fun s => decide (x ∈ s.properties)).keys.toList
  | .offeringsForProperty x =>
    .ok (gather (c.sensorsWhere fun s => decide (x ∈ s.properties)) (·.offerings)).toList
  | .featureIdentifiers => .ok c.allFeatures.toList
  | .parentFeatures f =>
    .ok (match c.features.get? f with
      | some g => g.parents.toList
      | none => [])
  | .globalEnvelope => .ok (envelopeOf c.features.values)
  | .relatedFeatures => .ok c.related
  | .compositePhenomena => .ok c.composites
  | .descriptionFormats => .ok (SortedSet.ofList (c.sensors.values.map (·.format))).toList
  | .featureTypes => .ok c.featureTypes.toList
  | .observationIdentifiers => .ok c.observations.keys.toList
  | .resultTemplates => .ok (c.templates.toList.map fun e => ⟨e.1, e.2⟩)
  | .globalTime => .ok (timeOf c.observations)

end Content

/-! ### Edits -/

/-- An edit of the data. -/
inductive ContentEdit where
  /-- Adds a sensor, or describes it anew. -/
  | insertSensor (id : String) (sensor : Sensor)
  /-- Removes a sensor with all that is its own. -/
  | deleteSensor (id : String)
  /-- Adds an observation, or replaces it. -/
  | insertObservation (id : String) (observation : Observation)
  | deleteObservation (id : String)
  /-- Adds a result template, or replaces it. -/
  | insertTemplate (id : String) (template : Template)
  | insertFeature (id : String) (feature : Feature)
  | addRelated (related : RelatedFeature)
  | addComposite (composite : Composite)
  | setFeatureTypes (types : SortedSet)

namespace Content

/-- The data without a sensor and all that is its own. -/
def withoutSensor (c : Content) (id : String) : Content :=
  { c with
    sensors := (c.sensors.erase id).map fun s => { s with parents := s.parents.erase id }
    observations := c.observationsWhere fun o => o.procedure != id
    templates := c.templates.filter fun _ t => t.procedure != id }

def apply (c : Content) : ContentEdit → Content
  | .insertSensor id s => { c with sensors := c.sensors.insert id s }
  | .deleteSensor id => if c.sensors.contains id then c.withoutSensor id else c
  | .insertObservation id o => { c with observations := c.observations.insert id o }
  | .deleteObservation id => { c with observations := c.observations.erase id }
  | .insertTemplate id t => { c with templates := c.templates.insert id t }
  | .insertFeature id f => { c with features := c.features.insert id f }
  | .addRelated r => { c with related := c.related ++ [r] }
  | .addComposite k => { c with composites := c.composites ++ [k] }
  | .setFeatureTypes types => { c with featureTypes := types }

end Content

namespace ContentEdit

/-- What an edit of the given data has to tell. Deleting what is not there is no change. -/
def change? (c : Content) : ContentEdit → Option Change
  | .insertSensor id _ => some (.sensorInsertion id)
  | .deleteSensor id => if c.sensors.contains id then some (.sensorDeletion id) else none
  | .insertObservation id o => some (.observationInsertion id o.procedure)
  | .deleteObservation id => (c.observations.get? id).map fun o => .observationDeletion id o.procedure
  | .insertTemplate id _ => some (.templateInsertion id)
  | _ => none

/-- Whether an edit of the given data removes something; `none` for edits that remove nothing. -/
def removed? (c : Content) : ContentEdit → Option Bool
  | .deleteSensor id => some (c.sensors.contains id)
  | .deleteObservation id => some (c.observations.contains id)
  | _ => none

end ContentEdit

end SensorCatalog
