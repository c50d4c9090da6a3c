import SensorCatalog.Space.Envelope
import SensorCatalog.Time.Period

/-!
# The categories of the catalog

The catalog has thirty categories, each of which is read and replaced as a whole. Nine are sets of
identifiers (`IdCategory`), thirteen associate identifiers with sets of identifiers (`Association`), two
are the directions of the feature hierarchy, and six hold components, envelopes and times.

`Category.all` lists them in the order in which a catalog is written.
-/

namespace SensorCatalog

/-- The categories that are a set of identifiers. -/
inductive IdCategory where
  | procedures
  | offerings
  | properties
  | features
  | observations
  | templates
  | descriptionFormats
  | featureTypes
  | composites
  deriving DecidableEq

/-- The categories that associate an identifier with a set of identifiers. -/
inductive Association where
  | proceduresForOffering
  | propertiesForOffering
  | featuresForOffering
  | relatedFeaturesForOffering
  | templatesForOffering
  | offeringsForProcedure
  | propertiesForProcedure
  | parentProcedures
  | childProcedures
  | observationsForProcedure
  | proceduresForProperty
  | offeringsForProperty
  | rolesForRelatedFeature
  deriving DecidableEq

/-- The categories of the catalog. -/
inductive Category where
  | ids (c : IdCategory)
  | association (a : Association)
  /-- The features that each feature is a part of. -/
  | parentFeatures
  /-- The features that are part of each feature. -/
  | childFeatures
  | components
  | globalEnvelope
  | offeringEnvelopes
  | globalTime
  | offeringTimes
  | procedureTimes
  deriving DecidableEq

def IdCategory.name : IdCategory → String
  | .procedures => "procedures"
  | .offerings => "offerings"
  | .properties => "observable_properties"
  | .features => "features_of_interest"
  | .observations => "observation_identifiers"
  | .templates => "result_templates"
  | .descriptionFormats => "procedure_description_formats"
  | .featureTypes => "feature_of_interest_types"
  | .composites => "composite_phenomena"

def IdCategory.all : List IdCategory :=
  [.procedures, .offerings, .properties, .features, .observations, .templates, .descriptionFormats,
    .featureTypes, .composites]

def Association.name : Association → String
  | .proceduresForOffering => "procedures_for_offering"
  | .propertiesForOffering => "observable_properties_for_offering"
  | .featuresForOffering => "features_for_offering"
  | .relatedFeaturesForOffering => "related_features_for_offering"
  | .templatesForOffering => "result_templates_for_offering"
  | .offeringsForProcedure => "offerings_for_procedure"
  | .propertiesForProcedure => "observable_properties_for_procedure"
  | .parentProcedures => "parent_procedures"
  | .childProcedures => "child_procedures"
  | .observationsForProcedure => "observation_identifiers_for_procedure"
  | .proceduresForProperty => "procedures_for_observable_property"
  | .offeringsForProperty => "offerings_for_observable_property"
  | .rolesForRelatedFeature => "roles_for_related_feature"

def Association.all : List Association :=
  [.proceduresForOffering, .propertiesForOffering, .featuresForOffering, .relatedFeaturesForOffering,
    .templatesForOffering, .offeringsForProcedure, .propertiesForProcedure, .parentProcedures,
    .childProcedures, .observationsForProcedure, .proceduresForProperty, .offeringsForProperty,
    .rolesForRelatedFeature]

/-- The associations whose keys are procedures. -/
def Association.ofProcedures : List Association :=
  [.offeringsForProcedure, .propertiesForProcedure, .parentProcedures, .childProcedures,
    .observationsForProcedure]

namespace Category

/-- The name of a category, under which it is written. -/
def name : Category → String
  | .ids c => c.name
  | .association a => a.name
  | .parentFeatures => "parent_features"
  | .childFeatures => "child_features"
  | .components => "components_for_composite_phenomenon"
  | .globalEnvelope => "global_envelope"
  | .offeringEnvelopes => "envelope_for_offering"
  | .globalTime => "global_phenomenon_time"
  | .offeringTimes => "phenomenon_time_for_offering"
  | .procedureTimes => "phenomenon_time_for_procedure"

/-- All categories, in the order in which they are written. The roles of related features come behind the
feature hierarchy. -/
def all : List Category :=
  IdCategory.all.map .ids
    ++ (Association.all.filter fun a => a != .rolesForRelatedFeature).map .association
    ++ [.parentFeatures, .childFeatures, .association .rolesForRelatedFeature, .components,
      .globalEnvelope, .offeringEnvelopes, .globalTime, .offeringTimes, .procedureTimes]

/-- No category is left out. -/
theorem mem_all (k : Category) : k ∈ all := by
  rcases k with k | a | _ | _ | _ | _ | _ | _ | _ | _
  · cases k <;> decide
  · cases a <;> decide
  all_goals decide

/-- The category with a name. -/
def ofName? (name : String) : Option Category := all.find? fun c => c.name == name

/-- What a category holds. -/
@[reducible] def Value : Category → Type
  | .ids _ => SortedSet
  | .association _ | .parentFeatures | .childFeatures => SortedMap SortedSet
  | .components => SortedMap (List String)
  | .globalEnvelope => Option Envelope
  | .offeringEnvelopes => SortedMap Envelope
  | .globalTime => Option Period
  | .offeringTimes | .procedureTimes => SortedMap Period

def void : (c : Category) → c.Value
  | .ids _ => SortedSet.empty
  | .association _ | .parentFeatures | .childFeatures => SortedMap.empty
  | .components => SortedMap.empty
  | .globalEnvelope => none
  | .offeringEnvelopes => SortedMap.empty
  | .globalTime => none
  | .offeringTimes | .procedureTimes => SortedMap.empty

/-- Whether a category holds nothing. -/
def isVoid : (c : Category) → c.Value → Bool
  | .ids _, s => s.isEmpty
  | .association _, m | .parentFeatures, m | .childFeatures, m => m.isEmpty
  | .components, m => m.isEmpty
  | .globalEnvelope, e => e.isNone
  | .offeringEnvelopes, m => m.isEmpty
  | .globalTime, p => p.isNone
  | .offeringTimes, m | .procedureTimes, m => m.isEmpty

def toJson : (c : Category) → c.Value → Json
  | .ids _, s => .ofSet s
  | .association _, m | .parentFeatures, m | .childFeatures, m => .ofMap .ofSet m
  | .components, m => .ofMap .ofTexts m
  | .globalEnvelope, e => .ofOption Envelope.toJson e
  | .offeringEnvelopes, m => .ofMap Envelope.toJson m
  | .globalTime, p => .ofOption Period.toJson p
  | .offeringTimes, m | .procedureTimes, m => .ofMap Period.toJson m

/-- Reads what a category holds. -/
def ofJson? : (c : Category) → Json → Option c.Value
  | .ids _, j => j.toSet?
  | .association _, j | .parentFeatures, j | .childFeatures, j => j.toMap? Json.toSet?
  | .components, j => j.toMap? Json.toTexts?
  | .globalEnvelope, j => j.toOption? Envelope.ofJson?
  | .offeringEnvelopes, j => j.toMap? Envelope.ofJson?
  | .globalTime, j => j.toOption? Period.ofJson?
  | .offeringTimes, j | .procedureTimes, j => j.toMap? Period.ofJson?

/-- What a category holds when it is not mentioned. Only an optional value may be left out. -/
def ofMissing? : (c : Category) → Option c.Value
  | .globalEnvelope => some none
  | .globalTime => some none
  | _ => none

end Category

end SensorCatalog
