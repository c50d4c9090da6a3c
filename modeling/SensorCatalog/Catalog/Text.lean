import SensorCatalog.Catalog.Basic
import SensorCatalog.Json.Reader
import SensorCatalog.Json.Writer

/-!
# The catalog as text

A catalog is written as an object with one member for each category, in their order. Reading takes such an
object, or the list of all thirty values.

A coordinate that is no finite number is written as null, and null is not read as a coordinate.
-/

namespace SensorCatalog

namespace Catalog

def toJson (c : Catalog) : Json :=
  Json.record (Category.all.map fun k => (k.name, k.toJson (c.get k)))

def toText (c : Catalog) : String := c.toJson.toPretty

/-- The exchanged values of the categories, found by their place in `Category.all`. -/
def valueIn (fields : List (Option Json)) (k : Category) : Option k.Value :=
  match fields[Category.all.idxOf k]? with
  | some (some j) => k.ofJson? j
  | some none => k.ofMissing?
  | none => none

def idsIn (fields : List (Option Json)) : Option (IdCategory → SortedSet) := do
  let procedures ← valueIn fields (.ids .procedures)
  let offerings ← valueIn fields (.ids .offerings)
  let properties ← valueIn fields (.ids .properties)
  let features ← valueIn fields (.ids .features)
  let observations ← valueIn fields (.ids .observations)
  let templates ← valueIn fields (.ids .templates)
  let formats ← valueIn fields (.ids .descriptionFormats)
  let types ← valueIn fields (.ids .featureTypes)
  let composites ← valueIn fields (.ids .composites)
  return fun
    | .procedures => procedures
    | .offerings => offerings
    | .properties => properties
    | .features => features
    | .observations => observations
    | .templates => templates
    | .descriptionFormats => formats
    | .featureTypes => types
    | .composites => composites

def associationsIn (fields : List (Option Json)) : Option (Association → SortedMap SortedSet) := do
  let proceduresForOffering ← valueIn fields (.association .proceduresForOffering)
  let propertiesForOffering ← valueIn fields (.association .propertiesForOffering)
  let featuresForOffering ← valueIn fields (.association .featuresForOffering)
  let relatedFeaturesForOffering ← valueIn fields (.association .relatedFeaturesForOffering)
  let templatesForOffering ← valueIn fields (.association .templatesForOffering)
  let offeringsForProcedure ← valueIn fields (.association .offeringsForProcedure)
  let propertiesForProcedure ← valueIn fields (.association .propertiesForProcedure)
  let parentProcedures ← valueIn fields (.association .parentProcedures)
  let childProcedures ← valueIn fields (.association .childProcedures)
  let observationsForProcedure ← valueIn fields (.association .observationsForProcedure)
  let proceduresForProperty ← valueIn fields (.association .proceduresForProperty)
  let offeringsForProperty ← valueIn fields (.association .offeringsForProperty)
  let rolesForRelatedFeature ← valueIn fields (.association .rolesForRelatedFeature)
  return fun
    | .proceduresForOffering => proceduresForOffering
    | .propertiesForOffering => propertiesForOffering
    | .featuresForOffering => featuresForOffering
    | .relatedFeaturesForOffering => relatedFeaturesForOffering
    | .templatesForOffering => templatesForOffering
    | .offeringsForProcedure => offeringsForProcedure
    | .propertiesForProcedure => propertiesForProcedure
    | .parentProcedures => parentProcedures
    | .childProcedures => childProcedures
    | .observationsForProcedure => observationsForProcedure
    | .proceduresForProperty => proceduresForProperty
    | .offeringsForProperty => offeringsForProperty
    | .rolesForRelatedFeature => rolesForRelatedFeature

def ofJson? (j : Json) : Option Catalog := do
  let fields ← j.fields? (Category.all.map Category.name)
  let ids ← idsIn fields
  let associations ← associationsIn fields
  let parents ← valueIn fields .parentFeatures
  let children ← valueIn fields .childFeatures
  let components ← valueIn fields .components
  let globalEnvelope ← valueIn fields .globalEnvelope
  let offeringEnvelopes ← valueIn fields .offeringEnvelopes
  let globalTime ← valueIn fields .globalTime
  let offeringTimes ← valueIn fields .offeringTimes
  let procedureTimes ← valueIn fields .procedureTimes
  return { ids, associations, hierarchy := ⟨parents, children⟩, components, globalEnvelope,
           offeringEnvelopes, globalTime, offeringTimes, procedureTimes }

def ofText? (s : String) : Option Catalog := (Json.read? s).bind ofJson?

end Catalog

end SensorCatalog
