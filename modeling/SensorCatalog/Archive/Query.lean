import SensorCatalog.Archive.Record
import SensorCatalog.Fault

/-!
# Queries

A `Query` is a question to the archive, and `Query.Reply` the type of its answer. The archive may also
refuse to answer or break off: an `Outcome` is what comes back.

A `Reading` asks a number of queries, each of which may depend on the answers before it, and then holds a
result. It has no other effect. `Reading.run` answers all its queries from one source; the first query
that is not answered ends it.
-/

namespace SensorCatalog

/-- What comes back from a piece of work for the archive. -/
inductive Outcome (α : Type) where
  | ok (a : α)
  | fault (f : ArchiveFault)
  /-- The work broke off. -/
  | panic (p : Panic)

inductive Query where
  | offeringIdentifiers
  | proceduresForOffering (offering : String)
  | propertiesForOffering (offering : String)
  | featuresForOffering (offering : String)
  | envelopeForOffering (offering : String)
  | timeForOffering (offering : String)
  | procedureIdentifiers
  | offeringsForProcedure (procedure : String)
  | propertiesForProcedure (procedure : String)
  /-- The procedures that a procedure is a part of. -/
  | parentProcedures (procedure : String)
  /-- The procedures that are part of a procedure. -/
  | childProcedures (procedure : String)
  | observationsForProcedure (procedure : String)
  | timeForProcedure (procedure : String)
  | propertyIdentifiers
  | proceduresForProperty (property : String)
  | offeringsForProperty (property : String)
  | featureIdentifiers
  /-- The features that a feature is a part of. -/
  | parentFeatures (feature : String)
  | globalEnvelope
  | relatedFeatures
  | compositePhenomena
  | descriptionFormats
  | featureTypes
  | observationIdentifiers
  | resultTemplates
  | globalTime
  deriving DecidableEq

namespace Query

/-- The name of a query, by which it is reported. -/
def name : Query → String
  | .offeringIdentifiers => "offering_identifiers"
  | .proceduresForOffering _ => "procedures_for_offering"
  | .propertiesForOffering _ => "observable_properties_for_offering"
  | .featuresForOffering _ => "features_for_offering"
  | .envelopeForOffering _ => "envelope_for_offering"
  | .timeForOffering _ => "phenomenon_time_for_offering"
  | .procedureIdentifiers => "procedure_identifiers"
  | .offeringsForProcedure _ => "offerings_for_procedure"
  | .propertiesForProcedure _ => "observable_properties_for_procedure"
  | .parentProcedures _ => "parent_procedures"
  | .childProcedures _ => "child_procedures"
  | .observationsForProcedure _ => "observation_identifiers_for_procedure"
  | .timeForProcedure _ => "phenomenon_time_for_procedure"
  | .propertyIdentifiers => "observable_property_identifiers"
  | .proceduresForProperty _ => "procedures_for_observable_property"
  | .offeringsForProperty _ => "offerings_for_observable_property"
  | .featureIdentifiers => "feature_of_interest_identifiers"
  | .parentFeatures _ => "parent_features"
  | .globalEnvelope => "global_envelope"
  | .relatedFeatures => "related_features"
  | .compositePhenomena => "composite_phenomena"
  | .descriptionFormats => "procedure_description_formats"
  | .featureTypes => "feature_of_interest_types"
  | .observationIdentifiers => "observation_identifiers"
  | .resultTemplates => "result_templates"
  | .globalTime => "global_phenomenon_time"

/-- One query of each kind, about the given identifier where it is about one. -/
def all (id : String) : List Query :=
  [offeringIdentifiers, proceduresForOffering id, propertiesForOffering id, featuresForOffering id,
    envelopeForOffering id, timeForOffering id, procedureIdentifiers, offeringsForProcedure id,
    propertiesForProcedure id, parentProcedures id, childProcedures id, observationsForProcedure id,
    timeForProcedure id, propertyIdentifiers, proceduresForProperty id, offeringsForProperty id,
    featureIdentifiers, parentFeatures id, globalEnvelope, relatedFeatures, compositePhenomena,
    descriptionFormats, featureTypes, observationIdentifiers, resultTemplates, globalTime]

/-- The query with a name, about the given identifier where it is about one. -/
def ofName? (name id : String) : Option Query := (all id).find? fun q => q.name == name

/-- The procedure that a query is about. These queries look into the rows of one procedure. -/
def procedure? : Query → Option String
  | .offeringsForProcedure p | .propertiesForProcedure p | .parentProcedures p | .childProcedures p
  | .observationsForProcedure p | .timeForProcedure p => some p
  | _ => none

/-- The type of the answer to a query. -/
@[reducible] def Reply : Query → Type
  | .envelopeForOffering _ | .globalEnvelope => Option Envelope
  | .timeForOffering _ | .timeForProcedure _ | .globalTime => Option Period
  | .relatedFeatures => List RelatedFeature
  | .compositePhenomena => List Composite
  | .resultTemplates => List NamedTemplate
  | _ => List String

/-- The identifiers in an answer; `none` for queries that do not answer with identifiers. -/
def identifiers? : (q : Query) → q.Reply → Option (List String)
  | .offeringIdentifiers, l | .proceduresForOffering _, l | .propertiesForOffering _, l
  | .featuresForOffering _, l | .procedureIdentifiers, l | .offeringsForProcedure _, l
  | .propertiesForProcedure _, l | .parentProcedures _, l | .childProcedures _, l
  | .observationsForProcedure _, l | .propertyIdentifiers, l | .proceduresForProperty _, l
  | .offeringsForProperty _, l | .featureIdentifiers, l | .parentFeatures _, l
  | .descriptionFormats, l | .featureTypes, l | .observationIdentifiers, l => some l
  | _, _ => none

end Query

/-- Where answers come from. -/
abbrev Answers := (q : Query) → Outcome q.Reply

/-- A piece of work that asks queries and then has a result. -/
inductive Reading (α : Type) where
  | done (a : α)
  /-- A query, and how to go on with its answer. -/
  | ask (q : Query) (next : q.Reply → Reading α)

namespace Reading

variable {α β : Type}

/-- Reads, and goes on with the result. -/
def bind : Reading α → (α → Reading β) → Reading β
  | .done a, f => f a
  | .ask q next, f => .ask q fun r => (next r).bind f

instance : Monad Reading where
  pure := .done
  bind := bind

/-- The reading of one query. -/
def query (q : Query) : Reading q.Reply := .ask q .done

/-- Reads something for each item of a list, in order. -/
def forEach (f : α → Reading β) : List α → Reading (List β)
  | [] => .done []
  | a :: as => (f a).bind fun b => (forEach f as).bind fun bs => .done (b :: bs)

/-- Answers all queries of a reading. -/
def run (answers : Answers) : Reading α → Outcome α
  | .done a => .ok a
  | .ask q next =>
    match answers q with
    | .ok r => (next r).run answers
    | .fault f => .fault f
    | .panic p => .panic p

/-- What is read in two parts is read one after the other, and the first failure ends it. -/
theorem run_bind (answers : Answers) (r : Reading α) (f : α → Reading β) :
    (r.bind f).run answers =
      match r.run answers with
      | .ok a => (f a).run answers
      | .fault e => .fault e
      | .panic p => .panic p := by
  induction r with
  | done a => rfl
  | ask q next ih =>
    rw [bind, run, run]
    cases answers q with
    | ok a => exact ih a
    | fault e => rfl
    | panic p => rfl

end Reading

end SensorCatalog
