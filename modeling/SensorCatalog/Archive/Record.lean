import SensorCatalog.Space.Envelope
import SensorCatalog.Time.Period

/-!
# Records of the archive

What the archive knows of sensors, observations, features, related features, composite phenomena and
result templates. Records that are kept under an identifier do not repeat it.

The last three kinds are also answers to queries, and are exchanged under the names of their fields.
-/

namespace SensorCatalog

structure Sensor where
  offerings : SortedSet
  properties : SortedSet
  /-- The procedures that it is a part of. -/
  parents : SortedSet
  format : String
  deriving DecidableEq

structure Observation where
  procedure : String
  offering : String
  property : String
  feature : String
  /-- When the phenomenon took place. -/
  time : Period
  deriving DecidableEq

/-- A feature of interest. -/
structure Feature where
  /-- The features that it is a part of. -/
  parents : SortedSet
  /-- Where it is, if that is known. -/
  location : Option Envelope

/-- A feature that some offerings are related to in a role. -/
structure RelatedFeature where
  id : String
  role : String
  offerings : List String
  deriving DecidableEq

/-- A phenomenon made of others. -/
structure Composite where
  id : String
  /-- What it is made of, in order. -/
  components : List String
  deriving DecidableEq

/-- A template for results, as kept under its identifier. -/
structure Template where
  offering : String
  procedure : String
  property : String
  deriving DecidableEq

/-- A template together with its identifier. -/
structure NamedTemplate where
  id : String
  template : Template
  deriving DecidableEq

namespace RelatedFeature

def toJson (r : RelatedFeature) : Json :=
  Json.record [("identifier", .ofText r.id), ("role", .ofText r.role), ("offerings", .ofTexts r.offerings)]

def ofJson? (j : Json) : Option RelatedFeature :=
  match j.fields? ["identifier", "role", "offerings"] with
  | some [some id, some role, some offerings] =>
    match id.toText?, role.toText?, offerings.toTexts? with
    | some id, some role, some offerings => some ⟨id, role, offerings⟩
    | _, _, _ => none
  | _ => none

end RelatedFeature

namespace Composite

def toJson (c : Composite) : Json :=
  Json.record [("identifier", .ofText c.id), ("components", .ofTexts c.components)]

def ofJson? (j : Json) : Option Composite :=
  match j.fields? ["identifier", "components"] with
  | some [some id, some components] =>
    match id.toText?, components.toTexts? with
    | some id, some components => some ⟨id, components⟩
    | _, _ => none
  | _ => none

end Composite

namespace NamedTemplate

def toJson (t : NamedTemplate) : Json :=
  Json.record [("identifier", .ofText t.id), ("offering", .ofText t.template.offering),
    ("procedure", .ofText t.template.procedure), ("observable_property", .ofText t.template.property)]

def ofJson? (j : Json) : Option NamedTemplate :=
  match j.fields? ["identifier", "offering", "procedure", "observable_property"] with
  | some [some id, some offering, some procedure, some property] =>
    match id.toText?, offering.toText?, procedure.toText?, property.toText? with
    | some id, some offering, some procedure, some property => some ⟨id, offering, procedure, property⟩
    | _, _, _, _ => none
  | _ => none

end NamedTemplate

end SensorCatalog
