import SensorCatalog.Archive.Basic

/-!
# An archive to try

A small archive with a weather station, a thermometer that is part of it, and a river gauge. Each of them
makes three observations, one an hour, and each begins a minute after the one before it.
-/

namespace SensorCatalog

namespace Demo

/-- A sensor of the demo. -/
def sensor (id offering : String) (properties parents : List String) : ContentEdit :=
  .insertSensor id ⟨SortedSet.ofList [offering], SortedSet.ofList properties, SortedSet.ofList parents,
    "http://www.opengis.net/sensorml/2.0"⟩

/-- The sensors. -/
def sensors : List ContentEdit :=
  [sensor "urn:ogc:procedure:weather-station" "urn:ogc:offering:weather"
      ["urn:ogc:property:air-temperature", "urn:ogc:property:wind-speed"] [],
    sensor "urn:ogc:procedure:thermometer-1" "urn:ogc:offering:weather"
      ["urn:ogc:property:air-temperature"] ["urn:ogc:procedure:weather-station"],
    sensor "urn:ogc:procedure:river-gauge" "urn:ogc:offering:hydrology"
      ["urn:ogc:property:water-level"] []]

/-- A feature of the demo, by its coordinates. -/
def site (id : String) (x y : Float) : ContentEdit :=
  .insertFeature id ⟨SortedSet.ofList ["urn:ogc:feature:region"], some (Envelope.point 4326 x y)⟩

/-- The features. -/
def features : List ContentEdit :=
  [.insertFeature "urn:ogc:feature:region" ⟨SortedSet.empty, none⟩,
    site "urn:ogc:feature:station-site" 7.65 51.93,
    site "urn:ogc:feature:river-site" 7.61 51.96]

/-- The first of March 2024. -/
def firstDay : Date := ⟨2024, 3, 1, by decide⟩

/-- A time of the first day. -/
def moment (hour minute : Nat) : Period :=
  Period.instant ⟨firstDay, Timestamp.hourOf hour, Timestamp.minuteOf minute, Timestamp.secondOf 0,
    Timestamp.nanosOf 0⟩

/-- What one sensor observes where, and for which offering. -/
def readings : List Observation :=
  let soon := moment 0 0
  [⟨"urn:ogc:procedure:weather-station", "urn:ogc:offering:weather", "urn:ogc:property:wind-speed",
      "urn:ogc:feature:station-site", soon⟩,
    ⟨"urn:ogc:procedure:thermometer-1", "urn:ogc:offering:weather", "urn:ogc:property:air-temperature",
      "urn:ogc:feature:station-site", soon⟩,
    ⟨"urn:ogc:procedure:river-gauge", "urn:ogc:offering:hydrology", "urn:ogc:property:water-level",
      "urn:ogc:feature:river-site", soon⟩]

/-- The observation of the sensor in place `i` at an hour. -/
def observation (i : Nat) (reading : Observation) (hour : Nat) : ContentEdit :=
  .insertObservation s!"urn:ogc:observation:{i}-{hour}" { reading with time := moment hour i }

/-- The observations. -/
def observations : List ContentEdit :=
  (List.zip [0, 1, 2] readings).flatMap fun e => [0, 1, 2].map (observation e.1 e.2)

/-- All that is put into the archive. -/
def edits : List ContentEdit :=
  sensors ++ features ++ observations ++
  [.insertTemplate "urn:ogc:template:river-level" ⟨"urn:ogc:offering:hydrology",
      "urn:ogc:procedure:river-gauge", "urn:ogc:property:water-level"⟩,
    .addRelated ⟨"urn:ogc:feature:region", "sampledFeature",
      ["urn:ogc:offering:weather", "urn:ogc:offering:hydrology"]⟩,
    .addComposite ⟨"urn:ogc:property:weather",
      ["urn:ogc:property:air-temperature", "urn:ogc:property:wind-speed"]⟩,
    .setFeatureTypes (SortedSet.ofList
      ["http://www.opengis.net/def/samplingFeatureType/OGC-OM/2.0/SF_SamplingPoint"])]

/-- The archive. -/
def archive : Archive := Archive.empty.applyAll (edits.map .content)

end Demo

end SensorCatalog
