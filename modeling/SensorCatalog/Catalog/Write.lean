import SensorCatalog.Catalog.Basic

/-!
# Writing the catalog

A `Write` changes the catalog in one go: nobody sees it half done. `Catalog.write` carries one out.

Changes of several categories are lists of writes, which others may see between two of them:
`Write.entry` sets all that is known of one procedure, `Write.retain` forgets all procedures but some,
and `Write.clear` empties the catalog.
-/

namespace SensorCatalog

/-- A change of the catalog that happens in one go. -/
inductive Write where
  | setIds (category : IdCategory) (ids : SortedSet)
  | addId (category : IdCategory) (id : String)
  /-- Replaces what an association has for one key. -/
  | setKey (association : Association) (key : String) (ids : SortedSet)
  | replace (association : Association) (entries : SortedMap SortedSet)
  /-- Forgets what an association has for all keys but some. -/
  | retainKeys (association : Association) (keep : SortedSet)
  | setParents (feature : String) (parents : SortedSet)
  | replaceParents (parents : SortedMap SortedSet)
  | setComponents (components : SortedMap (List String))
  | setGlobalEnvelope (envelope : Option Envelope)
  | setOfferingEnvelopes (envelopes : SortedMap Envelope)
  | setGlobalTime (time : Option Period)
  | setOfferingTimes (times : SortedMap Period)
  | setProcedureTime (procedure : String) (time : Option Period)
  /-- Forgets the times of all procedures but some. -/
  | retainTimes (keep : SortedSet)

namespace Catalog

/-- Changes one set of identifiers. -/
def updateIds (c : Catalog) (k : IdCategory) (f : SortedSet → SortedSet) : Catalog :=
  { c with ids := fun j => if j = k then f (c.ids k) else c.ids j }

/-- Changes one association. -/
def updateAssociation (c : Catalog) (a : Association)
    (f : SortedMap SortedSet → SortedMap SortedSet) : Catalog :=
  { c with associations := fun b => if b = a then f (c.associations a) else c.associations b }

def write (c : Catalog) : Write → Catalog
  | .setIds k s => c.updateIds k fun _ => s
  | .addId k id => c.updateIds k fun s => s.insert id
  | .setKey a key s => c.updateAssociation a fun m => putSet m key s
  | .replace a entries => c.updateAssociation a fun _ => withoutEmpty entries
  | .retainKeys a keep => c.updateAssociation a fun m => m.filter fun k _ => decide (k ∈ keep)
  | .setParents feature parents => { c with hierarchy := c.hierarchy.set feature parents }
  | .replaceParents parents => { c with hierarchy := Hierarchy.ofParents parents }
  | .setComponents m => { c with components := m }
  | .setGlobalEnvelope e => { c with globalEnvelope := e }
  | .setOfferingEnvelopes m => { c with offeringEnvelopes := m }
  | .setGlobalTime t => { c with globalTime := t }
  | .setOfferingTimes m => { c with offeringTimes := m }
  | .setProcedureTime p t => { c with procedureTimes := c.procedureTimes.alter p fun _ => t }
  | .retainTimes keep =>
    { c with procedureTimes := c.procedureTimes.filter fun k _ => decide (k ∈ keep) }

def writeAll (c : Catalog) (ws : List Write) : Catalog := ws.foldl write c

end Catalog

namespace Write

/-- Sets all that is known of one procedure. -/
def entry (procedure : String) (e : Entry) : List Write :=
  [.setKey .offeringsForProcedure procedure e.offerings,
    .setKey .propertiesForProcedure procedure e.properties,
    .setKey .parentProcedures procedure e.parents,
    .setKey .childProcedures procedure e.children,
    .setKey .observationsForProcedure procedure e.observations,
    .setProcedureTime procedure e.time]

/-- Forgets all procedures but some, in the categories whose keys are procedures. -/
def retain (keep : SortedSet) : List Write :=
  Association.ofProcedures.map (.retainKeys · keep) ++ [.retainTimes keep]

/-- Empties all categories. Those about procedures are emptied by retaining no procedure, and the children
of features go with their parents. -/
def clear : List Write :=
  IdCategory.all.map (.setIds · SortedSet.empty)
    ++ ((Association.all.filter fun a => !Association.ofProcedures.contains a).map
      (.replace · SortedMap.empty))
    ++ retain SortedSet.empty
    ++ [.replaceParents SortedMap.empty, .setComponents SortedMap.empty, .setGlobalEnvelope none,
      .setOfferingEnvelopes SortedMap.empty, .setGlobalTime none, .setOfferingTimes SortedMap.empty]

end Write

end SensorCatalog
