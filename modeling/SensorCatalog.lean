import SensorCatalog.Latch
import SensorCatalog.Main
import SensorCatalog.Relay.Rehearsal
import SensorCatalog.Timer.Rehearsal
import SensorCatalog.Bus.Audience
import SensorCatalog.Proofs.Bus.Audience
import SensorCatalog.Proofs.Catalog.Text
import SensorCatalog.Proofs.Service.Truth
import SensorCatalog.Proofs.Rebuild.Agreement
import SensorCatalog.Proofs.Rebuild.Atomicity
import SensorCatalog.Proofs.Rebuild.Independence
import SensorCatalog.Proofs.Rebuild.Integrity
import SensorCatalog.Proofs.Rebuild.Readers
import SensorCatalog.Proofs.Keeper.Attended
import SensorCatalog.Proofs.Keeper.Closing
import SensorCatalog.Proofs.Keeper.History
import SensorCatalog.Proofs.Catalog.Consistent
import SensorCatalog.Proofs.Relay.Batches
import SensorCatalog.Proofs.Rebuild.Sessions
import SensorCatalog.Proofs.Rebuild.Isolation
import SensorCatalog.Proofs.Timer.Firing
import SensorCatalog.Proofs.Timer.Interval
import SensorCatalog.Proofs.Settings.File
import SensorCatalog.Proofs.Rebuild.Deletion
import SensorCatalog.Proofs.Timer.Cancel
import SensorCatalog.Proofs.Keeper.FirstFiring
import SensorCatalog.Proofs.Catalog.Replacement
import SensorCatalog.Proofs.Catalog.Entries
import SensorCatalog.Proofs.Rebuild.Extents
import SensorCatalog.Proofs.Keeper.Minutes
import SensorCatalog.Proofs.Catalog.Clearing
import SensorCatalog.Proofs.Space.Union
import SensorCatalog.Proofs.Waiting.Deadlines
