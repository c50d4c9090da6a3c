/-!
# Faults

What can go wrong, as causes. An `ArchiveFault` comes from the archive that holds the sensor data, a
`Fault` from the work on the catalog, and a `SettingsFault` from the settings file. `message` is the text
of each.

A `Fault` may hold the fault that caused it; `Fault.causes` lists the texts of that chain. A `Panic` is an
accident of one piece of work that no fault describes.
-/

namespace SensorCatalog

/-- A fault of the archive. -/
inductive ArchiveFault where
  /-- The archive cannot be reached. -/
  | unreachable (reason : String)
  /-- A query was not answered. -/
  | query (name reason : String)
  /-- There is nothing with this identifier. -/
  | notFound (id : String)
  /-- The session was closed before. -/
  | closed
  deriving DecidableEq

def ArchiveFault.message : ArchiveFault → String
  | .unreachable reason => s!"Connection failed: {reason}"
  | .query name reason => s!"Query '{name}' failed: {reason}"
  | .notFound id => s!"Entity not found: {id}"
  | .closed => "Session already closed"

/-- What a piece of work leaves behind when it breaks off. -/
inductive Panic where
  | text (message : String)
  /-- Something that is no text. -/
  | untyped
  deriving DecidableEq

/-- The text by which a panic is reported. -/
def Panic.message : Panic → String
  | .text message => message
  | .untyped => "unknown panic payload"

/-- How something ends that was called back. What breaks off does not take its caller with it. -/
inductive CallbackEnd where
  | returned
  | panicked (p : Panic)
  deriving DecidableEq

/-- A fault of the work on the catalog. -/
inductive Fault where
  /-- A setting is not acceptable. -/
  | setting (reason : String)
  /-- The archive failed. -/
  | archive (cause : ArchiveFault)
  /-- A step of a rebuild failed. -/
  | step (name : String) (cause : Fault)
  /-- A step of a rebuild broke off. -/
  | stepPanicked (name message : String)
  /-- The work on one procedure failed. -/
  | worker (procedure : String) (cause : ArchiveFault)
  /-- The work on one procedure broke off. -/
  | workerPanicked (procedure message : String)
  /-- A rebuild went through with faults. -/
  | degraded (count : Nat)
  /-- The first rebuild left a catalog that is of no use. -/
  | unusable (reason : String)
  /-- A rebuild broke off as a whole. -/
  | rebuild (reason : String)
  /-- The keeper of the catalog has been closed. -/
  | closing
  deriving DecidableEq

namespace Fault

/-- The text of a fault. -/
def message : Fault → String
  | .setting reason => s!"Configuration error: {reason}"
  | .archive cause => s!"Datasource error: {cause.message}"
  | .step name cause => s!"Update step '{name}' failed: {cause.message}"
  | .stepPanicked name message => s!"Update step '{name}' panicked: {message}"
  | .worker procedure cause => s!"Worker for procedure '{procedure}' failed: {cause.message}"
  | .workerPanicked procedure message => s!"Worker for procedure '{procedure}' panicked: {message}"
  | .degraded count => s!"Cache rebuild degraded with {count} error(s)"
  | .unusable reason => s!"Initial cache rebuild produced no usable content: {reason}"
  | .rebuild reason => s!"Cache rebuild failed: {reason}"
  | .closing => "Cache controller is shutting down"

/-- The procedure that the failed work was about. -/
def procedure? : Fault → Option String
  | .worker procedure _ | .workerPanicked procedure _ => some procedure
  | _ => none

/-- The step of a rebuild that failed. -/
def step? : Fault → Option String
  | .step name _ | .stepPanicked name _ => some name
  | _ => none

/-- Whether trying again later may help. -/
def isRecoverable : Fault → Bool
  | .setting _ | .unusable _ | .closing => false
  | _ => true

/-- The texts of the causes of a fault, the nearest first. -/
def causes : Fault → List String
  | .archive cause | .worker _ cause => [cause.message]
  | .step _ cause => cause.message :: cause.causes
  | _ => []

end Fault

/-- A fault of the settings file or of what it says. -/
inductive SettingsFault where
  /-- There is no such file. -/
  | missing (path : String)
  /-- The file cannot be read or written. -/
  | file (reason : String)
  /-- The file does not hold settings. -/
  | malformed (reason : String)
  /-- A setting is not acceptable. -/
  | invalid (reason : String)
  deriving DecidableEq

namespace SettingsFault

def message : SettingsFault → String
  | .missing path => s!"Config file not found: {path}"
  | .file reason => s!"IO error: {reason}"
  | .malformed reason => s!"Parse error: {reason}"
  | .invalid reason => s!"Invalid configuration: {reason}"

/-- The same fault, met while work on the catalog begins. -/
def toFault (f : SettingsFault) : Fault := .setting f.message

end SettingsFault

end SensorCatalog
