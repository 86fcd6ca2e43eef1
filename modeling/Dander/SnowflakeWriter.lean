import Dander.RedshiftBatches

/-!
# Staged Snowflake writes

One call of the writer stages its records in parts, or directly in one part if they are few.
Parts that the load history has for the run are left out of the load, unless the whole target
is replaced; if it has all of them, nothing is published. The publication and the history of
the parts it loaded are one transaction.
-/
namespace Dander.Snowflake

open Redshift (Row keysMatch updated deduplicatedSource snapshotInsert keyOf lastRecord)

/-- The write modes whose targets have the declared columns only. -/
inductive WriteMode (n : ℕ) where
  | scd1
  | incremental (cursorField : Fin n)
  | snapshot (snapshotField : Fin n)
  | replace
  deriving DecidableEq

def WriteMode.value {n : ℕ} : WriteMode n → String
  | .scd1 => "scd1"
  | .incremental _ => "incremental"
  | .snapshot _ => "snapshot"
  | .replace => "replace"

structure SnowflakeWriteError where
  message : String
  deriving DecidableEq

/-- Limits of the parts, and of the records that are loaded directly. -/
structure StagingSettings where
  maxRowsPerFile : ℕ
  maxLogicalBytesPerFile : ℕ
  directMaxRows : ℕ
  directMaxLogicalBytes : ℕ
  deriving DecidableEq

/-- What the load history identifies the loads of one run by. -/
structure RunIdentity where
  targetId : String
  pipelineId : String
  runId : String
  deriving DecidableEq

/-- A row of `dander_stage_loads`. -/
structure LoadHistory where
  run : RunIdentity
  sha256 : String
  deriving DecidableEq

structure Warehouse (T : Type) where
  table : T
  history : List LoadHistory

/-- What staging takes from the platform: the checks of a record's values, the size of a staged
row, and the checksums of a Parquet part and of directly loaded rows. -/
structure Platform (n : ℕ) (V : Type) where
  check : ℕ → Row n V → Except SnowflakeWriteError Unit
  logicalSize : Row n V × ℕ → ℕ
  fileSha256 : List (Row n V × ℕ) → String
  directChecksum : List (Row n V × ℕ) → String

section Staging

variable {n : ℕ} {V : Type} (platform : Platform n V) (settings : StagingSettings)

/-- The null checks of one record. -/
def checkRecord (businessKey : List (Fin n)) (cursorField snapshotField : Option (Fin n))
    (ordinal : ℕ) (record : Row n V) : Except SnowflakeWriteError Unit :=
  if businessKey.any (fun field => (record field).isNone) then
    .error ⟨s!"Record {ordinal} has a null business-key value"⟩
  else if cursorField.any (fun field => (record field).isNone) then
    .error ⟨s!"Record {ordinal} has a null incremental cursor value"⟩
  else if snapshotField.any (fun field => (record field).isNone) then
    .error ⟨s!"Record {ordinal} has a null snapshot value"⟩
  else .ok ()

def withOrdinals (businessKey : List (Fin n)) (cursorField snapshotField : Option (Fin n)) :
    ℕ → List (Row n V) → Except SnowflakeWriteError (List (Row n V × ℕ))
  | _, [] => .ok []
  | ordinal, record :: rest => do
    checkRecord businessKey cursorField snapshotField ordinal record
    platform.check ordinal record
    return (record, ordinal) :: (← withOrdinals businessKey cursorField snapshotField
      (ordinal + 1) rest)

/-- Whether all rows fit the direct limits, which are checked after each of them. -/
def fitsDirect : ℕ → ℕ → List (Row n V × ℕ) → Bool
  | _, _, [] => true
  | rows, bytes, row :: rest =>
    if settings.directMaxRows < rows + 1 ∨
        settings.directMaxLogicalBytes < bytes + platform.logicalSize row then false
    else fitsDirect (rows + 1) (bytes + platform.logicalSize row) rest

def selectDirectBatch (staged : List (Row n V × ℕ)) : Bool :=
  if settings.directMaxRows = 0 ∨ settings.directMaxLogicalBytes = 0 then false
  else fitsDirect platform settings 0 0 staged

/-- The parts that rows are staged in, filling `chunk` first. -/
def stageParts (chunk : List (Row n V × ℕ)) (chunkBytes : ℕ) :
    List (Row n V × ℕ) → List (List (Row n V × ℕ))
  | [] => if chunk.isEmpty then [] else [chunk]
  | row :: rest =>
    if !chunk.isEmpty && (decide (settings.maxRowsPerFile ≤ chunk.length) ||
        decide (settings.maxLogicalBytesPerFile < chunkBytes + platform.logicalSize row)) then
      chunk :: stageParts [row] (platform.logicalSize row) rest
    else stageParts (chunk ++ [row]) (chunkBytes + platform.logicalSize row) rest

/-- One staged part and its content identity. -/
structure StagedArtifact (n : ℕ) (V : Type) where
  rows : List (Row n V × ℕ)
  sha256 : String

def StagedArtifact.logicalBytes (artifact : StagedArtifact n V) : ℕ :=
  (artifact.rows.map platform.logicalSize).sum

/-- What is to be loaded: all rows directly, or parts. -/
inductive StagedLoad (n : ℕ) (V : Type) where
  | direct (rows : StagedArtifact n V)
  | manifest (artifacts : List (StagedArtifact n V))

def StagedLoad.artifacts : StagedLoad n V → List (StagedArtifact n V)
  | .direct rows => [rows]
  | .manifest artifacts => artifacts

def StagedLoad.rows (load : StagedLoad n V) : List (Row n V × ℕ) :=
  load.artifacts.flatMap StagedArtifact.rows

def validateManifestBounds : StagedLoad n V → Except SnowflakeWriteError Unit
  | .direct _ => .ok ()
  | .manifest artifacts =>
    if artifacts.any (fun artifact =>
        decide (settings.maxLogicalBytesPerFile < artifact.logicalBytes platform)) then
      .error ⟨"Snowflake staged artifact exceeds max_logical_bytes_per_file"⟩
    else .ok ()

def stagedLoad (staged : List (Row n V × ℕ)) : StagedLoad n V :=
  if selectDirectBatch platform settings staged then
    .direct ⟨staged, platform.directChecksum staged⟩
  else
    .manifest ((stageParts platform settings [] 0 staged).map
      fun rows => ⟨rows, platform.fileSha256 rows⟩)

/-- The load of some records, once all of them pass their checks. -/
def prepare (businessKey : List (Fin n)) (cursorField snapshotField : Option (Fin n))
    (records : List (Row n V)) : Except SnowflakeWriteError (StagedLoad n V) := do
  let staged ← withOrdinals platform businessKey cursorField snapshotField 0 records
  validateManifestBounds platform settings (stagedLoad platform settings staged)
  return stagedLoad platform settings staged

end Staging

section Loading

variable {n : ℕ} {V T : Type}

/-- The statements of a write mode: what they make of the target without rows and with some, and
whether a load that is partly recorded is loaded whole. -/
structure Publication (n : ℕ) (V T : Type) where
  empty : T → T
  statements : T → List (Row n V × ℕ) → T
  reloadsAll : Bool

variable (run : RunIdentity) (publication : Publication n V T) (warehouse : Warehouse T)

def artifactCommitted (history : List LoadHistory) (artifact : StagedArtifact n V) : Bool :=
  decide (⟨run, artifact.sha256⟩ ∈ history)

/-- The parts that the history does not have. -/
def pendingArtifacts (history : List LoadHistory) (load : StagedLoad n V) :
    List (StagedArtifact n V) :=
  load.artifacts.filter fun artifact => !artifactCommitted run history artifact

/-- `INSERT ... WHERE NOT EXISTS` of one part's history. -/
def loadHistoryInsert (history : List LoadHistory) (artifact : StagedArtifact n V) :
    List LoadHistory :=
  if artifactCommitted run history artifact then history
  else history ++ [⟨run, artifact.sha256⟩]

def loadAndPublish (load : StagedLoad n V) : Warehouse T :=
  let pending := pendingArtifacts run warehouse.history load
  if load.rows.isEmpty then { warehouse with table := publication.empty warehouse.table }
  else if pending.isEmpty then warehouse
  else
    let artifactsToLoad := if publication.reloadsAll then load.artifacts else pending
    ⟨publication.statements warehouse.table (artifactsToLoad.flatMap StagedArtifact.rows),
      pending.foldl (loadHistoryInsert run) warehouse.history⟩

end Loading

section Publications

variable {n : ℕ} {V : Type} [LinearOrder V]

/-- `incoming.cursor >= target.cursor`, if there is a cursor; a null satisfies it never. -/
def matchedCondition (cursorField : Option (Fin n)) (incoming row : Row n V) : Bool :=
  match cursorField with
  | none => true
  | some field =>
    match incoming field, row field with
    | some a, some b => decide (b ≤ a)
    | _, _ => false

/-- `MERGE ... WHEN MATCHED AND ... THEN UPDATE ... WHEN NOT MATCHED THEN INSERT`. -/
def merge (businessKey : List (Fin n)) (cursorField : Option (Fin n))
    (table : Multiset (Row n V)) (staged : List (Row n V × ℕ)) : Multiset (Row n V) :=
  let incoming := deduplicatedSource businessKey cursorField staged
  table.map (fun row =>
    match incoming.find? (keysMatch businessKey row) with
    | some new => if matchedCondition cursorField new row then updated businessKey row new else row
    | none => row) +
  Multiset.ofList (incoming.filter fun new =>
    decide (∀ row ∈ table, keysMatch businessKey row new = false))

def publicationStatements (mode : WriteMode n) (businessKey : List (Fin n)) :
    Publication n V (Multiset (Row n V)) where
  empty table := if mode = .replace then 0 else table
  statements table staged :=
    match mode with
    | .replace => Multiset.ofList (staged.map Prod.fst)
    | .snapshot snapshotField => snapshotInsert snapshotField table staged
    | .scd1 => merge businessKey none table staged
    | .incremental cursorField => merge businessKey (some cursorField) table staged
  reloadsAll := decide (mode = .replace)

/-- A writer with the key of its target. -/
structure Writer (n : ℕ) where
  mode : WriteMode n
  businessKey : List (Fin n)
  settings : StagingSettings

def Writer.cursorField (writer : Writer n) : Option (Fin n) :=
  match writer.mode with
  | .incremental field => some field
  | _ => none

def Writer.snapshotField (writer : Writer n) : Option (Fin n) :=
  match writer.mode with
  | .snapshot field => some field
  | _ => none

def validateTarget (writer : Writer n) : Except SnowflakeWriteError Unit :=
  match writer.mode with
  | .snapshot _ | .replace => .ok ()
  | mode =>
    if writer.businessKey = [] then
      .error ⟨"Snowflake " ++ mode.value ++ " writes require a business key"⟩
    else .ok ()

def Writer.prepare (writer : Writer n) (platform : Platform n V) (records : List (Row n V)) :
    Except SnowflakeWriteError (StagedLoad n V) := do
  validateTarget writer
  Snowflake.prepare platform writer.settings writer.businessKey writer.cursorField
    writer.snapshotField records

/-- One call of the writer. -/
def write (platform : Platform n V) (run : RunIdentity) (writer : Writer n)
    (warehouse : Warehouse (Multiset (Row n V))) (records : List (Row n V)) :
    Except SnowflakeWriteError (Warehouse (Multiset (Row n V))) := do
  let load ← writer.prepare platform records
  return loadAndPublish run (publicationStatements writer.mode writer.businessKey) warehouse load

end Publications

end Dander.Snowflake
