import Dander.Identifiers
import Mathlib.Data.Int.Notation
import Mathlib.Tactic.Common

/-!
# Shared state-lease and destination-publication fencing contracts
-/
namespace Dander.Concurrency

/-- A `ValueError` raised by one of the constructors. -/
structure ValueError where
  message : String
  deriving Repr, DecidableEq

section Syntax

def isLetter (c : Char) : Bool :=
  (97 ≤ c.toNat && c.toNat ≤ 122) || (65 ≤ c.toNat && c.toNat ≤ 90)

/-- `[A-Za-z_][A-Za-z0-9_]*`, with the further characters a segment may have after its first. -/
def isSegment (further : Char → Bool) : List Char → Bool
  | [] => false
  | first :: rest => (isLetter first || first = '_') &&
      rest.all (fun c => isAlphanumeric c || c = '_' || further c)

/-- `value.split('.')`. -/
def splitDots (text : String) : List String :=
  (text.toList.splitOn '.').map String.ofList

/-- `'.'.join(parts)`. -/
def joinDots (parts : List String) : String :=
  String.ofList (['.'].intercalate (parts.map String.toList))

/-- Splitting undoes joining when no part has a dot. -/
theorem splitDots_joinDots {parts : List String} (hne : parts ≠ [])
    (hdots : ∀ part ∈ parts, '.' ∉ part.toList) : splitDots (joinDots parts) = parts := by
  have hsplit : (['.'].intercalate (parts.map String.toList)).splitOn '.' =
      parts.map String.toList := by
    apply List.splitOn_intercalate
    · intro chars hmem
      obtain ⟨part, hpart, rfl⟩ := List.mem_map.mp hmem
      exact hdots part hpart
    · simpa using hne
  simp [splitDots, joinDots, hsplit]

/-- A BigQuery table id: project, dataset and table. -/
def isTableId (text : String) : Bool :=
  match text.toList.splitOn '.' with
  | [project, dataset, table] => isSegment (fun c => c = '-') project &&
      isSegment (fun _ => false) dataset && isSegment (fun _ => false) table
  | _ => false

/-- An alphanumeric, then 2 to 255 alphanumerics, dots, underscores, colons, slashes or
hyphens. -/
def isAuthorityId (text : String) : Bool :=
  match text.toList with
  | [] => false
  | first :: rest => isAlphanumeric first && decide (2 ≤ rest.length) &&
      decide (rest.length ≤ 255) && rest.all (fun c => isAlphanumeric c || c = '.' || c = '_' ||
        c = ':' || c = '/' || c = '-')

end Syntax

/-- One run's ownership token issued by a durable-state authority. -/
structure FencingToken where
  leaseTable : Option String
  pipelineId : String
  runId : String
  token : ℤ
  authorityId : Option String
  authorityEpoch : ℤ
  deriving Repr, DecidableEq

def FencingToken.postInit (fence : FencingToken) : Except ValueError Unit := do
  if fence.leaseTable.any (fun table => !isTableId table) then
    throw ⟨"Invalid BigQuery lease table"⟩
  if fence.pipelineId = "" || fence.runId = "" then
    throw ⟨"Fencing identifiers must be non-empty"⟩
  if fence.token ≤ 0 then
    throw ⟨"Fencing token must be a positive integer"⟩
  if fence.authorityId.isNone && fence.leaseTable.isNone then
    throw ⟨"Fencing token requires an authority id"⟩
  if fence.authorityId.any (fun authority => !isAuthorityId authority) then
    throw ⟨"Invalid fencing authority id"⟩
  if fence.authorityEpoch ≤ 0 then
    throw ⟨"Fencing authority epoch must be a positive integer"⟩

/-- The explicit authority, or the BigQuery deployment of the lease table. -/
def FencingToken.resolvedAuthorityId (fence : FencingToken) : String :=
  match fence.authorityId with
  | some authority => authority
  | none => "bigquery:" ++ joinDots (splitDots (fence.leaseTable.getD "")).dropLast

/-- One destination target claimed by an exact state lease owner. -/
structure TargetFence where
  fenceTable : String
  targetId : String
  authorityId : String
  authorityEpoch : ℤ
  pipelineId : String
  runId : String
  token : ℤ
  deriving Repr, DecidableEq

def TargetFence.postInit (fence : TargetFence) : Except ValueError Unit := do
  if fence.fenceTable = "" || fence.targetId = "" then
    throw ⟨"Target fence identifiers must be non-empty"⟩
  if !isAuthorityId fence.authorityId then
    throw ⟨"Invalid target-fence authority id"⟩
  if fence.authorityEpoch ≤ 0 then
    throw ⟨"Target-fence authority epoch must be a positive integer"⟩
  if fence.pipelineId = "" || fence.runId = "" then
    throw ⟨"Target-fence run identifiers must be non-empty"⟩
  if fence.token ≤ 0 then
    throw ⟨"Target-fence token must be a positive integer"⟩

end Dander.Concurrency
