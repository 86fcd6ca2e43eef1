import Dander.ParquetStaging

/-!
# Direct loads

A writer takes records from its input while they fit the limits of a direct load. If all of them
do, they are loaded directly; otherwise the records taken are put back in front of the others.
-/
namespace Dander.Staging

open Warehouse (CanonicalField RelationSchema isIdentifier uniqueNames)

section Selection

variable {B : Type} (dumps : Value → Option String)

/-- The loop over the input: `taken` are the records taken from it, and `normalized` their rows. -/
def selectLoop (batch : List Record → List Record → ℕ → B) (schema : RelationSchema)
    (maxRows maxLogicalBytes : ℕ) :
    ℕ → List Record → List Record → ℕ → List Record →
      Except StagingArtifactError (Option B × List Record)
  | _, taken, normalized, logicalBytes, [] => .ok (some (batch taken normalized logicalBytes), [])
  | rowIndex, taken, normalized, logicalBytes, record :: iterator => do
    let row ← normalizeStagingRecord dumps record schema rowIndex
    let bytes := logicalBytes + stagingLogicalSize row
    if maxRows < (taken ++ [record]).length ∨ maxLogicalBytes < bytes then
      return (none, taken ++ [record] ++ iterator)
    else
      selectLoop batch schema maxRows maxLogicalBytes (rowIndex + 1) (taken ++ [record])
        (normalized ++ [row]) bytes iterator

/-- Chooses direct only after the complete endpoint fits both bounded limits. -/
def selectBatch (batch : List Record → List Record → ℕ → B) (records : List Record)
    (schema : RelationSchema) (maxRows maxLogicalBytes : ℕ) :
    Except StagingArtifactError (Option B × List Record) :=
  if maxRows = 0 ∨ maxLogicalBytes = 0 then .ok (none, records)
  else selectLoop dumps batch schema maxRows maxLogicalBytes 0 [] [] 0 records

end Selection

section Writers

structure PostgresqlBatch where
  records : List Record
  logicalBytes : ℕ

structure SnowflakeBatch where
  rows : List Record
  logicalBytes : ℕ
  sha256 : String

structure RedshiftBatch where
  rows : List Record
  logicalBytes : ℕ
  schemaFingerprint : String
  sha256 : String

/-- The digests of a schema and of directly loaded rows. -/
structure Digests where
  schemaFingerprint : RelationSchema → String
  directChecksum : RelationSchema → List Record → String

variable (dumps : Value → Option String) (digests : Digests)

/-- `_select_direct_batch` of the PostgreSQL writer. -/
def postgresqlSelectDirectBatch (records : List Record) (schema : RelationSchema) :
    ℕ → ℕ → Except StagingArtifactError (Option PostgresqlBatch × List Record) :=
  selectBatch dumps (fun raw _ logicalBytes => ⟨raw, logicalBytes⟩) records schema

/-- `_select_direct_batch` of the Snowflake writer. -/
def snowflakeSelectDirectBatch (records : List Record) (schema : RelationSchema) :
    ℕ → ℕ → Except StagingArtifactError (Option SnowflakeBatch × List Record) :=
  selectBatch dumps (fun _ rows logicalBytes =>
    ⟨rows, logicalBytes, digests.directChecksum schema rows⟩) records schema

/-- `_select_direct_batch` of the Redshift writer. -/
def redshiftSelectDirectBatch (records : List Record) (schema : RelationSchema) :
    ℕ → ℕ → Except StagingArtifactError (Option RedshiftBatch × List Record) :=
  selectBatch dumps (fun _ rows logicalBytes =>
    ⟨rows, logicalBytes, digests.schemaFingerprint schema,
      digests.directChecksum schema rows⟩) records schema

end Writers

section Selected

variable {B : Type} {dumps : Value → Option String}
  {batch : List Record → List Record → ℕ → B} {schema : RelationSchema}
  {maxRows maxLogicalBytes : ℕ}

/-- The rows of the whole stream, within both limits. -/
def Fits (dumps : Value → Option String) (schema : RelationSchema) (maxRows maxLogicalBytes : ℕ)
    (records rows : List Record) : Prop :=
  normalizeRecords dumps schema 0 records = .ok rows ∧ rows.length ≤ maxRows ∧
    rowsSize rows ≤ maxLogicalBytes

/-- What a selection returns, and why it raises. -/
structure Selects (dumps : Value → Option String) (batch : List Record → List Record → ℕ → B)
    (schema : RelationSchema) (maxRows maxLogicalBytes : ℕ) (records : List Record)
    (selection : Except StagingArtifactError (Option B × List Record)) : Prop where
  returned : ∀ direct remaining, selection = .ok (direct, remaining) →
    (direct = none ∧ remaining = records ∧ ¬ (0 < maxRows ∧ 0 < maxLogicalBytes ∧
      ∃ rows, Fits dumps schema maxRows maxLogicalBytes records rows)) ∨
    ∃ rows, direct = some (batch records rows (rowsSize rows)) ∧ remaining = [] ∧
      0 < maxRows ∧ 0 < maxLogicalBytes ∧
      Fits dumps schema maxRows maxLogicalBytes records rows
  raised : ∀ error, selection = .error error →
    normalizeRecords dumps schema 0 records = .error error

theorem length_normalizeRecords {rowIndex : ℕ} {records rows : List Record}
    (h : normalizeRecords dumps schema rowIndex records = .ok rows) :
    rows.length = records.length := by
  induction records generalizing rowIndex rows with
  | nil =>
    cases h
    rfl
  | cons record rest ih =>
    obtain ⟨row, hrow, h⟩ := Execution.bind_eq_ok h
    obtain ⟨others, hothers, h⟩ := Execution.bind_eq_ok h
    cases h
    rw [List.length_cons, List.length_cons, ih hothers]

/-- The rows of the stream, after those that the loop has taken. -/
theorem normalizeRecords_append {first second : List Record} {rowIndex : ℕ}
    {rows : List Record} (h : normalizeRecords dumps schema rowIndex first = .ok rows) :
    normalizeRecords dumps schema rowIndex (first ++ second) =
      (normalizeRecords dumps schema (rowIndex + first.length) second).map (rows ++ ·) := by
  induction first generalizing rowIndex rows with
  | nil =>
    cases h
    simp only [List.nil_append, List.length_nil, Nat.add_zero]
    cases normalizeRecords dumps schema rowIndex second <;> rfl
  | cons record rest ih =>
    obtain ⟨row, hrow, h⟩ := Execution.bind_eq_ok h
    obtain ⟨others, hothers, h⟩ := Execution.bind_eq_ok h
    cases h
    rw [List.cons_append, normalizeRecords, hrow, Execution.ok_bind, ih hothers,
      List.length_cons, show rowIndex + 1 + rest.length = rowIndex + (rest.length + 1) by omega]
    cases normalizeRecords dumps schema (rowIndex + (rest.length + 1)) second <;> rfl

/-- The loop, once it has taken records that fit. -/
theorem selectLoop_selects (hrows : 0 < maxRows) (hbytes : 0 < maxLogicalBytes)
    {iterator taken normalized : List Record}
    (h : Fits dumps schema maxRows maxLogicalBytes taken normalized) :
    Selects dumps batch schema maxRows maxLogicalBytes (taken ++ iterator)
      (selectLoop dumps batch schema maxRows maxLogicalBytes taken.length taken normalized
        (rowsSize normalized) iterator) := by
  induction iterator generalizing taken normalized with
  | nil =>
    rw [List.append_nil]
    refine ⟨?_, fun other hraised => by cases hraised⟩
    intro direct remaining hreturned
    cases hreturned
    exact .inr ⟨normalized, rfl, rfl, hrows, hbytes, h⟩
  | cons record iterator ih =>
    obtain ⟨htaken, hlength, hsize⟩ := h
    have hstream := @normalizeRecords_append _ _ _ (record :: iterator) _ _ htaken
    rw [Nat.zero_add] at hstream
    have hlengths := length_normalizeRecords htaken
    unfold selectLoop
    cases hrow : normalizeStagingRecord dumps record schema taken.length with
    | error error =>
      refine ⟨fun direct remaining hreturned => (by cases hreturned), ?_⟩
      intro other hraised
      cases hraised
      rw [hstream, normalizeRecords, hrow]
      rfl
    | ok row =>
      have hsizes : rowsSize (normalized ++ [row]) =
          rowsSize normalized + stagingLogicalSize row := by
        rw [rowsSize_append, rowsSize_singleton]
      rw [Execution.ok_bind]
      dsimp only
      split
      next hcrossed =>
        refine ⟨?_, fun other hraised => by cases hraised⟩
        intro direct remaining hreturned
        cases hreturned
        refine .inl ⟨rfl, by simp, ?_⟩
        rintro ⟨-, -, rows, hall, hfits, hfit⟩
        rw [hstream, normalizeRecords, hrow, Execution.ok_bind] at hall
        cases hothers : normalizeRecords dumps schema (taken.length + 1) iterator with
        | error error =>
          rw [hothers] at hall
          cases hall
        | ok others =>
          rw [hothers] at hall
          cases hall
          dsimp only at hfits hfit
          have hsplit : normalized ++ row :: others = normalized ++ [row] ++ others := by simp
          rw [hsplit, rowsSize_append, hsizes] at hfit
          rw [hsplit, List.length_append, List.length_append, List.length_singleton] at hfits
          simp only [List.length_append, List.length_singleton] at hcrossed
          omega
      next hroom =>
        simp only [List.length_append, List.length_singleton, not_or, not_lt] at hroom
        have hnext : Fits dumps schema maxRows maxLogicalBytes (taken ++ [record])
            (normalized ++ [row]) := by
          refine ⟨?_, ?_, by rw [hsizes]; exact hroom.2⟩
          · rw [normalizeRecords_append htaken, Nat.zero_add, normalizeRecords, hrow]
            rfl
          · rw [List.length_append, List.length_singleton]
            omega
        have hrest := ih hnext
        rw [hsizes, List.length_append, List.length_singleton, List.append_assoc] at hrest
        exact hrest

theorem selectBatch_selects {records : List Record} :
    Selects dumps batch schema maxRows maxLogicalBytes records
      (selectBatch dumps batch records schema maxRows maxLogicalBytes) := by
  unfold selectBatch
  split
  next hzero =>
    refine ⟨?_, fun other hraised => by cases hraised⟩
    intro direct remaining hreturned
    cases hreturned
    refine .inl ⟨rfl, rfl, ?_⟩
    rintro ⟨hrows, hbytes, -⟩
    omega
  next hpositive =>
    have hempty : Fits dumps schema maxRows maxLogicalBytes [] [] :=
      ⟨rfl, Nat.zero_le _, Nat.zero_le _⟩
    exact selectLoop_selects (by omega) (by omega) hempty

end Selected

section Agreement

variable (dumps : Value → Option String) (digests : Digests) (records : List Record)
  (schema : RelationSchema) (maxRows maxLogicalBytes : ℕ)

theorem payload_isIdentifier : isIdentifier "payload" = true := by decide

def payloadField : CanonicalField :=
  ⟨"payload", .json, .nullable, "", [], payload_isIdentifier, List.Pairwise.nil⟩

theorem uniqueNames_payload : uniqueNames [payloadField] = true := by decide

def jsonSchema : RelationSchema :=
  ⟨[payloadField], List.cons_ne_nil _ _, uniqueNames_payload⟩

end Agreement

end Dander.Staging
