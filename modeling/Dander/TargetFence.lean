import Dander.FenceTables

/-!
# Destination-side target fencing

A run claims a target in the fence table of its destination, and publishes inside a
transaction that touches the claimed row first and marks it committed last. The four
implementations word and order the same two operations for their warehouses.
-/
namespace Dander.Fence

open Interleaving Concurrency

section Relations

/-- `[A-Za-z_]` and at most 254 more characters. -/
def isRelationIdentifier (further : Char → Bool) (text : String) : Bool :=
  isSegment further text.toList && decide (text.toList.length ≤ 255)

/-- Unrendered catalog, namespace and relation coordinates. -/
structure RelationRef where
  catalog : String
  namespaceName : String
  name : String
  catalogValid : isRelationIdentifier (fun c => c = '-') catalog = true
  namespaceValid : isRelationIdentifier (fun _ => false) namespaceName = true
  nameValid : isRelationIdentifier (fun _ => false) name = true

def RelationRef.coordinates (target : RelationRef) : List String :=
  [target.catalog, target.namespaceName, target.name]

def RelationRef.targetId (target : RelationRef) : String := joinDots target.coordinates

/-- Rejects identifiers Redshift would silently truncate. -/
def validateRedshiftRelation (target : RelationRef) : Except ValueError Unit :=
  if [target.namespaceName, target.name].any (fun value => 127 < value.utf8ByteSize) then
    .error ⟨"Redshift namespace and relation identifiers cannot exceed 127 bytes"⟩
  else .ok ()

theorem dot_not_mem_of_isSegment {further : Char → Bool} (hfurther : further '.' = false)
    {chars : List Char} (h : isSegment further chars = true) : '.' ∉ chars := by
  cases chars with
  | nil => simp
  | cons first rest =>
    simp only [isSegment, Bool.and_eq_true, List.all_eq_true] at h
    obtain ⟨hfirst, hrest⟩ := h
    intro hmem
    rcases List.mem_cons.mp hmem with rfl | hmem
    · revert hfirst
      decide
    · have hdot := hrest '.' hmem
      rw [hfurther] at hdot
      revert hdot
      decide

theorem RelationRef.dot_not_mem (target : RelationRef) :
    ∀ part ∈ target.coordinates, '.' ∉ part.toList := by
  have hvalid : ∀ {further : Char → Bool} {text : String}, further '.' = false →
      isRelationIdentifier further text = true → '.' ∉ text.toList := by
    intro further text hfurther h
    rw [isRelationIdentifier, Bool.and_eq_true] at h
    exact dot_not_mem_of_isSegment hfurther h.1
  intro part hmem
  simp only [coordinates, List.mem_cons, List.not_mem_nil, or_false] at hmem
  rcases hmem with rfl | rfl | rfl
  · exact hvalid (by decide) target.catalogValid
  · exact hvalid rfl target.namespaceValid
  · exact hvalid rfl target.nameValid

theorem RelationRef.coordinates_inj {first second : RelationRef}
    (h : first.targetId = second.targetId) : first.coordinates = second.coordinates := by
  have hfirst := splitDots_joinDots (by simp [coordinates]) first.dot_not_mem
  have hsecond := splitDots_joinDots (by simp [coordinates]) second.dot_not_mem
  rw [← hfirst, ← hsecond]
  exact congrArg splitDots h

end Relations

section Tables

def fenceTableName : Provider → String
  | .bigquery => "_dander_target_commits"
  | _ => "dander_target_commits"

/-- The fence table beside a target, as the claim addresses it. -/
def fenceTable (provider : Provider) (target : RelationRef) : List String :=
  match provider with
  | .postgresql => [target.namespaceName, fenceTableName provider]
  | .redshift => [target.namespaceName, fenceTableName provider]
  | .snowflake => [target.catalog, target.namespaceName, fenceTableName provider]
  | .bigquery => [target.catalog, target.namespaceName, fenceTableName provider]

/-- The coordinates that the claim's fence carries. -/
def fenceTableParts (provider : Provider) (target : RelationRef) : List String :=
  match provider with
  | .postgresql => [target.namespaceName, fenceTableName provider]
  | _ => [target.catalog, target.namespaceName, fenceTableName provider]

variable {D : Type}

/-- What the fences raise; a lost fence is an assertion of the script in BigQuery. -/
inductive FenceError where
  | value (e : ValueError)
  | lost (message : String)
  | database (fault : Fault)
  deriving Repr, DecidableEq

abbrev FenceAction (D α : Type) := Prog (FenceOp D) FenceReply FenceError α

/-- The fence table a publication addresses, from the text its fence carries. -/
def publicationTable (provider : Provider) (catalog : String) (fence : TargetFence) :
    Except FenceError (List String) :=
  match provider with
  | .postgresql =>
    let parts := splitDots fence.fenceTable
    if parts.length ≠ 2 || parts.any (fun part => part = "") then
      .error (.value ⟨"Invalid PostgreSQL target-fence table"⟩)
    else .ok parts
  | .redshift =>
    let parts := splitDots fence.fenceTable
    if parts.length ≠ 3 then .error (.value ⟨"Invalid Redshift target-fence table"⟩)
    else .ok (parts.drop 1)
  | .snowflake =>
    let parts := splitDots fence.fenceTable
    if parts.length ≠ 3 || parts.any (fun part => part = "") then
      .error (.value ⟨"Invalid Snowflake target-fence table"⟩)
    else .ok parts
  | .bigquery =>
    let parts := splitDots fence.fenceTable
    if !isTableId fence.fenceTable || parts.head? ≠ some catalog then
      .error (.value ⟨"BigQuery target fence belongs to another runtime project"⟩)
    else .ok parts

end Tables

section Programs

variable {D : Type}

def liftReply {α : Type} : Except Fault α → FenceAction D α
  | .ok value => .ret value
  | .error fault => .raise (.database fault)

def liftValue {α : Type} : Except ValueError α → FenceAction D α
  | .ok value => .ret value
  | .error e => .raise (.value e)

def liftFence {α : Type} : Except FenceError α → FenceAction D α
  | .ok value => .ret value
  | .error e => .raise e

def beginTransaction : FenceAction D (Session D) :=
  .call .begin fun (reply : Except Fault (Session D)) => liftReply reply

def lockTable (session : Session D) (table : List String) : FenceAction D Unit :=
  .call (.lock session table) fun (reply : Except Fault Unit) => liftReply reply

def selectClaim (session : Session D) (key : FenceKey) : FenceAction D (Option Owner) :=
  .call (.selectClaim session key) fun (reply : Except Fault (Option Owner)) => liftReply reply

def insertClaim (session : Session D) (key : FenceKey) (owner : Owner) :
    FenceAction D (Session D) :=
  .call (.insertClaim session key owner) fun (reply : Except Fault (Session D)) => liftReply reply

def updateClaim (session : Session D) (key : FenceKey) (owner : Owner) :
    FenceAction D (Session D) :=
  .call (.updateClaim session key owner) fun (reply : Except Fault (Session D)) => liftReply reply

def mergeClaim (session : Session D) (key : FenceKey) (owner : Owner) :
    FenceAction D (ℕ × Session D) :=
  .call (.mergeClaim session key owner) fun (reply : Except Fault (ℕ × Session D)) =>
    liftReply reply

def touchFence (session : Session D) (key : FenceKey) (owner : Owner) :
    FenceAction D (ℕ × Session D) :=
  .call (.touch session key owner) fun (reply : Except Fault (ℕ × Session D)) => liftReply reply

def markCommitted (session : Session D) (key : FenceKey) (owner : Owner) :
    FenceAction D (ℕ × Session D) :=
  .call (.markCommitted session key owner) fun (reply : Except Fault (ℕ × Session D)) =>
    liftReply reply

def commitTransaction (session : Session D) : FenceAction D Unit :=
  .call (.commit session) fun (reply : Except Fault Unit) => liftReply reply

def rollbackTransaction (tx : ℕ) : FenceAction D Unit :=
  .call (.rollback tx) fun (reply : Except Fault Unit) => liftReply reply

/-- Any exception rolls the transaction back before it goes on. -/
def rollbackAndRaise {α : Type} (tx : ℕ) (e : FenceError) : FenceAction D α :=
  rollbackTransaction tx >>= fun _ => .raise e

def FencingToken.owner (fence : FencingToken) : Owner :=
  ⟨fence.resolvedAuthorityId, fence.authorityEpoch, fence.runId, fence.token⟩

def TargetFence.owner (fence : TargetFence) : Owner :=
  ⟨fence.authorityId, fence.authorityEpoch, fence.runId, fence.token⟩

def claimKey (provider : Provider) (target : RelationRef) (fence : FencingToken) : FenceKey :=
  ⟨fenceTable provider target, target.targetId, fence.pipelineId⟩

/-- The fence that a successful claim returns. -/
def targetFence (provider : Provider) (target : RelationRef) (fence : FencingToken) : TargetFence :=
  ⟨joinDots (fenceTableParts provider target), target.targetId, fence.resolvedAuthorityId,
    fence.authorityEpoch, fence.pipelineId, fence.runId, fence.token⟩

def returnFence (provider : Provider) (target : RelationRef) (fence : FencingToken) :
    FenceAction D TargetFence :=
  liftValue (targetFence provider target fence).postInit >>= fun _ =>
    .ret (targetFence provider target fence)

def claimLost (target : RelationRef) : FenceError :=
  .lost s!"Destination target '{target.targetId}' rejected stale publication ownership"

def postgresqlClaim (catalog : String) (target : RelationRef) (fence : FencingToken) :
    FenceAction D TargetFence :=
  if target.catalog ≠ catalog then
    .raise (.value ⟨"PostgreSQL target fence must use the runtime database"⟩)
  else
    beginTransaction >>= fun session =>
    (mergeClaim session (claimKey .postgresql target fence) (FencingToken.owner fence) >>=
      fun (count, session) =>
        commitTransaction session >>= fun _ => .ret count).tryCatch
      (rollbackAndRaise session.id) >>= fun count =>
    if count = 0 then .raise (claimLost target)
    else returnFence .postgresql target fence

/-- The claim under the table lock: a missing row is inserted, an older or equal one updated. -/
def claimLocked (session : Session D) (target : RelationRef) (key : FenceKey) (owner : Owner) :
    FenceAction D (Session D) :=
  lockTable session key.table >>= fun _ =>
  selectClaim session key >>= fun current =>
    match current with
    | none => insertClaim session key owner
    | some current =>
      if claimIsAllowed current owner then updateClaim session key owner
      else .raise (claimLost target)

def redshiftClaim (catalog : String) (target : RelationRef) (fence : FencingToken) :
    FenceAction D TargetFence :=
  liftValue (validateRedshiftRelation target) >>= fun _ =>
    if target.catalog ≠ catalog then
      .raise (.value ⟨"Redshift target fence must use the configured database"⟩)
    else
      beginTransaction >>= fun session =>
      (claimLocked session target (claimKey .redshift target fence) (FencingToken.owner fence) >>=
        commitTransaction).tryCatch (rollbackAndRaise session.id) >>= fun _ =>
      returnFence .redshift target fence

/-- An error closes the connection, which ends the transaction. -/
def snowflakeClaim (catalog : String) (target : RelationRef) (fence : FencingToken) :
    FenceAction D TargetFence :=
  if target.catalog ≠ catalog then
    .raise (.value ⟨"Snowflake target fence must use the configured database"⟩)
  else
    beginTransaction >>= fun session =>
    (mergeClaim session (claimKey .snowflake target fence) (FencingToken.owner fence) >>=
      fun (count, session) =>
        if count = 0 then .raise (claimLost target)
        else commitTransaction session).tryCatch (rollbackAndRaise session.id) >>= fun _ =>
    returnFence .snowflake target fence

/-- Runs a mutation, repeating only what a concurrent update aborted. -/
def runMutationWithRetry {α : Type} (submit : FenceAction D α) : ℕ → FenceAction D α
  | 0 => submit
  | more + 1 => submit.tryCatch fun e =>
    if e = .database .concurrentUpdate then runMutationWithRetry submit more else .raise e

/-- One merge statement, committed by itself. -/
def submitMerge (key : FenceKey) (owner : Owner) : FenceAction D ℕ :=
  beginTransaction >>= fun session =>
  (mergeClaim session key owner >>= fun (count, session) =>
    commitTransaction session >>= fun _ => .ret count).tryCatch (rollbackAndRaise session.id)

def bigqueryClaim (project : String) (target : RelationRef) (fence : FencingToken) :
    FenceAction D TargetFence :=
  if target.catalog ≠ project then
    .raise (.value ⟨"BigQuery target fence must use the runtime project"⟩)
  else
    runMutationWithRetry (submitMerge (claimKey .bigquery target fence) (FencingToken.owner fence))
        4 >>= fun count =>
    if count ≠ 1 then .raise (claimLost target)
    else returnFence .bigquery target fence

def claim (provider : Provider) (catalog : String) (target : RelationRef)
    (fence : FencingToken) : FenceAction D TargetFence :=
  match provider with
  | .postgresql => postgresqlClaim catalog target fence
  | .redshift => redshiftClaim catalog target fence
  | .snowflake => snowflakeClaim catalog target fence
  | .bigquery => bigqueryClaim catalog target fence

/-- How a provider words and orders the publication transaction. -/
structure PublicationPlan where
  locksTable : Bool
  isLost : ℕ → Bool
  lostBefore : FenceError
  lostDuring : FenceError

def publicationPlan : Provider → PublicationPlan
  | .postgresql => ⟨false, fun count => count = 0,
      .lost "Dander destination fence lost before publication",
      .lost "Dander destination fence lost during publication"⟩
  | .redshift => ⟨true, fun count => count ≠ 1,
      .lost "Dander destination fence lost before publication",
      .lost "Dander destination fence lost during publication"⟩
  | .snowflake => ⟨false, fun count => count = 0,
      .lost "Dander destination fence lost before publication",
      .lost "Dander destination fence lost during publication"⟩
  | .bigquery => ⟨false, fun count => count ≠ 1, .lost "Dander destination fence lost",
      .lost "Dander destination fence lost"⟩

def runStatements (session : Session D) : List (D → Option D) → FenceAction D (Session D)
  | [] => .ret session
  | statement :: rest =>
    .call (.statement session statement) fun (reply : Except Fault (Session D)) =>
      liftReply reply >>= fun session => runStatements session rest

/-- Touch, publish and mark: everything before the commit. -/
def prepareWithin (plan : PublicationPlan) (session : Session D) (key : FenceKey) (owner : Owner)
    (statements : List (D → Option D)) : FenceAction D (Session D) :=
  (if plan.locksTable then lockTable session key.table else .ret ()) >>= fun _ =>
  touchFence session key owner >>= fun (touched, session) =>
  if plan.isLost touched then .raise plan.lostBefore
  else
    runStatements session statements >>= fun session =>
    markCommitted session key owner >>= fun (marked, session) =>
    if plan.isLost marked then .raise plan.lostDuring
    else .ret session

def publishWithin (plan : PublicationPlan) (key : FenceKey) (owner : Owner)
    (statements : List (D → Option D)) : FenceAction D Unit :=
  beginTransaction >>= fun session =>
  (prepareWithin plan session key owner statements >>= commitTransaction).tryCatch
    (rollbackAndRaise session.id)

/-- The connection libraries refuse an empty group; a BigQuery script is one text. -/
def requireStatements (provider : Provider) (statements : List (D → Option D)) :
    Except FenceError Unit :=
  match provider with
  | .postgresql => if statements.isEmpty then
      .error (.value ⟨"PostgreSQL fenced publication requires at least one statement"⟩) else .ok ()
  | .redshift => if statements.isEmpty then
      .error (.value ⟨"Redshift fenced publication requires at least one statement"⟩) else .ok ()
  | .snowflake => if statements.isEmpty then
      .error (.value ⟨"Snowflake fenced publication requires at least one statement"⟩) else .ok ()
  | .bigquery => .ok ()

/-- Publishes an ordered statement group behind an exact target fence. -/
def executeStatements (provider : Provider) (catalog : String) (fence : TargetFence)
    (statements : List (D → Option D)) : FenceAction D Unit :=
  liftFence (requireStatements provider statements) >>= fun _ =>
  liftFence (publicationTable provider catalog fence) >>= fun table =>
    publishWithin (publicationPlan provider) ⟨table, fence.targetId, fence.pipelineId⟩
      (TargetFence.owner fence) statements

/-- One call of a worker, or the server that ends an abandoned transaction. -/
inductive FenceCall (D : Type) where
  | claim (target : RelationRef) (fence : FencingToken)
  | publish (fence : TargetFence) (statements : List (D → Option D))
  | expire (tx : ℕ)

inductive FenceOutcome where
  | claimed (fence : TargetFence)
  | done

def perform (provider : Provider) (catalog : String) :
    FenceCall D → FenceAction D FenceOutcome
  | .claim target fence => claim provider catalog target fence >>= fun fence => .ret (.claimed fence)
  | .publish fence statements =>
    executeStatements provider catalog fence statements >>= fun _ => .ret .done
  | .expire tx => rollbackTransaction tx >>= fun _ => .ret .done

end Programs

end Dander.Fence
