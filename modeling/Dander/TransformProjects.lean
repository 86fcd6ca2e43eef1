import Dander.DepthFirst
import Dander.PortableSql
import Dander.TargetFence
import Dander.TemplateRefs

/-!
# Transform projects

Discovery of the models beneath a directory, the relations their references stand
for, the order they are built in and the query a model compiles to.
-/
namespace Dander.Transform

open Concurrency (isSegment)
open Fence (RelationRef isRelationIdentifier)

section Data

inductive SqlDialect
  | portable
  | bigquery
  | snowflake
  | redshift
  | postgres
  deriving DecidableEq, Repr

def SqlDialect.all : List SqlDialect := [.portable, .bigquery, .snowflake, .redshift, .postgres]

def SqlDialect.value : SqlDialect → String
  | .portable => "portable"
  | .bigquery => "bigquery"
  | .snowflake => "snowflake"
  | .redshift => "redshift"
  | .postgres => "postgres"

def SqlDialect.ofValue? (value : String) : Option SqlDialect :=
  SqlDialect.all.find? fun dialect => dialect.value = value

structure Path where
  parent : List String
  name : String
  deriving DecidableEq

structure GenericTestMetadata where
  column : String
  unique : Bool
  deriving DecidableEq

/-- What compilation and ordering read of a validated sidecar. -/
structure ModelMetadata where
  model : String
  dialect : SqlDialect
  dataset : String
  tests : List GenericTestMetadata
  identifier : isSegment (fun _ => false) model.toList = true
  deriving DecidableEq

structure TransformModel where
  metadata : ModelMetadata
  sql : String
  refs : List String
  sqlPath : Path
  deriving DecidableEq

def TransformModel.name (model : TransformModel) : String := model.metadata.model

/-- A `TransformProjectError`, a pydantic error, a `TemplateError`, or another exception. -/
inductive ProjectError
  | transformProject (message : String)
  | validation
  | template
  | raised
  deriving DecidableEq

def fail {α : Type} (message : String) : Except ProjectError α :=
  .error (.transformProject message)

end Data

section Relations

/-- What a project resolves references against. -/
structure Relations where
  catalog : String
  rawNamespace : String
  models : List TransformModel
  targetDialect : SqlDialect
  deriving DecidableEq

variable (relations : Relations)

def Relations.names : List String := relations.models.map (·.name)

/-- `self.models.get(name)`. -/
def Relations.model? (name : String) : Option TransformModel :=
  relations.models.find? fun model => model.name = name

def relationRef (catalog namespaceName name : String) : Except ProjectError RelationRef :=
  if h : isRelationIdentifier (fun c => c = '-') catalog = true ∧
      isRelationIdentifier (fun _ => false) namespaceName = true ∧
      isRelationIdentifier (fun _ => false) name = true then
    .ok ⟨catalog, namespaceName, name, h.1, h.2.1, h.2.2⟩
  else .error .validation

def Relations.relationRefForModel (model : TransformModel) : Except ProjectError RelationRef :=
  relationRef relations.catalog model.metadata.dataset model.name

def rawPrefix : List Char := ['r', 'a', 'w', '_']

def Relations.relationRefForRef (reference : String) : Except ProjectError RelationRef :=
  match relations.model? reference with
  | some model => relations.relationRefForModel model
  | none =>
    match reference.toList.dropPrefix? rawPrefix with
    | some table =>
      if isSegment (fun _ => false) table then
        relationRef relations.catalog relations.rawNamespace (String.ofList table)
      else fail ("Unknown model reference: " ++ reference)
    | none => fail ("Unknown model reference: " ++ reference)

def Relations.validateReferences : Except ProjectError Unit :=
  relations.models.forM fun model =>
    model.refs.forM fun reference => do
      let _ ← relations.relationRefForRef reference
      return ()

end Relations

/-- Models of different names whose references all resolve. -/
structure TransformProject extends Relations where
  unique : toRelations.names.Nodup
  resolved : toRelations.validateReferences = .ok ()

section Construction

/-- `^[a-z][a-z0-9-]{4,28}[a-z0-9]$`. -/
def isProjectId (text : String) : Bool :=
  match text.toList with
  | [] => false
  | first :: rest => decide ('a' ≤ first ∧ first ≤ 'z') && decide (5 ≤ rest.length) &&
      decide (rest.length ≤ 29) && rest.all (fun c => isLowerOrDigit c || c = '-') &&
        rest.getLast?.any isLowerOrDigit

/-- `^[a-z_][a-z0-9_]{0,62}$`. -/
def isPostgresqlCatalog (text : String) : Bool :=
  match text.toList with
  | [] => false
  | first :: rest => (decide ('a' ≤ first ∧ first ≤ 'z') || first = '_') &&
      decide (rest.length ≤ 62) && rest.all fun c => isLowerOrDigit c || c = '_'

def checkCatalog (dialect : SqlDialect) (catalog rawNamespace : String) :
    Except ProjectError Unit :=
  match dialect with
  | .bigquery => if isProjectId catalog then .ok () else fail "Invalid GCP project id"
  | .postgres =>
    if isPostgresqlCatalog catalog then .ok () else fail "Invalid PostgreSQL database name"
  | _ =>
    match relationRef catalog rawNamespace "dander_validation" with
    | .ok _ => .ok ()
    | .error _ => fail "Invalid warehouse relation coordinates"

def checkNamespace (dialect : SqlDialect) (rawNamespace : String) : Except ProjectError Unit :=
  if (dialect = .bigquery ∨ dialect = .postgres) ∧
      isSegment (fun _ => false) rawNamespace.toList = false then
    fail "Invalid raw namespace identifier"
  else .ok ()

/-- The name a list repeats first. -/
def firstRepeated : List String → List String → Option String
  | _, [] => none
  | seen, name :: rest => if name ∈ seen then some name else firstRepeated (name :: seen) rest

theorem nodup_of_firstRepeated {seen names : List String} (h : firstRepeated seen names = none) :
    names.Nodup ∧ ∀ name ∈ names, name ∉ seen := by
  induction names generalizing seen with
  | nil => simp
  | cons name rest ih =>
    unfold firstRepeated at h
    split at h
    · cases h
    next hnew =>
      obtain ⟨hnodup, hfresh⟩ := ih h
      refine ⟨List.nodup_cons.mpr ⟨fun hmem => hfresh name hmem (by simp), hnodup⟩, ?_⟩
      intro other hother
      rcases List.mem_cons.mp hother with rfl | hother
      · exact hnew
      · exact fun hmem => hfresh other hother (List.mem_cons_of_mem _ hmem)

def chosenCatalog : Option String → Option String → Except ProjectError String
  | some catalog, some projectId =>
    if projectId ≠ catalog then fail "catalog and legacy project_id must match" else .ok catalog
  | some catalog, none => .ok catalog
  | none, some projectId => .ok projectId
  | none, none => fail "Warehouse catalog is required"

def knownDialect (value : String) : Except ProjectError SqlDialect :=
  match SqlDialect.ofValue? value with
  | some dialect => .ok dialect
  | none => fail ("Unknown target SQL dialect: " ++ value)

/-- The checks that end the constructor. -/
def validated (relations : Relations) : Except ProjectError TransformProject :=
  match hunique : firstRepeated [] relations.names with
  | some name => fail ("Duplicate model name: " ++ name)
  | none =>
    if relations.models.isEmpty then fail "No SQL models were found"
    else
      match hresolved : relations.validateReferences with
      | .error failure => .error failure
      | .ok () => .ok ⟨relations, (nodup_of_firstRepeated hunique).1, hresolved⟩

def TransformProject.init (catalog projectId : Option String) (rawNamespace : String)
    (models : List TransformModel) (targetDialect : String) :
    Except ProjectError TransformProject := do
  let catalog ← chosenCatalog catalog projectId
  let dialect ← knownDialect targetDialect
  checkCatalog dialect catalog rawNamespace
  checkNamespace dialect rawNamespace
  validated ⟨catalog, rawNamespace, models, dialect⟩

end Construction

section Discovery

/-- The files beneath the models directory. -/
structure ModelsDirectory where
  sqlPaths : List Path
  present : Path → Bool
  loadModelMetadata : Path → Except String ModelMetadata
  readText : Path → Except String String

/-- A file name's stem and suffix. -/
def splitName (name : String) : String × String :=
  let reversed := name.toList.reverse
  let suffix := reversed.takeWhile (· ≠ '.')
  match reversed.dropWhile (· ≠ '.') with
  | _ :: stem =>
    if stem = [] ∨ suffix = [] then (name, "")
    else (String.ofList stem.reverse, "." ++ String.ofList suffix.reverse)
  | [] => (name, "")

def Path.stem (path : Path) : String := (splitName path.name).1

def Path.withSuffix (path : Path) (suffix : String) : Path := ⟨path.parent, path.stem ++ suffix⟩

def variantSuffix (dialect : SqlDialect) : List Char := ("." ++ dialect.value ++ ".sql").toList

def variantDialects : List SqlDialect := SqlDialect.all.filter (· ≠ .portable)

def providerVariant (path : Path) : Except ProjectError (Option SqlDialect) :=
  let declares (dialect : SqlDialect) : Bool :=
    (variantSuffix dialect).isSuffixOf path.name.toList
  match variantDialects.find? declares with
  | some dialect => .ok (some dialect)
  | none =>
    if declares .portable then
      fail "Portable SQL cannot be declared as a provider variant"
    else .ok none

/-- The file a provider variant stands in for. -/
def basePath (path : Path) (dialect : SqlDialect) : Path :=
  ⟨path.parent,
    String.ofList (path.name.toList.take (path.name.length - (variantSuffix dialect).length)) ++
      ".sql"⟩

def sortPaths (paths : List Path) : List Path :=
  paths.insertionSort fun first second =>
    first.parent ++ [first.name] ≤ second.parent ++ [second.name]

def Path.text (path : Path) : String := "/".intercalate (path.parent ++ [path.name])

def sidecar (directory : ModelsDirectory) (base : Path) : Option Path :=
  [base.withSuffix ".yml", base.withSuffix ".yaml"].find? directory.present

def orFail {α : Type} : Except String α → Except ProjectError α
  | .ok value => .ok value
  | .error message => fail message

def discover (directory : ModelsDirectory) (variants : List (Path × SqlDialect × Path))
    (selected : SqlDialect) (base : Path) : Except ProjectError TransformModel := do
  let sqlPath := ((variants.find? fun entry => entry.1 = base ∧ entry.2.1 = selected).map
    fun entry => entry.2.2).getD base
  let some sidecarPath := sidecar directory base
    | throw (.transformProject ("Missing YAML sidecar for model: " ++ base.text))
  let metadata ← orFail (directory.loadModelMetadata sidecarPath)
  let sql ← orFail (directory.readText sqlPath)
  if metadata.model ≠ base.stem then
    throw (.transformProject ("Model name '" ++ metadata.model ++ "' does not match SQL file '" ++
      base.name ++ "'"))
  let metadata := if sqlPath ≠ base then { metadata with dialect := selected } else metadata
  return ⟨metadata, sql, parseRefs sql, sqlPath⟩

def checkOrphaned (bases : List Path) (variants : List (Path × SqlDialect × Path)) :
    Except ProjectError Unit :=
  match sortPaths ((variants.filter fun entry => entry.1 ∉ bases).map fun entry => entry.2.2) with
  | [] => .ok ()
  | orphan :: _ => fail ("Provider SQL variant has no base model: " ++ orphan.text)

def load (directory : ModelsDirectory) (catalog projectId : Option String) (rawNamespace : String)
    (targetDialect : String) : Except ProjectError TransformProject := do
  let selected ← knownDialect targetDialect
  let found ← (sortPaths directory.sqlPaths).mapM fun path => do
    let variant ← providerVariant path
    return (path, variant)
  let bases := found.filterMap fun entry => if entry.2 = none then some entry.1 else none
  let variants := found.filterMap fun entry =>
    entry.2.map fun dialect => (basePath entry.1 dialect, dialect, entry.1)
  checkOrphaned bases variants
  let discovered ← bases.mapM (discover directory variants selected)
  TransformProject.init catalog projectId rawNamespace discovered selected.value

end Discovery

section Ordering

open DepthFirst (Search)

variable (relations : Relations)

/-- The references of a model that are models. -/
def Relations.successors (name : String) : List String :=
  match relations.model? name with
  | some model => model.refs.filter fun reference => (relations.model? reference).isSome
  | none => []

def Relations.roots : Option (List String) → List String
  | some selected => selected
  | none => relations.names.insertionSort (· ≤ ·)

def Relations.unknown (roots : List String) : List String :=
  (roots.filter (· ∉ relations.names)).eraseDups.insertionSort (· ≤ ·)

/-- The recursion is never deeper than the project has models. -/
def Relations.ordered (selected : Option (List String)) :
    Except ProjectError (List TransformModel) :=
  let roots := relations.roots selected
  if relations.unknown roots ≠ [] then
    fail ("Unknown selected models: " ++ ", ".intercalate (relations.unknown roots))
  else
    match roots.foldlM
        (DepthFirst.reach (DepthFirst.visit relations.successors relations.models.length))
        Search.start with
    | .ok search => .ok (search.order.filterMap relations.model?)
    | .error (.cycle walk) => fail ("Model dependency cycle: " ++ " -> ".intercalate walk)
    | .error .outOfDepth => .error .raised

end Ordering

section Compilation

/-- A template being rendered: it asks for relations and goes on with their texts.
Asking for anything but a text raises. -/
inductive Rendering
  | text (value : String)
  | templateError
  | raised
  | ref (reference : String) (next : String → Rendering)

def Rendering.run (ref : String → Except ProjectError String) :
    Rendering → Except ProjectError String
  | .text value => .ok value
  | .templateError => .error .template
  | .raised => .error .raised
  | .ref reference next =>
    match ref reference with
    | .ok relation => (next relation).run ref
    | .error failure => .error failure

/-- The references a rendering resolves, in order. -/
def Rendering.resolved (ref : String → Except ProjectError String) : Rendering → List String
  | .text _ | .templateError | .raised => []
  | .ref reference next =>
    match ref reference with
    | .ok relation => reference :: (next relation).resolved ref
    | .error _ => []

/-- Jinja, and the parsers and generators of the SQL dialects. -/
structure Engines where
  fromString : String → Rendering
  tools : SqlTools
  parseOne : SqlDialect → String → Option Expression
  sql : SqlDialect → Expression → String

/-- `expression.set(key, value)` -/
def setArg (key : String) (value : Argument) (args : List (String × Argument)) :
    List (String × Argument) :=
  if key ∈ args.map (·.1) then args.map fun arg => if arg.1 = key then (key, value) else arg
  else args ++ [(key, value)]

mutual

def quoteIdentifiers : Expression → Expression
  | .node type args =>
    if type = .identifier then .node type (setArg "quoted" (.flag true) (quoteArguments args))
    else .node type (quoteArguments args)

def quoteArguments : List (String × Argument) → List (String × Argument)
  | [] => []
  | (key, .one expression) :: rest =>
    (key, .one (quoteIdentifiers expression)) :: quoteArguments rest
  | (key, .many expressions) :: rest =>
    (key, .many (quoteExpressions expressions)) :: quoteArguments rest
  | (key, .text value) :: rest => (key, .text value) :: quoteArguments rest
  | (key, .flag value) :: rest => (key, .flag value) :: quoteArguments rest
  | (key, .type value) :: rest => (key, .type value) :: quoteArguments rest

def quoteExpressions : List Expression → List Expression
  | [] => []
  | expression :: rest => quoteIdentifiers expression :: quoteExpressions rest

end

def quotedIdentifier (name : String) : Expression :=
  .node .identifier [("this", .text name), ("quoted", .flag true)]

def strip (text : String) : String :=
  String.ofList (((text.toList.dropWhile isSpace).reverse.dropWhile isSpace).reverse)

/-- `compiled[:-1].rstrip()` of a text that ends with a semicolon. -/
def withoutSemicolon (text : String) : String :=
  match text.toList.reverse with
  | ';' :: rest => String.ofList (rest.dropWhile isSpace).reverse
  | _ => text

variable (engines : Engines)

def renderPortableQuery (expression : Expression) (target : SqlDialect) :
    Except PortableSqlError String :=
  match target with
  | .portable => .error ⟨"portable is an authored contract, not a render target"⟩
  | .snowflake => .ok (engines.sql .snowflake (quoteIdentifiers expression))
  | _ => .ok (engines.sql target expression)

def renderRelation (relation : RelationRef) (dialect : SqlDialect) : String :=
  match dialect with
  | .bigquery => "`" ++ ".".intercalate relation.coordinates ++ "`"
  | .postgres => engines.sql .postgres (.node .table
      [("this", .one (quotedIdentifier relation.name)),
        ("db", .one (quotedIdentifier relation.namespaceName))])
  | _ => engines.sql dialect (.node .table
      [("this", .one (quotedIdentifier relation.name)),
        ("db", .one (quotedIdentifier relation.namespaceName)),
        ("catalog", .one (quotedIdentifier relation.catalog))])

variable (relations : Relations)

def Relations.relationForRef (dialect : SqlDialect) (reference : String) :
    Except ProjectError String := do
  let relation ← relations.relationRefForRef reference
  return renderRelation engines relation dialect

def Relations.relationCoordinatesForRef (dialect : SqlDialect) (reference : String) :
    Except ProjectError (List String) := do
  let relation ← relations.relationRefForRef reference
  if dialect = .postgres then return [relation.namespaceName, relation.name]
  else return relation.coordinates

def Relations.resolvedTarget : Option String → Except ProjectError SqlDialect
  | none => .ok relations.targetDialect
  | some target => knownDialect target

/-- The dialect the references of a model are rendered in. -/
def referenceDialect (model : TransformModel) (target : SqlDialect) : SqlDialect :=
  if model.metadata.dialect = .portable then target else model.metadata.dialect

/-- The references a compilation resolves through `ref`. -/
def Relations.resolvedReferences (model : TransformModel) (targetDialect : Option String) :
    List String :=
  match relations.resolvedTarget targetDialect with
  | .ok target => (engines.fromString model.sql).resolved
      (relations.relationForRef engines (referenceDialect model target))
  | .error _ => []

def Relations.rendered (model : TransformModel) (dialect : SqlDialect) :
    Except ProjectError String :=
  match (engines.fromString model.sql).run (relations.relationForRef engines dialect) with
  | .ok text => .ok (withoutSemicolon (strip text))
  | .error .template | .error (.transformProject _) =>
    fail ("Cannot compile model " ++ model.name)
  | .error failure => .error failure

def Relations.compilePortable (model : TransformModel) (target : SqlDialect)
    (compiled : String) : Except ProjectError String := do
  let uniqueColumns := (model.metadata.tests.filter (·.unique)).map (·.column)
  let allowedRelations ← model.refs.mapM (relations.relationCoordinatesForRef target)
  let outcome := do
    let expression ← parsePortableQuery engines.tools compiled uniqueColumns (some allowedRelations)
    renderPortableQuery engines expression target
  match outcome with
  | .ok text => return text
  | .error failure =>
    fail ("Invalid portable SQL in model " ++ model.name ++ ": " ++ failure.message)

def compileExact (model : TransformModel) (compiled : String) : Except ProjectError String :=
  match engines.parseOne model.metadata.dialect compiled with
  | none => fail ("Invalid " ++ model.metadata.dialect.value ++ " SQL in model " ++ model.name)
  | some expression =>
    if expression.isQuery then .ok compiled
    else fail ("Model " ++ model.name ++ " must contain one read-only query")

def Relations.compile (model : TransformModel) (targetDialect : Option String) :
    Except ProjectError String := do
  let target ← relations.resolvedTarget targetDialect
  if target = .portable then
    throw (.transformProject "portable is an authored SQL contract, not a target")
  let authored := model.metadata.dialect
  if authored ≠ .portable ∧ authored ≠ target then
    throw (.transformProject ("Model " ++ model.name ++ " is " ++ authored.value ++
      " SQL and cannot target " ++ target.value))
  let compiled ← relations.rendered engines model (referenceDialect model target)
  if authored = .portable then relations.compilePortable engines model target compiled
  else compileExact engines model compiled

end Compilation

end Dander.Transform
