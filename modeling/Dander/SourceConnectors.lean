import Dander.PipelineRunner

/-!
# Source connectors

What each connector asks a source for when a run resumes from a watermark: a request parameter, a
condition on a field, or everything. Which rows the source then has is not up to the connector.
-/
namespace Dander.Runtime

section Requests

/-- The engines of the built-in connectors. -/
inductive IngestionEngine where
  | dlt
  | netsuiteSuiteql
  | odooJson2
  | salesforceBulk2
  | workdayRaas
  deriving Repr, DecidableEq

/-- The part of a request that depends on the watermark. -/
inductive SinceClause where
  | none
  | param (name value : String)
  | domain (field value : String)
  | whereClause (field literal : String)
  deriving Repr, DecidableEq

/-- An empty text counts as a missing one. -/
def orField (cursorParam incrementalCursor : Option String) : Option String :=
  if cursorParam.all fun name => decide (name = "") then incrementalCursor else cursorParam

/-- The parameter of the REST adapter. An empty one is a watermark that is only recorded. -/
def buildRestConfig (endpoint : Endpoint) (since : Option String) : SinceClause :=
  let cursorParam :=
    match endpoint.cursorParam with
    | none => endpoint.incrementalCursor
    | some name => some name
  match since, cursorParam with
  | some since, some name => if name = "" then .none else .param name since
  | _, _ => .none

def workdayParams (endpoint : Endpoint) (since : Option String) : SinceClause :=
  match since, orField endpoint.cursorParam endpoint.incrementalCursor with
  | some since, some name => .param name since
  | _, _ => .none

/-- The query is sent as it is declared: a full read. -/
def netsuiteQuery (_ : Endpoint) (_ : Option String) : SinceClause := .none

def odooDomain (endpoint : Endpoint) (since : Option String) : SinceClause :=
  match since, endpoint.incrementalCursor with
  | some since, some field => .domain field since
  | _, _ => .none

/-- The literal is the cursor as a UTC time, if it is a time with an offset. -/
def salesforceQueryBody (datetimeLiteral : String → Option String) (endpoint : Endpoint)
    (since : Option String) : Option SinceClause :=
  match since with
  | none => some .none
  | some since =>
    match endpoint.incrementalCursor with
    | none => none
    | some field => (datetimeLiteral since).map (.whereClause field)

/-- The request of a connector; nothing if it raises. -/
def IngestionEngine.request (datetimeLiteral : String → Option String) (engine : IngestionEngine)
    (endpoint : Endpoint) (since : Option String) : Option SinceClause :=
  match engine with
  | .dlt => some (buildRestConfig endpoint since)
  | .netsuiteSuiteql => some (netsuiteQuery endpoint since)
  | .odooJson2 => some (odooDomain endpoint since)
  | .salesforceBulk2 => salesforceQueryBody datetimeLiteral endpoint since
  | .workdayRaas => some (workdayParams endpoint since)

end Requests

section Sources

variable {Record : Type}

/-- A source at one time: what it yields for each endpoint and request. -/
abbrev Source (Record : Type) := String → SinceClause → Extraction Record

/-- A configured connector and its source. -/
structure Connector where
  engine : IngestionEngine
  datetimeLiteral : String → Option String
  config : SourceConfig

def Connector.extract (connector : Connector) (source : Source Record) (endpoint : Endpoint)
    (since : Option String) : Extraction Record :=
  match connector.engine.request connector.datetimeLiteral endpoint since with
  | none => ⟨[], true⟩
  | some boundary => source endpoint.name boundary

/-- A connector looks its endpoint up by name. -/
def Connector.extractNamed (connector : Connector) (source : Source Record) (name : String)
    (since : Option String) : Extraction Record :=
  match connector.config.endpoints.find? fun endpoint => decide (endpoint.name = name) with
  | none => ⟨[], true⟩
  | some endpoint => connector.extract source endpoint since

theorem Connector.extractNamed_eq {connector : Connector} {endpoint : Endpoint}
    (hendpoint : endpoint ∈ connector.config.endpoints) (source : Source Record)
    (since : Option String) :
    connector.extractNamed source endpoint.name since = connector.extract source endpoint since := by
  unfold Connector.extractNamed
  have hfound : (connector.config.endpoints.find? fun other =>
      decide (other.name = endpoint.name)) = some endpoint := by
    cases hfind : connector.config.endpoints.find? fun other =>
        decide (other.name = endpoint.name) with
    | none =>
      have hnone := List.find?_eq_none.mp hfind endpoint hendpoint
      simp at hnone
    | some other =>
      have hname := List.find?_some hfind
      have hother := List.mem_of_find?_eq_some hfind
      rw [List.inj_on_of_nodup_map connector.config.names_unique hother hendpoint
        (of_decide_eq_true hname)]
  rw [hfound]

end Sources

end Dander.Runtime
