import Dander.PortableSql

/-!
# The scopes of portable queries

A common table expression is visible behind its declaration in the same clause, throughout it if the
clause is recursive, and in the query that the clause belongs to. The check of tables compares
their names with the names of all common table expressions of the query. So it keeps a query
within its relations exactly if no name is used where its declaration is not visible.
-/
namespace Dander.Transform

open Execution

section Scopes

/-- The names that the clause of a query declares. -/
def declaredNames (query : Expression) : List String :=
  match query.child "with_" with
  | some clause => clause.children.map Expression.aliasOrName
  | none => []

/-- The names that are visible in a part of a clause behind other parts of it. -/
def namesWithin (visible : List String) (clause : Expression) (before : List Expression) :
    List String :=
  if Argument.truth (clause.arg "recursive") then
    visible ++ clause.children.map Expression.aliasOrName
  else visible ++ before.map Expression.aliasOrName

/-- A node below a root, and the names that are visible there if some are visible at the root. -/
inductive Scoped : List String → Expression → List String → Expression → Prop where
  | here (visible : List String) (root : Expression) : Scoped visible root visible root
  | inside {visible names : List String} {root child node : Expression} {key : String}
      {value : Argument} (arg : (key, value) ∈ root.args) (other : key ≠ "with_")
      (part : child ∈ value.expressions)
      (below : Scoped (visible ++ declaredNames root) child names node) :
      Scoped visible root names node
  | clause {visible : List String} {root clause : Expression} {value : Argument}
      (arg : ("with_", value) ∈ root.args) (part : clause ∈ value.expressions) :
      Scoped visible root visible clause
  | declaration {visible names : List String} {root clause cte node : Expression}
      {value : Argument} {before after : List Expression}
      (arg : ("with_", value) ∈ root.args) (part : clause ∈ value.expressions)
      (place : clause.children = before ++ cte :: after)
      (below : Scoped (namesWithin visible clause before) cte names node) :
      Scoped visible root names node

/-- A table reference is a visible common table expression or an allowed relation. -/
def Resolves (allowed : List (List String)) (names : List String) (table : Expression) : Prop :=
  ((coordinates table).length = 1 ∧ table.name ∈ names) ∨ coordinates table ∈ allowed

/-- Every table reference of the query resolves. -/
def Isolated (allowed : List (List String)) (query : Expression) : Prop :=
  ∀ names table, Scoped [] query names table → table.type = .table → Resolves allowed names table

/-- The reference has the name of a common table expression that is not visible there. -/
def Astray (allowed : List (List String)) (query : Expression) (names : List String)
    (table : Expression) : Prop :=
  (coordinates table).length = 1 ∧ table.name ∈ cteNames query ∧ table.name ∉ names ∧
    coordinates table ∉ allowed

end Scopes

section Walks

variable {visit : Visit} {a b : List (List Visit)} {parent parent' : Option NodeType}
  {expression child node : Expression}

theorem mem_besides : visit ∈ (besides a b).flatten ↔ visit ∈ a.flatten ∨ visit ∈ b.flatten := by
  induction a, b using besides.induct with
  | case1 others => simp [besides]
  | case2 levels hlevels =>
    cases levels with
    | nil => exact absurd rfl hlevels
    | cons level levels => simp [besides]
  | case3 level levels other others ih =>
    simp only [besides, List.flatten_cons, List.mem_append, ih]
    grind

/-- The nodes of a walk. -/
def Expression.nodes (expression : Expression) : List Expression :=
  expression.walk.map Visit.node

theorem mem_map_besides : node ∈ (besides a b).flatten.map Visit.node ↔
    node ∈ a.flatten.map Visit.node ∨ node ∈ b.flatten.map Visit.node := by
  simp only [List.mem_map, mem_besides]
  grind

/-- The nodes of a subtree do not depend on what is above it. -/
theorem mem_levels : node ∈ (levels parent expression).flatten.map Visit.node ↔
    node ∈ expression.nodes := by
  obtain ⟨type, args⟩ := expression
  simp [Expression.nodes, Expression.walk, levels]

theorem mem_expressionLevels {type : NodeType} {expressions : List Expression} :
    node ∈ (expressionLevels type expressions).flatten.map Visit.node ↔
      ∃ child ∈ expressions, node ∈ child.nodes := by
  induction expressions with
  | nil => simp [expressionLevels]
  | cons first rest ih =>
    rw [expressionLevels, mem_map_besides, mem_levels, ih]
    simp

theorem mem_argumentLevels {type : NodeType} {args : List (String × Argument)} :
    node ∈ (argumentLevels type args).flatten.map Visit.node ↔
      ∃ child ∈ args.flatMap (fun arg => arg.2.expressions), node ∈ child.nodes := by
  induction args with
  | nil => simp [argumentLevels]
  | cons first rest ih =>
    obtain ⟨key, value⟩ := first
    cases value with
    | one expression =>
      rw [argumentLevels, mem_map_besides, mem_levels, ih]
      simp [Argument.expressions]
    | many expressions =>
      rw [argumentLevels, mem_map_besides, mem_expressionLevels, ih]
      simp only [List.flatMap_cons, List.mem_append, Argument.expressions]
      grind
    | text value =>
      rw [argumentLevels, ih]
      simp [Argument.expressions]
    | flag value =>
      rw [argumentLevels, ih]
      simp [Argument.expressions]
    | type value =>
      rw [argumentLevels, ih]
      simp [Argument.expressions]

/-- A walk visits the root and what walks from its children visit. -/
theorem mem_nodes_iff : node ∈ expression.nodes ↔
    node = expression ∨ ∃ child ∈ expression.children, node ∈ child.nodes := by
  obtain ⟨type, args⟩ := expression
  have hlevels : node ∈ (Expression.node type args).nodes ↔ node = .node type args ∨
      node ∈ (argumentLevels type args).flatten.map Visit.node := by
    simp [Expression.nodes, Expression.walk, levels]
  rw [hlevels, mem_argumentLevels]
  rfl

theorem mem_findAll {type : NodeType} :
    node ∈ expression.findAll type ↔ node ∈ expression.nodes ∧ node.type = type := by
  simp only [Expression.findAll, Expression.visits, Expression.nodes, List.mem_map,
    List.mem_filter, decide_eq_true_eq]
  grind

theorem self_mem_nodes : expression ∈ expression.nodes := mem_nodes_iff.mpr (.inl rfl)

theorem mem_nodes_of_child (hchild : child ∈ expression.children) (hnode : node ∈ child.nodes) :
    node ∈ expression.nodes :=
  mem_nodes_iff.mpr (.inr ⟨child, hchild, hnode⟩)

theorem sizeOf_lt_of_expressions {value : Argument} (hchild : child ∈ value.expressions) :
    sizeOf child < sizeOf value := by
  cases value with
  | one expression =>
    obtain rfl := List.mem_singleton.mp hchild
    simp
  | many expressions =>
    have hlt : sizeOf child < sizeOf expressions := List.sizeOf_lt_of_mem hchild
    simp only [Argument.many.sizeOf_spec]
    omega
  | text value => cases hchild
  | flag value => cases hchild
  | type value => cases hchild

theorem sizeOf_lt_of_args {key : String} {value : Argument} (harg : (key, value) ∈ expression.args)
    (hchild : child ∈ value.expressions) : sizeOf child < sizeOf expression := by
  obtain ⟨type, args⟩ := expression
  have hvalue := sizeOf_lt_of_expressions hchild
  have harg : sizeOf (key, value) < sizeOf args := List.sizeOf_lt_of_mem harg
  simp only [Prod.mk.sizeOf_spec] at harg
  simp only [Expression.node.sizeOf_spec]
  omega

end Walks

section Coverage

variable {visible names : List String} {root node : Expression}

/-- What is within a scope of a root is visited by its walk. -/
theorem Scoped.mem_nodes (h : Scoped visible root names node) : node ∈ root.nodes := by
  induction h with
  | here => exact self_mem_nodes
  | inside arg _ part _ ih =>
    exact mem_nodes_of_child (List.mem_flatMap.mpr ⟨_, arg, part⟩) ih
  | clause arg part =>
    exact mem_nodes_of_child (List.mem_flatMap.mpr ⟨_, arg, part⟩) self_mem_nodes
  | declaration arg part place _ ih =>
    refine mem_nodes_of_child (List.mem_flatMap.mpr ⟨_, arg, part⟩) ?_
    exact mem_nodes_of_child (by simp [place]) ih

/-- Every visited node has its scope. -/
theorem exists_scoped (root : Expression) (visible : List String) (hnode : node ∈ root.nodes) :
    ∃ names, Scoped visible root names node := by
  rcases mem_nodes_iff.mp hnode with rfl | ⟨child, hchild, hbelow⟩
  · exact ⟨visible, .here visible node⟩
  · obtain ⟨⟨key, value⟩, harg, hpart⟩ := List.mem_flatMap.mp hchild
    have hsize := sizeOf_lt_of_args harg hpart
    by_cases hkey : key = "with_"
    · subst hkey
      rcases mem_nodes_iff.mp hbelow with rfl | ⟨cte, hcte, hdeep⟩
      · exact ⟨visible, .clause harg hpart⟩
      · obtain ⟨before, after, hplace⟩ := List.append_of_mem hcte
        obtain ⟨⟨key, within⟩, hwithin, hcteIn⟩ := List.mem_flatMap.mp hcte
        have hsmaller := sizeOf_lt_of_args hwithin hcteIn
        obtain ⟨names, hscoped⟩ := exists_scoped cte (namesWithin visible child before) hdeep
        exact ⟨names, .declaration harg hpart hplace hscoped⟩
    · obtain ⟨names, hscoped⟩ := exists_scoped child (visible ++ declaredNames root) hbelow
      exact ⟨names, .inside harg hkey hpart hscoped⟩
termination_by sizeOf root
decreasing_by
  · omega
  · omega

end Coverage

section Isolation

variable {tools : SqlTools} {sql : String} {uniqueColumns : List String}
  {allowed : List (List String)} {query : Expression}

theorem validateTable_eq_ok {names : List String} {table : Expression}
    (h : validateTable names (some allowed) table = .ok ()) :
    ((coordinates table).length = 1 ∧ table.name ∈ names) ∨ coordinates table ∈ allowed := by
  unfold validateTable at h
  split at h
  next hname => exact .inl hname
  next =>
    split at h
    · cases h
    · split at h
      · cases h
      next hallowed =>
        right
        simpa using hallowed

/-- An accepted query is kept within its relations exactly if no reference is astray. -/
theorem accepted_isolated_iff (tools : SqlTools) (sql : String) (uniqueColumns : List String)
    (allowed : List (List String)) (query : Expression)
    (haccepted : parsePortableQuery tools sql uniqueColumns (some allowed) = .ok query) :
    Isolated allowed query ↔ ∀ names table, Scoped [] query names table → table.type = .table →
      ¬ Astray allowed query names table := by
  obtain ⟨-, -, htables⟩ := parsePortableQuery_eq_ok haccepted
  constructor
  · intro hisolated names table hscoped htype hastray
    obtain ⟨-, -, hinvisible, hforeign⟩ := hastray
    rcases hisolated names table hscoped htype with ⟨-, hvisible⟩ | hallowed
    · exact hinvisible hvisible
    · exact hforeign hallowed
  · intro hnone names table hscoped htype
    have hmem : table ∈ query.findAll .table := mem_findAll.mpr ⟨hscoped.mem_nodes, htype⟩
    have hchecked := forM_eq_ok.mp htables table hmem
    rcases validateTable_eq_ok hchecked with ⟨hone, hname⟩ | hallowed
    · by_contra hresolves
      apply hnone names table hscoped htype
      refine ⟨hone, hname, ?_, ?_⟩
      · exact fun hvisible => hresolves (.inl ⟨hone, hvisible⟩)
      · exact fun hallowed => hresolves (.inr hallowed)
    · exact .inr hallowed

end Isolation

section Queries

def cteNamed (name : String) (query : Expression) : Expression :=
  .node .cte [("this", .one query),
    ("alias", .one (.node .tableAlias [("this", .one (identifier name))]))]

def withClause (ctes : List Expression) : List (String × Argument) :=
  [("with_", .one (.node .with_ [("expressions", .many ctes)]))]

def storedOrders : SqlTools :=
  toolsFor "SELECT id FROM staging.orders" (selectId [] (tableIn "staging" "orders"))
    [word "SELECT", word "id", word "FROM", word "staging", word ".", word "orders"]

theorem stored_orders_isolated :
    Isolated [["staging", "orders"]] (selectId [] (tableIn "staging" "orders")) := by
  have haccepted : parsePortableQuery storedOrders "SELECT id FROM staging.orders" []
      (some [["staging", "orders"]]) = .ok (selectId [] (tableIn "staging" "orders")) :=
    parsePortableQuery_of_isSome (parseOne_toolsFor _ _ _) (by decide +kernel)
  rw [accepted_isolated_iff storedOrders _ _ _ _ haccepted]
  rintro names table - - ⟨-, hname, -⟩
  have hnone : cteNames (selectId [] (tableIn "staging" "orders")) = [] := by
    decide +kernel
  rw [hnone] at hname
  cases hname

/-- The query of the first clause names the second one. -/
def forwardQuery : Expression :=
  selectId (withClause [cteNamed "recent" (selectId [] (tableNamed "orders")),
    cteNamed "orders" (selectId [] (tableIn "staging" "orders"))]) (tableNamed "recent")

def forwardSql : String :=
  "WITH recent AS (SELECT id FROM orders), orders AS (SELECT id FROM staging.orders) " ++
    "SELECT id FROM recent"

def forwardTools : SqlTools :=
  toolsFor forwardSql forwardQuery
    [word "WITH", word "recent", word "AS", ⟨.lParen, "("⟩, word "SELECT", word "id", word "FROM",
      word "orders", ⟨.rParen, ")"⟩, ⟨.comma, ","⟩, word "orders", word "AS", ⟨.lParen, "("⟩,
      word "SELECT", word "id", word "FROM", word "staging", word ".", word "orders",
      ⟨.rParen, ")"⟩, word "SELECT", word "id", word "FROM", word "recent"]

/-- The first clause reads a relation of the name of the second one. -/
theorem forward_reference_accepted :
    parsePortableQuery forwardTools forwardSql [] (some [["staging", "orders"]]) =
        .ok forwardQuery ∧ ¬ Isolated [["staging", "orders"]] forwardQuery := by
  have haccepted : parsePortableQuery forwardTools forwardSql []
      (some [["staging", "orders"]]) = .ok forwardQuery :=
    parsePortableQuery_of_isSome (parseOne_toolsFor _ _ _) (by decide +kernel)
  refine ⟨haccepted, ?_⟩
  intro hisolated
  have hfrom : Scoped [] (.node .from_ [("this", .one (tableNamed "orders"))]) []
      (tableNamed "orders") :=
    .inside List.mem_cons_self (by decide) List.mem_cons_self (.here _ _)
  have hselect : Scoped [] (selectId [] (tableNamed "orders")) [] (tableNamed "orders") :=
    .inside (List.mem_cons_of_mem _ List.mem_cons_self) (by decide) List.mem_cons_self hfrom
  have hcte : Scoped [] (cteNamed "recent" (selectId [] (tableNamed "orders"))) []
      (tableNamed "orders") :=
    .inside List.mem_cons_self (by decide) List.mem_cons_self hselect
  have hscoped : Scoped [] forwardQuery [] (tableNamed "orders") :=
    @Scoped.declaration [] [] forwardQuery _ _ _ _ [] _ List.mem_cons_self
      (List.mem_singleton_self _) rfl hcte
  rcases hisolated _ _ hscoped rfl with ⟨-, hname⟩ | hallowed
  · cases hname
  · revert hallowed
    decide +kernel

end Queries

end Dander.Transform
