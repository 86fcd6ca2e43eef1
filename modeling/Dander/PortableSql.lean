import Dander.Execution
import Mathlib

/-!
# Portable SQL

A portable model is one query within a closed subset of SQL. The parser yields a syntax tree whose
nodes have named arguments; the checks walk this tree, and one of them the tokens of the text.
-/
namespace Dander.Transform

open Execution

section Syntax

/-- The kinds of nodes. Those that Dander assigns no portable semantics may be queries too. -/
inductive NodeType where
  | abs | add | alias_ | and | avg | between | boolean | case | cast | ceil | coalesce | column
  | concat | count | cte | dataType | dataTypeParam | denseRank | distinct | div | eq | floor
  | from_ | greatest | group | gt | gte | having | identifier | if_ | in_ | is | join | lag | lastValue
  | lead | least | length | like | limit | literal | lower | lt | lte | max | min | mod | mul | neg
  | neq | not | null | nullif | offset | or | order | ordered | paren | rank | round | rowNumber
  | select | star | sub | substring | subquery | sum | table | tableAlias | trim | tuple | union
  | upper | when | where_ | window | windowSpec | with_
  | unsupported (name : String) (query : Bool)
  deriving DecidableEq

inductive CastType where
  | bigint | boolean | date | decimal | double | text | time | timestamp | timestamptz | other
  deriving DecidableEq

mutual

/-- `exp.Expression` -/
inductive Expression where
  | node (type : NodeType) (args : List (String × Argument))

inductive Argument where
  | one (expression : Expression)
  | many (expressions : List Expression)
  | text (value : String)
  | flag (value : Bool)
  | type (value : CastType)

end

def Expression.type : Expression → NodeType
  | .node type _ => type

def Expression.args : Expression → List (String × Argument)
  | .node _ args => args

def Expression.arg (expression : Expression) (key : String) : Option Argument :=
  expression.args.lookup key

/-- The expression in an argument. -/
def Expression.child (expression : Expression) (key : String) : Option Expression :=
  match expression.arg key with
  | some (.one child) => some child
  | _ => none

/-- `expression.expressions` -/
def Expression.expressions (expression : Expression) : List Expression :=
  match expression.arg "expressions" with
  | some (.many expressions) => expressions
  | _ => []

def Argument.expressions : Argument → List Expression
  | .one expression => [expression]
  | .many expressions => expressions
  | _ => []

/-- `expression.iter_expressions()` -/
def Expression.children (expression : Expression) : List Expression :=
  expression.args.flatMap fun arg => arg.2.expressions

/-- The truth value of an argument. -/
def Argument.truth : Option Argument → Bool
  | none => false
  | some (.one _) | some (.type _) => true
  | some (.many expressions) => !expressions.isEmpty
  | some (.text value) => decide (value ≠ "")
  | some (.flag value) => value

/-- `expression.text(key)`: a text, or the text of an identifier or literal. -/
def Expression.text (expression : Expression) (key : String) : String :=
  match expression.arg key with
  | some (.text value) => value
  | some (.one (.node .identifier args)) | some (.one (.node .literal args)) =>
    match args.lookup "this" with
    | some (.text value) => value
    | _ => ""
  | some (.one (.node .star _)) => "*"
  | some (.one (.node .null _)) => "NULL"
  | _ => ""

/-- `expression.name`, and `column.name` and `table.name` alike. -/
def Expression.name (expression : Expression) : String := expression.text "this"

/-- `cte.alias_or_name` -/
def Expression.aliasOrName (expression : Expression) : String :=
  let declared :=
    match expression.child "alias" with
    | some declared => declared.name
    | none => expression.text "alias"
  if declared = "" then expression.name else declared

/-- `isinstance(expression, exp.Query)` -/
def Expression.isQuery (expression : Expression) : Bool :=
  match expression.type with
  | .select | .union | .subquery => true
  | .unsupported _ query => query
  | _ => false

/-- A node of a walk with the kind of its parent. -/
structure Visit where
  parent : Option NodeType
  node : Expression

/-- The nodes of several subtrees side by side, level by level. -/
def besides : List (List Visit) → List (List Visit) → List (List Visit)
  | [], others => others
  | levels, [] => levels
  | level :: levels, other :: others => (level ++ other) :: besides levels others

mutual

def levels (parent : Option NodeType) : Expression → List (List Visit)
  | .node type args => [⟨parent, .node type args⟩] :: argumentLevels type args

def argumentLevels (parent : NodeType) : List (String × Argument) → List (List Visit)
  | [] => []
  | (_, .one expression) :: rest =>
    besides (levels (some parent) expression) (argumentLevels parent rest)
  | (_, .many expressions) :: rest =>
    besides (expressionLevels parent expressions) (argumentLevels parent rest)
  | (_, .text _) :: rest | (_, .flag _) :: rest | (_, .type _) :: rest =>
    argumentLevels parent rest

def expressionLevels (parent : NodeType) : List Expression → List (List Visit)
  | [] => []
  | expression :: rest =>
    besides (levels (some parent) expression) (expressionLevels parent rest)

end

/-- `expression.walk()`: breadth first. -/
def Expression.walk (expression : Expression) : List Visit :=
  (levels none expression).flatten

def Expression.visits (expression : Expression) (type : NodeType) : List Visit :=
  expression.walk.filter fun visit => decide (visit.node.type = type)

/-- `expression.find_all(type)` -/
def Expression.findAll (expression : Expression) (type : NodeType) : List Expression :=
  (expression.visits type).map Visit.node

end Syntax

section Tokens

inductive TokenType where
  | lParen | rParen | comma | orderBy
  | fetch | having | limit | offset | qualify | union | where_
  | other
  deriving DecidableEq

structure Token where
  tokenType : TokenType
  text : String
  deriving DecidableEq

def TokenType.isOrderTerminator : TokenType → Bool
  | .fetch | .having | .limit | .offset | .qualify | .union | .where_ => true
  | _ => false

/-- What a token adds to the depth of the tokens behind it. -/
def TokenType.deepens : TokenType → ℤ
  | .lParen => 1
  | .rParen => -1
  | _ => 0

end Tokens

structure PortableSqlError where
  message : String
  deriving DecidableEq

/-- The parser and the tokenizer of the authored dialect, and the Unicode functions of Python. -/
structure SqlTools where
  parseOne : String → Option Expression
  tokenize : String → List Token
  nfc : String → String
  upper : String → String

section Checks

variable (tools : SqlTools)

def reject (message : String) : Except PortableSqlError Unit := .error ⟨message⟩

def isPortableIdentifier (value : String) : Bool :=
  match value.toList with
  | [] => false
  | first :: rest => (('a' ≤ first ∧ first ≤ 'z') ∨ first = '_') &&
      rest.all fun c => ('a' ≤ c ∧ c ≤ 'z') ∨ ('0' ≤ c ∧ c ≤ '9') ∨ c = '_'

def validateIdentifiers (expression : Expression) : Except PortableSqlError Unit :=
  (expression.visits .identifier).forM fun visit =>
    if Argument.truth (visit.node.arg "quoted") then
      if visit.parent = some .table then .ok ()
      else reject "portable logical identifiers must not be quoted"
    else if isPortableIdentifier visit.node.name then .ok ()
    else reject "portable logical identifiers must use lowercase snake_case names"

def validateLiterals (expression : Expression) : Except PortableSqlError Unit :=
  (expression.findAll .literal).forM fun literal =>
    if Argument.truth (literal.arg "is_string") ∧ tools.nfc literal.name ≠ literal.name then
      reject "portable string literals must use Unicode NFC normalization"
    else .ok ()

/-- `int` of a text of digits. -/
def digits (text : String) : Option ℕ :=
  if text ≠ "" ∧ text.toList.all Char.isDigit then
    some (text.toList.foldl (fun number c => 10 * number + (c.toNat - '0'.toNat)) 0)
  else none

/-- The value of a numeric parameter of a type. -/
def integerParameter (parameter : Expression) : Option ℕ :=
  match parameter.type, parameter.child "this" with
  | .dataTypeParam, some value =>
    if value.type = .literal ∧ ¬ Argument.truth (value.arg "is_string") then digits value.name
    else none
  | _, _ => none

/-- All parameters, or nothing if one is not an integer. -/
def integerParameters (parameters : List Expression) : List ℕ :=
  (parameters.mapM integerParameter).getD []

def validateCastParameters (target : CastType) (parameters : List Expression) :
    Except PortableSqlError Unit :=
  match target with
  | .decimal =>
    if integerParameters parameters ≠ [38, 9] then
      reject "portable DECIMAL casts must declare DECIMAL(38, 9)"
    else .ok ()
  | .time | .timestamp | .timestamptz =>
    if integerParameters parameters ≠ [6] then
      reject "portable time and timestamp casts must declare precision 6"
    else .ok ()
  | _ =>
    if !parameters.isEmpty then reject "portable scalar casts do not accept type parameters"
    else .ok ()

def validateCasts (expression : Expression) : Except PortableSqlError Unit :=
  (expression.findAll .cast).forM fun cast =>
    if Argument.truth (cast.arg "safe") then
      reject "portable SQL does not permit safe or try casts"
    else
      match cast.child "to" with
      | some (.node .dataType args) =>
        match args.lookup "this" with
        | some (.type target) =>
          if target = .other then reject "portable SQL cast target is unsupported"
          else validateCastParameters target (Expression.node .dataType args).expressions
        | _ => reject "portable SQL cast target is unsupported"
      | _ => reject "portable SQL cast target is unsupported"

def validateJoin (join : Expression) : Except PortableSqlError Unit :=
  let kind := tools.upper (join.text "kind")
  let side := tools.upper (join.text "side")
  let method := tools.upper (join.text "method")
  if method = "NATURAL" then reject "portable SQL does not permit NATURAL JOIN"
  else if kind = "CROSS" then
    if (join.arg "on").isSome ∨ Argument.truth (join.arg "using") then
      reject "portable CROSS JOIN cannot declare ON or USING"
    else .ok ()
  else if kind ∉ ["", "INNER", "OUTER"] then reject "portable SQL join type is unsupported"
  else if side ∉ ["", "INNER", "LEFT", "RIGHT", "FULL"] then
    reject "portable SQL join type is unsupported"
  else if kind = "OUTER" ∧ side ∉ ["LEFT", "RIGHT", "FULL"] then
    reject "portable OUTER JOIN must declare LEFT, RIGHT, or FULL"
  else if (join.arg "on").isNone ∧ ¬ Argument.truth (join.arg "using") then
    reject "portable JOIN must declare ON or USING"
  else .ok ()

def validateSetsAndJoins (expression : Expression) : Except PortableSqlError Unit := do
  (expression.findAll .union).forM fun union =>
    match union.arg "distinct" with
    | some (.flag false) =>
      if Argument.truth (union.arg "by_name") then reject "portable SQL supports UNION ALL only"
      else .ok ()
    | _ => reject "portable SQL supports UNION ALL only"
  (expression.findAll .join).forM (validateJoin tools)

def validateStarsAndDistinct (expression : Expression) : Except PortableSqlError Unit := do
  (expression.findAll .star).forM fun star =>
    if ["except_", "replace", "rename"].any fun key => Argument.truth (star.arg key) then
      reject "portable wildcard modifiers are unsupported"
    else .ok ()
  (expression.findAll .distinct).forM fun distinct =>
    if !distinct.expressions.isEmpty || Argument.truth (distinct.arg "on") then
      reject "portable SQL does not support DISTINCT ON"
    else .ok ()

/-- A window ends its order with a column that tests declare unique. -/
def validateWindow (uniqueColumns : List String) (window : Expression) :
    Except PortableSqlError Unit :=
  match window.child "order" with
  | some order =>
    match order.type, order.expressions.getLast? with
    | .order, some final =>
      match final.type, final.child "this" with
      | .ordered, some tieBreaker =>
        if tieBreaker.type = .column ∧ tieBreaker.name ∈ uniqueColumns then .ok ()
        else reject
          "portable window ORDER BY must end with a column declared unique in model tests"
      | _, _ =>
        reject "portable window ORDER BY must end with a column declared unique in model tests"
    | _, _ => reject "portable windows require deterministic ORDER BY"
  | none => reject "portable windows require deterministic ORDER BY"

def validateDeterministicWindows (uniqueColumns : List String) (expression : Expression) :
    Except PortableSqlError Unit :=
  (expression.findAll .window).forM (validateWindow uniqueColumns)

/-- The parts of the name of a table, from the catalog on. -/
def coordinates (table : Expression) : List String :=
  [table.text "catalog", table.text "db", table.name].filter fun part => decide (part ≠ "")

def cteNames (expression : Expression) : List String :=
  (expression.findAll .cte).map Expression.aliasOrName

def validateTable (names : List String) (allowedRelations : Option (List (List String)))
    (table : Expression) : Except PortableSqlError Unit :=
  if (coordinates table).length = 1 ∧ table.name ∈ names then .ok ()
  else if (coordinates table).length < 2 then
    reject "portable models must use Dander ref() relations"
  else if allowedRelations.any fun allowed => !allowed.contains (coordinates table) then
    reject "portable model contains a relation outside its declared refs"
  else .ok ()

def validateTables (allowedRelations : Option (List (List String))) (expression : Expression) :
    Except PortableSqlError Unit :=
  (expression.findAll .table).forM (validateTable (cteNames expression) allowedRelations)

/-- Somewhere in the words a null order stands. -/
def mentionsNulls : List String → Bool
  | word :: next :: rest =>
    (word = "NULLS" && (next = "FIRST" || next = "LAST")) || mentionsNulls (next :: rest)
  | _ => false

def requireNullClause (item : List Token) : Except PortableSqlError Unit :=
  if item.isEmpty then reject "portable ORDER BY must contain an expression"
  else if mentionsNulls (item.map fun token => tools.upper token.text) then .ok ()
  else reject "portable ORDER BY expressions must declare NULLS FIRST or NULLS LAST"

/-- The items behind an `ORDER BY` at the given depth, from the tokens at the current depth on. -/
def requireNullClauses (depth : ℤ) : ℤ → List Token → List Token → Except PortableSqlError Unit
  | _, item, [] => requireNullClause tools item
  | current, item, token :: rest =>
    if current < depth then requireNullClause tools item
    else if current = depth ∧ token.tokenType.isOrderTerminator then requireNullClause tools item
    else if current = depth ∧ token.tokenType = .comma then do
      requireNullClause tools item
      requireNullClauses depth (current + token.tokenType.deepens) [] rest
    else
      requireNullClauses depth (current + token.tokenType.deepens) (item ++ [token]) rest

/-- Every `ORDER BY` of the tokens, of which the first stands at the given depth. -/
def requireNullOrderings : ℤ → List Token → Except PortableSqlError Unit
  | _, [] => .ok ()
  | depth, token :: rest => do
    if token.tokenType = .orderBy then requireNullClauses tools depth depth [] rest
    else pure ()
    requireNullOrderings (depth + token.tokenType.deepens) rest

def requireExplicitNullOrdering (sql : String) : Except PortableSqlError Unit :=
  requireNullOrderings tools 0 (tools.tokenize sql)

/-- The names of the node types outside the portable subset, in order and without repetition. -/
def unsupportedNodes (expression : Expression) : List String :=
  (expression.walk.filterMap fun visit =>
    match visit.node.type with
    | .unsupported name _ => some name
    | _ => none).dedup.mergeSort (fun a b => decide (a ≤ b))

def parsePortableQuery (sql : String) (uniqueColumns : List String)
    (allowedRelations : Option (List (List String))) : Except PortableSqlError Expression := do
  let some expression := tools.parseOne sql | throw ⟨"invalid portable SQL"⟩
  if expression.isQuery = false then throw ⟨"portable model must contain one read-only query"⟩
  if unsupportedNodes expression ≠ [] then
    throw ⟨"unsupported portable SQL nodes: " ++ ", ".intercalate (unsupportedNodes expression)⟩
  validateIdentifiers expression
  validateLiterals tools expression
  validateCasts expression
  validateSetsAndJoins tools expression
  validateStarsAndDistinct expression
  requireExplicitNullOrdering tools sql
  validateDeterministicWindows uniqueColumns expression
  validateTables allowedRelations expression
  return expression

end Checks

section Acceptance

variable {tools : SqlTools} {sql : String} {uniqueColumns : List String}
  {allowedRelations : Option (List (List String))} {expression : Expression}

/-- What the later checks have found of an accepted query. -/
theorem parsePortableQuery_eq_ok
    (h : parsePortableQuery tools sql uniqueColumns allowedRelations = .ok expression) :
    tools.parseOne sql = some expression ∧ requireExplicitNullOrdering tools sql = .ok () ∧
      validateTables allowedRelations expression = .ok () := by
  unfold parsePortableQuery at h
  split at h
  next parsed hparsed =>
    obtain ⟨-, h⟩ := guard_eq_ok h
    obtain ⟨-, h⟩ := guard_eq_ok h
    obtain ⟨_, -, h⟩ := bind_eq_ok h
    obtain ⟨_, -, h⟩ := bind_eq_ok h
    obtain ⟨_, -, h⟩ := bind_eq_ok h
    obtain ⟨_, -, h⟩ := bind_eq_ok h
    obtain ⟨_, -, h⟩ := bind_eq_ok h
    obtain ⟨_, hordering, h⟩ := bind_eq_ok h
    obtain ⟨_, -, h⟩ := bind_eq_ok h
    obtain ⟨_, htables, h⟩ := bind_eq_ok h
    cases h
    exact ⟨hparsed, hordering, htables⟩
  next => cases h

theorem parsePortableQuery_of_isSome
    (hparsed : tools.parseOne sql = some expression)
    (h : (parsePortableQuery tools sql uniqueColumns allowedRelations).toOption.isSome = true) :
    parsePortableQuery tools sql uniqueColumns allowedRelations = .ok expression := by
  obtain ⟨found, hfound⟩ := Option.isSome_iff_exists.mp h
  have haccepted := eq_ok_of_toOption hfound
  have hsame := (parsePortableQuery_eq_ok haccepted).1
  rw [hparsed] at hsame
  rw [haccepted, Option.some.inj hsame]

end Acceptance

section Queries

def identifier (name : String) : Expression :=
  .node .identifier [("this", .text name), ("quoted", .flag false)]

def tableNamed (name : String) : Expression :=
  .node .table [("this", .one (identifier name))]

def tableIn (namespace_ name : String) : Expression :=
  .node .table [("this", .one (identifier name)), ("db", .one (identifier namespace_))]

/-- The identifiers of a table, with a clause before it. -/
def selectId (clause : List (String × Argument)) (table : Expression) : Expression :=
  .node .select (clause ++
    [("expressions", .many [.node .column [("this", .one (identifier "id"))]]),
      ("from_", .one (.node .from_ [("this", .one table)]))])

def word (text : String) : Token := ⟨.other, text⟩

/-- Tools that know one query. -/
def toolsFor (sql : String) (query : Expression) (tokens : List Token) : SqlTools where
  parseOne text := if text = sql then some query else none
  tokenize text := if text = sql then tokens else []
  nfc text := text
  upper text := text.toUpper

theorem parseOne_toolsFor (sql : String) (query : Expression) (tokens : List Token) :
    (toolsFor sql query tokens).parseOne sql = some query := if_pos rfl

theorem tokenize_toolsFor (sql : String) (query : Expression) (tokens : List Token) :
    (toolsFor sql query tokens).tokenize sql = tokens := if_pos rfl

end Queries

end Dander.Transform
