import SqlSyntax.Text.Ascii
import SqlSyntax.Tree.Name

/-!
# Expressions and queries

An expression can hold a query and a query holds expressions, so their types
are defined together. Each node carries its span, the bytes of the source from
its first to its last token; parentheses around an expression are a node of
their own.

The right operand of a set operation is a single `SELECT`: chains of set
operations lean to the left.
-/

namespace SqlSyntax

mutual

structure Expr where
  span : Span
  form : ExprForm

inductive ExprForm where
  | column (name : QualifiedName)
  | literal (value : Literal)
  | unary (op : UnaryOperator) (operand : Expr)
  | binary (op : BinaryOperator) (left right : Expr)
  /-- `operand IS [NOT] test` -/
  | is (operand : Expr) (negated : Bool) (test : TruthTest)
  /-- `operand [NOT] IN (items)` -/
  | inList (operand : Expr) (negated : Bool) (items : List Expr)
  /-- `operand [NOT] IN (query)` -/
  | inQuery (operand : Expr) (negated : Bool) (query : Query)
  | between (operand : Expr) (negated : Bool) (low high : Expr)
  | like (operand : Expr) (negated : Bool) (pattern : Expr)
  | call (function : QualifiedName) (distinct : Bool) (arguments : Arguments)
  | case (operand : Option Expr) (branches : List WhenBranch) (otherwise : Option Expr)
  | cast (operand : Expr) (type : DataType)
  | existsQuery (query : Query)
  /-- A query in parentheses that stands for a value. -/
  | subquery (query : Query)
  /-- An expression in parentheses. -/
  | nested (inner : Expr)

inductive Arguments where
  /-- `*` -/
  | star
  | list (items : List Expr)

/-- `WHEN condition THEN result` -/
structure WhenBranch where
  span : Span
  condition : Expr
  result : Expr

/-- One or more selections with the order and the limit of their result. -/
structure Query where
  span : Span
  body : QueryBody
  orderBy : Option OrderBy
  limit : Option Limit

inductive QueryBody where
  | select (select : Select)
  | setOperation (span : Span) (left : QueryBody) (op : SetOperator) (all : Bool)
      (right : Select)

structure Select where
  span : Span
  distinct : Bool
  projection : List SelectItem
  source : Option From
  condition : Option Expr
  groupBy : Option GroupBy
  having : Option Expr

inductive SelectItem where
  /-- `*` -/
  | wildcard (span : Span)
  /-- `qualifier.*` -/
  | qualifiedWildcard (span : Span) (qualifier : QualifiedName)
  | expr (span : Span) (expr : Expr) (alias? : Option Identifier)

structure From where
  span : Span
  tables : List JoinedTable

/-- A relation and what is joined to it. -/
structure JoinedTable where
  span : Span
  relation : Relation
  joins : List Join

inductive Relation where
  | table (span : Span) (name : QualifiedName) (alias? : Option Identifier)
  /-- A query in parentheses. -/
  | derived (span : Span) (query : Query) (alias? : Option Identifier)

structure Join where
  span : Span
  kind : JoinKind
  relation : Relation
  condition : JoinCondition

inductive JoinCondition where
  | on (condition : Expr)
  | shared (columns : List Identifier)
  | none

structure GroupBy where
  span : Span
  keys : List Expr

structure OrderBy where
  span : Span
  items : List OrderItem

structure OrderItem where
  span : Span
  expr : Expr
  direction : Direction
  nulls : Option NullsPlacement

/-- `LIMIT count OFFSET offset` -/
structure Limit where
  span : Span
  count : Expr
  offset : Option Expr

end

namespace QueryBody

def span : QueryBody → Span
  | .select s => s.span
  | .setOperation span .. => span

/-- The selections of a body with the operator before each, from left to
right, in front of `rest`. -/
def selectsOnto (rest : List (Option (SetOperator × Bool) × Select)) :
    QueryBody → List (Option (SetOperator × Bool) × Select)
  | .select s => (none, s) :: rest
  | .setOperation _ left op all right => left.selectsOnto ((some (op, all), right) :: rest)

/-- The selections of a body with the operator before each, from left to
right. The operator is paired with whether `ALL` was written. -/
def selects (b : QueryBody) : List (Option (SetOperator × Bool) × Select) := b.selectsOnto []

theorem selectsOnto_eq : ∀ (rest : List (Option (SetOperator × Bool) × Select)) (b : QueryBody),
    b.selectsOnto rest = b.selects ++ rest
  | _, .select _ => rfl
  | rest, .setOperation _ left op all right => by
    rw [selects, selectsOnto, selectsOnto, selectsOnto_eq _ left, selectsOnto_eq _ left]
    simp

@[simp] theorem selects_select (s : Select) : selects (.select s) = [(none, s)] := rfl

@[simp] theorem selects_setOperation (span : Span) (left : QueryBody) (op : SetOperator)
    (all : Bool) (right : Select) :
    selects (.setOperation span left op all right) =
      left.selects ++ [(some (op, all), right)] :=
  selectsOnto_eq _ left

/-- The first selection, which names the columns of the result. -/
def leftmost : QueryBody → Select
  | .select s => s
  | .setOperation _ left .. => left.leftmost

end QueryBody

def SelectItem.span : SelectItem → Span
  | .wildcard span | .qualifiedWildcard span _ | .expr span .. => span

namespace Relation

def span : Relation → Span
  | .table span .. | .derived span .. => span

def alias? : Relation → Option Identifier
  | .table _ _ label | .derived _ _ label => label

/-- The name that the columns of a relation can be qualified with: its alias
or, without one, the name of the table. -/
def name? : Relation → Option String
  | .table _ name label => some ((label.getD name.base).value)
  | .derived _ _ label => label.map (·.value)

end Relation

/-- The relations of a `FROM` clause: each table and those joined to it. -/
def From.relations (f : From) : List Relation :=
  f.tables.flatMap fun t => t.relation :: t.joins.map (·.relation)

/-- Whether a function of this name aggregates: `COUNT`, `SUM`, `AVG`, `MIN`
and `MAX` do, the case of ASCII letters aside, when they are not qualified. -/
def QualifiedName.isAggregate (n : QualifiedName) : Bool :=
  n.qualifiers.isEmpty &&
    ["COUNT", "SUM", "AVG", "MIN", "MAX"].contains (capitals n.base.value)

end SqlSyntax
