import SqlSyntax.Tree.Query

/-!
# Statements

A statement is a query, a change of the data or a change of the schema.
-/

namespace SqlSyntax

/-! ## Changes of the data -/

inductive InsertSource where
  | values (rows : List (List Expr))
  | query (query : Query)

structure Insert where
  span : Span
  table : QualifiedName
  columns : List Identifier
  source : InsertSource

/-- `column = value` -/
structure Assignment where
  span : Span
  column : Identifier
  value : Expr

structure Update where
  span : Span
  table : QualifiedName
  alias? : Option Identifier
  assignments : List Assignment
  condition : Option Expr

structure Delete where
  span : Span
  table : QualifiedName
  alias? : Option Identifier
  condition : Option Expr

/-! ## Changes of the schema -/

inductive ColumnOption where
  | null | notNull | primaryKey | unique
  | default (value : Expr)

structure ColumnDefinition where
  span : Span
  name : Identifier
  type : DataType
  options : List ColumnOption

namespace ColumnOption

def isPrimaryKey : ColumnOption → Bool
  | .primaryKey => true
  | _ => false

def isUnique : ColumnOption → Bool
  | .unique => true
  | _ => false

def default? : ColumnOption → Option Expr
  | .default e => some e
  | _ => none

end ColumnOption

/-- Whether a column is declared to be the primary key by itself. -/
def ColumnDefinition.isPrimaryKey (c : ColumnDefinition) : Bool :=
  c.options.any ColumnOption.isPrimaryKey

inductive TableConstraint where
  | primaryKey (span : Span) (columns : List Identifier)
  | unique (span : Span) (columns : List Identifier)
deriving DecidableEq

def TableConstraint.span : TableConstraint → Span
  | .primaryKey span _ | .unique span _ => span

structure CreateTable where
  span : Span
  ifNotExists : Bool
  name : QualifiedName
  columns : List ColumnDefinition
  constraints : List TableConstraint

structure CreateIndex where
  span : Span
  unique : Bool
  name : Identifier
  table : QualifiedName
  columns : List Identifier
deriving DecidableEq

structure CreateDatabase where
  span : Span
  name : Identifier
deriving DecidableEq

inductive Alteration where
  | addColumn (column : ColumnDefinition)
  | dropColumn (column : Identifier)
  | renameTable (name : Identifier)
  | renameColumn (old new : Identifier)

structure AlterTable where
  span : Span
  name : QualifiedName
  alteration : Alteration

structure Drop where
  span : Span
  kind : ObjectKind
  ifExists : Bool
  name : QualifiedName
deriving DecidableEq

/-! ## Statements -/

inductive Statement where
  | query (query : Query)
  | insert (insert : Insert)
  | update (update : Update)
  | delete (delete : Delete)
  | createTable (create : CreateTable)
  | createIndex (create : CreateIndex)
  | createDatabase (create : CreateDatabase)
  | alterTable (alter : AlterTable)
  | drop (drop : Drop)

def Statement.span : Statement → Span
  | .query s => s.span
  | .insert s => s.span
  | .update s => s.span
  | .delete s => s.span
  | .createTable s => s.span
  | .createIndex s => s.span
  | .createDatabase s => s.span
  | .alterTable s => s.span
  | .drop s => s.span

end SqlSyntax
