import SqlSyntax.Interchange.Query
import SqlSyntax.Canonical.Statement

/-!
# Interchange documents of statements

Two statements are structurally equal when their documents without spans are.
-/

namespace SqlSyntax

open Document

/-- The options that decide whether a column can be null, by their words. -/
def ColumnOption.nullable? : ColumnOption → Option String
  | .null => some "NULL"
  | .notNull => some "NOT NULL"
  | _ => none

def ColumnOption.document (spans : Bool) : ColumnOption → Document
  | .null => object [("type", string "null")]
  | .notNull => object [("type", string "not null")]
  | .primaryKey => object [("type", string "primary key")]
  | .unique => object [("type", string "unique")]
  | .default e => object [("type", string "default"), ("value", e.document spans)]

/-- A column with a summary of its options, where a later option overrides an
earlier one, and the options themselves. -/
def ColumnDefinition.document (spans : Bool) (c : ColumnDefinition) : Document :=
  (object [("resource", string "column"),
    ("column", columnDocument null c.name.value),
    ("definition", c.type.document),
    ("nullable", match (c.options.filterMap ColumnOption.nullable?).getLast? with
      | none => null
      | some words => string words),
    ("primary_key", bool c.isPrimaryKey),
    ("unique", bool (c.options.any ColumnOption.isUnique)),
    ("default_val",
      Expr.optionalDocument spans (c.options.filterMap ColumnOption.default?).getLast?),
    ("options", array (c.options.map (ColumnOption.document spans)))]).spanned spans c.span

def constraintDocument (type : String) (columns : List Identifier) : Document :=
  object [("resource", string "constraint"), ("constraint_type", string type),
    ("definition", identifierDocuments columns)]

def TableConstraint.document (spans : Bool) : TableConstraint → Document
  | .primaryKey span columns => (constraintDocument "primary key" columns).spanned spans span
  | .unique span columns => (constraintDocument "unique" columns).spanned spans span

def Assignment.document (spans : Bool) (a : Assignment) : Document :=
  (object [("column", string a.column.value), ("value", a.value.document spans)]).spanned
    spans a.span

def Insert.document (spans : Bool) (s : Insert) : Document :=
  let (values, select) := match s.source with
    | .values rows =>
      (array (rows.map fun row => listDocument (row.map (Expr.document spans))), null)
    | .query q => (null, q.document spans)
  object [("type", string "insert"), ("table", array [tableDocument s.table none]),
    ("columns", if s.columns.isEmpty then null else identifierDocuments s.columns),
    ("values", values), ("select", select)]

def Update.document (spans : Bool) (s : Update) : Document :=
  object [("type", string "update"), ("table", array [tableDocument s.table s.alias?]),
    ("set", array (s.assignments.map (Assignment.document spans))),
    ("where", Expr.optionalDocument spans s.condition)]

def Delete.document (spans : Bool) (s : Delete) : Document :=
  object [("type", string "delete"), ("table", array [tableDocument s.table s.alias?]),
    ("where", Expr.optionalDocument spans s.condition)]

def CreateTable.document (spans : Bool) (s : CreateTable) : Document :=
  object [("type", string "create"), ("keyword", string "table"),
    ("if_not_exists", if s.ifNotExists then string "IF NOT EXISTS" else null),
    ("table", array [tableDocument s.name none]),
    ("create_definitions", array (s.columns.map (ColumnDefinition.document spans)
      ++ s.constraints.map (TableConstraint.document spans)))]

def CreateIndex.document (s : CreateIndex) : Document :=
  object [("type", string "create"), ("keyword", string "index"), ("unique", bool s.unique),
    ("index", string s.name.value), ("table", tableDocument s.table none),
    ("columns", identifierDocuments s.columns)]

def CreateDatabase.document (s : CreateDatabase) : Document :=
  object [("type", string "create"), ("keyword", string "database"),
    ("database", string s.name.value)]

def alterationDocument (action resource : String) (fields : List (String × Document)) :
    Document :=
  object (("action", string action) :: ("resource", string resource) :: fields)

def Alteration.document (spans : Bool) : Alteration → Document
  | .addColumn c => alterationDocument "add" "column" [("definition", c.document spans)]
  | .dropColumn c => alterationDocument "drop" "column" [("column", string c.value)]
  | .renameTable n => alterationDocument "rename" "table" [("table", string n.value)]
  | .renameColumn old new =>
    alterationDocument "rename" "column"
      [("old_column", string old.value), ("column", string new.value)]

def AlterTable.document (spans : Bool) (s : AlterTable) : Document :=
  object [("type", string "alter"), ("table", array [tableDocument s.name none]),
    ("expr", array [s.alteration.document spans])]

def ObjectKind.name : ObjectKind → String
  | .table => "table"
  | .index => "index"
  | .database => "database"

def Drop.document (s : Drop) : Document :=
  object [("type", string "drop"), ("keyword", string s.kind.name),
    ("prefix", if s.ifExists then string "IF EXISTS" else null),
    ("name", array [tableDocument s.name none])]

/-- The interchange document of a statement. -/
def Statement.document (spans : Bool) : Statement → Document
  | .query s => s.document spans
  | .insert s => (s.document spans).spanned spans s.span
  | .update s => (s.document spans).spanned spans s.span
  | .delete s => (s.document spans).spanned spans s.span
  | .createTable s => (s.document spans).spanned spans s.span
  | .createIndex s => s.document.spanned spans s.span
  | .createDatabase s => s.document.spanned spans s.span
  | .alterTable s => (s.document spans).spanned spans s.span
  | .drop s => s.document.spanned spans s.span

/-- Whether two statements have the same document, spans aside. -/
def Statement.structurallyEqual (s t : Statement) : Bool :=
  (s.document false).same (t.document false)

end SqlSyntax
