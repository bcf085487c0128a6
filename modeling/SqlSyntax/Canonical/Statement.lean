import SqlSyntax.Canonical.Query
import SqlSyntax.Tree.Statement

/-!
# Canonical form of statements

`Statement.canonical` is the text of a statement. The columns of a new table
come before its constraints, in whatever order they were declared.
-/

namespace SqlSyntax

open Piece

/-- A condition behind `WHERE`, if there is one. -/
def wherePieces (condition : Option Expr) : List Piece :=
  Expr.piecesAfter [.space, .keyword .WHERE, .space] condition

def InsertSource.pieces : InsertSource → List Piece
  | .values rows =>
    [.keyword .VALUES, .space] ++ commaSeparated
      (rows.map fun row => parenthesized (commaSeparated (row.map Expr.pieces)))
  | .query q => q.pieces

def Insert.pieces (s : Insert) : List Piece :=
  keywords [.INSERT, .INTO] ++ [.space] ++ s.table.pieces
    ++ (if s.columns.isEmpty then [] else .space :: columnPieces s.columns)
    ++ [.space] ++ s.source.pieces

def Assignment.pieces (a : Assignment) : List Piece :=
  a.column.pieces ++ [.space, .operator .equal, .space] ++ a.value.pieces

def Update.pieces (s : Update) : List Piece :=
  [.keyword .UPDATE, .space] ++ s.table.pieces ++ aliasPieces s.alias?
    ++ [.space, .keyword .SET, .space]
    ++ commaSeparated (s.assignments.map Assignment.pieces) ++ wherePieces s.condition

def Delete.pieces (s : Delete) : List Piece :=
  keywords [.DELETE, .FROM] ++ [.space] ++ s.table.pieces ++ aliasPieces s.alias?
    ++ wherePieces s.condition

def ColumnOption.pieces : ColumnOption → List Piece
  | .null => [.keyword .NULL]
  | .notNull => keywords [.NOT, .NULL]
  | .primaryKey => keywords [.PRIMARY, .KEY]
  | .unique => [.keyword .UNIQUE]
  | .default value => [.keyword .DEFAULT, .space] ++ value.pieces

def ColumnDefinition.pieces (c : ColumnDefinition) : List Piece :=
  spaceSeparated (c.name.pieces :: c.type.pieces :: c.options.map ColumnOption.pieces)

def TableConstraint.pieces : TableConstraint → List Piece
  | .primaryKey _ columns => keywords [.PRIMARY, .KEY] ++ [.space] ++ columnPieces columns
  | .unique _ columns => [.keyword .UNIQUE, .space] ++ columnPieces columns

def CreateTable.pieces (s : CreateTable) : List Piece :=
  keywords [.CREATE, .TABLE] ++ [.space]
    ++ (if s.ifNotExists then keywords [.IF, .NOT, .EXISTS] ++ [.space] else [])
    ++ s.name.pieces ++ [.space]
    ++ parenthesized (commaSeparated
      (s.columns.map ColumnDefinition.pieces ++ s.constraints.map TableConstraint.pieces))

def CreateIndex.pieces (s : CreateIndex) : List Piece :=
  [.keyword .CREATE, .space] ++ (if s.unique then [.keyword .UNIQUE, .space] else [])
    ++ [.keyword .INDEX, .space] ++ s.name.pieces ++ [.space, .keyword .ON, .space]
    ++ s.table.pieces ++ [.space] ++ columnPieces s.columns

def CreateDatabase.pieces (s : CreateDatabase) : List Piece :=
  keywords [.CREATE, .DATABASE] ++ [.space] ++ s.name.pieces

def Alteration.pieces : Alteration → List Piece
  | .addColumn c => keywords [.ADD, .COLUMN] ++ [.space] ++ c.pieces
  | .dropColumn c => keywords [.DROP, .COLUMN] ++ [.space] ++ c.pieces
  | .renameTable n => keywords [.RENAME, .TO] ++ [.space] ++ n.pieces
  | .renameColumn old new =>
    keywords [.RENAME, .COLUMN] ++ [.space] ++ old.pieces ++ [.space, .keyword .TO, .space]
      ++ new.pieces

def AlterTable.pieces (s : AlterTable) : List Piece :=
  keywords [.ALTER, .TABLE] ++ [.space] ++ s.name.pieces ++ [.space] ++ s.alteration.pieces

def Drop.pieces (s : Drop) : List Piece :=
  keywords [.DROP, s.kind.keyword] ++ [.space]
    ++ (if s.ifExists then keywords [.IF, .EXISTS] ++ [.space] else []) ++ s.name.pieces

def Statement.pieces : Statement → List Piece
  | .query s => s.pieces
  | .insert s => s.pieces
  | .update s => s.pieces
  | .delete s => s.pieces
  | .createTable s => s.pieces
  | .createIndex s => s.pieces
  | .createDatabase s => s.pieces
  | .alterTable s => s.pieces
  | .drop s => s.pieces

/-- The canonical text of a statement. -/
def Statement.canonical (s : Statement) : String := render s.pieces

end SqlSyntax
