import SqlSyntax.Canonical.Piece
import SqlSyntax.Tree.Query

/-!
# Canonical form of expressions and queries

Every node has one canonical form. Optional words are written out where they
help the eye (`AS`, `INNER`, `ASC`) and left out where they do not (`OUTER`,
`ALL` after `SELECT`), and parentheses are those of the tree.

A sign in front of another sign is kept apart by a space: two minus signs in a
row would open a comment.
-/

namespace SqlSyntax

open Piece

/-- Whether an expression starts with a sign. -/
def Expr.isSigned : Expr → Bool
  | ⟨_, .unary .minus _⟩ | ⟨_, .unary .plus _⟩ => true
  | _ => false

/-- What stands between a prefix operator and its operand. -/
def UnaryOperator.gap (op : UnaryOperator) (operand : Expr) : List Piece :=
  match op with
  | .not => [.space]
  | .minus | .plus => if operand.isSigned then [.space] else []

/-- The word `NOT` and a space, if a predicate is negated. -/
def negation (negated : Bool) : List Piece :=
  if negated then [.keyword .NOT, .space] else []

mutual

def Expr.pieces : Expr → List Piece
  | ⟨_, .column name⟩ => name.pieces
  | ⟨_, .literal value⟩ => [value.piece]
  | ⟨_, .unary op e⟩ => op.piece :: op.gap e ++ e.pieces
  | ⟨_, .binary op l r⟩ => l.pieces ++ .space :: op.piece :: .space :: r.pieces
  | ⟨_, .is e negated test⟩ =>
    e.pieces ++ [.space, .keyword .IS, .space] ++ negation negated ++ [.keyword test.keyword]
  | ⟨_, .inList e negated items⟩ =>
    e.pieces ++ [.space] ++ negation negated ++ [.keyword .IN, .space]
      ++ parenthesized (commaSeparated (Expr.piecesOfList items))
  | ⟨_, .inQuery e negated q⟩ =>
    e.pieces ++ [.space] ++ negation negated ++ [.keyword .IN, .space] ++ parenthesized q.pieces
  | ⟨_, .between e negated low high⟩ =>
    e.pieces ++ [.space] ++ negation negated ++ [.keyword .BETWEEN, .space] ++ low.pieces
      ++ [.space, .keyword .AND, .space] ++ high.pieces
  | ⟨_, .like e negated pattern⟩ =>
    e.pieces ++ [.space] ++ negation negated ++ [.keyword .LIKE, .space] ++ pattern.pieces
  | ⟨_, .call function distinct arguments⟩ =>
    function.pieces ++ parenthesized
      ((if distinct then [.keyword .DISTINCT, .space] else []) ++ arguments.pieces)
  | ⟨_, .case operand branches otherwise⟩ =>
    .keyword .CASE :: Expr.piecesAfter [.space] operand ++ WhenBranch.piecesOfList branches
      ++ Expr.piecesAfter [.space, .keyword .ELSE, .space] otherwise ++ [.space, .keyword .END]
  | ⟨_, .cast e type⟩ =>
    .keyword .CAST :: parenthesized (e.pieces ++ [.space, .keyword .AS, .space] ++ type.pieces)
  | ⟨_, .existsQuery q⟩ => [.keyword .EXISTS, .space] ++ parenthesized q.pieces
  | ⟨_, .subquery q⟩ => parenthesized q.pieces
  | ⟨_, .nested e⟩ => parenthesized e.pieces

def Expr.piecesOfList : List Expr → List (List Piece)
  | [] => []
  | e :: es => e.pieces :: Expr.piecesOfList es

/-- The pieces of an expression behind those that announce it, if there is an
expression. -/
def Expr.piecesAfter (announcement : List Piece) : Option Expr → List Piece
  | none => []
  | some e => announcement ++ e.pieces

def Arguments.pieces : Arguments → List Piece
  | .star => [.operator .times]
  | .list items => commaSeparated (Expr.piecesOfList items)

def WhenBranch.piecesOfList : List WhenBranch → List Piece
  | [] => []
  | ⟨_, condition, result⟩ :: bs =>
    [.space, .keyword .WHEN, .space] ++ condition.pieces ++ [.space, .keyword .THEN, .space]
      ++ result.pieces ++ WhenBranch.piecesOfList bs

def Query.pieces : Query → List Piece
  | ⟨_, body, orderBy, limit⟩ =>
    body.pieces
      ++ (match orderBy with
        | none => []
        | some o => .space :: o.pieces)
      ++ (match limit with
        | none => []
        | some l => .space :: l.pieces)

def QueryBody.pieces : QueryBody → List Piece
  | .select s => s.pieces
  | .setOperation _ left op all right =>
    left.pieces ++ [.space, .keyword op.keyword] ++ (if all then [.space, .keyword .ALL] else [])
      ++ [.space] ++ right.pieces

def Select.pieces : Select → List Piece
  | ⟨_, distinct, projection, source, condition, groupBy, having⟩ =>
    [.keyword .SELECT, .space] ++ (if distinct then [.keyword .DISTINCT, .space] else [])
      ++ commaSeparated (SelectItem.piecesOfList projection)
      ++ (match source with
        | none => []
        | some ⟨_, tables⟩ =>
          [.space, .keyword .FROM, .space] ++ commaSeparated (JoinedTable.piecesOfList tables))
      ++ Expr.piecesAfter [.space, .keyword .WHERE, .space] condition
      ++ (match groupBy with
        | none => []
        | some g => .space :: g.pieces)
      ++ Expr.piecesAfter [.space, .keyword .HAVING, .space] having

def SelectItem.pieces : SelectItem → List Piece
  | .wildcard _ => [.operator .times]
  | .qualifiedWildcard _ qualifier =>
    qualifier.pieces ++ [.punctuation .dot, .operator .times]
  | .expr _ e label => e.pieces ++ aliasPieces label

def SelectItem.piecesOfList : List SelectItem → List (List Piece)
  | [] => []
  | i :: is => i.pieces :: SelectItem.piecesOfList is

def JoinedTable.piecesOfList : List JoinedTable → List (List Piece)
  | [] => []
  | ⟨_, relation, joins⟩ :: ts =>
    (relation.pieces ++ Join.piecesOfList joins) :: JoinedTable.piecesOfList ts

def Relation.pieces : Relation → List Piece
  | .table _ name label => name.pieces ++ aliasPieces label
  | .derived _ q label => parenthesized q.pieces ++ aliasPieces label

def Join.pieces : Join → List Piece
  | ⟨_, kind, relation, condition⟩ =>
    keywords [kind.keyword, .JOIN] ++ [.space] ++ relation.pieces ++ condition.pieces

def Join.piecesOfList : List Join → List Piece
  | [] => []
  | j :: js => .space :: j.pieces ++ Join.piecesOfList js

def JoinCondition.pieces : JoinCondition → List Piece
  | .on e => [.space, .keyword .ON, .space] ++ e.pieces
  | .shared columns => [.space, .keyword .USING, .space] ++ columnPieces columns
  | .none => []

def GroupBy.pieces : GroupBy → List Piece
  | ⟨_, keys⟩ => keywords [.GROUP, .BY] ++ [.space] ++ commaSeparated (Expr.piecesOfList keys)

def OrderBy.pieces : OrderBy → List Piece
  | ⟨_, items⟩ => keywords [.ORDER, .BY] ++ [.space] ++ commaSeparated (OrderItem.piecesOfList items)

def OrderItem.pieces : OrderItem → List Piece
  | ⟨_, e, direction, nulls⟩ =>
    e.pieces ++ [.space, .keyword direction.keyword]
      ++ (match nulls with
        | none => []
        | some n => [.space, .word "NULLS", .space, .word n.word])

def OrderItem.piecesOfList : List OrderItem → List (List Piece)
  | [] => []
  | i :: is => i.pieces :: OrderItem.piecesOfList is

def Limit.pieces : Limit → List Piece
  | ⟨_, count, offset⟩ =>
    [.keyword .LIMIT, .space] ++ count.pieces
      ++ Expr.piecesAfter [.space, .keyword .OFFSET, .space] offset

end

end SqlSyntax
