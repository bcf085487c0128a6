import SqlSyntax.Canonical.Statement

/-!
# Clauses of the canonical form

The printers recurse over the tree and spell out what stands before an optional
clause in each place. Here every optional clause is a space and the clause, by
one function for all of them, and the lists of a tree are printed by `map`.

## Main results

* `Query.pieces_eq`, `Select.pieces_eq` — a query and a selection are their
  clauses in order.
-/

namespace SqlSyntax

open Piece

/-- An optional clause behind a space. -/
def clausePieces {α : Type} (pieces : α → List Piece) : Option α → List Piece
  | none => []
  | some a => .space :: pieces a

@[simp] theorem clausePieces_none {α : Type} (pieces : α → List Piece) :
    clausePieces pieces none = [] := rfl

@[simp] theorem clausePieces_some {α : Type} (pieces : α → List Piece) (a : α) :
    clausePieces pieces (some a) = .space :: pieces a := rfl

/-- A keyword with an expression behind it. -/
def Expr.piecesBehind (k : Keyword) (e : Expr) : List Piece := .keyword k :: .space :: e.pieces

theorem Expr.piecesAfter_keyword (k : Keyword) (o : Option Expr) :
    piecesAfter [.space, .keyword k, .space] o = clausePieces (piecesBehind k) o := by
  cases o <;> rfl

theorem Expr.piecesAfter_space (o : Option Expr) :
    piecesAfter [.space] o = clausePieces pieces o := by
  cases o <;> rfl

theorem aliasPieces_eq (label : Option Identifier) :
    aliasPieces label = clausePieces (fun i => .keyword .AS :: .space :: i.pieces) label := by
  cases label <;> rfl

/-! ## Lists -/

theorem Piece.spaceSeparated_cons (ps : List Piece) (items : List (List Piece)) :
    spaceSeparated (ps :: items) = ps ++ items.flatMap (.space :: ·) := by
  induction items generalizing ps with
  | nil => simp [spaceSeparated, separated]
  | cons qs items ih =>
    have := ih qs
    simp_all [spaceSeparated, separated]

@[simp] theorem Expr.piecesOfList_eq (es : List Expr) : piecesOfList es = es.map pieces := by
  induction es with
  | nil => rfl
  | cons e es ih => rw [piecesOfList, ih, List.map_cons]

def WhenBranch.pieces (b : WhenBranch) : List Piece :=
  b.condition.piecesBehind .WHEN ++ .space :: b.result.piecesBehind .THEN

@[simp] theorem WhenBranch.piecesOfList_eq (bs : List WhenBranch) :
    piecesOfList bs = bs.flatMap fun b => .space :: b.pieces := by
  induction bs with
  | nil => rfl
  | cons b bs ih =>
    obtain ⟨_, _, _⟩ := b
    simp [piecesOfList, ih, WhenBranch.pieces, Expr.piecesBehind]

@[simp] theorem SelectItem.piecesOfList_eq (is : List SelectItem) :
    piecesOfList is = is.map pieces := by
  induction is with
  | nil => rfl
  | cons i is ih => rw [piecesOfList, ih, List.map_cons]

@[simp] theorem OrderItem.piecesOfList_eq (is : List OrderItem) :
    piecesOfList is = is.map pieces := by
  induction is with
  | nil => rfl
  | cons i is ih => rw [piecesOfList, ih, List.map_cons]

@[simp] theorem Join.piecesOfList_eq (js : List Join) :
    piecesOfList js = js.flatMap fun j => .space :: j.pieces := by
  induction js with
  | nil => rfl
  | cons j js ih => rw [piecesOfList, ih, List.flatMap_cons, List.cons_append]

def JoinedTable.pieces (t : JoinedTable) : List Piece :=
  t.relation.pieces ++ t.joins.flatMap fun j => .space :: j.pieces

@[simp] theorem JoinedTable.piecesOfList_eq (ts : List JoinedTable) :
    piecesOfList ts = ts.map pieces := by
  induction ts with
  | nil => rfl
  | cons t ts ih =>
    obtain ⟨_, _, _⟩ := t
    simp [piecesOfList, ih, JoinedTable.pieces]

/-! ## Queries -/

def From.pieces (f : From) : List Piece :=
  .keyword .FROM :: .space :: commaSeparated (f.tables.map JoinedTable.pieces)

theorem Query.pieces_eq (q : Query) :
    q.pieces = q.body.pieces ++ clausePieces OrderBy.pieces q.orderBy
      ++ clausePieces Limit.pieces q.limit := by
  obtain ⟨_, _, orderBy, limit⟩ := q
  cases orderBy <;> cases limit <;> simp [Query.pieces]

theorem Select.pieces_eq (s : Select) :
    s.pieces = [.keyword .SELECT, .space] ++ (if s.distinct then [.keyword .DISTINCT, .space] else [])
      ++ commaSeparated (s.projection.map SelectItem.pieces) ++ clausePieces From.pieces s.source
      ++ clausePieces (Expr.piecesBehind .WHERE) s.condition
      ++ clausePieces GroupBy.pieces s.groupBy
      ++ clausePieces (Expr.piecesBehind .HAVING) s.having := by
  obtain ⟨_, _, _, source, _, groupBy, _⟩ := s
  rcases source with _ | ⟨_, _⟩ <;> cases groupBy <;>
    simp [Select.pieces, Expr.piecesAfter_keyword, From.pieces]

theorem GroupBy.pieces_eq (g : GroupBy) :
    g.pieces = keywords [.GROUP, .BY] ++ [.space] ++ commaSeparated (g.keys.map Expr.pieces) := by
  obtain ⟨_, _⟩ := g
  simp [GroupBy.pieces]

theorem OrderBy.pieces_eq (o : OrderBy) :
    o.pieces = keywords [.ORDER, .BY] ++ [.space]
      ++ commaSeparated (o.items.map OrderItem.pieces) := by
  obtain ⟨_, _⟩ := o
  simp [OrderBy.pieces]

def NullsPlacement.pieces (n : NullsPlacement) : List Piece :=
  [.word "NULLS", .space, .word n.word]

theorem OrderItem.pieces_eq (i : OrderItem) :
    i.pieces = i.expr.pieces ++ [.space, .keyword i.direction.keyword]
      ++ clausePieces NullsPlacement.pieces i.nulls := by
  obtain ⟨_, _, _, nulls⟩ := i
  cases nulls <;> rfl

theorem Limit.pieces_eq (l : Limit) :
    l.pieces = l.count.piecesBehind .LIMIT ++ clausePieces (Expr.piecesBehind .OFFSET) l.offset := by
  obtain ⟨_, _, _⟩ := l
  simp [Limit.pieces, Expr.piecesBehind, Expr.piecesAfter_keyword]

end SqlSyntax
