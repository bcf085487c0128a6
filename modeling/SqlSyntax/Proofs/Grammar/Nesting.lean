import SqlSyntax.Parser.Nesting
import SqlSyntax.Proofs.Grammar.Query

/-!
# Readings of what nests

Readings are graded by the levels of nesting that they take, as the parsers
are: an expression takes a level, each infix operator folded onto its operand
another, and so for queries and set operators.

An infix operator is folded onto an operand only where no operator on the right
edge of that operand would draw it in; `Expr.openLevel` says so about the tree
alone.

A limit can be read from `LIMIT offset, count` or not. All that is parsed may
have that form; the canonical form has no need for it.
-/

namespace SqlSyntax.Grammar

/-- Readings as an operand and what is folded onto it. -/
def IsExprOf (P : Phrases) (fold : Expr → List Token → Expr → Prop) (ts : List Token) (e : Expr) :
    Prop :=
  ∃ us vs o, ts = us ++ vs ∧ IsOperand P us o ∧ fold o vs e

/-- Readings as a selection and what it is combined with. -/
def IsQueryOf (P : Phrases) (combine : List Token → QueryBody → List Token → Query → Prop)
    (ts : List Token) (q : Query) : Prop :=
  ∃ us vs s, ts = us ++ vs ∧ IsSelect P us s ∧ combine us (.select s) vs q

/-- An infix operator above `level` folded onto `left`, and what `go` reads on
with. -/
def IsFoldThen (P : Phrases) (level : Nat) (left : Expr)
    (go : Expr → List Token → Expr → Prop) (ts : List Token) (e : Expr) : Prop :=
  ∃ op us vs m, ts = us ++ vs ∧ level < op.level ∧ op.level ≤ left.openLevel ∧
    IsFold P left op us m ∧ go m vs e

/-- A set operator with its selection, combined with `left`, and what `go`
reads on with. -/
def IsCombineThen (P : Phrases) (before : List Token) (left : QueryBody)
    (go : List Token → QueryBody → List Token → Query → Prop) (ts : List Token) (q : Query) :
    Prop :=
  ∃ op us vs b, ts = us ++ vs ∧ IsSetOperand P left op us b ∧ go (before ++ us) b vs q

section

variable (comma : Prop)

mutual

/-- Expressions of operators above `level` that take `depth` levels. -/
def exprs (depth level : Nat) : List Token → Expr → Prop :=
  match depth with
  | 0 => fun _ _ => False
  | depth + 1 => IsExprOf ⟨exprs depth, queries depth, comma⟩ (folds depth level)

/-- Infix operators above `level` folded onto `left`, one for each level. -/
def folds (depth level : Nat) (left : Expr) : List Token → Expr → Prop :=
  match depth with
  | 0 => fun ts e => ts = [] ∧ e = left
  | depth + 1 => fun ts e => (ts = [] ∧ e = left) ∨
      IsFoldThen ⟨exprs depth, queries depth, comma⟩ level left (folds depth level) ts e

/-- Queries that take `depth` levels. -/
def queries (depth : Nat) : List Token → Query → Prop :=
  match depth with
  | 0 => fun _ _ => False
  | depth + 1 => IsQueryOf ⟨exprs depth, queries depth, comma⟩ (combines depth)

/-- Selections combined with `left`, one for each level, and the end of the
query. -/
def combines (depth : Nat) (before : List Token) (left : QueryBody) : List Token → Query → Prop :=
  match depth with
  | 0 => IsQueryTail ⟨fun _ _ _ => False, fun _ _ => False, comma⟩ before left
  | depth + 1 => fun ts q =>
      IsQueryTail
        ⟨fun level => IsExprOf ⟨exprs depth, queries depth, comma⟩ (folds depth level),
          IsQueryOf ⟨exprs depth, queries depth, comma⟩ (combines depth), comma⟩ before left ts q ∨
      IsCombineThen ⟨exprs depth, queries depth, comma⟩ before left (combines depth) ts q

end

/-- The readings of what takes `depth` levels. -/
def phrases (depth : Nat) : Phrases :=
  ⟨exprs comma depth, queries comma depth, comma⟩

theorem exprs_succ (depth level : Nat) :
    exprs comma (depth + 1) level = IsExprOf (phrases comma depth) (folds comma depth level) := rfl

theorem queries_succ (depth : Nat) :
    queries comma (depth + 1) = IsQueryOf (phrases comma depth) (combines comma depth) := rfl

theorem folds_zero (level : Nat) (left : Expr) (ts : List Token) (e : Expr) :
    folds comma 0 level left ts e ↔ ts = [] ∧ e = left := Iff.rfl

theorem folds_succ (depth level : Nat) (left : Expr) (ts : List Token) (e : Expr) :
    folds comma (depth + 1) level left ts e ↔
      (ts = [] ∧ e = left) ∨
        IsFoldThen (phrases comma depth) level left (folds comma depth level) ts e :=
  Iff.rfl

theorem combines_zero (before : List Token) (left : QueryBody) :
    combines comma 0 before left = IsQueryTail (phrases comma 0) before left := rfl

theorem combines_succ (depth : Nat) (before : List Token) (left : QueryBody) (ts : List Token)
    (q : Query) :
    combines comma (depth + 1) before left ts q ↔
      IsQueryTail (phrases comma (depth + 1)) before left ts q ∨
      IsCombineThen (phrases comma depth) before left (combines comma depth) ts q :=
  Iff.rfl

theorem folds_nil (depth level : Nat) (e : Expr) : folds comma depth level e [] e := by
  cases depth with
  | zero => exact ⟨rfl, rfl⟩
  | succ depth => exact .inl ⟨rfl, rfl⟩

end

theorem combines_of_tail {comma : Prop} {depth : Nat} {before : List Token} {left : QueryBody}
    {ts : List Token} {q : Query} (h : IsQueryTail (phrases comma depth) before left ts q) :
    combines comma depth before left ts q := by
  cases depth with
  | zero => exact h
  | succ depth => exact .inl h

end SqlSyntax.Grammar
