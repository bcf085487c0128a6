import SqlSyntax.Parser.Expr
import SqlSyntax.Canonical.Piece
import SqlSyntax.Proofs.Grammar.Name
import SqlSyntax.Proofs.Tree.Precedence

/-!
# Readings of expressions

What stands before the first infix operator, and what an infix operator takes
with it. Both are relations over the readings of what is nested inside.
-/

namespace SqlSyntax

/-- The kind of token that a prefix operator is. -/
def UnaryOperator.kind : UnaryOperator → TokenKind
  | .not => .keyword .NOT
  | .minus => .operator .minus
  | .plus => .operator .plus

/-- What the operand of a prefix operator binds above. -/
def UnaryOperator.operandLevel : UnaryOperator → Nat
  | .not => notLevel
  | .minus | .plus => signLevel

/-- The literal that a token is by itself. -/
def Literal.ofToken? (t : Token) : Option Literal :=
  match t.kind with
  | .number => some (.number t.text)
  | .string => some (.string t.value)
  | .keyword .TRUE => some (.boolean true)
  | .keyword .FALSE => some (.boolean false)
  | .keyword .NULL => some .null
  | _ => none

namespace Grammar

/-- Readings of what is nested inside a construct. -/
structure Phrases where
  /-- An expression of operators that bind above a level. -/
  expr : Nat → List Token → Expr → Prop
  query : List Token → Query → Prop
  /-- Whether a limit may have the form `LIMIT offset, count`. -/
  comma : Prop

/-- A whole expression. -/
abbrev Phrases.wholeExpr (P : Phrases) : List Token → Expr → Prop := P.expr 0

section

variable (P : Phrases)

/-! ## Operands -/

/-- What stands between the parentheses of a call. -/
inductive IsArguments : List Token → Bool × Arguments → Prop where
  | star {t : Token} (kind : t.kind = .operator .times) : IsArguments [t] (false, .star)
  | none : IsArguments [] (false, .list [])
  | list {ds ts : List Token} {distinct : Bool} {es : List Expr}
      (mark : Flag .DISTINCT ds distinct) (items : CommaSeparated P.wholeExpr ts es) :
      IsArguments (ds ++ ts) (distinct, .list es)

/-- `WHEN condition THEN result` -/
inductive IsBranch : List Token → WhenBranch → Prop where
  | intro {t : Token} {cs rs : List Token} {c r : Expr} (kind : t.kind = .keyword .WHEN)
      (condition : P.wholeExpr cs c) (result : Behind (.keyword .THEN) P.wholeExpr rs r) :
      IsBranch (t :: (cs ++ rs)) ⟨t.span.through (t :: (cs ++ rs)), c, r⟩

/-- What stands between the parentheses of `CAST`. -/
inductive IsCast : List Token → Expr × DataType → Prop where
  | intro {es ts : List Token} {e : Expr} {d : DataType} (operand : P.wholeExpr es e)
      (type : Behind (.keyword .AS) IsDataType ts d) : IsCast (es ++ ts) (e, d)

/-- What stands before the first infix operator. -/
inductive IsOperand : List Token → Expr → Prop where
  | column {ts : List Token} {n : QualifiedName} (name : IsName ts n) :
      IsOperand ts ⟨n.span, .column n⟩
  | call {ts us : List Token} {n : QualifiedName} {distinct : Bool} {as : Arguments}
      (name : IsName ts n) (arguments : Parenthesized (IsArguments P) us (distinct, as)) :
      IsOperand (ts ++ us) ⟨n.span.through (ts ++ us), .call n distinct as⟩
  | literal {t : Token} {v : Literal} (value : Literal.ofToken? t = some v) :
      IsOperand [t] ⟨t.span, .literal v⟩
  | unary {t : Token} {ts : List Token} {op : UnaryOperator} {e : Expr} (kind : t.kind = op.kind)
      (operand : P.expr op.operandLevel ts e) :
      IsOperand (t :: ts) ⟨t.span.union e.span, .unary op e⟩
  | case {t c : Token} {os bs es : List Token} {o : Option Expr} {branches : List WhenBranch}
      {e : Option Expr} (kind : t.kind = .keyword .CASE) (operand : Optional P.wholeExpr os o)
      (nonempty : branches ≠ []) (body : Many (IsBranch P) bs branches)
      (otherwise : Optional (Behind (.keyword .ELSE) P.wholeExpr) es e)
      (closing : c.kind = .keyword .END) :
      IsOperand (t :: (os ++ (bs ++ (es ++ [c]))))
        ⟨t.span.through (t :: (os ++ (bs ++ (es ++ [c])))), .case o branches e⟩
  | cast {t : Token} {ts : List Token} {e : Expr} {d : DataType}
      (kind : t.kind = .keyword .CAST) (body : Parenthesized (IsCast P) ts (e, d)) :
      IsOperand (t :: ts) ⟨t.span.through (t :: ts), .cast e d⟩
  | existsQuery {t : Token} {ts : List Token} {q : Query} (kind : t.kind = .keyword .EXISTS)
      (query : Parenthesized P.query ts q) :
      IsOperand (t :: ts) ⟨t.span.through (t :: ts), .existsQuery q⟩
  | subquery {o c : Token} {ts : List Token} {q : Query}
      (opening : o.kind = .punctuation .openParen) (query : P.query ts q)
      (closing : c.kind = .punctuation .closeParen) :
      IsOperand (o :: (ts ++ [c])) ⟨o.span.through (o :: (ts ++ [c])), .subquery q⟩
  | nested {o c : Token} {ts : List Token} {e : Expr}
      (opening : o.kind = .punctuation .openParen) (inner : P.wholeExpr ts e)
      (closing : c.kind = .punctuation .closeParen) :
      IsOperand (o :: (ts ++ [c])) ⟨o.span.through (o :: (ts ++ [c])), .nested e⟩

/-! ## Infix operators -/

/-- What follows the keyword of a predicate. -/
inductive IsPredicateTail (left : Expr) (negated : Bool) :
    Predicate → List Token → ExprForm → Prop where
  | inList {ts : List Token} {es : List Expr}
      (items : Parenthesized (CommaSeparated P.wholeExpr) ts es) :
      IsPredicateTail left negated .isIn ts (.inList left negated es)
  | inQuery {ts : List Token} {q : Query} (query : Parenthesized P.query ts q) :
      IsPredicateTail left negated .isIn ts (.inQuery left negated q)
  | between {ls hs : List Token} {l h : Expr} (low : P.expr predicateLevel ls l)
      (high : Behind (.keyword .AND) (P.expr predicateLevel) hs h) :
      IsPredicateTail left negated .between (ls ++ hs) (.between left negated l h)
  | like {ts : List Token} {e : Expr} (pattern : P.expr predicateLevel ts e) :
      IsPredicateTail left negated .like ts (.like left negated e)

/-- An infix operator and what belongs to it on the right, folded onto
`left`. -/
inductive IsFold (left : Expr) : InfixOperator → List Token → Expr → Prop where
  | binary {t : Token} {ts : List Token} {op : BinaryOperator} {r : Expr}
      (kind : InfixOperator.ofKind? t.kind = some (.binary op)) (right : P.expr op.level ts r) :
      IsFold left (.binary op) (t :: ts) ⟨left.span.union r.span, .binary op left r⟩
  | is {t u : Token} {ns : List Token} {negated : Bool} {tt : TruthTest}
      (kind : t.kind = .keyword .IS) (negation : Flag .NOT ns negated)
      (test : u.kind = .keyword tt.keyword) :
      IsFold left .is (t :: (ns ++ [u]))
        ⟨left.span.through (t :: (ns ++ [u])), .is left negated tt⟩
  | predicate {t : Token} {ns ts : List Token} {negated : Bool} {p : Predicate} {form : ExprForm}
      (negation : Flag .NOT ns negated) (kind : Predicate.ofKind? t.kind = some p)
      (tail : IsPredicateTail P left negated p ts form) :
      IsFold left (.predicate negated p) (ns ++ t :: ts)
        ⟨left.span.through (ns ++ t :: ts), form⟩

end

end Grammar

end SqlSyntax
