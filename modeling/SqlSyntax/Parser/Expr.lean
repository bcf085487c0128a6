import SqlSyntax.Parser.Name
import SqlSyntax.Tree.Query

/-!
# Parsing expressions

Operators bind at levels, from `OR`, the loosest, to the signs in front of an
operand. An expression is parsed above a level: first an operand, then infix
operators are folded onto it as long as they bind above that level. The right
operand of an operator is parsed above the operator's own level, so operators
of one level associate to the left.

`NOT` in front of an operand takes what binds above its level, which is below
that of the comparisons. Between an operand and `IN`, `BETWEEN` or `LIKE` it
belongs to the predicate, and the token after it decides.

The parsers here are given those for the expressions and queries inside, with
the nesting that is left to them.
-/

namespace SqlSyntax

/-! ## Levels -/

/-- How tightly an operator binds. -/
def BinaryOperator.level : BinaryOperator → Nat
  | .or => 5
  | .and => 10
  | .equal | .notEqual | .less | .lessEqual | .greater | .greaterEqual => 20
  | .plus | .minus | .concat => 30
  | .times | .divide | .modulo => 40

/-- Level of `IS`, `IN`, `BETWEEN` and `LIKE`. -/
def predicateLevel : Nat := 20

/-- What an operand of `NOT` binds above. -/
def notLevel : Nat := 15

/-- What the operand of a sign binds above: no infix operator does. -/
def signLevel : Nat := 50

/-- A predicate that can be negated. -/
inductive Predicate where
  | isIn | between | like
deriving DecidableEq, Repr

/-- What can follow an operand. -/
inductive InfixOperator where
  | binary (op : BinaryOperator)
  | is
  /-- A predicate; a negated one has `NOT` before its keyword. -/
  | predicate (negated : Bool) (predicate : Predicate)
deriving DecidableEq, Repr

def InfixOperator.level : InfixOperator → Nat
  | .binary op => op.level
  | .is | .predicate .. => predicateLevel

/-- The binary operator that a symbol stands for. -/
def BinaryOperator.ofOperator : Operator → BinaryOperator
  | .equal => .equal
  | .notEqual => .notEqual
  | .less => .less
  | .lessEqual => .lessEqual
  | .greater => .greater
  | .greaterEqual => .greaterEqual
  | .plus => .plus
  | .minus => .minus
  | .times => .times
  | .divide => .divide
  | .modulo => .modulo
  | .concat => .concat

def Predicate.ofKind? : TokenKind → Option Predicate
  | .keyword .IN => some .isIn
  | .keyword .BETWEEN => some .between
  | .keyword .LIKE => some .like
  | _ => none

/-- The infix operator that a token is by itself. -/
def InfixOperator.ofKind? : TokenKind → Option InfixOperator
  | .keyword .OR => some (.binary .or)
  | .keyword .AND => some (.binary .and)
  | .keyword .IS => some .is
  | .operator o => some (.binary (.ofOperator o))
  | kind => (Predicate.ofKind? kind).map (.predicate false)

namespace Parser

/-- Parsers for what is nested inside a construct. -/
structure Nested where
  /-- An expression of operators that bind above a level. -/
  expr : Nat → Parser Expr
  query : Parser Query

/-- A whole expression. -/
def Nested.wholeExpr (sub : Nested) : Parser Expr := sub.expr 0

/-- A query, if one starts here, and else what `otherwise` reads. -/
def Nested.queryOr {α : Type} (sub : Nested) (ofQuery : Query → α) (otherwise : Parser α) :
    Parser α := do
  if (← peek).kind == .keyword .SELECT then
    return ofQuery (← sub.query)
  else
    otherwise

/-! ## Operands -/

/-- A single token as an operand. -/
def literalExpr (value : Literal) : Parser Expr := do
  let t ← next
  return ⟨t.span, .literal value⟩

/-- An operator in front of its operand. -/
def unaryExpr (sub : Nested) (op : UnaryOperator) (level : Nat) : Parser Expr := do
  let t ← next
  let operand ← sub.expr level
  return ⟨t.span.union operand.span, .unary op operand⟩

def existsExpr (sub : Nested) : Parser Expr := do
  let t ← next
  let q ← parenthesized sub.query
  return ⟨← spanFrom t.span, .existsQuery q⟩

/-- A query or an expression in parentheses. -/
def parenthesizedExpr (sub : Nested) : Parser Expr := do
  let t ← next
  let form ← sub.queryOr .subquery do
    return .nested (← sub.wholeExpr)
  let _ ← punctuation .closeParen
  return ⟨← spanFrom t.span, form⟩

/-- The arguments of a call through the closing parenthesis, and whether they
are marked `DISTINCT`. -/
def arguments (sub : Nested) : Parser (Bool × Arguments) := do
  let found ← do
    match ← operator? .times with
    | some _ => pure (false, Arguments.star)
    | none =>
      if (← peek).kind == .punctuation .closeParen then
        pure (false, .list [])
      else
        let distinct ← keyword? .DISTINCT
        pure (distinct.isSome, .list (← commaSeparated sub.wholeExpr))
  let _ ← punctuation .closeParen
  return found

/-- A column, or a call if a parenthesis follows the name. -/
def nameExpr (sub : Nested) : Parser Expr := do
  let name ← qualifiedName
  match ← punctuation? .openParen with
  | none => return ⟨name.span, .column name⟩
  | some _ =>
    let (distinct, args) ← arguments sub
    return ⟨← spanFrom name.span, .call name distinct args⟩

/-- What follows the `WHEN` that stands at `start`. -/
def whenBranch (sub : Nested) (start : Span) : Parser WhenBranch := do
  let condition ← sub.wholeExpr
  let _ ← keyword .THEN
  let result ← sub.wholeExpr
  return ⟨← spanFrom start, condition, result⟩

def caseExpr (sub : Nested) : Parser Expr := do
  let start ← keyword .CASE
  let operand ← do
    if (← peek).kind == .keyword .WHEN then pure none
    else pure (some (← sub.wholeExpr))
  let first ← whenBranch sub (← keyword .WHEN)
  let others ← iterate (fun branches => do
    match ← keyword? .WHEN with
    | some span => return some ((← whenBranch sub span) :: branches)
    | none => return none) []
  let otherwise ← do
    match ← keyword? .ELSE with
    | some _ => pure (some (← sub.wholeExpr))
    | none => pure none
  let _ ← keyword .END
  return ⟨← spanFrom start, .case operand (first :: others.reverse) otherwise⟩

def castExpr (sub : Nested) : Parser Expr := do
  let start ← keyword .CAST
  let _ ← punctuation .openParen
  let operand ← sub.wholeExpr
  let _ ← keyword .AS
  let type ← dataType
  let _ ← punctuation .closeParen
  return ⟨← spanFrom start, .cast operand type⟩

/-- What can start an expression. -/
def operandStarts : List Expectation :=
  [.identifier, .number, .string, .punctuation .openParen, .operator .minus, .operator .plus,
    .keyword .NOT, .keyword .NULL, .keyword .TRUE, .keyword .FALSE, .keyword .CASE,
    .keyword .CAST, .keyword .EXISTS]

/-- What stands before the first infix operator. -/
def operand (sub : Nested) : Parser Expr := do
  let t ← peek
  match t.kind with
  | .keyword .NOT => unaryExpr sub .not notLevel
  | .operator .minus => unaryExpr sub .minus signLevel
  | .operator .plus => unaryExpr sub .plus signLevel
  | .number => literalExpr (.number t.text)
  | .string => literalExpr (.string t.value)
  | .keyword .TRUE => literalExpr (.boolean true)
  | .keyword .FALSE => literalExpr (.boolean false)
  | .keyword .NULL => literalExpr .null
  | .keyword .CASE => caseExpr sub
  | .keyword .CAST => castExpr sub
  | .keyword .EXISTS => existsExpr sub
  | .punctuation .openParen => parenthesizedExpr sub
  | .identifier _ => nameExpr sub
  | _ =>
    note operandStarts
    unexpected

/-! ## Infix operators -/

/-- The infix operator that comes next. -/
def infixOperator? : Parser (Option InfixOperator) := do
  let t ← peek
  if t.kind == .keyword .NOT then
    return (Predicate.ofKind? (← peekAt 1).kind).map (.predicate true)
  else
    return InfixOperator.ofKind? t.kind

/-- What follows `IS`. -/
def truthTest (left : Expr) : Parser Expr := do
  let negated ← keyword? .NOT
  let test? := match (← peek).kind with
    | .keyword .NULL => some TruthTest.null
    | .keyword .TRUE => some .true
    | .keyword .FALSE => some .false
    | _ => none
  match test? with
  | some test =>
    let _ ← next
    return ⟨← spanFrom left.span, .is left negated.isSome test⟩
  | none =>
    note [.keyword .NULL, .keyword .TRUE, .keyword .FALSE]
    unexpected

/-- What follows the keyword of a predicate. -/
def predicateTail (sub : Nested) (left : Expr) (negated : Bool) : Predicate → Parser ExprForm
  | .isIn => parenthesized <|
      sub.queryOr (.inQuery left negated) do
        return .inList left negated (← commaSeparated sub.wholeExpr)
  | .between => do
    let low ← sub.expr predicateLevel
    let _ ← keyword .AND
    let high ← sub.expr predicateLevel
    return .between left negated low high
  | .like => return .like left negated (← sub.expr predicateLevel)

/-- Consumes an infix operator and what belongs to it on the right. -/
def foldInfix (sub : Nested) (left : Expr) (op : InfixOperator) : Parser Expr := do
  let _ ← next
  match op with
  | .binary op =>
    let right ← sub.expr op.level
    return ⟨left.span.union right.span, .binary op left right⟩
  | .is => truthTest left
  | .predicate negated p =>
    if negated then
      let _ ← next
    let form ← predicateTail sub left negated p
    return ⟨← spanFrom left.span, form⟩

end Parser

end SqlSyntax
