import SqlSyntax.Parser.Expr

/-!
# Parsing queries

The clauses of a query, each with the parsers for what is nested in it. How
deep the nesting may go is settled in `SqlSyntax.Parser.Nesting`.
-/

namespace SqlSyntax.Parser

/-! ## Selected items -/

/-- Whether `name.name...*` starts the given tokens; nothing if they end
before this is clear. -/
def startsQualifiedWildcard? : List Token → Option Bool
  | [] => none
  | [t] => if t.isIdentifier then none else some false
  | [t, dot] => if t.isIdentifier && dot.kind == .punctuation .dot then none else some false
  | t :: dot :: u :: rest =>
    if t.isIdentifier && dot.kind == .punctuation .dot then
      if u.kind == .operator .times then some true
      else startsQualifiedWildcard? (u :: rest)
    else some false

/-- Raises the error that stopped the lexer, if it is not raised yet. -/
def raiseFailure : Parser Unit := fun s =>
  match s.failure with
  | some e => .error (.lex e) { s with failure := none }
  | none => .ok () s

/-- Whether a qualified wildcard comes next. -/
def atQualifiedWildcard : Parser Bool := do
  match startsQualifiedWildcard? (← get).tokens with
  | some answer => return answer
  | none =>
    raiseFailure
    return false

def qualifiedWildcard : Parser SelectItem := do
  let qualifier ← qualifiedName
  let _ ← punctuation .dot
  let _ ← operator .times
  return .qualifiedWildcard (← spanFrom qualifier.span) qualifier

def selectItem (sub : Nested) : Parser SelectItem := do
  match ← operator? .times with
  | some span => return .wildcard span
  | none =>
    if ← atQualifiedWildcard then
      qualifiedWildcard
    else
      let e ← sub.wholeExpr
      let label ← alias?
      return .expr (← spanFrom e.span) e label

/-! ## Relations -/

def relation (sub : Nested) : Parser Relation := do
  match ← punctuation? .openParen with
  | some start =>
    let q ← sub.query
    let _ ← punctuation .closeParen
    let label ← alias?
    return .derived (← spanFrom start) q label
  | none =>
    let name ← qualifiedName
    let label ← alias?
    return .table (← spanFrom name.span) name label

/-- The words before `JOIN`, if a join comes next. -/
def joinKind? : Parser (Option JoinKind) := do
  let outer (kind : JoinKind) : Parser (Option JoinKind) := do
    let _ ← next
    let _ ← keyword? .OUTER
    return some kind
  match (← peek).kind with
  | .keyword .JOIN => return some .inner
  | .keyword .INNER =>
    let _ ← next
    return some .inner
  | .keyword .CROSS =>
    let _ ← next
    return some .cross
  | .keyword .LEFT => outer .left
  | .keyword .RIGHT => outer .right
  | .keyword .FULL => outer .full
  | _ =>
    note [.keyword .JOIN, .keyword .INNER, .keyword .LEFT, .keyword .RIGHT, .keyword .FULL,
      .keyword .CROSS]
    return none

/-- What joins two relations; a cross join has no condition. -/
def joinCondition (sub : Nested) (kind : JoinKind) : Parser JoinCondition := do
  if kind = .cross then
    return .none
  else
    match ← keyword? .ON with
    | some _ => return .on (← sub.wholeExpr)
    | none =>
      match ← keyword? .USING with
      | some _ => return .shared (← columnList)
      | none => return .none

def join? (sub : Nested) : Parser (Option Join) := do
  let start := (← peek).span
  match ← joinKind? with
  | none => return none
  | some kind =>
    let _ ← keyword .JOIN
    let relation ← relation sub
    let condition ← joinCondition sub kind
    return some ⟨← spanFrom start, kind, relation, condition⟩

def joinedTable (sub : Nested) : Parser JoinedTable := do
  let relation ← relation sub
  let joins ← iterate (fun joins => do
    match ← join? sub with
    | some j => return some (j :: joins)
    | none => return none) []
  return ⟨← spanFrom relation.span, relation, joins.reverse⟩

/-! ## Clauses -/

def fromClause? (sub : Nested) : Parser (Option From) := do
  match ← keyword? .FROM with
  | some start =>
    let tables ← commaSeparated (joinedTable sub)
    return some ⟨← spanFrom start, tables⟩
  | none => return none

/-- A condition behind a keyword, if the keyword comes next. -/
def conditionAfter? (sub : Nested) (k : Keyword) : Parser (Option Expr) := do
  match ← keyword? k with
  | some _ => return some (← sub.wholeExpr)
  | none => return none

def groupBy? (sub : Nested) : Parser (Option GroupBy) := do
  match ← keyword? .GROUP with
  | some start =>
    let _ ← keyword .BY
    let keys ← commaSeparated sub.wholeExpr
    return some ⟨← spanFrom start, keys⟩
  | none => return none

def select (sub : Nested) : Parser Select := do
  let start ← keyword .SELECT
  let distinct ← do
    match ← keyword? .DISTINCT with
    | some _ => pure true
    | none =>
      let _ ← keyword? .ALL
      pure false
  let projection ← commaSeparated (selectItem sub)
  let source ← fromClause? sub
  let condition ← conditionAfter? sub .WHERE
  let groupBy ← groupBy? sub
  let having ← conditionAfter? sub .HAVING
  return ⟨← spanFrom start, distinct, projection, source, condition, groupBy, having⟩

def direction : Parser Direction := do
  match ← keyword? .DESC with
  | some _ => return .descending
  | none =>
    let _ ← keyword? .ASC
    return .ascending

def nullsPlacement? : Parser (Option NullsPlacement) := do
  match ← word? "NULLS" with
  | none => return none
  | some _ =>
    match ← word? "FIRST" with
    | some _ => return some .first
    | none =>
      match ← word? "LAST" with
      | some _ => return some .last
      | none => unexpected

def orderItem (sub : Nested) : Parser OrderItem := do
  let e ← sub.wholeExpr
  let direction ← direction
  let nulls ← nullsPlacement?
  return ⟨← spanFrom e.span, e, direction, nulls⟩

def orderBy? (sub : Nested) : Parser (Option OrderBy) := do
  match ← keyword? .ORDER with
  | some start =>
    let _ ← keyword .BY
    let items ← commaSeparated (orderItem sub)
    return some ⟨← spanFrom start, items⟩
  | none => return none

/-- `LIMIT count`, `LIMIT count OFFSET offset` or `LIMIT offset, count`. -/
def limit? (sub : Nested) : Parser (Option Limit) := do
  match ← keyword? .LIMIT with
  | none => return none
  | some start =>
    let first ← sub.wholeExpr
    let (count, offset) ← do
      match ← punctuation? .comma with
      | some _ => pure (← sub.wholeExpr, some first)
      | none =>
        match ← keyword? .OFFSET with
        | some _ => pure (first, some (← sub.wholeExpr))
        | none => pure (first, none)
    return some ⟨← spanFrom start, count, offset⟩

/-! ## Combining selections -/

/-- The set operator that comes next. -/
def setOperator? : Parser (Option SetOperator) := do
  match (← peek).kind with
  | .keyword .UNION => return some .union
  | .keyword .INTERSECT => return some .intersect
  | .keyword .EXCEPT => return some .except
  | _ =>
    note [.keyword .UNION, .keyword .INTERSECT, .keyword .EXCEPT]
    return none

/-- Consumes a set operator and the selection on its right. -/
def setOperand (sub : Nested) (left : QueryBody) (op : SetOperator) : Parser QueryBody := do
  let _ ← next
  let all ← keyword? .ALL
  let right ← select sub
  return .setOperation (left.span.union right.span) left op all.isSome right

/-- What follows the last selection of a query. -/
def queryTail (sub : Nested) (body : QueryBody) : Parser Query := do
  let orderBy ← orderBy? sub
  let limit ← limit? sub
  return ⟨← spanFrom body.span, body, orderBy, limit⟩

end SqlSyntax.Parser
