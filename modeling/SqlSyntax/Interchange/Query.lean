import SqlSyntax.Canonical.Query
import SqlSyntax.Document.Basic

/-!
# Interchange documents of expressions and queries

The form in which a syntax tree is handed to other programs. It names the
clauses of a query and tags each expression with its type. Where the grammar
has several forms of one thing they are brought together: `IS`, `IN`,
`BETWEEN` and `LIKE` are binary expressions, and a relation that is joined is
an entry of `from` like any other, with fields for the join.

A chain of set operations is a list: each selection names the operator that
combines it with the next one and holds the next one. The first selection
carries the order and the limit of the whole.

With spans asked for, each node has a last field for its span, and otherwise
none has one.
-/

namespace SqlSyntax

open Document

/-! ## Leaves -/

def Span.document (s : Span) : Document :=
  object [("start", int s.start), ("end", int s.stop)]

/-- A document with a field for its span, if spans are asked for. -/
def Document.spanned (spans : Bool) (s : Span) (d : Document) : Document :=
  if spans then d.set "span" s.document else d

/-- Identifiers by their values. -/
def identifierDocuments (is : List Identifier) : Document :=
  array (is.map fun i => string i.value)

def aliasDocument : Option Identifier → Document
  | none => null
  | some i => string i.value

/-- The values of the parts before the last, joined by dots. -/
def QualifiedName.qualifierDocument (n : QualifiedName) : Document :=
  if n.qualifiers.isEmpty then null
  else string (".".intercalate (n.qualifiers.map (·.value)))

/-- A table by its name and its alias. -/
def tableDocument (name : QualifiedName) (label : Option Identifier) : Document :=
  object [("db", name.qualifierDocument), ("table", string name.base.value),
    ("as", aliasDocument label)]

def columnDocument (table : Document) (column : String) : Document :=
  object [("type", string "column_ref"), ("table", table), ("column", string column)]

/-- A name in its canonical form. -/
def QualifiedName.canonical (n : QualifiedName) : String := render n.pieces

/-- A number: an integer of at most 63 bits, else the nearest floating point
number, or the text itself where that would be infinite. -/
def numberDocument (text : String) : Document :=
  match Digits.valueUpTo (twoPow 63 - 1) text with
  | some n => int n
  | none =>
    match Binary64.ofDecimal? (Decimal.read text) with
    | some b => double b
    | none => string text

def nullDocument : Document := object [("type", string "null"), ("value", null)]

def boolDocument (b : Bool) : Document := object [("type", string "bool"), ("value", bool b)]

def starDocument : Document := object [("type", string "star"), ("value", string "*")]

def Literal.document : Literal → Document
  | .number text => object [("type", .string "number"), ("value", numberDocument text)]
  | .string value => object [("type", .string "single_quote_string"), ("value", .string value)]
  | .boolean b => boolDocument b
  | .null => nullDocument

def TruthTest.document : TruthTest → Document
  | .null => nullDocument
  | .true => boolDocument Bool.true
  | .false => boolDocument Bool.false

def unaryDocument (operator : String) (operand : Document) : Document :=
  object [("type", string "unary_expr"), ("operator", string operator), ("expr", operand)]

def binaryDocument (operator : String) (left right : Document) : Document :=
  object [("type", string "binary_expr"), ("operator", string operator), ("left", left),
    ("right", right)]

def listDocument (items : List Document) : Document :=
  object [("type", string "expr_list"), ("value", array items)]

/-- The operator of a predicate whose negation has `NOT` in front. -/
def negatedName (negated : Bool) (operator : String) : String :=
  if negated then "NOT " ++ operator else operator

def isName (negated : Bool) : String := if negated then "IS NOT" else "IS"

/-- A query in parentheses. -/
def parenthesizedDocument (query : Document) : Document :=
  object [("ast", query), ("parentheses", bool true)]

def DataType.document (t : DataType) : Document :=
  object [("dataType", string (render t.pieces))]

def SetOperator.name : SetOperator → String
  | .union => "union"
  | .intersect => "intersect"
  | .except => "except"

/-- A set operator in lower case, with `all` if that was written. -/
def setOperatorName (op : SetOperator) (all : Bool) : String :=
  if all then op.name ++ " all" else op.name

/-- A selection with the operator and the selection that follow it. -/
def linkDocument (next : Option (String × Document)) (d : Document) : Document :=
  match next with
  | none => d
  | some (op, following) => (d.set "set_op" (string op)).set "_next" following

/-- A call of an aggregate. -/
def aggregateDocument (function : QualifiedName) (distinct : Bool) (argument : Document) :
    Document :=
  object [("type", string "aggr_func"), ("name", string (capitals function.canonical)),
    ("args", object
      ((if distinct then [("distinct", string "DISTINCT")] else []) ++ [("expr", argument)]))]

/-- A call of another function. -/
def functionDocument (function : QualifiedName) (distinct : Bool) (arguments : List Document) :
    Document :=
  let list := listDocument arguments
  object [("type", string "function"), ("name", string function.canonical),
    ("args", if distinct then list.set "distinct" (string "DISTINCT") else list)]

/-- A call, by the kind of its function. An aggregate with a single argument
has that as its argument, one with several has their list. -/
def callDocument (function : QualifiedName) (distinct : Bool) (arguments : List Document) :
    Document :=
  if function.isAggregate then
    aggregateDocument function distinct
      (match arguments with
        | [argument] => argument
        | arguments => listDocument arguments)
  else functionDocument function distinct arguments

/-! ## Expressions and queries -/

mutual

def Expr.document (spans : Bool) : Expr → Document
  | ⟨span, .column name⟩ =>
    (columnDocument name.qualifierDocument name.base.value).spanned spans span
  | ⟨span, .literal value⟩ => value.document.spanned spans span
  | ⟨span, .unary op e⟩ =>
    (unaryDocument op.piece.text (e.document spans)).spanned spans span
  | ⟨span, .binary op l r⟩ =>
    (binaryDocument op.piece.text (l.document spans) (r.document spans)).spanned spans span
  | ⟨span, .is e negated test⟩ =>
    (binaryDocument (isName negated) (e.document spans) test.document).spanned spans span
  | ⟨span, .inList e negated items⟩ =>
    (binaryDocument (negatedName negated "IN") (e.document spans)
      (listDocument (Expr.documents spans items))).spanned spans span
  | ⟨span, .inQuery e negated q⟩ =>
    (binaryDocument (negatedName negated "IN") (e.document spans)
      (parenthesizedDocument (q.document spans))).spanned spans span
  | ⟨span, .between e negated low high⟩ =>
    (binaryDocument (negatedName negated "BETWEEN") (e.document spans)
      (listDocument [low.document spans, high.document spans])).spanned spans span
  | ⟨span, .like e negated pattern⟩ =>
    (binaryDocument (negatedName negated "LIKE") (e.document spans)
      (pattern.document spans)).spanned spans span
  | ⟨span, .call function distinct arguments⟩ =>
    (callDocument function distinct (arguments.documents spans)).spanned spans span
  | ⟨span, .case operand branches otherwise⟩ =>
    (object [("type", string "case"), ("expr", Expr.optionalDocument spans operand),
      ("args", array (WhenBranch.documents spans branches
        ++ Expr.elseDocument spans otherwise))]).spanned spans span
  | ⟨span, .cast e type⟩ =>
    (object [("type", string "cast"), ("expr", e.document spans),
      ("target", type.document)]).spanned spans span
  | ⟨span, .existsQuery q⟩ =>
    (unaryDocument "EXISTS" (parenthesizedDocument (q.document spans))).spanned spans span
  | ⟨span, .subquery q⟩ => (parenthesizedDocument (q.document spans)).spanned spans span
  | ⟨span, .nested e⟩ => ((e.document spans).set "parentheses" (bool true)).spanned spans span

def Expr.documents (spans : Bool) : List Expr → List Document
  | [] => []
  | e :: es => e.document spans :: Expr.documents spans es

def Expr.optionalDocument (spans : Bool) : Option Expr → Document
  | none => null
  | some e => e.document spans

/-- The entry of an `ELSE`, if there is one. -/
def Expr.elseDocument (spans : Bool) : Option Expr → List Document
  | none => []
  | some e => [object [("type", string "else"), ("result", e.document spans)]]

def Arguments.documents (spans : Bool) : Arguments → List Document
  | .star => [starDocument]
  | .list items => Expr.documents spans items

def WhenBranch.documents (spans : Bool) : List WhenBranch → List Document
  | [] => []
  | ⟨span, condition, result⟩ :: bs =>
    (object [("type", string "when"), ("cond", condition.document spans),
      ("result", result.document spans)]).spanned spans span :: WhenBranch.documents spans bs

def Query.document (spans : Bool) : Query → Document
  | ⟨span, body, orderBy, limit⟩ =>
    let head := body.document spans none
    let ordered := match orderBy with
      | none => head
      | some ⟨_, items⟩ => head.set "orderby" (array (OrderItem.documents spans items))
    let limited := match limit with
      | none => ordered
      | some ⟨_, count, offset⟩ =>
        ordered.set "limit" (array [Expr.offsetDocument spans offset, count.document spans])
    limited.spanned spans span

/-- Without an offset no rows are skipped. -/
def Expr.offsetDocument (spans : Bool) : Option Expr → Document
  | none => object [("type", string "number"), ("value", int 0)]
  | some e => e.document spans

/-- The selections of a body in front of what follows them. -/
def QueryBody.document (spans : Bool) (next : Option (String × Document)) : QueryBody → Document
  | .select s => linkDocument next (s.document spans)
  | .setOperation _ left op all right =>
    left.document spans
      (some (setOperatorName op all, linkDocument next (right.document spans)))

def Select.document (spans : Bool) : Select → Document
  | ⟨span, distinct, projection, source, condition, groupBy, having⟩ =>
    (object [("type", string "select"),
      ("distinct", if distinct then string "DISTINCT" else null),
      ("columns", match projection with
        | [.wildcard _] => string "*"
        | items => array (SelectItem.documents spans items)),
      ("from", match source with
        | none => null
        | some ⟨_, tables⟩ => array (JoinedTable.documents spans tables)),
      ("where", Expr.optionalDocument spans condition),
      ("groupby", match groupBy with
        | none => null
        | some ⟨_, keys⟩ => array (Expr.documents spans keys)),
      ("having", Expr.optionalDocument spans having),
      ("orderby", null), ("limit", null)]).spanned spans span

def SelectItem.document (spans : Bool) : SelectItem → Document
  | .wildcard span => (object [("expr", starDocument), ("as", null)]).spanned spans span
  | .qualifiedWildcard span qualifier =>
    (object [("expr", columnDocument (string qualifier.canonical) "*"),
      ("as", null)]).spanned spans span
  | .expr span e label =>
    (object [("expr", e.document spans), ("as", aliasDocument label)]).spanned spans span

def SelectItem.documents (spans : Bool) : List SelectItem → List Document
  | [] => []
  | i :: is => i.document spans :: SelectItem.documents spans is

/-- The entries of a `FROM` clause: each relation and those joined to it. -/
def JoinedTable.documents (spans : Bool) : List JoinedTable → List Document
  | [] => []
  | ⟨_, relation, joins⟩ :: ts =>
    relation.document spans :: (Join.documents spans joins ++ JoinedTable.documents spans ts)

def Relation.document (spans : Bool) : Relation → Document
  | .table span name label => (tableDocument name label).spanned spans span
  | .derived span q label =>
    (object [("expr", parenthesizedDocument (q.document spans)),
      ("as", aliasDocument label)]).spanned spans span

def Join.documents (spans : Bool) : List Join → List Document
  | [] => []
  | ⟨span, kind, relation, condition⟩ :: js =>
    ((((relation.document spans).set "join" (string (kind.keyword.text ++ " JOIN"))).set
      "on" (condition.onDocument spans)).set "using" condition.usingDocument).spanned spans span
      :: Join.documents spans js

def JoinCondition.onDocument (spans : Bool) : JoinCondition → Document
  | .on e => e.document spans
  | .shared _ | .none => null

/-- The columns that a join shares. -/
def JoinCondition.usingDocument : JoinCondition → Document
  | .shared columns => identifierDocuments columns
  | .on _ | .none => null

def OrderItem.documents (spans : Bool) : List OrderItem → List Document
  | [] => []
  | ⟨span, e, direction, nulls⟩ :: is =>
    (object [("expr", e.document spans), ("type", string direction.keyword.text),
      ("nulls", match nulls with
        | none => null
        | some n => string n.word)]).spanned spans span :: OrderItem.documents spans is

end

end SqlSyntax
