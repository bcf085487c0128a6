import Mathlib.Data.List.Nodup
import SqlSyntax.Proofs.Document.Fields
import SqlSyntax.Proofs.Interchange.Texts
import SqlSyntax.Proofs.Interchange.Spans

/-!
# The shapes of documents

The document of an expression is an object with a fixed list of fields for each
form, and parentheses add a last one. A `Shape` holds what differs between two
such objects: which list it is and the values in it. Forms with different trees
below them can have the same shape, as `IN` with a list and `IN` with a query do,
but they are few.

## Main results

* `Shape.eq_of_set` — a document has one shape, with parentheses or without.
* `Expr.shape?_core_eq` — expressions with the same document have the same shape,
  parentheses aside, and parentheses both or not.
* `Expr.shape?_eq_of_document` — what has a document of a shape.
-/

namespace SqlSyntax

open Document

/-! ## Operators -/

/-- What the document of an expression names as its operator between two parts. -/
inductive InfixName where
  | operator (op : BinaryOperator)
  | is (negated : Bool)
  | membership (negated : Bool)
  | between (negated : Bool)
  | like (negated : Bool)
deriving DecidableEq

def InfixName.text : InfixName → String
  | operator op => op.piece.text
  | is negated => isName negated
  | membership negated => negatedName negated "IN"
  | between negated => negatedName negated "BETWEEN"
  | like negated => negatedName negated "LIKE"

def InfixName.all : List InfixName :=
  [.or, .and, .equal, .notEqual, .less, .lessEqual, .greater, .greaterEqual, .plus, .minus,
    .concat, .times, .divide, .modulo].map .operator ++
  [true, false].flatMap fun negated =>
    [.is negated, .membership negated, .between negated, .like negated]

theorem InfixName.mem_all (n : InfixName) : n ∈ all := by
  cases n with
  | operator op => cases op <;> decide
  | is negated | membership negated | between negated | like negated => cases negated <;> decide

theorem InfixName.text_inj {m n : InfixName} (h : m.text = n.text) : m = n := by
  have distinct : (all.map text).Nodup := by decide +kernel
  exact List.inj_on_of_nodup_map distinct m.mem_all n.mem_all h

/-- What the document of an expression names as its operator before one part. -/
inductive PrefixName where
  | operator (op : UnaryOperator)
  | existence
deriving DecidableEq

def PrefixName.text : PrefixName → String
  | operator op => op.piece.text
  | existence => "EXISTS"

def PrefixName.all : List PrefixName :=
  [.existence, .operator .not, .operator .minus, .operator .plus]

theorem PrefixName.mem_all (n : PrefixName) : n ∈ all := by
  cases n with
  | operator op => cases op <;> decide
  | existence => decide

theorem PrefixName.text_inj {m n : PrefixName} (h : m.text = n.text) : m = n := by
  have distinct : (all.map text).Nodup := by decide +kernel
  exact List.inj_on_of_nodup_map distinct m.mem_all n.mem_all h

/-! ## Shapes -/

/-- What the document of an expression shows, parentheses aside. -/
inductive Shape where
  | column (table : Document) (name : String)
  | number (value : Document)
  | string (value : String)
  | bool (value : Bool)
  | null
  | unary (operator : PrefixName) (operand : Document)
  | binary (operator : InfixName) (left right : Document)
  | call (isAggregate : Bool) (name : String) (distinct : Bool) (arguments : Document)
  | case (operand : Document) (entries : List Document)
  | cast (operand : Document) (type : DataType)
  | query (query : Document)

namespace Shape

/-- The type of a call. -/
def callType (isAggregate : Bool) : String := if isAggregate then "aggr_func" else "function"

theorem callType_eq_iff {isAggregate : Bool} {type : String} : callType isAggregate = type ↔
    isAggregate = true ∧ type = "aggr_func" ∨ isAggregate = false ∧ type = "function" := by
  cases isAggregate <;> simp [callType, eq_comm]

theorem eq_callType_iff {isAggregate : Bool} {type : String} : type = callType isAggregate ↔
    isAggregate = true ∧ type = "aggr_func" ∨ isAggregate = false ∧ type = "function" := by
  rw [eq_comm, callType_eq_iff]

def document : Shape → Document
  | column table name => columnDocument table name
  | number value => object [("type", .string "number"), ("value", value)]
  | string value => object [("type", .string "single_quote_string"), ("value", .string value)]
  | bool value => boolDocument value
  | null => nullDocument
  | unary operator operand => unaryDocument operator.text operand
  | binary operator left right => binaryDocument operator.text left right
  | call isAggregate name distinct arguments =>
    let flag := if distinct then [("distinct", .string "DISTINCT")] else []
    object [("type", .string (callType isAggregate)), ("name", .string name),
      ("args", object (if isAggregate then flag ++ [("expr", arguments)]
        else [("type", .string "expr_list"), ("value", arguments)] ++ flag))]
  | case operand entries =>
    object [("type", .string "case"), ("expr", operand), ("args", array entries)]
  | cast operand type =>
    object [("type", .string "cast"), ("expr", operand), ("target", type.document)]
  | query q => parenthesizedDocument q

def isQuery : Shape → Bool
  | query _ => true
  | _ => false

/-- A document has one shape, whether it is that of an expression or that of one in
parentheses. -/
theorem eq_of_set {a b : Shape} (h : a.document.set "parentheses" (.bool true) =
    b.document.set "parentheses" (.bool true)) : a = b := by
  cases a <;> cases b <;>
    simp only [document, columnDocument, boolDocument, nullDocument, unaryDocument, binaryDocument,
      parenthesizedDocument, Document.set, setField, object.injEq, List.cons.injEq, Prod.mk.injEq,
      Document.string.injEq, String.reduceEq, callType_eq_iff, eq_callType_iff, if_false, and_true,
      true_and, and_false, false_and, or_false, false_or, reduceCtorEq] at h
  case unary.unary => rw [PrefixName.text_inj h.1, h.2]
  case binary.binary => rw [InfixName.text_inj h.1, h.2.1, h.2.2]
  case cast.cast => rw [h.1, DataType.document_inj h.2]
  case call.call isAggregate name distinct arguments isAggregate' name' distinct' arguments' =>
    cases isAggregate <;> cases isAggregate' <;> cases distinct <;> cases distinct' <;> simp_all
  all_goals simp_all

theorem document_inj {a b : Shape} (h : a.document = b.document) : a = b :=
  eq_of_set (congrArg (·.set "parentheses" (.bool true)) h)

@[simp] theorem isObject_document (a : Shape) : a.document.IsObject := by
  cases a <;> trivial

/-- Only a query has parentheses of its own. -/
theorem field?_parentheses (a : Shape) :
    a.document.field? "parentheses" = if a.isQuery then some (.bool true) else none := by
  cases a <;> rfl

/-- The types of documents that are no expressions. -/
theorem field?_type_ne (a : Shape) {t : String} (h : t ∈ ["star", "expr_list"]) :
    a.document.field? "type" ≠ some (.string t) := by
  have key : ∀ t ∈ a.document.field? "type", t ∉ ["star", "expr_list"].map Document.string := by
    cases a with
    | call isAggregate => cases isAggregate <;> intro t ht <;> cases ht <;> decide
    | _ => intro t ht; cases ht <;> decide
  exact fun ht => key _ ht (List.mem_map_of_mem h)

end Shape

/-! ## The shapes of expressions -/

/-- How a call names its function. -/
def callName (n : QualifiedName) : String :=
  if n.isAggregate then capitals n.canonical else n.canonical

/-- What a call shows of its arguments. An aggregate shows its only one as it is. -/
def callArguments (n : QualifiedName) (arguments : List Document) : Document :=
  if n.isAggregate then
    match arguments with
    | [argument] => argument
    | arguments => listDocument arguments
  else array arguments

/-- The shape of a call. -/
def callShape (n : QualifiedName) (distinct : Bool) (arguments : List Document) : Shape :=
  .call n.isAggregate (callName n) distinct (callArguments n arguments)

theorem callDocument_eq (n : QualifiedName) (distinct : Bool) (arguments : List Document) :
    callDocument n distinct arguments = (callShape n distinct arguments).document := by
  unfold callDocument callShape callName callArguments
  cases n.isAggregate with
  | true => rfl
  | false => cases distinct <;> rfl

/-- The shape of a form. Parentheses have none. -/
def ExprForm.shape? : ExprForm → Option Shape
  | .column n => some (.column n.qualifierDocument n.base.value)
  | .literal (.number text) => some (.number (numberDocument text))
  | .literal (.string value) => some (.string value)
  | .literal (.boolean b) => some (.bool b)
  | .literal .null => some .null
  | .unary op e => some (.unary (.operator op) (e.document false))
  | .binary op l r => some (.binary (.operator op) (l.document false) (r.document false))
  | .is e negated test => some (.binary (.is negated) (e.document false) test.document)
  | .inList e negated items =>
    some (.binary (.membership negated) (e.document false)
      (listDocument (items.map (Expr.document false))))
  | .inQuery e negated q =>
    some (.binary (.membership negated) (e.document false)
      (parenthesizedDocument (q.document false)))
  | .between e negated low high =>
    some (.binary (.between negated) (e.document false)
      (listDocument [low.document false, high.document false]))
  | .like e negated pattern =>
    some (.binary (.like negated) (e.document false) (pattern.document false))
  | .call n distinct arguments => some (callShape n distinct (arguments.documents false))
  | .case operand branches otherwise =>
    some (.case (Expr.optionalDocument false operand)
      (branches.map (WhenBranch.entry false) ++ Expr.elseDocument false otherwise))
  | .cast e type => some (.cast (e.document false) type)
  | .existsQuery q => some (.unary .existence (parenthesizedDocument (q.document false)))
  | .subquery q => some (.query (q.document false))
  | .nested _ => none

namespace Expr

/-- The document of an expression is that of its shape. -/
theorem document_eq_of_shape? {e : Expr} {a : Shape} (h : e.form.shape? = some a) :
    e.document false = a.document := by
  obtain ⟨s, form⟩ := e
  cases form with
  | literal v =>
    cases v <;> exact congrArg Shape.document (Option.some.inj h)
  | call n distinct arguments =>
    rw [document, callDocument_eq, spanned_false]
    exact congrArg Shape.document (Option.some.inj h)
  | inList e negated items =>
    rw [document, documents_eq, spanned_false]
    exact congrArg Shape.document (Option.some.inj h)
  | case operand branches otherwise =>
    rw [document, WhenBranch.documents_eq, spanned_false]
    exact congrArg Shape.document (Option.some.inj h)
  | nested => cases h
  | _ =>
    rw [document, spanned_false]
    exact congrArg Shape.document (Option.some.inj h)

/-- What is inside all parentheses has a shape. -/
theorem exists_shape_core : (e : Expr) → ∃ a, e.core.form.shape? = some a
  | ⟨s, form⟩ => by
    cases form with
    | nested e => exact exists_shape_core e
    | literal v => cases v <;> exact ⟨_, rfl⟩
    | _ => exact ⟨_, rfl⟩

/-- The document of an expression in parentheses has a field that says so. -/
theorem document_eq_core : (e : Expr) → e.document false =
    if e.isParenthesized then (e.core.document false).set "parentheses" (.bool true)
    else e.core.document false
  | ⟨s, form⟩ => by
    cases form with
    | nested e =>
      have inner := document_eq_core e
      rw [document, spanned_false, inner]
      cases e.isParenthesized <;> simp [isParenthesized, core]
    | _ => rfl

/-- Parentheses around a query do not show, as it has some. -/
theorem isQuery_of_isParenthesized {e : Expr} {a : Shape} (h : e.isParenthesized = false)
    (shape : e.core.form.shape? = some a) : a.isQuery = false := by
  obtain ⟨s, form⟩ := e
  cases form with
  | literal v =>
    cases v <;> rw [← Option.some.inj shape] <;> rfl
  | nested | subquery => cases h
  | call n =>
    rw [← Option.some.inj shape]
    rfl
  | _ => rw [← Option.some.inj shape]; rfl

theorem core_eq_self {e : Expr} (h : e.isParenthesized = false) : e.core = e := by
  obtain ⟨s, form⟩ := e
  cases form with
  | nested => cases h
  | _ => rfl

theorem field?_parentheses (e : Expr) : (e.document false).field? "parentheses" =
    if e.isParenthesized then some (.bool true) else none := by
  obtain ⟨a, shape⟩ := e.exists_shape_core
  rw [document_eq_core, document_eq_of_shape? shape]
  cases inside : e.isParenthesized with
  | false => simp [a.field?_parentheses, isQuery_of_isParenthesized inside shape]
  | true =>
    simp [field?_set a.isObject_document]

/-- Expressions with the same document have the same shape, parentheses aside, and
parentheses both or not. -/
theorem shape?_core_eq {e e' : Expr} (h : e.document false = e'.document false) :
    e.isParenthesized = e'.isParenthesized ∧ e.core.form.shape? = e'.core.form.shape? := by
  have same : e.isParenthesized = e'.isParenthesized := by
    have field := congrArg (·.field? "parentheses") h
    simp only [field?_parentheses] at field
    cases inside : e.isParenthesized <;> cases inside' : e'.isParenthesized <;> simp_all
  obtain ⟨a, shape⟩ := e.exists_shape_core
  obtain ⟨a', shape'⟩ := e'.exists_shape_core
  rw [document_eq_core, document_eq_core e', document_eq_of_shape? shape,
    document_eq_of_shape? shape', same] at h
  have shapes : a = a' := by
    cases inside : e'.isParenthesized with
    | false => exact Shape.document_inj (by simpa [inside] using h)
    | true => exact Shape.eq_of_set (by simpa [inside] using h)
  exact ⟨same, by rw [shape, shape', shapes]⟩

/-- What has the document of a shape. -/
theorem shape?_eq_of_document {e : Expr} {a : Shape} (h : e.document false = a.document)
    (plain : a.isQuery = false) : e.isParenthesized = false ∧ e.form.shape? = some a := by
  have outside : e.isParenthesized = false := by
    have field := e.field?_parentheses
    rw [h, a.field?_parentheses, plain] at field
    cases inside : e.isParenthesized <;> simp_all
  obtain ⟨b, shape⟩ := e.exists_shape_core
  rw [core_eq_self outside] at shape
  rw [document_eq_of_shape? shape] at h
  exact ⟨outside, by rw [shape, Shape.document_inj h]⟩

/-- No expression has a document of a type that is not one of an expression. -/
theorem field?_type_ne (e : Expr) {t : String} (h : t ∈ ["star", "expr_list"]) :
    (e.document false).field? "type" ≠ some (.string t) := by
  obtain ⟨a, shape⟩ := e.exists_shape_core
  rw [document_eq_core, document_eq_of_shape? shape]
  split
  · rw [field?_set a.isObject_document]
    exact a.field?_type_ne h
  · exact a.field?_type_ne h

theorem isObject_document (e : Expr) : (e.document false).IsObject := by
  obtain ⟨a, shape⟩ := e.exists_shape_core
  rw [document_eq_core, document_eq_of_shape? shape]
  split <;> simp

end Expr

end SqlSyntax
