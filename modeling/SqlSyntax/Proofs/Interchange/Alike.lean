import Mathlib.Data.List.Forall2
import Mathlib.Data.Option.Defs
import SqlSyntax.Interchange.Statement

/-!
# What documents do not tell apart

Trees are *alike* when they differ only in what their documents leave out: where
their nodes stand, how a number is written that stands for the same value, the
case of the letters in the name of an aggregate, whether an offset of zero is
written, and how many parentheses there are around an expression or a query
that has some. The parts of a name before its last one become one text with dots
in it, so names are alike that differ only in which of these dots are their own;
and the columns of a relation become a column that is named `*`.

Nothing else is left out: every other relation here asks for the same form, for
the same words and values, and for parts that are alike.
-/

namespace SqlSyntax

/-! ## Names -/

/-- The parts of a name without their places. -/
def QualifiedName.values (n : QualifiedName) : List String := n.parts.map (·.value)

/-- The parts before the last with dots between them, if there are any. -/
def QualifiedName.qualifierText? (n : QualifiedName) : Option String :=
  if n.qualifiers.isEmpty then none else some (".".intercalate (n.qualifiers.map (·.value)))

/-- Whether two names of columns or tables are the same when the parts before the
last are put together. -/
structure QualifiedName.Alike (n n' : QualifiedName) : Prop where
  base : n.base.value = n'.base.value
  qualifier : n.qualifierText? = n'.qualifierText?

/-- Whether two names are those of the same function. -/
inductive QualifiedName.SameFunction (n n' : QualifiedName) : Prop where
  | same (values : n.values = n'.values)
  | aggregate (isAggregate : n.isAggregate) (isAggregate' : n'.isAggregate)
      (base : capitals n.base.value = capitals n'.base.value)

/-! ## Parentheses -/

/-- What stands inside all the parentheses around an expression. -/
def Expr.core : Expr → Expr
  | ⟨_, .nested e⟩ => e.core
  | e => e

/-- Whether an expression is in parentheses, as a query always is. -/
def Expr.isParenthesized : Expr → Bool
  | ⟨_, .nested _⟩ | ⟨_, .subquery _⟩ => true
  | _ => false

/-! ## Expressions and queries -/

mutual

/-- Expressions are alike when both or none are in parentheses and what stands
inside all of these is. -/
inductive Expr.Alike : Expr → Expr → Prop where
  | core {e e' : Expr} (parentheses : e.isParenthesized = e'.isParenthesized)
      (form : ExprForm.Alike e.core.form e'.core.form) : Expr.Alike e e'

inductive ExprForm.Alike : ExprForm → ExprForm → Prop where
  | column {n n' : QualifiedName} (name : n.Alike n') : ExprForm.Alike (.column n) (.column n')
  | number {text text' : String} (value : numberDocument text = numberDocument text') :
    ExprForm.Alike (.literal (.number text)) (.literal (.number text'))
  | literal (v : Literal) : ExprForm.Alike (.literal v) (.literal v)
  | unary (op : UnaryOperator) {e e' : Expr} (operand : Expr.Alike e e') :
    ExprForm.Alike (.unary op e) (.unary op e')
  | binary (op : BinaryOperator) {l l' r r' : Expr} (left : Expr.Alike l l')
      (right : Expr.Alike r r') : ExprForm.Alike (.binary op l r) (.binary op l' r')
  | is {e e' : Expr} (operand : Expr.Alike e e') (negated : Bool) (test : TruthTest) :
    ExprForm.Alike (.is e negated test) (.is e' negated test)
  | inList {e e' : Expr} (operand : Expr.Alike e e') (negated : Bool) {items items' : List Expr}
      (list : List.Forall₂ Expr.Alike items items') :
    ExprForm.Alike (.inList e negated items) (.inList e' negated items')
  | inQuery {e e' : Expr} (operand : Expr.Alike e e') (negated : Bool) {q q' : Query}
      (query : Query.Alike q q') : ExprForm.Alike (.inQuery e negated q) (.inQuery e' negated q')
  | between {e e' : Expr} (operand : Expr.Alike e e') (negated : Bool) {low low' high high' : Expr}
      (lower : Expr.Alike low low') (upper : Expr.Alike high high') :
    ExprForm.Alike (.between e negated low high) (.between e' negated low' high')
  | like {e e' : Expr} (operand : Expr.Alike e e') (negated : Bool) {p p' : Expr}
      (pattern : Expr.Alike p p') : ExprForm.Alike (.like e negated p) (.like e' negated p')
  | call {n n' : QualifiedName} (function : n.SameFunction n') (distinct : Bool)
      {as as' : Arguments} (arguments : Arguments.Alike as as') :
    ExprForm.Alike (.call n distinct as) (.call n' distinct as')
  | case {o o' : Option Expr} (operand : Option.Rel Expr.Alike o o') {bs bs' : List WhenBranch}
      (branches : List.Forall₂ WhenBranch.Alike bs bs') {e e' : Option Expr}
      (otherwise : Option.Rel Expr.Alike e e') : ExprForm.Alike (.case o bs e) (.case o' bs' e')
  | cast {e e' : Expr} (operand : Expr.Alike e e') (type : DataType) :
    ExprForm.Alike (.cast e type) (.cast e' type)
  | existsQuery {q q' : Query} (query : Query.Alike q q') :
    ExprForm.Alike (.existsQuery q) (.existsQuery q')
  | subquery {q q' : Query} (query : Query.Alike q q') : ExprForm.Alike (.subquery q) (.subquery q')

inductive Arguments.Alike : Arguments → Arguments → Prop where
  | star : Arguments.Alike .star .star
  | list {items items' : List Expr} (alike : List.Forall₂ Expr.Alike items items') :
    Arguments.Alike (.list items) (.list items')

inductive WhenBranch.Alike : WhenBranch → WhenBranch → Prop where
  | branch {b b' : WhenBranch} (condition : Expr.Alike b.condition b'.condition)
      (result : Expr.Alike b.result b'.result) : WhenBranch.Alike b b'

inductive Query.Alike : Query → Query → Prop where
  | query {q q' : Query} (body : QueryBody.Alike q.body q'.body)
      (orderBy : Option.Rel OrderBy.Alike q.orderBy q'.orderBy)
      (limit : Option.Rel Limit.Alike q.limit q'.limit) : Query.Alike q q'

inductive QueryBody.Alike : QueryBody → QueryBody → Prop where
  | select {s s' : Select} (select : Select.Alike s s') : QueryBody.Alike (.select s) (.select s')
  | setOperation {span span' : Span} {l l' : QueryBody} (left : QueryBody.Alike l l')
      (op : SetOperator) (all : Bool) {r r' : Select} (right : Select.Alike r r') :
    QueryBody.Alike (.setOperation span l op all r) (.setOperation span' l' op all r')

inductive Select.Alike : Select → Select → Prop where
  | select {s s' : Select} (distinct : s.distinct = s'.distinct)
      (projection : List.Forall₂ SelectItem.Alike s.projection s'.projection)
      (source : Option.Rel From.Alike s.source s'.source)
      (condition : Option.Rel Expr.Alike s.condition s'.condition)
      (groupBy : Option.Rel GroupBy.Alike s.groupBy s'.groupBy)
      (having : Option.Rel Expr.Alike s.having s'.having) : Select.Alike s s'

inductive SelectItem.Alike : SelectItem → SelectItem → Prop where
  | wildcard (s s' : Span) : SelectItem.Alike (.wildcard s) (.wildcard s')
  | qualifiedWildcard (s s' : Span) {n n' : QualifiedName} (qualifier : n.values = n'.values) :
    SelectItem.Alike (.qualifiedWildcard s n) (.qualifiedWildcard s' n')
  | expr (s s' : Span) {e e' : Expr} (expr : Expr.Alike e e') {label label' : Option Identifier}
      (labels : label.map (·.value) = label'.map (·.value)) :
    SelectItem.Alike (.expr s e label) (.expr s' e' label')
  /-- The columns of a relation and a column that is named `*`. -/
  | columnForWildcard (s s' t : Span) {n n' : QualifiedName} (base : n'.base.value = "*")
      (qualifier : n'.qualifierText? = some n.canonical) :
    SelectItem.Alike (.qualifiedWildcard s n) (.expr s' ⟨t, .column n'⟩ none)
  | wildcardForColumn (s s' t : Span) {n n' : QualifiedName} (base : n.base.value = "*")
      (qualifier : n.qualifierText? = some n'.canonical) :
    SelectItem.Alike (.expr s ⟨t, .column n⟩ none) (.qualifiedWildcard s' n')

inductive From.Alike : From → From → Prop where
  | source {f f' : From} (tables : List.Forall₂ JoinedTable.Alike f.tables f'.tables) :
    From.Alike f f'

inductive JoinedTable.Alike : JoinedTable → JoinedTable → Prop where
  | table {t t' : JoinedTable} (relation : Relation.Alike t.relation t'.relation)
      (joins : List.Forall₂ Join.Alike t.joins t'.joins) : JoinedTable.Alike t t'

inductive Relation.Alike : Relation → Relation → Prop where
  | table (s s' : Span) {n n' : QualifiedName} (name : n.Alike n')
      {label label' : Option Identifier} (labels : label.map (·.value) = label'.map (·.value)) :
    Relation.Alike (.table s n label) (.table s' n' label')
  | derived (s s' : Span) {q q' : Query} (query : Query.Alike q q')
      {label label' : Option Identifier} (labels : label.map (·.value) = label'.map (·.value)) :
    Relation.Alike (.derived s q label) (.derived s' q' label')

inductive Join.Alike : Join → Join → Prop where
  | join {j j' : Join} (kind : j.kind = j'.kind) (relation : Relation.Alike j.relation j'.relation)
      (condition : JoinCondition.Alike j.condition j'.condition) : Join.Alike j j'

inductive JoinCondition.Alike : JoinCondition → JoinCondition → Prop where
  | on {e e' : Expr} (condition : Expr.Alike e e') : JoinCondition.Alike (.on e) (.on e')
  | shared {columns columns' : List Identifier}
      (values : columns.map (·.value) = columns'.map (·.value)) :
    JoinCondition.Alike (.shared columns) (.shared columns')
  | none : JoinCondition.Alike .none .none

inductive GroupBy.Alike : GroupBy → GroupBy → Prop where
  | groupBy {g g' : GroupBy} (keys : List.Forall₂ Expr.Alike g.keys g'.keys) : GroupBy.Alike g g'

inductive OrderBy.Alike : OrderBy → OrderBy → Prop where
  | orderBy {o o' : OrderBy} (items : List.Forall₂ OrderItem.Alike o.items o'.items) :
    OrderBy.Alike o o'

inductive OrderItem.Alike : OrderItem → OrderItem → Prop where
  | item {i i' : OrderItem} (expr : Expr.Alike i.expr i'.expr)
      (direction : i.direction = i'.direction) (nulls : i.nulls = i'.nulls) : OrderItem.Alike i i'

inductive Limit.Alike : Limit → Limit → Prop where
  | limit {l l' : Limit} (count : Expr.Alike l.count l'.count)
      (offset : Offset.Alike l.offset l'.offset) : Limit.Alike l l'

/-- No offset is an offset of zero. -/
inductive Offset.Alike : Option Expr → Option Expr → Prop where
  | absent : Offset.Alike none none
  | present {e e' : Expr} (expr : Expr.Alike e e') : Offset.Alike (some e) (some e')
  | zero (s : Span) {text : String} (zero : numberDocument text = numberDocument "0") :
    Offset.Alike none (some ⟨s, .literal (.number text)⟩)
  | zero' (s : Span) {text : String} (zero : numberDocument text = numberDocument "0") :
    Offset.Alike (some ⟨s, .literal (.number text)⟩) none

end

/-! ## Statements -/

inductive InsertSource.Alike : InsertSource → InsertSource → Prop where
  | values {rows rows' : List (List Expr)}
      (alike : List.Forall₂ (List.Forall₂ Expr.Alike) rows rows') :
    Alike (.values rows) (.values rows')
  | query {q q' : Query} (alike : q.Alike q') : Alike (.query q) (.query q')

structure Insert.Alike (s s' : Insert) : Prop where
  table : s.table.Alike s'.table
  columns : s.columns.map (·.value) = s'.columns.map (·.value)
  source : s.source.Alike s'.source

structure Assignment.Alike (a a' : Assignment) : Prop where
  column : a.column.value = a'.column.value
  value : a.value.Alike a'.value

structure Update.Alike (s s' : Update) : Prop where
  table : s.table.Alike s'.table
  labels : s.alias?.map (·.value) = s'.alias?.map (·.value)
  assignments : List.Forall₂ Assignment.Alike s.assignments s'.assignments
  condition : Option.Rel Expr.Alike s.condition s'.condition

structure Delete.Alike (s s' : Delete) : Prop where
  table : s.table.Alike s'.table
  labels : s.alias?.map (·.value) = s'.alias?.map (·.value)
  condition : Option.Rel Expr.Alike s.condition s'.condition

inductive ColumnOption.Alike : ColumnOption → ColumnOption → Prop where
  | null : Alike .null .null
  | notNull : Alike .notNull .notNull
  | primaryKey : Alike .primaryKey .primaryKey
  | unique : Alike .unique .unique
  | default {e e' : Expr} (value : e.Alike e') : Alike (.default e) (.default e')

structure ColumnDefinition.Alike (c c' : ColumnDefinition) : Prop where
  name : c.name.value = c'.name.value
  type : c.type = c'.type
  options : List.Forall₂ ColumnOption.Alike c.options c'.options

inductive TableConstraint.Alike : TableConstraint → TableConstraint → Prop where
  | primaryKey (s s' : Span) {columns columns' : List Identifier}
      (values : columns.map (·.value) = columns'.map (·.value)) :
    Alike (.primaryKey s columns) (.primaryKey s' columns')
  | unique (s s' : Span) {columns columns' : List Identifier}
      (values : columns.map (·.value) = columns'.map (·.value)) :
    Alike (.unique s columns) (.unique s' columns')

structure CreateTable.Alike (s s' : CreateTable) : Prop where
  ifNotExists : s.ifNotExists = s'.ifNotExists
  name : s.name.Alike s'.name
  columns : List.Forall₂ ColumnDefinition.Alike s.columns s'.columns
  constraints : List.Forall₂ TableConstraint.Alike s.constraints s'.constraints

structure CreateIndex.Alike (s s' : CreateIndex) : Prop where
  unique : s.unique = s'.unique
  name : s.name.value = s'.name.value
  table : s.table.Alike s'.table
  columns : s.columns.map (·.value) = s'.columns.map (·.value)

inductive Alteration.Alike : Alteration → Alteration → Prop where
  | addColumn {c c' : ColumnDefinition} (column : c.Alike c') :
    Alike (.addColumn c) (.addColumn c')
  | dropColumn {c c' : Identifier} (column : c.value = c'.value) :
    Alike (.dropColumn c) (.dropColumn c')
  | renameTable {n n' : Identifier} (name : n.value = n'.value) :
    Alike (.renameTable n) (.renameTable n')
  | renameColumn {o o' n n' : Identifier} (old : o.value = o'.value) (new : n.value = n'.value) :
    Alike (.renameColumn o n) (.renameColumn o' n')

structure AlterTable.Alike (s s' : AlterTable) : Prop where
  name : s.name.Alike s'.name
  alteration : s.alteration.Alike s'.alteration

structure Drop.Alike (s s' : Drop) : Prop where
  kind : s.kind = s'.kind
  ifExists : s.ifExists = s'.ifExists
  name : s.name.Alike s'.name

/-- Whether two statements differ only in what their documents leave out. -/
inductive Statement.Alike : Statement → Statement → Prop where
  | query {s s' : Query} (alike : s.Alike s') : Alike (.query s) (.query s')
  | insert {s s' : Insert} (alike : s.Alike s') : Alike (.insert s) (.insert s')
  | update {s s' : Update} (alike : s.Alike s') : Alike (.update s) (.update s')
  | delete {s s' : Delete} (alike : s.Alike s') : Alike (.delete s) (.delete s')
  | createTable {s s' : CreateTable} (alike : s.Alike s') :
    Alike (.createTable s) (.createTable s')
  | createIndex {s s' : CreateIndex} (alike : s.Alike s') :
    Alike (.createIndex s) (.createIndex s')
  | createDatabase {s s' : CreateDatabase} (name : s.name.value = s'.name.value) :
    Alike (.createDatabase s) (.createDatabase s')
  | alterTable {s s' : AlterTable} (alike : s.Alike s') : Alike (.alterTable s) (.alterTable s')
  | drop {s s' : Drop} (alike : s.Alike s') : Alike (.drop s) (.drop s')

end SqlSyntax
