import SqlSyntax.Proofs.Tree.WellFormed

/-!
# Parts of a syntax tree

Everything in a tree that has a span, under one type, with the parts directly
below each. Unlike the nodes that a walk stops at, these are also the names, the
clauses and the items of lists.

## Main results

* `Part.children` — the parts directly below a part.
* `Part.isLevel` — the parts that stand for a level of nesting.
* `Part.Within` — what is below a part at any distance.
-/

namespace SqlSyntax

inductive Part where
  | identifier (identifier : Identifier)
  | name (name : QualifiedName)
  | expr (expr : Expr)
  | branch (branch : WhenBranch)
  | query (query : Query)
  | setOperation (span : Span) (left : QueryBody) (right : Select)
  | select (select : Select)
  | selectItem (item : SelectItem)
  | source (source : From)
  | joinedTable (table : JoinedTable)
  | relation (relation : Relation)
  | join (join : Join)
  | groupBy (groupBy : GroupBy)
  | orderBy (orderBy : OrderBy)
  | orderItem (item : OrderItem)
  | limit (limit : Limit)
  | insert (insert : Insert)
  | update (update : Update)
  | assignment (assignment : Assignment)
  | delete (delete : Delete)
  | createTable (create : CreateTable)
  | column (column : ColumnDefinition)
  | constraint (constraint : TableConstraint)
  | createIndex (create : CreateIndex)
  | createDatabase (create : CreateDatabase)
  | alterTable (alter : AlterTable)
  | drop (drop : Drop)

/-! ## Forms without a span of their own -/

/-- The parts directly below an expression. -/
def ExprForm.parts : ExprForm → List Part
  | .column n => [.name n]
  | .literal _ => []
  | .unary _ e | .is e _ _ | .cast e _ | .nested e => [.expr e]
  | .binary _ l r | .like l _ r => [.expr l, .expr r]
  | .inList e _ items => .expr e :: items.map .expr
  | .inQuery e _ q => [.expr e, .query q]
  | .between e _ low high => [.expr e, .expr low, .expr high]
  | .call n _ arguments => .name n :: arguments.items.map .expr
  | .case operand branches otherwise =>
    operand.toList.map .expr ++ (branches.map .branch ++ otherwise.toList.map .expr)
  | .existsQuery q | .subquery q => [.query q]

def QueryBody.part : QueryBody → Part
  | .select s => .select s
  | .setOperation span left _ _ right => .setOperation span left right

def SelectItem.parts : SelectItem → List Part
  | .wildcard _ => []
  | .qualifiedWildcard _ n => [.name n]
  | .expr _ e label => .expr e :: label.toList.map .identifier

def Relation.parts : Relation → List Part
  | .table _ n label => .name n :: label.toList.map .identifier
  | .derived _ q label => .query q :: label.toList.map .identifier

def JoinCondition.parts : JoinCondition → List Part
  | .on e => [.expr e]
  | .shared columns => columns.map .identifier
  | .none => []

def InsertSource.parts : InsertSource → List Part
  | .values rows => rows.flatten.map .expr
  | .query q => [.query q]

def ColumnOption.parts (o : ColumnOption) : List Part := o.default?.toList.map .expr

def Alteration.parts : Alteration → List Part
  | .addColumn c => [.column c]
  | .dropColumn i | .renameTable i => [.identifier i]
  | .renameColumn old new => [.identifier old, .identifier new]

/-- The part that a statement is. -/
def Statement.part : Statement → Part
  | .query s => .query s
  | .insert s => .insert s
  | .update s => .update s
  | .delete s => .delete s
  | .createTable s => .createTable s
  | .createIndex s => .createIndex s
  | .createDatabase s => .createDatabase s
  | .alterTable s => .alterTable s
  | .drop s => .drop s

namespace Part

def span : Part → Span
  | .identifier i => i.span
  | .name n => n.span
  | .expr e => e.span
  | .branch b => b.span
  | .query q => q.span
  | .setOperation span .. => span
  | .select s => s.span
  | .selectItem i => i.span
  | .source f => f.span
  | .joinedTable t => t.span
  | .relation r => r.span
  | .join j => j.span
  | .groupBy g => g.span
  | .orderBy o => o.span
  | .orderItem i => i.span
  | .limit l => l.span
  | .insert s => s.span
  | .update s => s.span
  | .assignment a => a.span
  | .delete s => s.span
  | .createTable s => s.span
  | .column c => c.span
  | .constraint c => c.span
  | .createIndex s => s.span
  | .createDatabase s => s.span
  | .alterTable s => s.span
  | .drop s => s.span

/-- Whether a part stands for a level of nesting: an expression, a query, or a
set operation. -/
def isLevel : Part → Bool
  | .expr _ | .query _ | .setOperation .. => true
  | _ => false

/-- The parts directly below a part. -/
def children : Part → List Part
  | .identifier _ => []
  | .name n => n.parts.map .identifier
  | .expr e => e.form.parts
  | .branch b => [.expr b.condition, .expr b.result]
  | .query q => q.body.part :: (q.orderBy.toList.map .orderBy ++ q.limit.toList.map .limit)
  | .setOperation _ left right => [left.part, .select right]
  | .select s =>
    s.projection.map .selectItem ++ (s.source.toList.map .source ++
      (s.condition.toList.map .expr ++ (s.groupBy.toList.map .groupBy ++
        s.having.toList.map .expr)))
  | .selectItem i => i.parts
  | .source f => f.tables.map .joinedTable
  | .joinedTable t => .relation t.relation :: t.joins.map .join
  | .relation r => r.parts
  | .join j => .relation j.relation :: j.condition.parts
  | .groupBy g => g.keys.map .expr
  | .orderBy o => o.items.map .orderItem
  | .orderItem i => [.expr i.expr]
  | .limit l => .expr l.count :: l.offset.toList.map .expr
  | .insert s => .name s.table :: (s.columns.map .identifier ++ s.source.parts)
  | .update s =>
    .name s.table :: (s.alias?.toList.map .identifier ++ (s.assignments.map .assignment ++
      s.condition.toList.map .expr))
  | .assignment a => [.identifier a.column, .expr a.value]
  | .delete s =>
    .name s.table :: (s.alias?.toList.map .identifier ++ s.condition.toList.map .expr)
  | .createTable s => .name s.name :: (s.columns.map .column ++ s.constraints.map .constraint)
  | .column c => .identifier c.name :: c.options.flatMap ColumnOption.parts
  | .constraint c => c.columns.map .identifier
  | .createIndex s => .identifier s.name :: .name s.table :: s.columns.map .identifier
  | .createDatabase s => [.identifier s.name]
  | .alterTable s => .name s.name :: s.alteration.parts
  | .drop s => [.name s.name]

/-- Whether a part is another or stands below it at any distance. -/
inductive Within : Part → Part → Prop where
  | refl (p : Part) : Within p p
  | child {p c q : Part} (mem : c ∈ q.children) (within : Within p c) : Within p q

@[simp] theorem span_bodyPart (b : QueryBody) : b.part.span = b.span := by
  cases b <;> rfl

end Part

end SqlSyntax
