import SqlSyntax.Proofs.Content.Scan
import SqlSyntax.Proofs.Tree.Spans

/-!
# What trees say

The content of a tree is that of its canonical form, read off the tree: all that
it holds but spans, in the order of the canonical form.

## Main results

* `Node.content_mapSpans` — content does not depend on spans.
-/

namespace SqlSyntax

open Content (Item)

/-! ## Leaves -/

/-- What a piece of the canonical form says that is not of a data type. -/
def Piece.content : Piece → List Item
  | .keyword k => [.keyword k]
  | .identifier value => [.identifier value]
  | .number text => [.number text]
  | .string value => [.string value]
  | .operator o => [.operator o]
  | .space | .word _ | .punctuation _ => []

/-- A keyword that may be absent. -/
def Content.flag (k : Keyword) (present : Bool) : List Item :=
  if present then [.keyword k] else []

open Content (flag)

def Identifier.content (i : Identifier) : List Item := [.identifier i.value]

def QualifiedName.content (n : QualifiedName) : List Item := n.parts.flatMap Identifier.content

/-- The alias of something, if it has one. -/
def aliasContent (label : Option Identifier) : List Item := label.toList.flatMap Identifier.content

/-- The words of a join; `INNER` goes without saying. -/
def JoinKind.content : JoinKind → List Item
  | .inner => [.keyword .JOIN]
  | kind => [.keyword kind.keyword, .keyword .JOIN]

/-- The direction of an order; ascending goes without saying. -/
def Direction.content : Direction → List Item
  | .ascending => []
  | .descending => [.keyword .DESC]

def NullsPlacement.content (n : NullsPlacement) : List Item := [.word "NULLS", .word n.word]

/-! ## Expressions and queries -/

mutual

def Expr.content : Expr → List Item
  | ⟨_, form⟩ => form.content

def ExprForm.content : ExprForm → List Item
  | .column name => name.content
  | .literal value => value.piece.content
  | .unary op e => op.piece.content ++ e.content
  | .binary op l r => l.content ++ (op.piece.content ++ r.content)
  | .is e negated test =>
    e.content ++ .keyword .IS :: (flag .NOT negated ++ [.keyword test.keyword])
  | .inList e negated items =>
    e.content ++ (flag .NOT negated ++ .keyword .IN :: Expr.contentOfList items)
  | .inQuery e negated q => e.content ++ (flag .NOT negated ++ .keyword .IN :: q.content)
  | .between e negated low high =>
    e.content ++ (flag .NOT negated ++
      .keyword .BETWEEN :: (low.content ++ .keyword .AND :: high.content))
  | .like e negated pattern => e.content ++ (flag .NOT negated ++ .keyword .LIKE :: pattern.content)
  | .call function distinct arguments =>
    function.content ++ (flag .DISTINCT distinct ++ arguments.content)
  | .case operand branches otherwise =>
    .keyword .CASE :: (Expr.contentAfter [] operand ++ (WhenBranch.contentOfList branches ++
      (Expr.contentAfter [.keyword .ELSE] otherwise ++ [.keyword .END])))
  | .cast e type => .keyword .CAST :: (e.content ++ [.type type])
  | .existsQuery q => .keyword .EXISTS :: q.content
  | .subquery q => q.content
  | .nested e => e.content

def Expr.contentOfList : List Expr → List Item
  | [] => []
  | e :: es => e.content ++ Expr.contentOfList es

/-- The content of an expression behind what announces it, if there is an
expression. -/
def Expr.contentAfter (announcement : List Item) : Option Expr → List Item
  | none => []
  | some e => announcement ++ e.content

def Arguments.content : Arguments → List Item
  | .star => [.operator .times]
  | .list items => Expr.contentOfList items

def WhenBranch.contentOfList : List WhenBranch → List Item
  | [] => []
  | ⟨_, condition, result⟩ :: bs =>
    .keyword .WHEN :: (condition.content ++ .keyword .THEN :: result.content) ++
      WhenBranch.contentOfList bs

def Query.content : Query → List Item
  | ⟨_, body, orderBy, limit⟩ =>
    body.content ++ (OrderBy.contentOfOption orderBy ++ Limit.contentOfOption limit)

def QueryBody.content : QueryBody → List Item
  | .select s => s.content
  | .setOperation _ left op all right =>
    left.content ++ .keyword op.keyword :: (flag .ALL all ++ right.content)

def Select.content : Select → List Item
  | ⟨_, distinct, projection, source, condition, groupBy, having⟩ =>
    .keyword .SELECT :: (flag .DISTINCT distinct ++ (SelectItem.contentOfList projection ++
      (From.contentOfOption source ++ (Expr.contentAfter [.keyword .WHERE] condition ++
        (GroupBy.contentOfOption groupBy ++ Expr.contentAfter [.keyword .HAVING] having)))))

def SelectItem.content : SelectItem → List Item
  | .wildcard _ => [.operator .times]
  | .qualifiedWildcard _ qualifier => qualifier.content ++ [.operator .times]
  | .expr _ e label => e.content ++ aliasContent label

def SelectItem.contentOfList : List SelectItem → List Item
  | [] => []
  | i :: is => i.content ++ SelectItem.contentOfList is

def From.contentOfOption : Option From → List Item
  | none => []
  | some ⟨_, tables⟩ => .keyword .FROM :: JoinedTable.contentOfList tables

def JoinedTable.contentOfList : List JoinedTable → List Item
  | [] => []
  | ⟨_, relation, joins⟩ :: ts =>
    relation.content ++ Join.contentOfList joins ++ JoinedTable.contentOfList ts

def Relation.content : Relation → List Item
  | .table _ name label => name.content ++ aliasContent label
  | .derived _ q label => q.content ++ aliasContent label

def Join.content : Join → List Item
  | ⟨_, kind, relation, condition⟩ => kind.content ++ (relation.content ++ condition.content)

def Join.contentOfList : List Join → List Item
  | [] => []
  | j :: js => j.content ++ Join.contentOfList js

def JoinCondition.content : JoinCondition → List Item
  | .on e => .keyword .ON :: e.content
  | .shared columns => .keyword .USING :: columns.flatMap Identifier.content
  | .none => []

def GroupBy.contentOfOption : Option GroupBy → List Item
  | none => []
  | some ⟨_, keys⟩ => .keyword .GROUP :: .keyword .BY :: Expr.contentOfList keys

def OrderBy.contentOfOption : Option OrderBy → List Item
  | none => []
  | some ⟨_, items⟩ => .keyword .ORDER :: .keyword .BY :: OrderItem.contentOfList items

def OrderItem.contentOfList : List OrderItem → List Item
  | [] => []
  | ⟨_, e, direction, nulls⟩ :: is =>
    e.content ++ (direction.content ++ nulls.toList.flatMap NullsPlacement.content) ++
      OrderItem.contentOfList is

def Limit.contentOfOption : Option Limit → List Item
  | none => []
  | some ⟨_, count, offset⟩ => .keyword .LIMIT :: (count.content ++ Expr.contentAfter [] offset)

end

/-! ## Statements -/

def InsertSource.content : InsertSource → List Item
  | .values rows => .keyword .VALUES :: rows.flatMap (·.flatMap Expr.content)
  | .query q => q.content

def Assignment.content (a : Assignment) : List Item :=
  a.column.content ++ .operator .equal :: a.value.content

/-- A condition behind `WHERE`, if there is one. -/
abbrev whereContent (condition : Option Expr) : List Item :=
  Expr.contentAfter [.keyword .WHERE] condition

def ColumnOption.content : ColumnOption → List Item
  | .null => [.keyword .NULL]
  | .notNull => [.keyword .NOT, .keyword .NULL]
  | .primaryKey => [.keyword .PRIMARY, .keyword .KEY]
  | .unique => [.keyword .UNIQUE]
  | .default e => .keyword .DEFAULT :: e.content

def ColumnDefinition.content (c : ColumnDefinition) : List Item :=
  c.name.content ++ .type c.type :: c.options.flatMap ColumnOption.content

def TableConstraint.content : TableConstraint → List Item
  | .primaryKey _ columns =>
    .keyword .PRIMARY :: .keyword .KEY :: columns.flatMap Identifier.content
  | .unique _ columns => .keyword .UNIQUE :: columns.flatMap Identifier.content

/-- Keywords that are there as a whole or not at all. -/
def Content.guard (ks : List Keyword) (present : Bool) : List Item :=
  if present then ks.map .keyword else []

def Alteration.content : Alteration → List Item
  | .addColumn c => .keyword .ADD :: c.content
  | .dropColumn i => .keyword .DROP :: i.content
  | .renameTable i => .keyword .RENAME :: .keyword .TO :: i.content
  | .renameColumn old new => .keyword .RENAME :: (old.content ++ .keyword .TO :: new.content)

def Statement.content : Statement → List Item
  | .query q => q.content
  | .insert s =>
    .keyword .INSERT :: .keyword .INTO :: (s.table.content ++
      (s.columns.flatMap Identifier.content ++ s.source.content))
  | .update s =>
    .keyword .UPDATE :: (s.table.content ++ (aliasContent s.alias? ++
      (.keyword .SET :: s.assignments.flatMap Assignment.content ++ whereContent s.condition)))
  | .delete s =>
    .keyword .DELETE :: .keyword .FROM :: (s.table.content ++
      (aliasContent s.alias? ++ whereContent s.condition))
  | .createTable s =>
    .keyword .CREATE :: .keyword .TABLE :: (Content.guard [.IF, .NOT, .EXISTS] s.ifNotExists ++
      (s.name.content ++ (s.columns.flatMap ColumnDefinition.content ++
        s.constraints.flatMap TableConstraint.content)))
  | .createIndex s =>
    .keyword .CREATE :: (flag .UNIQUE s.unique ++ .keyword .INDEX :: (s.name.content ++
      (.keyword .ON :: s.table.content ++ s.columns.flatMap Identifier.content)))
  | .createDatabase s => .keyword .CREATE :: .keyword .DATABASE :: s.name.content
  | .alterTable s => .keyword .ALTER :: .keyword .TABLE :: (s.name.content ++ s.alteration.content)
  | .drop s =>
    .keyword .DROP :: .keyword s.kind.keyword ::
      (Content.guard [.IF, .EXISTS] s.ifExists ++ s.name.content)

def Node.content : Node → List Item
  | .statement s => s.content
  | .query q => q.content
  | .select s => s.content
  | .selectItem i => i.content
  | .relation r => r.content
  | .join j => j.content
  | .expr e => e.content
  | .column c => c.content

/-! ## Lists and optional parts -/

@[simp] theorem Expr.contentOfList_eq (es : List Expr) : contentOfList es = es.flatMap content := by
  induction es with
  | nil => rfl
  | cons e es ih => rw [contentOfList, ih, List.flatMap_cons]

@[simp] theorem Expr.contentAfter_eq (announcement : List Item) (o : Option Expr) :
    contentAfter announcement o = o.toList.flatMap (announcement ++ content ·) := by
  cases o <;> simp [contentAfter]

def WhenBranch.content (b : WhenBranch) : List Item :=
  .keyword .WHEN :: (b.condition.content ++ .keyword .THEN :: b.result.content)

@[simp] theorem WhenBranch.contentOfList_eq (bs : List WhenBranch) :
    contentOfList bs = bs.flatMap content := by
  induction bs with
  | nil => rfl
  | cons b bs ih =>
    obtain ⟨_, _, _⟩ := b
    rw [contentOfList, ih, List.flatMap_cons, content]

@[simp] theorem SelectItem.contentOfList_eq (is : List SelectItem) :
    contentOfList is = is.flatMap content := by
  induction is with
  | nil => rfl
  | cons i is ih => rw [contentOfList, ih, List.flatMap_cons]

@[simp] theorem Join.contentOfList_eq (js : List Join) : contentOfList js = js.flatMap content := by
  induction js with
  | nil => rfl
  | cons j js ih => rw [contentOfList, ih, List.flatMap_cons]

def JoinedTable.content (t : JoinedTable) : List Item :=
  t.relation.content ++ t.joins.flatMap Join.content

@[simp] theorem JoinedTable.contentOfList_eq (ts : List JoinedTable) :
    contentOfList ts = ts.flatMap content := by
  induction ts with
  | nil => rfl
  | cons t ts ih =>
    obtain ⟨_, _, _⟩ := t
    rw [contentOfList, ih, List.flatMap_cons, content, Join.contentOfList_eq]

def From.content (f : From) : List Item := .keyword .FROM :: f.tables.flatMap JoinedTable.content

@[simp] theorem From.contentOfOption_eq (o : Option From) :
    contentOfOption o = o.toList.flatMap content := by
  rcases o with _ | ⟨_, _⟩ <;> simp [contentOfOption, content]

def GroupBy.content (g : GroupBy) : List Item :=
  .keyword .GROUP :: .keyword .BY :: g.keys.flatMap Expr.content

@[simp] theorem GroupBy.contentOfOption_eq (o : Option GroupBy) :
    contentOfOption o = o.toList.flatMap content := by
  rcases o with _ | ⟨_, _⟩ <;> simp [contentOfOption, content]

def OrderItem.content (i : OrderItem) : List Item :=
  i.expr.content ++ (i.direction.content ++ i.nulls.toList.flatMap NullsPlacement.content)

@[simp] theorem OrderItem.contentOfList_eq (is : List OrderItem) :
    contentOfList is = is.flatMap content := by
  induction is with
  | nil => rfl
  | cons i is ih =>
    obtain ⟨_, _, _, _⟩ := i
    rw [contentOfList, ih, List.flatMap_cons, content]

def OrderBy.content (o : OrderBy) : List Item :=
  .keyword .ORDER :: .keyword .BY :: o.items.flatMap OrderItem.content

@[simp] theorem OrderBy.contentOfOption_eq (o : Option OrderBy) :
    contentOfOption o = o.toList.flatMap content := by
  rcases o with _ | ⟨_, _⟩ <;> simp [contentOfOption, content]

def Limit.content (l : Limit) : List Item :=
  .keyword .LIMIT :: (l.count.content ++ l.offset.toList.flatMap Expr.content)

@[simp] theorem Limit.contentOfOption_eq (o : Option Limit) :
    contentOfOption o = o.toList.flatMap content := by
  rcases o with _ | ⟨_, _, _⟩ <;> simp [contentOfOption, content]

/-! ## Spans -/

section

variable (f : Span → Span)

@[simp] theorem Identifier.content_mapSpans (i : Identifier) :
    (i.mapSpans f).content = i.content := rfl

@[simp] theorem QualifiedName.content_mapSpans (n : QualifiedName) :
    (n.mapSpans f).content = n.content := by
  simp [content, mapSpans, parts, List.flatMap_map]

@[simp] theorem aliasContent_mapSpans (label : Option Identifier) :
    aliasContent (label.map (·.mapSpans f)) = aliasContent label := by
  cases label <;> rfl

variable {f}

/-- The content of a list whose members keep theirs. -/
theorem flatMap_content_map {α : Type} {c : α → List Item} {g : α → α} {l : List α}
    (h : ∀ a ∈ l, c (g a) = c a) : (l.map g).flatMap c = l.flatMap c := by
  rw [List.flatMap_map]
  exact List.flatMap_congr h

/-- The content of an optional part that keeps its content. -/
theorem toList_content_map {α : Type} {c : α → List Item} {g : α → α} {o : Option α}
    (h : ∀ a ∈ o, c (g a) = c a) : (o.map g).toList.flatMap c = o.toList.flatMap c := by
  cases o with
  | none => rfl
  | some a => simp [h a rfl]

/-- The content of an optional expression behind a keyword. -/
theorem behind_content_map (k : Keyword) {o : Option Expr}
    (h : ∀ e ∈ o, (e.mapSpans f).content = e.content) :
    (o.map (·.mapSpans f)).toList.flatMap (.keyword k :: Expr.content ·) =
      o.toList.flatMap (.keyword k :: Expr.content ·) :=
  toList_content_map fun e he => congrArg (.keyword k :: ·) (h e he)

theorem QueryBody.content_mapSpans_of_selects : ∀ b : QueryBody,
    (∀ s ∈ b.selects, (s.2.mapSpans f).content = s.2.content) →
    (b.mapSpans f).content = b.content
  | .select s, h => h (none, s) (List.mem_singleton_self _)
  | .setOperation _ left op all right, h => by
    have hleft := content_mapSpans_of_selects left fun s hs => h s (by simp [hs])
    have hright := h (some (op, all), right) (by simp)
    simp_all [mapSpans, content]

variable (f)

/-- The content of a node does not depend on spans. -/
theorem Node.content_mapSpans (n : Node) : (n.mapSpans f).content = n.content := by
  induction n using Node.formInduction with
  | column | literal | unary | binary | is | inQuery | between | like | cast | existsQuery
  | subquery | nested | wildcard | qualifiedWildcard | selected | table | derived =>
    simp_all [mapSpans, content, Expr.mapSpans, ExprForm.mapSpans, Expr.content,
      ExprForm.content, SelectItem.mapSpans, SelectItem.content, Relation.mapSpans,
      Relation.content]
  | inList s e negated items ihe ih =>
    have he : (e.mapSpans f).content = e.content := ihe
    simp [mapSpans, content, Expr.mapSpans, ExprForm.mapSpans, Expr.content, ExprForm.content,
      he, flatMap_content_map (c := Expr.content) ih]
  | call s n distinct arguments ih =>
    cases arguments with
    | star =>
      simp [mapSpans, content, Expr.mapSpans, ExprForm.mapSpans, Expr.content, ExprForm.content,
        Arguments.mapSpans, Arguments.content]
    | list items =>
      simp [mapSpans, content, Expr.mapSpans, ExprForm.mapSpans, Expr.content, ExprForm.content,
        Arguments.mapSpans, Arguments.content,
        flatMap_content_map (c := Expr.content) (g := (·.mapSpans f)) (l := items) ih]
  | case s operand branches otherwise iho ihb ihe =>
    have middle : (branches.map (·.mapSpans f)).flatMap WhenBranch.content =
        branches.flatMap WhenBranch.content :=
      flatMap_content_map fun b hb => by
        have condition : (b.condition.mapSpans f).content = b.condition.content := (ihb b hb).1
        have result : (b.result.mapSpans f).content = b.result.content := (ihb b hb).2
        simp only [WhenBranch.content, WhenBranch.mapSpans, condition, result]
    simp [mapSpans, content, Expr.mapSpans, ExprForm.mapSpans, Expr.content, ExprForm.content,
      middle, toList_content_map (c := Expr.content) iho, behind_content_map .ELSE ihe]
  | query q ihs iho ihl =>
    have body := q.body.content_mapSpans_of_selects ihs
    have ordered : (q.orderBy.map (·.mapSpans f)).toList.flatMap OrderBy.content =
        q.orderBy.toList.flatMap OrderBy.content :=
      toList_content_map fun o ho => by
        have items : (o.items.map (·.mapSpans f)).flatMap OrderItem.content =
            o.items.flatMap OrderItem.content :=
          flatMap_content_map fun i hi => by
            have same : (i.expr.mapSpans f).content = i.expr.content := iho o ho i hi
            simp only [OrderItem.content, OrderItem.mapSpans, same]
        simp only [OrderBy.content, OrderBy.mapSpans, items]
    have limited : (q.limit.map (·.mapSpans f)).toList.flatMap Limit.content =
        q.limit.toList.flatMap Limit.content :=
      toList_content_map fun l hl => by
        have count : (l.count.mapSpans f).content = l.count.content := (ihl l hl).1
        simp only [Limit.content, Limit.mapSpans, count,
          toList_content_map (c := Expr.content) (ihl l hl).2]
    obtain ⟨_, _, _, _⟩ := q
    simp [mapSpans, content, Query.mapSpans, Query.content, body, ordered, limited]
  | select s ihi ihf ihc ihg ihh =>
    have tables : (s.source.map (·.mapSpans f)).toList.flatMap From.content =
        s.source.toList.flatMap From.content :=
      toList_content_map fun source h => by
        have tables : (source.tables.map (·.mapSpans f)).flatMap JoinedTable.content =
            source.tables.flatMap JoinedTable.content :=
          flatMap_content_map fun t ht => by
            have relation : (t.relation.mapSpans f).content = t.relation.content :=
              (ihf source h t ht).1
            simp only [JoinedTable.content, JoinedTable.mapSpans, relation,
              flatMap_content_map (c := Join.content) (ihf source h t ht).2]
        simp only [From.content, From.mapSpans, tables]
    have keys : (s.groupBy.map (·.mapSpans f)).toList.flatMap GroupBy.content =
        s.groupBy.toList.flatMap GroupBy.content :=
      toList_content_map fun g h => by
        simp only [GroupBy.content, GroupBy.mapSpans,
          flatMap_content_map (c := Expr.content) (ihg g h)]
    obtain ⟨_, _, _, _, _, _, _⟩ := s
    simp [mapSpans, content, Select.mapSpans, Select.content, tables, keys,
      flatMap_content_map (c := SelectItem.content) ihi, behind_content_map .WHERE ihc,
      behind_content_map .HAVING ihh]
  | join s kind relation condition ihr ihc =>
    cases condition <;>
      simp_all [mapSpans, content, Join.mapSpans, Join.content, JoinCondition.mapSpans,
        JoinCondition.content, List.flatMap_map]
  | columnDefinition c ih =>
    have options : (c.options.map (·.mapSpans f)).flatMap ColumnOption.content =
        c.options.flatMap ColumnOption.content :=
      flatMap_content_map fun o ho => by
        cases o with
        | default e => exact congrArg (.keyword .DEFAULT :: ·) (ih e ho)
        | _ => rfl
    simp only [mapSpans, content, ColumnDefinition.content, ColumnDefinition.mapSpans, options,
      Identifier.content_mapSpans]
  | statement s ih =>
    simp only [mapSpans, content]
    cases s with
    | query q => exact ih (.query q) (List.mem_singleton_self _)
    | insert s =>
      obtain ⟨_, _, _, source⟩ := s
      cases source with
      | values rows =>
        simp only [Statement.children, List.forall_mem_map, List.forall_mem_flatten] at ih
        have same : (rows.map (·.map (·.mapSpans f))).flatMap (·.flatMap Expr.content) =
            rows.flatMap (·.flatMap Expr.content) :=
          flatMap_content_map fun row h => flatMap_content_map (ih row h)
        simp [Statement.mapSpans, Statement.content, InsertSource.mapSpans, InsertSource.content,
          same, List.flatMap_map]
      | query q =>
        have same : (q.mapSpans f).content = q.content := ih (.query q) (List.mem_singleton_self _)
        simp [Statement.mapSpans, Statement.content, InsertSource.mapSpans, InsertSource.content,
          same, List.flatMap_map]
    | update s =>
      obtain ⟨_, _, _, assignments, condition⟩ := s
      simp only [Statement.children, List.forall_mem_append, List.forall_mem_map,
        Option.mem_toList] at ih
      have set : (assignments.map (·.mapSpans f)).flatMap Assignment.content =
          assignments.flatMap Assignment.content :=
        flatMap_content_map fun a h => by
          have same : (a.value.mapSpans f).content = a.value.content := ih.1 a h
          simp only [Assignment.content, Assignment.mapSpans, same, Identifier.content_mapSpans]
      simp [Statement.mapSpans, Statement.content, set, behind_content_map .WHERE ih.2]
    | delete s =>
      obtain ⟨_, _, _, condition⟩ := s
      simp only [Statement.children, List.forall_mem_map, Option.mem_toList] at ih
      simp [Statement.mapSpans, Statement.content, behind_content_map .WHERE ih]
    | createTable s =>
      obtain ⟨_, _, _, columns, constraints⟩ := s
      simp only [Statement.children, List.forall_mem_map] at ih
      have keys : (constraints.map (·.mapSpans f)).flatMap TableConstraint.content =
          constraints.flatMap TableConstraint.content :=
        flatMap_content_map fun c _ => by
          cases c <;> simp [TableConstraint.mapSpans, TableConstraint.content, List.flatMap_map]
      simp [Statement.mapSpans, Statement.content, keys,
        flatMap_content_map (c := ColumnDefinition.content) ih]
    | alterTable s =>
      obtain ⟨_, _, alteration⟩ := s
      cases alteration with
      | addColumn c =>
        have same : (c.mapSpans f).content = c.content := ih (.column c) (List.mem_singleton_self _)
        simp [Statement.mapSpans, Statement.content, Alteration.mapSpans, Alteration.content, same]
      | _ =>
        simp [Statement.mapSpans, Statement.content, Alteration.mapSpans, Alteration.content]
    | createIndex | createDatabase | drop =>
      simp [Statement.mapSpans, Statement.content, List.flatMap_map]

end

/-- The content of a statement does not depend on spans. -/
theorem Statement.content_unplaced (s : Statement) : s.unplaced.content = s.content :=
  (Node.statement s).content_mapSpans _

end SqlSyntax
