import Mathlib.Data.List.Basic
import SqlSyntax.Canonical.Node
import SqlSyntax.Proofs.Canonical.Clauses
import SqlSyntax.Proofs.Tree.Induction

/-!
# Trees up to spans

Two trees that differ only in where their nodes stand in the source are the
same tree for every reader but one that points back into the text. `mapSpans`
rewrites all spans of a tree and leaves everything else alone; `unplaced` makes
them all empty. Trees are *equal up to spans* when their unplaced forms are
equal.

## Main results

* `Statement.canonical_eq_of_unplaced_eq` — statements that are equal up to
  spans have the same canonical text.
-/

namespace SqlSyntax

/-! ## Names -/

def Identifier.mapSpans (f : Span → Span) (i : Identifier) : Identifier := ⟨f i.span, i.value⟩

def QualifiedName.mapSpans (f : Span → Span) (n : QualifiedName) : QualifiedName :=
  ⟨f n.span, n.qualifiers.map (·.mapSpans f), n.base.mapSpans f⟩

/-! ## Expressions and queries -/

mutual

def Expr.mapSpans (f : Span → Span) : Expr → Expr
  | ⟨s, form⟩ => ⟨f s, form.mapSpans f⟩

def ExprForm.mapSpans (f : Span → Span) : ExprForm → ExprForm
  | .column n => .column (n.mapSpans f)
  | .literal v => .literal v
  | .unary op e => .unary op (e.mapSpans f)
  | .binary op l r => .binary op (l.mapSpans f) (r.mapSpans f)
  | .is e negated test => .is (e.mapSpans f) negated test
  | .inList e negated items => .inList (e.mapSpans f) negated (Expr.mapSpansOfList f items)
  | .inQuery e negated q => .inQuery (e.mapSpans f) negated (q.mapSpans f)
  | .between e negated low high =>
    .between (e.mapSpans f) negated (low.mapSpans f) (high.mapSpans f)
  | .like e negated pattern => .like (e.mapSpans f) negated (pattern.mapSpans f)
  | .call n distinct arguments => .call (n.mapSpans f) distinct (arguments.mapSpans f)
  | .case operand branches otherwise =>
    .case (Expr.mapSpansOfOption f operand) (WhenBranch.mapSpansOfList f branches)
      (Expr.mapSpansOfOption f otherwise)
  | .cast e type => .cast (e.mapSpans f) type
  | .existsQuery q => .existsQuery (q.mapSpans f)
  | .subquery q => .subquery (q.mapSpans f)
  | .nested e => .nested (e.mapSpans f)

def Expr.mapSpansOfList (f : Span → Span) : List Expr → List Expr
  | [] => []
  | e :: es => e.mapSpans f :: Expr.mapSpansOfList f es

def Expr.mapSpansOfOption (f : Span → Span) : Option Expr → Option Expr
  | none => none
  | some e => some (e.mapSpans f)

def Arguments.mapSpans (f : Span → Span) : Arguments → Arguments
  | .star => .star
  | .list items => .list (Expr.mapSpansOfList f items)

def WhenBranch.mapSpansOfList (f : Span → Span) : List WhenBranch → List WhenBranch
  | [] => []
  | ⟨s, condition, result⟩ :: bs =>
    ⟨f s, condition.mapSpans f, result.mapSpans f⟩ :: WhenBranch.mapSpansOfList f bs

def Query.mapSpans (f : Span → Span) : Query → Query
  | ⟨s, body, orderBy, limit⟩ =>
    ⟨f s, body.mapSpans f, OrderBy.mapSpansOfOption f orderBy, Limit.mapSpansOfOption f limit⟩

def QueryBody.mapSpans (f : Span → Span) : QueryBody → QueryBody
  | .select s => .select (s.mapSpans f)
  | .setOperation s left op all right =>
    .setOperation (f s) (left.mapSpans f) op all (right.mapSpans f)

def Select.mapSpans (f : Span → Span) : Select → Select
  | ⟨s, distinct, projection, source, condition, groupBy, having⟩ =>
    ⟨f s, distinct, SelectItem.mapSpansOfList f projection, From.mapSpansOfOption f source,
      Expr.mapSpansOfOption f condition, GroupBy.mapSpansOfOption f groupBy,
      Expr.mapSpansOfOption f having⟩

def SelectItem.mapSpans (f : Span → Span) : SelectItem → SelectItem
  | .wildcard s => .wildcard (f s)
  | .qualifiedWildcard s n => .qualifiedWildcard (f s) (n.mapSpans f)
  | .expr s e label => .expr (f s) (e.mapSpans f) (label.map (·.mapSpans f))

def SelectItem.mapSpansOfList (f : Span → Span) : List SelectItem → List SelectItem
  | [] => []
  | i :: is => i.mapSpans f :: SelectItem.mapSpansOfList f is

def From.mapSpansOfOption (f : Span → Span) : Option From → Option From
  | none => none
  | some ⟨s, tables⟩ => some ⟨f s, JoinedTable.mapSpansOfList f tables⟩

def JoinedTable.mapSpansOfList (f : Span → Span) : List JoinedTable → List JoinedTable
  | [] => []
  | ⟨s, relation, joins⟩ :: ts =>
    ⟨f s, relation.mapSpans f, Join.mapSpansOfList f joins⟩ :: JoinedTable.mapSpansOfList f ts

def Relation.mapSpans (f : Span → Span) : Relation → Relation
  | .table s n label => .table (f s) (n.mapSpans f) (label.map (·.mapSpans f))
  | .derived s q label => .derived (f s) (q.mapSpans f) (label.map (·.mapSpans f))

def Join.mapSpans (f : Span → Span) : Join → Join
  | ⟨s, kind, relation, condition⟩ =>
    ⟨f s, kind, relation.mapSpans f, condition.mapSpans f⟩

def Join.mapSpansOfList (f : Span → Span) : List Join → List Join
  | [] => []
  | j :: js => j.mapSpans f :: Join.mapSpansOfList f js

def JoinCondition.mapSpans (f : Span → Span) : JoinCondition → JoinCondition
  | .on e => .on (e.mapSpans f)
  | .shared columns => .shared (columns.map (·.mapSpans f))
  | .none => .none

def GroupBy.mapSpansOfOption (f : Span → Span) : Option GroupBy → Option GroupBy
  | none => none
  | some ⟨s, keys⟩ => some ⟨f s, Expr.mapSpansOfList f keys⟩

def OrderBy.mapSpansOfOption (f : Span → Span) : Option OrderBy → Option OrderBy
  | none => none
  | some ⟨s, items⟩ => some ⟨f s, OrderItem.mapSpansOfList f items⟩

def OrderItem.mapSpansOfList (f : Span → Span) : List OrderItem → List OrderItem
  | [] => []
  | ⟨s, e, direction, nulls⟩ :: is =>
    ⟨f s, e.mapSpans f, direction, nulls⟩ :: OrderItem.mapSpansOfList f is

def Limit.mapSpansOfOption (f : Span → Span) : Option Limit → Option Limit
  | none => none
  | some ⟨s, count, offset⟩ =>
    some ⟨f s, count.mapSpans f, Expr.mapSpansOfOption f offset⟩

end

/-! ## Statements -/

def ColumnOption.mapSpans (f : Span → Span) : ColumnOption → ColumnOption
  | .default e => .default (e.mapSpans f)
  | o => o

def ColumnDefinition.mapSpans (f : Span → Span) (c : ColumnDefinition) : ColumnDefinition :=
  ⟨f c.span, c.name.mapSpans f, c.type, c.options.map (·.mapSpans f)⟩

def TableConstraint.mapSpans (f : Span → Span) : TableConstraint → TableConstraint
  | .primaryKey s columns => .primaryKey (f s) (columns.map (·.mapSpans f))
  | .unique s columns => .unique (f s) (columns.map (·.mapSpans f))

def InsertSource.mapSpans (f : Span → Span) : InsertSource → InsertSource
  | .values rows => .values (rows.map (·.map (·.mapSpans f)))
  | .query q => .query (q.mapSpans f)

def Assignment.mapSpans (f : Span → Span) (a : Assignment) : Assignment :=
  ⟨f a.span, a.column.mapSpans f, a.value.mapSpans f⟩

def Alteration.mapSpans (f : Span → Span) : Alteration → Alteration
  | .addColumn c => .addColumn (c.mapSpans f)
  | .dropColumn i => .dropColumn (i.mapSpans f)
  | .renameTable i => .renameTable (i.mapSpans f)
  | .renameColumn old new => .renameColumn (old.mapSpans f) (new.mapSpans f)

def Statement.mapSpans (f : Span → Span) : Statement → Statement
  | .query q => .query (q.mapSpans f)
  | .insert s =>
    .insert ⟨f s.span, s.table.mapSpans f, s.columns.map (·.mapSpans f), s.source.mapSpans f⟩
  | .update s =>
    .update ⟨f s.span, s.table.mapSpans f, s.alias?.map (·.mapSpans f),
      s.assignments.map (·.mapSpans f), s.condition.map (·.mapSpans f)⟩
  | .delete s =>
    .delete ⟨f s.span, s.table.mapSpans f, s.alias?.map (·.mapSpans f),
      s.condition.map (·.mapSpans f)⟩
  | .createTable s =>
    .createTable ⟨f s.span, s.ifNotExists, s.name.mapSpans f, s.columns.map (·.mapSpans f),
      s.constraints.map (·.mapSpans f)⟩
  | .createIndex s =>
    .createIndex ⟨f s.span, s.unique, s.name.mapSpans f, s.table.mapSpans f,
      s.columns.map (·.mapSpans f)⟩
  | .createDatabase s => .createDatabase ⟨f s.span, s.name.mapSpans f⟩
  | .alterTable s =>
    .alterTable ⟨f s.span, s.name.mapSpans f, s.alteration.mapSpans f⟩
  | .drop s => .drop ⟨f s.span, s.kind, s.ifExists, s.name.mapSpans f⟩

/-! ## Lists and optional parts

The recursion above names a function for each list and each optional part; it
is `map` every time. -/

namespace Expr

@[simp] theorem mapSpansOfList_eq (f : Span → Span) (es : List Expr) :
    mapSpansOfList f es = es.map (·.mapSpans f) := by
  induction es with
  | nil => rfl
  | cons e es ih => rw [mapSpansOfList, ih, List.map_cons]

@[simp] theorem mapSpansOfOption_eq (f : Span → Span) (o : Option Expr) :
    mapSpansOfOption f o = o.map (·.mapSpans f) := by
  cases o <;> rfl

end Expr

def WhenBranch.mapSpans (f : Span → Span) (b : WhenBranch) : WhenBranch :=
  ⟨f b.span, b.condition.mapSpans f, b.result.mapSpans f⟩

@[simp] theorem WhenBranch.mapSpansOfList_eq (f : Span → Span) (bs : List WhenBranch) :
    mapSpansOfList f bs = bs.map (·.mapSpans f) := by
  induction bs with
  | nil => rfl
  | cons b bs ih =>
    obtain ⟨_, _, _⟩ := b
    rw [mapSpansOfList, ih, List.map_cons, mapSpans]

@[simp] theorem SelectItem.mapSpansOfList_eq (f : Span → Span) (is : List SelectItem) :
    mapSpansOfList f is = is.map (·.mapSpans f) := by
  induction is with
  | nil => rfl
  | cons i is ih => rw [mapSpansOfList, ih, List.map_cons]

@[simp] theorem Join.mapSpansOfList_eq (f : Span → Span) (js : List Join) :
    mapSpansOfList f js = js.map (·.mapSpans f) := by
  induction js with
  | nil => rfl
  | cons j js ih => rw [mapSpansOfList, ih, List.map_cons]

def JoinedTable.mapSpans (f : Span → Span) (t : JoinedTable) : JoinedTable :=
  ⟨f t.span, t.relation.mapSpans f, t.joins.map (·.mapSpans f)⟩

@[simp] theorem JoinedTable.mapSpansOfList_eq (f : Span → Span) (ts : List JoinedTable) :
    mapSpansOfList f ts = ts.map (·.mapSpans f) := by
  induction ts with
  | nil => rfl
  | cons t ts ih =>
    obtain ⟨_, _, _⟩ := t
    rw [mapSpansOfList, ih, Join.mapSpansOfList_eq, List.map_cons, mapSpans]

def From.mapSpans (g : Span → Span) (f : From) : From :=
  ⟨g f.span, f.tables.map (·.mapSpans g)⟩

@[simp] theorem From.mapSpansOfOption_eq (f : Span → Span) (o : Option From) :
    mapSpansOfOption f o = o.map (·.mapSpans f) := by
  rcases o with _ | ⟨_, _⟩ <;> simp [mapSpansOfOption, mapSpans]

def GroupBy.mapSpans (f : Span → Span) (g : GroupBy) : GroupBy :=
  ⟨f g.span, g.keys.map (·.mapSpans f)⟩

@[simp] theorem GroupBy.mapSpansOfOption_eq (f : Span → Span) (o : Option GroupBy) :
    mapSpansOfOption f o = o.map (·.mapSpans f) := by
  rcases o with _ | ⟨_, _⟩ <;> simp [mapSpansOfOption, mapSpans]

def OrderItem.mapSpans (f : Span → Span) (i : OrderItem) : OrderItem :=
  ⟨f i.span, i.expr.mapSpans f, i.direction, i.nulls⟩

@[simp] theorem OrderItem.mapSpansOfList_eq (f : Span → Span) (is : List OrderItem) :
    mapSpansOfList f is = is.map (·.mapSpans f) := by
  induction is with
  | nil => rfl
  | cons i is ih =>
    obtain ⟨_, _, _, _⟩ := i
    rw [mapSpansOfList, ih, List.map_cons, mapSpans]

def OrderBy.mapSpans (f : Span → Span) (o : OrderBy) : OrderBy :=
  ⟨f o.span, o.items.map (·.mapSpans f)⟩

@[simp] theorem OrderBy.mapSpansOfOption_eq (f : Span → Span) (o : Option OrderBy) :
    mapSpansOfOption f o = o.map (·.mapSpans f) := by
  rcases o with _ | ⟨_, _⟩ <;> simp [mapSpansOfOption, mapSpans]

def Limit.mapSpans (f : Span → Span) (l : Limit) : Limit :=
  ⟨f l.span, l.count.mapSpans f, l.offset.map (·.mapSpans f)⟩

@[simp] theorem Limit.mapSpansOfOption_eq (f : Span → Span) (o : Option Limit) :
    mapSpansOfOption f o = o.map (·.mapSpans f) := by
  rcases o with _ | ⟨_, _, _⟩ <;> simp [mapSpansOfOption, mapSpans]

@[simp] theorem QueryBody.selects_mapSpans (f : Span → Span) : ∀ b : QueryBody,
    (b.mapSpans f).selects = b.selects.map fun s => (s.1, s.2.mapSpans f)
  | .select _ => rfl
  | .setOperation _ left _ _ _ => by
    simp [mapSpans, selects_mapSpans f left]

/-! ## Nodes -/

def Node.mapSpans (f : Span → Span) : Node → Node
  | .statement s => .statement (s.mapSpans f)
  | .query q => .query (q.mapSpans f)
  | .select s => .select (s.mapSpans f)
  | .selectItem i => .selectItem (i.mapSpans f)
  | .relation r => .relation (r.mapSpans f)
  | .join j => .join (j.mapSpans f)
  | .expr e => .expr (e.mapSpans f)
  | .column c => .column (c.mapSpans f)

/-! ## The canonical form -/

section Pieces

variable (f : Span → Span)

@[simp] theorem Identifier.pieces_mapSpans (i : Identifier) :
    (i.mapSpans f).pieces = i.pieces := rfl

@[simp] theorem QualifiedName.pieces_mapSpans (n : QualifiedName) :
    (n.mapSpans f).pieces = n.pieces := by
  simp [pieces, mapSpans, parts, Function.comp_def]

@[simp] theorem aliasPieces_mapSpans (label : Option Identifier) :
    aliasPieces (label.map (·.mapSpans f)) = aliasPieces label := by
  cases label <;> rfl

@[simp] theorem columnPieces_mapSpans (columns : List Identifier) :
    columnPieces (columns.map (·.mapSpans f)) = columnPieces columns := by
  simp [columnPieces, Function.comp_def]

@[simp] theorem UnaryOperator.gap_mapSpans (op : UnaryOperator) (e : Expr) :
    op.gap (e.mapSpans f) = op.gap e := by
  have signed : (e.mapSpans f).isSigned = e.isSigned := by
    obtain ⟨_, form⟩ := e
    cases form <;> first | rfl | (rename_i op _; cases op <;> rfl)
  cases op <;> simp [gap, signed]

variable {f}

theorem clausePieces_map {α : Type} {p : α → List Piece} {g : α → α} {o : Option α}
    (h : ∀ a ∈ o, p (g a) = p a) : clausePieces p (o.map g) = clausePieces p o := by
  cases o with
  | none => rfl
  | some a => simp [h a rfl]

theorem map_pieces_map {α : Type} {p : α → List Piece} {g : α → α} {l : List α}
    (h : ∀ a ∈ l, p (g a) = p a) : (l.map g).map p = l.map p := by
  rw [List.map_map]
  exact List.map_congr_left h

theorem Expr.piecesBehind_mapSpans {e : Expr} (k : Keyword)
    (h : (e.mapSpans f).pieces = e.pieces) :
    (e.mapSpans f).piecesBehind k = e.piecesBehind k := by
  rw [piecesBehind, piecesBehind, h]

theorem QueryBody.pieces_mapSpans_of_selects : ∀ b : QueryBody,
    (∀ s ∈ b.selects, (s.2.mapSpans f).pieces = s.2.pieces) →
    (b.mapSpans f).pieces = b.pieces
  | .select s, h => h (none, s) (List.mem_singleton_self _)
  | .setOperation _ left op all right, h => by
    have hleft := pieces_mapSpans_of_selects left fun s hs => h s (by simp [hs])
    have hright := h (some (op, all), right) (by simp)
    simp_all [mapSpans, QueryBody.pieces]

theorem JoinedTable.pieces_mapSpans_of_joins {t : JoinedTable}
    (h : (t.relation.mapSpans f).pieces = t.relation.pieces)
    (hj : ∀ j ∈ t.joins, (j.mapSpans f).pieces = j.pieces) :
    (t.mapSpans f).pieces = t.pieces := by
  have joins : t.joins.flatMap (fun j => .space :: (j.mapSpans f).pieces) =
      t.joins.flatMap fun j => .space :: j.pieces :=
    List.flatMap_congr fun j hmem => by rw [hj j hmem]
  simp only [pieces, mapSpans, h, List.flatMap_map, joins]

variable (f)

/-- The canonical form of a node does not depend on spans. -/
theorem Node.pieces_mapSpans (n : Node) : (n.mapSpans f).pieces = n.pieces := by
  induction n using Node.formInduction with
  | column | literal | unary | binary | is | inQuery | between | like | cast | existsQuery
  | subquery | nested | wildcard | qualifiedWildcard | selected | table | derived =>
    simp_all [mapSpans, pieces, Expr.mapSpans, ExprForm.mapSpans, Expr.pieces,
      SelectItem.mapSpans, SelectItem.pieces, Relation.mapSpans, Relation.pieces]
  | inList s e negated items ihe ih =>
    have he : (e.mapSpans f).pieces = e.pieces := ihe
    simp [mapSpans, pieces, Expr.mapSpans, ExprForm.mapSpans, Expr.pieces, -List.map_map,
      he, map_pieces_map (p := Expr.pieces) ih]
  | call s n distinct arguments ih =>
    cases arguments with
    | star =>
      simp [mapSpans, pieces, Expr.mapSpans, ExprForm.mapSpans, Expr.pieces,
        Arguments.mapSpans, Arguments.pieces]
    | list items =>
      have same := map_pieces_map (p := Expr.pieces) (g := (·.mapSpans f)) (l := items) ih
      simp [mapSpans, pieces, Expr.mapSpans, ExprForm.mapSpans, Expr.pieces, -List.map_map,
        Arguments.mapSpans, Arguments.pieces, same]
  | case s operand branches otherwise iho ihb ihe =>
    have middle : branches.flatMap (fun b => .space :: (b.mapSpans f).pieces) =
        branches.flatMap fun b => .space :: b.pieces := by
      refine List.flatMap_congr fun b hb => ?_
      rw [WhenBranch.pieces, WhenBranch.mapSpans, Expr.piecesBehind_mapSpans _ (ihb b hb).1,
        Expr.piecesBehind_mapSpans _ (ihb b hb).2]
      rfl
    simp [mapSpans, pieces, Expr.mapSpans, ExprForm.mapSpans, Expr.pieces, Expr.piecesAfter_space,
      Expr.piecesAfter_keyword, List.flatMap_map, middle,
      clausePieces_map (p := Expr.pieces) iho,
      clausePieces_map fun e he => Expr.piecesBehind_mapSpans .ELSE (ihe e he)]
  | query q ihs iho ihl =>
    have body := q.body.pieces_mapSpans_of_selects ihs
    have ordered := clausePieces_map (p := OrderBy.pieces) (g := (·.mapSpans f))
      (o := q.orderBy) fun o ho => by
        have items := map_pieces_map (p := OrderItem.pieces) (g := (·.mapSpans f))
          (l := o.items) fun i hi => by
            have same : (i.expr.mapSpans f).pieces = i.expr.pieces := iho o ho i hi
            simp [OrderItem.pieces_eq, OrderItem.mapSpans, same]
        simp only [OrderBy.pieces_eq, OrderBy.mapSpans, items]
    have limited := clausePieces_map (p := Limit.pieces) (g := (·.mapSpans f))
      (o := q.limit) fun l hl => by
        have count := Expr.piecesBehind_mapSpans .LIMIT (ihl l hl).1
        have offset := clausePieces_map fun e he =>
          Expr.piecesBehind_mapSpans .OFFSET ((ihl l hl).2 e he)
        simp [Limit.pieces_eq, Limit.mapSpans, count, offset]
    obtain ⟨_, _, _, _⟩ := q
    simp only [mapSpans, pieces, Query.mapSpans, Query.pieces_eq, OrderBy.mapSpansOfOption_eq,
      Limit.mapSpansOfOption_eq, body, ordered, limited]
  | select s ihi ihf ihc ihg ihh =>
    have items := map_pieces_map (p := SelectItem.pieces) (g := (·.mapSpans f)) ihi
    have tables := clausePieces_map (p := From.pieces) (g := (·.mapSpans f))
      (o := s.source) fun source h => by
        have tables := map_pieces_map (p := JoinedTable.pieces) (g := (·.mapSpans f))
          (l := source.tables) fun t ht =>
            t.pieces_mapSpans_of_joins (ihf source h t ht).1 (ihf source h t ht).2
        simp [From.pieces, From.mapSpans, -List.map_map, tables]
    have keys := clausePieces_map (p := GroupBy.pieces) (g := (·.mapSpans f))
      (o := s.groupBy) fun g h => by
        have keys := map_pieces_map (p := Expr.pieces) (ihg g h)
        simp only [GroupBy.pieces_eq, GroupBy.mapSpans, keys]
    have condition := clausePieces_map fun e he => Expr.piecesBehind_mapSpans .WHERE (ihc e he)
    have having := clausePieces_map fun e he => Expr.piecesBehind_mapSpans .HAVING (ihh e he)
    obtain ⟨_, _, _, _, _, _, _⟩ := s
    simp only [mapSpans, pieces, Select.mapSpans, Select.pieces_eq,
      SelectItem.mapSpansOfList_eq, From.mapSpansOfOption_eq, Expr.mapSpansOfOption_eq,
      GroupBy.mapSpansOfOption_eq, items, tables, keys, condition, having]
  | join s kind relation condition ihr ihc =>
    cases condition <;>
      simp_all [mapSpans, pieces, Join.mapSpans, Join.pieces, JoinCondition.mapSpans,
        JoinCondition.pieces]
  | columnDefinition c ih =>
    have options := map_pieces_map (p := ColumnOption.pieces) (g := (·.mapSpans f))
      (l := c.options) fun o ho => by
        cases o with
        | default e =>
          have same : (e.mapSpans f).pieces = e.pieces := ih e ho
          simp [ColumnOption.pieces, ColumnOption.mapSpans, same]
        | _ => rfl
    simp [mapSpans, pieces, ColumnDefinition.pieces, ColumnDefinition.mapSpans, -List.map_map,
      options]
  | statement s ih =>
    simp only [mapSpans, pieces]
    cases s with
    | query q => exact ih (.query q) (List.mem_singleton_self _)
    | insert s =>
      obtain ⟨_, _, _, source⟩ := s
      cases source with
      | values rows =>
        simp only [Statement.children, List.forall_mem_map, List.forall_mem_flatten] at ih
        have same := map_pieces_map (g := List.map (·.mapSpans f))
          (p := fun row => Piece.parenthesized (Piece.commaSeparated (row.map Expr.pieces)))
          (l := rows) fun row h => by
            rw [map_pieces_map (p := Expr.pieces) (ih row h)]
        simp only [Statement.mapSpans, Statement.pieces, Insert.pieces, InsertSource.mapSpans,
          InsertSource.pieces, same]
        simp
      | query q =>
        have same : (q.mapSpans f).pieces = q.pieces := ih (.query q) (List.mem_singleton_self _)
        simp [Statement.mapSpans, Statement.pieces, Insert.pieces, InsertSource.mapSpans,
          InsertSource.pieces, same]
    | update s =>
      obtain ⟨_, _, _, assignments, condition⟩ := s
      simp only [Statement.children, List.forall_mem_append, List.forall_mem_map,
        Option.mem_toList] at ih
      have set := map_pieces_map (p := Assignment.pieces) (g := (·.mapSpans f))
        (l := assignments) fun a h => by
          have same : (a.value.mapSpans f).pieces = a.value.pieces := ih.1 a h
          simp [Assignment.pieces, Assignment.mapSpans, same]
      have filter := clausePieces_map fun e he =>
        Expr.piecesBehind_mapSpans (f := f) .WHERE (ih.2 e he)
      simp only [Statement.mapSpans, Statement.pieces, Update.pieces, wherePieces,
        Expr.piecesAfter_keyword, set, filter, QualifiedName.pieces_mapSpans, aliasPieces_mapSpans]
    | delete s =>
      obtain ⟨_, _, _, condition⟩ := s
      simp only [Statement.children, List.forall_mem_map, Option.mem_toList] at ih
      have filter := clausePieces_map fun e he =>
        Expr.piecesBehind_mapSpans (f := f) .WHERE (ih e he)
      simp only [Statement.mapSpans, Statement.pieces, Delete.pieces, wherePieces,
        Expr.piecesAfter_keyword, filter, QualifiedName.pieces_mapSpans, aliasPieces_mapSpans]
    | createTable s =>
      obtain ⟨_, _, _, columns, constraints⟩ := s
      simp only [Statement.children, List.forall_mem_map] at ih
      have same := map_pieces_map (p := ColumnDefinition.pieces) ih
      have keys := map_pieces_map (p := TableConstraint.pieces) (g := (·.mapSpans f))
        (l := constraints) fun c _ => by
          cases c <;> simp [TableConstraint.mapSpans, TableConstraint.pieces]
      simp only [Statement.mapSpans, Statement.pieces, CreateTable.pieces, same, keys,
        QualifiedName.pieces_mapSpans]
    | alterTable s =>
      obtain ⟨_, _, alteration⟩ := s
      cases alteration with
      | addColumn c =>
        have same : (c.mapSpans f).pieces = c.pieces := ih (.column c) (List.mem_singleton_self _)
        simp [Statement.mapSpans, Statement.pieces, AlterTable.pieces, Alteration.mapSpans,
          Alteration.pieces, same]
      | _ =>
        simp [Statement.mapSpans, Statement.pieces, AlterTable.pieces, Alteration.mapSpans,
          Alteration.pieces]
    | createIndex | createDatabase | drop =>
      simp [Statement.mapSpans, Statement.pieces, CreateIndex.pieces, CreateDatabase.pieces,
        Drop.pieces]

end Pieces

/-! ## Equality up to spans -/

/-- Forgets where something stands. -/
def Span.erase : Span → Span := fun _ => ⟨0, 0⟩

@[simp] theorem Span.erase_eq (s : Span) : s.erase = ⟨0, 0⟩ := rfl

/-- A statement with all its spans empty: what it is, wherever it stands. -/
def Statement.unplaced (s : Statement) : Statement := s.mapSpans Span.erase

theorem Statement.pieces_unplaced (s : Statement) : s.unplaced.pieces = s.pieces :=
  (Node.statement s).pieces_mapSpans _

/-- Statements that are equal up to spans have the same canonical text. -/
theorem Statement.canonical_eq_of_unplaced_eq {s t : Statement} (h : s.unplaced = t.unplaced) :
    s.canonical = t.canonical := by
  rw [canonical, ← s.pieces_unplaced, h, t.pieces_unplaced, canonical]

end SqlSyntax
