import SqlSyntax.Parser.Statement
import SqlSyntax.Proofs.Parser.Parallel.Query

/-!
# Nesting and statements in parallel

## Main results

* `exprOf_parallel`, `queryOf_parallel`, `foldStep_parallel`,
  `combineStep_parallel` — what the parsers for nested phrases do besides
  counting levels.
* `levels_parallel` — what is nested, with the same levels in both runs.
* `statement_parallel` — every statement, given what is nested in it.
* `wholeStatement_of_levels`, `script_of_levels` — the entry points, with the
  same levels in both runs.
-/

namespace SqlSyntax.Parser

open Grammar

variable {f : Relocation} {R : ParserRelation} (h : Comparison f R) {m : Stage}
  {sub sub' : Nested} (hsub : NestedParallel f R sub sub')

include h

/-! ## Nesting -/

include hsub in
theorem exprOf_parallel {fold fold' : Expr → Parser Expr}
    (hfold : ∀ e, R .free (Expr.mapSpans f.span) (fold e) (fold' (e.mapSpans f.span))) :
    R .start (Expr.mapSpans f.span) (exprOf sub fold) (exprOf sub' fold') :=
  operand_leads h hsub hfold

include hsub in
theorem queryOf_parallel {combine combine' : QueryBody → Parser Query}
    (hcombine : ∀ b, R .free (Query.mapSpans f.span) (combine b) (combine' (b.mapSpans f.span))) :
    R .start (Query.mapSpans f.span) (queryOf sub combine) (queryOf sub' combine') :=
  select_leads h hsub fun s => hcombine (.select s)

/-- Folding goes on behind an infix operator, or fails for want of levels. -/
theorem foldStep_parallel {max max' level : Nat} {left : Expr}
    {deeper deeper' : Option (InfixOperator → Parser Expr)} (hm : m ≠ .inner)
    (hdeeper : ∀ op, R m.ahead (Expr.mapSpans f.span)
      (deeper.elim (tooDeep max) (· op)) (deeper'.elim (tooDeep max') (· op))) :
    R m (Expr.mapSpans f.span) (foldStep max level left deeper)
      (foldStep max' level (left.mapSpans f.span) deeper') := by
  refine infixOperator?_parallel_bind h hm (pure_parallel h rfl) fun op => ?_
  dsimp only
  split
  · exact pure_parallel h rfl
  · cases deeper <;> cases deeper' <;> exact hdeeper op

/-- A query is finished, or goes on behind a set operator, or fails for want of
levels. -/
theorem combineStep_parallel {max max' : Nat} {left : QueryBody}
    {deeper deeper' : Option (SetOperator → Parser Query)} (hm : m ≠ .inner)
    (tail : R m (Query.mapSpans f.span) (queryTail sub left)
      (queryTail sub' (left.mapSpans f.span)))
    (hdeeper : ∀ op, R m.ahead (Query.mapSpans f.span)
      (deeper.elim (tooDeep max) (· op)) (deeper'.elim (tooDeep max') (· op))) :
    R m (Query.mapSpans f.span) (combineStep max sub left deeper)
      (combineStep max' sub' (left.mapSpans f.span) deeper') := by
  refine setOperator?_parallel_bind h hm tail fun op => ?_
  cases deeper <;> cases deeper' <;> exact hdeeper op

/-- Parsers for what is nested that run in parallel with the same levels. -/
structure LevelsParallel (f : Relocation) (R : ParserRelation) (max depth : Nat) : Prop where
  expr : ∀ level, R .start (Expr.mapSpans f.span) (expr max depth level) (expr max depth level)
  query : R .start (Query.mapSpans f.span) (query max depth) (query max depth)
  fold : ∀ level e, R .free (Expr.mapSpans f.span) (foldAbove max depth level e)
    (foldAbove max depth level (e.mapSpans f.span))
  combine : ∀ b, R .free (Query.mapSpans f.span) (combine max depth b)
    (combine max depth (b.mapSpans f.span))

theorem LevelsParallel.nested {max depth : Nat} (levels : LevelsParallel f R max depth) :
    NestedParallel f R (nested max depth) (nested max depth) :=
  ⟨fun level => h.weaken _ (levels.expr level), h.weaken _ levels.query, _,
    nested_sound max depth⟩

/-- The clauses at the end of a query have the levels of the query. -/
theorem combine_parallel {max depth : Nat} (b : QueryBody)
    (deep : ∀ {α : Type} {v : α → α}, R .start v (tooDeep max) (tooDeep max))
    (same : NestedParallel f R (Parser.nested max depth) (Parser.nested max depth))
    (deeper : ∀ d, depth = d + 1 → LevelsParallel f R max d) :
    R .free (Query.mapSpans f.span) (combine max depth b)
      (combine max depth (b.mapSpans f.span)) := by
  rw [combine_eq, combine_eq]
  refine combineStep_parallel h nofun (queryTail_parallel h same b) fun op => ?_
  cases depth with
  | zero => exact h.weaken _ deep
  | succ d =>
    have levels := deeper d rfl
    exact setOperand_leads h (levels.nested h) (m := .free) b op nofun levels.combine

/-- Two runs with the same levels are in parallel on what is nested if they are
so where levels are wanting. -/
theorem levels_parallel (max depth : Nat)
    (deep : ∀ {α : Type} {v : α → α}, R .start v (tooDeep max) (tooDeep max)) :
    LevelsParallel f R max depth := by
  induction depth with
  | zero =>
    have nested : NestedParallel f R (Parser.nested max 0) (Parser.nested max 0) :=
      ⟨fun _ => h.weaken _ deep, h.weaken _ deep, _, nested_sound max 0⟩
    refine ⟨fun _ => deep, deep, fun level e => ?_, fun b => ?_⟩
    · exact foldStep_parallel h nofun fun _ => h.weaken _ deep
    · exact combine_parallel h b deep nested nofun
  | succ d deeper =>
    have expr (level : Nat) := exprOf_parallel h (deeper.nested h) (deeper.fold level)
    have query := queryOf_parallel h (deeper.nested h) deeper.combine
    refine ⟨expr, query, fun level e => ?_, fun b => ?_⟩
    · exact foldStep_parallel h nofun fun op =>
        foldInfix_leads h (deeper.nested h) (m := .free) e op nofun (deeper.fold level)
    · exact combine_parallel h b deep ⟨fun level => h.weaken _ (expr level), h.weaken _ query, _,
        nested_sound max (d + 1)⟩ fun d' hd => Nat.succ.inj hd ▸ deeper

/-! ## Changes of the data -/

theorem atParenthesizedQuery_parallel : R m id atParenthesizedQuery atParenthesizedQuery := by
  refine h.weaken m (h.bind nofun (peek_parallel h) fun t => ?_)
  rw [f.kind_token]
  split
  · refine h.look 1 fun u => ?_
    rw [f.kind_token]
    exact h.pure rfl
  · exact h.pure rfl

theorem insertColumns_parallel :
    R .free (List.map (Identifier.mapSpans f.span)) insertColumns insertColumns := by
  refine h.bind nofun (peek_parallel h) fun t => ?_
  rw [f.kind_token]
  split
  · exact columnList_parallel h
  · exact h.bind nofun (h.weaken _ (h.note _)) fun _ => pure_parallel h rfl

section

include hsub

theorem row_parallel : R .free (List.map (Expr.mapSpans f.span)) (row sub) (row sub') :=
  parenthesized_parallel h (hsub.commaSeparated h hsub.wholeExpr (·.wholeExpr))

theorem insertSource_parallel :
    R .free (InsertSource.mapSpans f.span) (insertSource sub) (insertSource sub') := by
  refine h.bind nofun (keyword?_parallel h .VALUES) fun o => ?_
  cases o with
  | some _ =>
    exact h.bind nofun (hsub.commaSeparated h (row_parallel h hsub) fun nested =>
      parenthesized_sound (commaSeparated_sound nested.wholeExpr)) fun _ =>
      pure_parallel h rfl
  | none => exact queryOr_parallel h hsub (fun _ => rfl) (missing_parallel h _)

theorem insert_leads : Leads R .start (Insert.mapSpans f.span) (insert sub) (insert sub') := by
  refine (keyword_leads h .INSERT).bind h fun start =>
    h.bind nofun (keyword_parallel h .INTO) fun _ =>
    h.bind nofun (qualifiedName_parallel h) fun table =>
    h.bind nofun (atParenthesizedQuery_parallel h) fun parenthesized => ?_
  cases parenthesized with
  | true =>
    exact h.bind nofun (parenthesized_parallel h hsub.query) fun _ =>
      h.bind nofun (h.spanFrom rfl) fun _ => pure_parallel h rfl
  | false =>
    exact h.bind nofun (insertColumns_parallel h) fun _ =>
      h.bind nofun (insertSource_parallel h hsub) fun _ =>
      h.bind nofun (h.spanFrom rfl) fun _ => pure_parallel h rfl

theorem assignment_parallel :
    R .free (Assignment.mapSpans f.span) (assignment sub) (assignment sub') :=
  h.bind nofun (identifier_parallel h) fun _ => h.bind nofun (operator_parallel h .equal) fun _ =>
    h.bind nofun hsub.wholeExpr fun _ => h.bind nofun (h.spanFrom rfl) fun _ =>
    pure_parallel h rfl

theorem update_leads : Leads R .start (Update.mapSpans f.span) (update sub) (update sub') :=
  (keyword_leads h .UPDATE).bind h fun _ => h.bind nofun (qualifiedName_parallel h) fun _ =>
    h.bind nofun (alias?_parallel h) fun _ => h.bind nofun (keyword_parallel h .SET) fun _ =>
    h.bind nofun (hsub.commaSeparated h (assignment_parallel h hsub) assignment_sound) fun _ =>
    h.bind nofun (conditionAfter?_parallel h hsub .WHERE) fun _ =>
    h.bind nofun (h.spanFrom rfl) fun _ => pure_parallel h rfl

theorem delete_leads : Leads R .start (Delete.mapSpans f.span) (delete sub) (delete sub') :=
  (keyword_leads h .DELETE).bind h fun _ => h.bind nofun (keyword_parallel h .FROM) fun _ =>
    h.bind nofun (qualifiedName_parallel h) fun _ => h.bind nofun (alias?_parallel h) fun _ =>
    h.bind nofun (conditionAfter?_parallel h hsub .WHERE) fun _ =>
    h.bind nofun (h.spanFrom rfl) fun _ => pure_parallel h rfl

/-! ## Changes of the schema -/

theorem columnOption?_parallel :
    R .free (Option.map (ColumnOption.mapSpans f.span)) (columnOption? sub)
      (columnOption? sub') := by
  refine h.bind nofun (peek_parallel h) fun t => ?_
  rw [f.kind_token]
  split
  · exact h.bind nofun (h.weaken _ h.next) fun _ => h.bind nofun (keyword_parallel h .NULL) fun _ =>
      pure_parallel h rfl
  · exact h.bind nofun (h.weaken _ h.next) fun _ => pure_parallel h rfl
  · exact h.bind nofun (h.weaken _ h.next) fun _ => h.bind nofun (keyword_parallel h .KEY) fun _ =>
      pure_parallel h rfl
  · exact h.bind nofun (h.weaken _ h.next) fun _ => pure_parallel h rfl
  · exact h.bind nofun (h.weaken _ h.next) fun _ => h.bind nofun hsub.wholeExpr fun _ =>
      pure_parallel h rfl
  · exact h.bind nofun (h.weaken _ (h.note _)) fun _ => pure_parallel h rfl

theorem columnDefinition_parallel :
    R .free (ColumnDefinition.mapSpans f.span) (columnDefinition sub) (columnDefinition sub') := by
  refine h.bind nofun (identifier_parallel h) fun name => h.bind nofun (dataType_parallel h)
    fun type => ?_
  refine h.bind (v := List.map (ColumnOption.mapSpans f.span)) nofun
    (hsub.collect h (fun options => ?_) fun nested => (optionStep_progressive nested).advances)
      fun options =>
    h.bind nofun (h.spanFrom rfl) fun _ => pure_parallel h (by simp [ColumnDefinition.mapSpans])
  refine h.bind nofun (columnOption?_parallel h hsub) fun o => ?_
  cases o <;> exact pure_parallel h rfl

theorem tableElement_parallel :
    R .free (Sum.map (TableConstraint.mapSpans f.span) (ColumnDefinition.mapSpans f.span))
      (tableElement sub) (tableElement sub') := by
  refine h.bind nofun (peek_parallel h) fun t =>
    h.bind nofun (keyword?_parallel h .PRIMARY) fun o => ?_
  have start := (f.span_token t).symm
  cases o with
  | some _ =>
    exact h.bind nofun (keyword_parallel h .KEY) fun _ =>
      h.bind nofun (columnList_parallel h) fun _ =>
      h.bind nofun (h.spanFrom start) fun _ => pure_parallel h rfl
  | none =>
    refine h.bind nofun (keyword?_parallel h .UNIQUE) fun o => ?_
    cases o with
    | some _ =>
      exact h.bind nofun (columnList_parallel h) fun _ =>
        h.bind nofun (h.spanFrom start) fun _ => pure_parallel h rfl
    | none =>
      exact h.bind nofun (columnDefinition_parallel h hsub) fun _ => pure_parallel h rfl

end

theorem ifNotExists_parallel : R .free id ifNotExists ifNotExists := by
  refine h.bind nofun (keyword?_parallel h .IF) fun o => ?_
  cases o with
  | none => exact pure_parallel h rfl
  | some _ =>
    exact h.bind nofun (keyword_parallel h .NOT) fun _ =>
      h.bind nofun (keyword_parallel h .EXISTS) fun _ => pure_parallel h rfl

theorem ifExists_parallel : R .free id ifExists ifExists := by
  refine h.bind nofun (keyword?_parallel h .IF) fun o => ?_
  cases o with
  | none => exact pure_parallel h rfl
  | some _ => exact h.bind nofun (keyword_parallel h .EXISTS) fun _ => pure_parallel h rfl

include hsub in
theorem createTable_parallel (start : Span) :
    R .free (CreateTable.mapSpans f.span) (createTable sub start)
      (createTable sub' (f.span start)) :=
  h.bind nofun (ifNotExists_parallel h) fun _ => h.bind nofun (qualifiedName_parallel h) fun _ =>
    h.bind nofun (parenthesized_parallel h
      (hsub.commaSeparated h (tableElement_parallel h hsub) tableElement_sound)) fun elements =>
    h.bind nofun (h.spanFrom rfl) fun _ => pure_parallel h <| by
      have columns (e : TableConstraint ⊕ ColumnDefinition) :
          (e.map (·.mapSpans f.span) (·.mapSpans f.span)).getRight? =
            e.getRight?.map (ColumnDefinition.mapSpans f.span) := by cases e <;> rfl
      have constraints (e : TableConstraint ⊕ ColumnDefinition) :
          (e.map (·.mapSpans f.span) (ColumnDefinition.mapSpans f.span)).getLeft? =
            e.getLeft?.map (TableConstraint.mapSpans f.span) := by cases e <;> rfl
      simp [CreateTable.mapSpans, List.map_filterMap, List.filterMap_map, columns, constraints]

theorem createDatabase_parallel (start : Span) :
    R .free (CreateDatabase.mapSpans f.span) (createDatabase start)
      (createDatabase (f.span start)) :=
  h.bind nofun (identifier_parallel h) fun _ => h.bind nofun (h.spanFrom rfl) fun _ =>
    pure_parallel h rfl

theorem createIndex_parallel (start : Span) :
    R .free (CreateIndex.mapSpans f.span) (createIndex start) (createIndex (f.span start)) :=
  h.bind nofun (keyword?_parallel h .UNIQUE) fun unique =>
    h.bind nofun (keyword_parallel h .INDEX) fun _ =>
    h.bind nofun (identifier_parallel h) fun _ => h.bind nofun (keyword_parallel h .ON) fun _ =>
    h.bind nofun (qualifiedName_parallel h) fun _ => h.bind nofun (columnList_parallel h) fun _ =>
    h.bind nofun (h.spanFrom rfl) fun _ => pure_parallel h (by cases unique <;> rfl)

include hsub in
theorem create_leads : Leads R .start (Statement.mapSpans f.span) (create sub) (create sub') := by
  refine (keyword_leads h .CREATE).bind h fun start =>
    h.bind nofun (keyword?_parallel h .TABLE) fun o => ?_
  cases o with
  | some _ => exact h.bind nofun (createTable_parallel h hsub start) fun _ => pure_parallel h rfl
  | none =>
    refine h.bind nofun (keyword?_parallel h .DATABASE) fun o => ?_
    cases o with
    | some _ => exact h.bind nofun (createDatabase_parallel h start) fun _ => pure_parallel h rfl
    | none => exact h.bind nofun (createIndex_parallel h start) fun _ => pure_parallel h rfl

theorem renameTail_parallel : R .free (Alteration.mapSpans f.span) renameTail renameTail := by
  refine h.bind nofun (keyword?_parallel h .TO) fun o => ?_
  cases o with
  | some _ => exact h.bind nofun (identifier_parallel h) fun _ => pure_parallel h rfl
  | none =>
    exact h.bind nofun (keyword?_parallel h .COLUMN) fun _ =>
      h.bind nofun (identifier_parallel h) fun _ => h.bind nofun (keyword_parallel h .TO) fun _ =>
      h.bind nofun (identifier_parallel h) fun _ => pure_parallel h rfl

section

include hsub

theorem alteration_parallel :
    R .free (Alteration.mapSpans f.span) (alteration sub) (alteration sub') := by
  refine h.bind nofun (peek_parallel h) fun t => ?_
  rw [f.kind_token]
  split
  · exact h.bind nofun (h.weaken _ h.next) fun _ =>
      h.bind nofun (keyword?_parallel h .COLUMN) fun _ =>
      h.bind nofun (columnDefinition_parallel h hsub) fun _ => pure_parallel h rfl
  · exact h.bind nofun (h.weaken _ h.next) fun _ =>
      h.bind nofun (keyword?_parallel h .COLUMN) fun _ =>
      h.bind nofun (identifier_parallel h) fun _ => pure_parallel h rfl
  · exact h.bind nofun (h.weaken _ h.next) fun _ => renameTail_parallel h
  · exact missing_parallel h _

theorem alterTable_leads :
    Leads R .start (AlterTable.mapSpans f.span) (alterTable sub) (alterTable sub') :=
  (keyword_leads h .ALTER).bind h fun _ => h.bind nofun (keyword_parallel h .TABLE) fun _ =>
    h.bind nofun (qualifiedName_parallel h) fun _ =>
    h.bind nofun (alteration_parallel h hsub) fun _ =>
    h.bind nofun (h.spanFrom rfl) fun _ => pure_parallel h rfl

end

theorem drop_leads : Leads R .start (Drop.mapSpans f.span) drop drop := by
  refine (keyword_leads h .DROP).bind h fun start => h.bind nofun (peek_parallel h) fun t => ?_
  rw [f.kind_token]
  split
  · exact h.bind nofun (h.weaken _ h.next) fun _ => h.bind nofun (ifExists_parallel h) fun _ =>
      h.bind nofun (qualifiedName_parallel h) fun _ => h.bind nofun (h.spanFrom rfl) fun _ =>
      pure_parallel h rfl
  · exact missing_parallel h _

/-! ## Statements -/

/-- A statement, given how what is nested in it runs in parallel. A query that
is the statement may be asked more of than one inside it. -/
theorem statement_parallel {max max' : Nat} (hm : m ≠ .inner)
    (hsub : NestedParallel f R (nested max max) (nested max' max'))
    (hquery : R m (Query.mapSpans f.span) (query max max) (query max' max')) :
    R m (Statement.mapSpans f.span) (statement max) (statement max') := by
  refine h.bind hm (peek_parallel h) fun t => ?_
  rw [f.kind_token]
  split
  · exact h.bind hm hquery fun _ => pure_parallel h rfl
  · exact h.bind hm ((insert_leads h hsub).parallel h) fun _ => pure_parallel h rfl
  · exact h.bind hm ((update_leads h hsub).parallel h) fun _ => pure_parallel h rfl
  · exact h.bind hm ((delete_leads h hsub).parallel h) fun _ => pure_parallel h rfl
  · exact (create_leads h hsub).parallel h
  · exact h.bind hm ((alterTable_leads h hsub).parallel h) fun _ => pure_parallel h rfl
  · exact h.bind hm ((drop_leads h).parallel h) fun _ => pure_parallel h rfl
  · exact missing_parallel h _

theorem wholeStatement_parallel {max max' : Nat} (hm : m ≠ .inner)
    (hsub : NestedParallel f R (nested max max) (nested max' max'))
    (hquery : R m (Query.mapSpans f.span) (query max max) (query max' max')) :
    R m (Statement.mapSpans f.span) (wholeStatement max) (wholeStatement max') :=
  h.bind hm (statement_parallel h hm hsub hquery) fun _ =>
    h.bind hm (punctuation?_parallel h .semicolon) fun _ =>
    h.bind hm (endOfInput_parallel h) fun _ => pure_parallel h rfl

theorem skipSemicolons_parallel (hm : m ≠ .inner) : R m id skipSemicolons skipSemicolons := by
  refine h.iterate hm (fun _ => ?_) semicolonStep_progressive.advances rfl
  refine h.bind hm (punctuation?_parallel h .semicolon) fun o => ?_
  cases o <;> exact pure_parallel h rfl

/-- A script, given how its statements run in parallel. -/
theorem script_parallel {max max' : Nat} (hm : m ≠ .inner)
    (hstatement : R m (Statement.mapSpans f.span) (statement max) (statement max')) :
    R m (List.map (Statement.mapSpans f.span)) (script max) (script max') := by
  refine h.bind (v := List.map (Statement.mapSpans f.span)) hm
    (h.iterate hm (fun statements => ?_) (scriptStep_progressive max').advances rfl) fun statements =>
    pure_parallel h (by simp)
  refine h.bind hm (skipSemicolons_parallel h hm) fun _ =>
    h.bind hm (peek_parallel h) fun t => ?_
  rw [f.isEnd_token]
  split
  · exact pure_parallel h rfl
  · refine h.bind hm hstatement fun s =>
      h.bind hm (punctuation?_parallel h .semicolon) fun o => ?_
    cases o with
    | some _ => exact pure_parallel h rfl
    | none => exact h.bind hm (endOfInput_parallel h) fun _ => pure_parallel h rfl

/-! ## Entry points with the same levels -/

section

variable {max : Nat} (levels : LevelsParallel f R max max)

include levels

theorem statement_of_levels :
    R .start (Statement.mapSpans f.span) (statement max) (statement max) :=
  statement_parallel h nofun (levels.nested h) levels.query

theorem wholeStatement_of_levels :
    R .start (Statement.mapSpans f.span) (wholeStatement max) (wholeStatement max) :=
  wholeStatement_parallel h nofun (levels.nested h) levels.query

theorem script_of_levels :
    R .start (List.map (Statement.mapSpans f.span)) (script max) (script max) :=
  script_parallel h nofun (statement_of_levels h levels)

end

end SqlSyntax.Parser
