import SqlSyntax.Validation.Aggregate
import SqlSyntax.Validation.Scope
import SqlSyntax.Validation.Warning

/-!
# Rules

What is warned about. Most rules look at one place of the tree at a time; those
on grouping look at one selection. `Statement.warnings` gathers the findings in
the order of the source.

## Main results

* `repeats_concat` — an item is repeated exactly when one before it has the
  same key.
-/

namespace SqlSyntax

open Unicode (lowerCase)

/-! ## Repetition -/

/-- The items whose key is among `seen` or is that of an item before. -/
def repeatsAfter {α : Type} (key : α → String) (seen : List String) : List α → List α
  | [] => []
  | a :: as =>
    if key a ∈ seen then a :: repeatsAfter key seen as
    else repeatsAfter key (key a :: seen) as

/-- The items whose key is that of an item before. -/
def repeats {α : Type} (key : α → String) (items : List α) : List α := repeatsAfter key [] items

theorem repeatsAfter_concat {α : Type} (key : α → String) (a : α) (items : List α) :
    ∀ seen : List String, repeatsAfter key seen (items ++ [a]) =
      repeatsAfter key seen items
        ++ if key a ∈ seen ∨ key a ∈ items.map key then [a] else [] := by
  induction items with
  | nil => simp [repeatsAfter]
  | cons b items ih =>
    intro seen
    by_cases h : key b ∈ seen
    · have hiff : (key a ∈ seen ∨ key a ∈ items.map key) ↔
          (key a ∈ seen ∨ key a ∈ (b :: items).map key) := by
        grind
      simp only [List.cons_append, repeatsAfter, if_pos h, ih, hiff]
    · have hiff : (key a ∈ key b :: seen ∨ key a ∈ items.map key) ↔
          (key a ∈ seen ∨ key a ∈ (b :: items).map key) := by
        grind
      simp only [List.cons_append, repeatsAfter, if_neg h, ih, hiff]

/-- The last item is repeated exactly when one before it has the same key. -/
theorem repeats_concat {α : Type} (key : α → String) (a : α) (items : List α) :
    repeats key (items ++ [a]) =
      repeats key items ++ if key a ∈ items.map key then [a] else [] := by
  simpa [repeats] using repeatsAfter_concat key a items []

/-! ## Statements -/

namespace Insert

/-- The number of values that each row should have. -/
def expectedLength? (s : Insert) (rows : List (List Expr)) : Option Nat :=
  if s.columns.isEmpty then rows.head?.map (·.length) else some s.columns.length

/-- The bytes of a row without its parentheses. -/
def rowSpan (s : Insert) (row : List Expr) : Span :=
  match row.head?, row.getLast? with
  | some first, some last => first.span.union last.span
  | _, _ => s.span

/-- Rows with too few or too many values. -/
def warnings (s : Insert) : List Warning :=
  match s.source with
  | .query _ => []
  | .values rows =>
    match s.expectedLength? rows with
    | none => []
    | some n =>
      (rows.filter (·.length != n)).map fun row => ⟨.rowLength row.length n, s.rowSpan row⟩

end Insert

/-- A condition that is missing from a statement that needs one. -/
def missingWhere (verb : Keyword) (condition : Option Expr) (span : Span) : List Warning :=
  if condition.isSome then [] else [⟨.missingWhere verb, span⟩]

namespace CreateTable

/-- The places that declare a primary key. -/
def primaryKeys (s : CreateTable) : List Span :=
  (s.columns.filter (·.isPrimaryKey)).map (·.span)
    ++ s.constraints.filterMap fun
      | .primaryKey span _ => some span
      | .unique .. => none

/-- Columns whose name is taken, and primary keys after the first. -/
def warnings (s : CreateTable) : List Warning :=
  (repeats (fun c => lowerCase c.name.value) s.columns).map
      (fun c => ⟨.repeatedColumn c.name.value, c.span⟩)
    ++ (s.primaryKeys.drop 1).map fun span => ⟨.repeatedPrimaryKey, span⟩

end CreateTable

def Statement.ownWarnings : Statement → List Warning
  | .insert s => s.warnings
  | .update s => missingWhere .UPDATE s.condition s.span
  | .delete s => missingWhere .DELETE s.condition s.span
  | .createTable s => s.warnings
  | _ => []

/-! ## Places -/

/-- Relations whose name is taken. -/
def Select.relationWarnings (s : Select) : List Warning :=
  (repeats Prod.fst (s.relations.filterMap fun r => r.scopeName?.map (·, r.span))).map
    fun (name, span) => ⟨.repeatedRelation name, span⟩

namespace Join

/-- A condition that is missing, or aggregates in it. -/
def warnings (j : Join) : List Warning :=
  match j.condition with
  | .none => if j.kind = .cross then [] else [⟨.joinWithoutCondition j.kind, j.span⟩]
  | .on e => e.aggregates.map fun (function, span) => ⟨.aggregateInJoin function, span⟩
  | .shared _ => []

end Join

/-- A qualifier that is not among the names in scope. -/
def unknownQualifier (names : List String) (qualifier : Identifier) : List Warning :=
  if names.contains (lowerCase qualifier.value) then []
  else [⟨.unknownQualifier qualifier.value, qualifier.span⟩]

namespace Query

/-- The number of columns of the result, a wildcard counted as one. -/
def width (q : Query) : Nat := q.body.leftmost.projection.length

/-- More columns than the one that a query stands for. -/
def widthWarnings (q : Query) : List Warning :=
  if 1 < q.width then [⟨.subqueryColumns q.width, q.span⟩] else []

end Query

/-- What there is to warn about at a place, apart from what is below it. -/
def Place.warnings : Place → List Warning
  | ⟨_, .statement s⟩ => s.ownWarnings
  | ⟨_, .select s⟩ => s.relationWarnings
  | ⟨names, .selectItem (.qualifiedWildcard _ qualifier)⟩ => unknownQualifier names qualifier.base
  | ⟨_, .join j⟩ => j.warnings
  | ⟨names, .expr ⟨_, .column name⟩⟩ =>
    match name.qualifier? with
    | none => []
    | some qualifier => unknownQualifier names qualifier
  | ⟨_, .expr ⟨_, .subquery q⟩⟩ | ⟨_, .expr ⟨_, .inQuery _ _ q⟩⟩ => q.widthWarnings
  | _ => []

/-! ## Selections -/

namespace Select

/-- Names of columns that are taken. -/
def aliasWarnings (s : Select) : List Warning :=
  (repeats (fun a => lowerCase a.value) s.aliases).map fun a => ⟨.repeatedAlias a.value, a.span⟩

/-- Aggregates that filter rows. -/
def conditionWarnings (s : Select) : List Warning :=
  (s.condition.toList.flatMap Expr.aggregates).map fun (function, span) =>
    ⟨.aggregateInWhere function, span⟩

/-- A condition on groups where there are none. -/
def havingWarnings (s : Select) : List Warning :=
  if s.having.isSome && !s.isGrouped then [⟨.havingWithoutGrouping, s.span⟩] else []

/-- Wildcards in a selection that groups. -/
def wildcardWarnings (s : Select) : List Warning :=
  (s.projection.filter (·.expr?.isNone)).map fun i => ⟨.wildcardInAggregate, i.span⟩

/-- Whether a column is meant to be one of the result. -/
def isAlias (s : Select) (column : QualifiedName) : Bool :=
  column.qualifiers.isEmpty
    && (s.aliases.map fun a => lowerCase a.value).contains (lowerCase column.base.value)

/-- Columns without a single value in each group. -/
def ungroupedWarnings (s : Select) : List Warning :=
  ((s.groupExprs.flatMap (Expr.ungroupedColumns s.groupingTexts)).filter
    fun c => !s.isAlias c.1).map fun (column, span) => ⟨.ungroupedColumn column, span⟩

/-- What there is to warn about in a selection as a whole. -/
def warnings (s : Select) : List Warning :=
  s.aliasWarnings ++ s.conditionWarnings ++ s.havingWarnings
    ++ (if s.isGrouped then s.wildcardWarnings ++ s.ungroupedWarnings else [])

end Select

/-- The selection that a node is, if it is one. -/
def Node.select? : Node → Option Select
  | .select s => some s
  | _ => none

/-- All that there is to warn about in a statement, by the start of what it is
about. -/
def Statement.warnings (s : Statement) : List Warning :=
  (s.places.flatMap Place.warnings
    ++ (s.nodes.filterMap Node.select?).flatMap Select.warnings).mergeSort
      fun v w => decide (v.span.start ≤ w.span.start)

end SqlSyntax
