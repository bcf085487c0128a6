import SqlSyntax.Proofs.Validation.Scoping
import SqlSyntax.Tree.Expressions

/-!
# What searches find

A search follows the operands of an expression and ends at some of the expressions
that it meets. What it meets is said here by what encloses it: all expressions that
are neither in a query nor below an expression at which the search ends.

## Main results

* `Expr.reach_eq_occurrences` — the expressions that a search meets.
* `Expr.aggregates_eq_outermost` — the aggregates that are found are those that no other
  one encloses.
* `Expr.aggregates_isEmpty` — none is found only where there is none at all.
* `Expr.ungroupedColumns_eq_ungrouped` — the columns that are found are those that no
  aggregate and no expression that is grouped by encloses.
-/

namespace SqlSyntax

/-! ## Kinds of nodes -/

namespace Node

def isQuery : Node → Bool
  | .query _ => true
  | _ => false

/-- Whether a node is an expression of a kind. -/
def isExpr (kind : Expr → Bool) : Node → Bool
  | .expr e => kind e
  | _ => false

/-- Whether a node calls an aggregate. -/
def isAggregate : Node → Bool := isExpr fun e => e.aggregate?.isSome

/-- The aggregate that a node calls and where it stands. -/
def aggregate? (n : Node) : Option (QualifiedName × Span) :=
  n.expr?.bind fun e => e.aggregate?.map (·, e.span)

theorem isSome_aggregate? (n : Node) : n.aggregate?.isSome = n.isAggregate := by
  cases n with
  | expr e => exact Option.isSome_map
  | _ => rfl

/-- The column that a node refers to and where it stands. -/
def column? (n : Node) : Option (QualifiedName × Span) :=
  n.expr?.bind fun e => e.columnReference?.map (·, e.span)

end Node

/-! ## What encloses an occurrence -/

/-- All that is at and below an expression, with what encloses it up to there. -/
def Expr.occurrences (e : Expr) : List Occurrence := (Occurrence.mk [] (.expr e)).preorder

namespace Occurrence

/-- Whether a node of a kind encloses an occurrence. -/
def isBelow (kind : Node → Bool) (o : Occurrence) : Bool := o.steps.any fun step => kind step.1

/-- Whether an occurrence is of a kind or below a node of it. -/
def isWithin (kind : Node → Bool) (o : Occurrence) : Bool := kind o.node || o.isBelow kind

theorem isBelow_or (kind kind' : Node → Bool) (o : Occurrence) :
    o.isBelow (fun n => kind n || kind' n) = (o.isBelow kind || o.isBelow kind') := by
  rw [Bool.eq_iff_iff]
  simp [isBelow, exists_or, and_or_left]

theorem children_expr (steps : List (Node × Node)) (e : Expr) :
    (Occurrence.mk steps (.expr e)).children =
      (e.operands.map fun x => ⟨(.expr e, .expr x) :: steps, .expr x⟩) ++
        e.query?.toList.map fun q => ⟨(.expr e, .query q) :: steps, .query q⟩ := by
  simp [children, Node.children, Function.comp_def]

theorem isBelow_of_mem_children {kind : Node → Bool} {c o : Occurrence} (h : c ∈ o.children) :
    c.isBelow kind = o.isWithin kind := by
  obtain ⟨n, -, rfl⟩ := List.mem_map.1 h
  rfl

theorem isBelow_of_mem_preorder {kind : Node → Bool} {o : Occurrence} (below : o.isBelow kind) :
    ∀ c ∈ o.preorder, c.isBelow kind := by
  intro c h
  rw [preorder_eq, List.mem_cons, List.mem_flatMap] at h
  rcases h with rfl | ⟨d, hd, hc⟩
  · exact below
  · have deeper : d.isBelow kind := by
      rw [isBelow_of_mem_children hd, isWithin, below, Bool.or_true]
    exact isBelow_of_mem_preorder deeper c hc
termination_by sizeOf o.node
decreasing_by exact sizeOf_node_lt_of_mem_children hd

/-- Where there is something of a kind, there is something of this kind that nothing
else of it encloses, and what encloses the latter encloses the former too. -/
theorem exists_outermost {kind : Node → Bool} {o c : Occurrence} (hc : c ∈ o.preorder)
    (here : kind c.node) (outside : o.isBelow kind = false) :
    ∃ d ∈ o.preorder, kind d.node ∧ d.isBelow kind = false ∧
      ∀ kind' : Node → Bool, d.isBelow kind' → c.isBelow kind' := by
  by_cases first : kind o.node
  · have self : o ∈ o.preorder := by
      rw [preorder_eq]
      exact List.mem_cons_self ..
    exact ⟨o, self, first, outside, fun _ below => isBelow_of_mem_preorder below c hc⟩
  · rw [preorder_eq, List.mem_cons, List.mem_flatMap] at hc
    rcases hc with rfl | ⟨b, hb, hc⟩
    · exact absurd here first
    · have deeper : b.isBelow kind = false := by
        rw [isBelow_of_mem_children hb, isWithin, Bool.eq_false_iff.2 first, outside,
          Bool.or_false]
      obtain ⟨d, hd, found⟩ := exists_outermost hc here deeper
      refine ⟨d, ?_, found⟩
      rw [preorder_eq]
      exact List.mem_cons_of_mem _ (List.mem_flatMap.2 ⟨b, hb, hd⟩)
termination_by sizeOf o.node
decreasing_by exact sizeOf_node_lt_of_mem_children hb

end Occurrence

/-! ## What is met -/

namespace Expr

variable (ends : Expr → Bool)

/-- What an occurrence is, if a search meets it. -/
def met? (o : Occurrence) : Option Expr :=
  if o.isBelow Node.isQuery || o.isBelow (Node.isExpr ends) then none else o.node.expr?

theorem filterMap_met_of_isBelow {o : Occurrence}
    (below : o.isBelow Node.isQuery ∨ o.isBelow (Node.isExpr ends)) :
    o.preorder.filterMap (met? ends) = [] := by
  apply List.filterMap_eq_nil_iff.2
  intro c hc
  apply if_pos
  rw [Bool.or_eq_true]
  exact below.imp (fun h => Occurrence.isBelow_of_mem_preorder h c hc)
    fun h => Occurrence.isBelow_of_mem_preorder h c hc

/-- A query is met itself, but it is no expression, and nothing in it is met. -/
theorem filterMap_met_query (steps : List (Node × Node)) (q : Query) :
    (Occurrence.mk steps (.query q)).preorder.filterMap (met? ends) = [] := by
  have self : met? ends ⟨steps, .query q⟩ = none := by
    rw [met?]
    exact ite_self _
  rw [Occurrence.preorder_eq, List.filterMap_cons, self, List.filterMap_flatMap]
  apply List.flatMap_eq_nil_iff.2
  intro c hc
  apply filterMap_met_of_isBelow ends
  rw [Occurrence.isBelow_of_mem_children hc]
  exact .inl rfl

/-- A search that meets an expression meets all that it reaches from there. -/
theorem filterMap_met (steps : List (Node × Node)) (e : Expr)
    (outside : (Occurrence.mk steps (.expr e)).isBelow Node.isQuery = false)
    (goesOn : (Occurrence.mk steps (.expr e)).isBelow (Node.isExpr ends) = false) :
    (Occurrence.mk steps (.expr e)).preorder.filterMap (met? ends) = e.reach ends := by
  have self : met? ends ⟨steps, .expr e⟩ = some e := by
    rw [met?, outside, goesOn]
    rfl
  have above (c : Occurrence) (hc : c ∈ (Occurrence.mk steps (.expr e)).children) :
      c.isBelow Node.isQuery = false ∧ c.isBelow (Node.isExpr ends) = ends e := by
    rw [Occurrence.isBelow_of_mem_children hc, Occurrence.isBelow_of_mem_children hc,
      Occurrence.isWithin, Occurrence.isWithin, outside, goesOn, Bool.or_false, Bool.or_false]
    exact ⟨rfl, rfl⟩
  rw [Occurrence.preorder_eq, List.filterMap_cons, self, List.filterMap_flatMap, reach_eq]
  refine congrArg (e :: ·) ?_
  by_cases stops : ends e
  · rw [if_pos stops]
    apply List.flatMap_eq_nil_iff.2
    intro c hc
    exact filterMap_met_of_isBelow ends (.inr ((above c hc).2.trans stops))
  · rw [Occurrence.children_expr] at above ⊢
    rw [if_neg stops, List.flatMap_append, List.flatMap_map, List.flatMap_map,
      List.flatMap_eq_nil_iff.2 fun q _ => filterMap_met_query ends _ q, List.append_nil]
    apply List.flatMap_congr
    intro x hx
    obtain ⟨outside, goesOn⟩ := above _ (List.mem_append_left _ (List.mem_map_of_mem hx))
    exact filterMap_met _ x outside (goesOn.trans (Bool.eq_false_iff.2 stops))
termination_by sizeOf e
decreasing_by exact sizeOf_lt_of_mem_operands hx

/-- A search meets the expressions that are neither in a query nor below one at which
it ends. -/
theorem reach_eq_occurrences (e : Expr) :
    e.reach ends = e.occurrences.filterMap (met? ends) :=
  (filterMap_met ends [] e rfl rfl).symm

/-! ## What is found -/

/-- The aggregates in an expression that are neither in a query nor in another one. -/
def outermostAggregates (e : Expr) : List (QualifiedName × Span) :=
  e.occurrences.filterMap fun o =>
    if o.isBelow Node.isQuery || o.isBelow Node.isAggregate then none else o.node.aggregate?

theorem aggregates_eq_outermost (e : Expr) : e.aggregates = e.outermostAggregates := by
  rw [aggregates, reach_eq_occurrences, List.filterMap_filterMap]
  apply List.filterMap_congr
  intro o _
  rw [met?, Node.isAggregate]
  split <;> rfl

/-- Whether an expression has an aggregate in it outside the queries in it. -/
def hasAggregate (e : Expr) : Bool :=
  e.occurrences.any fun o => !o.isBelow Node.isQuery && o.node.isAggregate

theorem aggregates_isEmpty (e : Expr) : e.aggregates.isEmpty = !e.hasAggregate := by
  rw [aggregates_eq_outermost, Bool.eq_iff_iff, List.isEmpty_iff, Bool.not_eq_true',
    outermostAggregates, hasAggregate, List.filterMap_eq_nil_iff, List.any_eq_false]
  simp only [ite_eq_left_iff, Bool.or_eq_true, not_or, Bool.not_eq_true, Bool.and_eq_true,
    Bool.not_eq_true', not_and, and_imp]
  constructor
  · intro none o ho outside
    by_contra here
    obtain ⟨d, hd, first, outermost, encloses⟩ :=
      Occurrence.exists_outermost ho (Bool.not_eq_false _ |>.mp here) rfl
    have free : d.isBelow Node.isQuery = false :=
      Bool.eq_false_iff.2 fun below => by simp [encloses _ below] at outside
    have absent := none d hd free outermost
    rw [← Node.isSome_aggregate?, absent] at first
    cases first
  · intro none o ho outside _
    have absent := none o ho outside
    rw [← Node.isSome_aggregate?] at absent
    exact Option.isNone_iff_eq_none.1 (by simpa using absent)

/-- The columns in an expression that are neither in a query nor in an aggregate, and
neither are nor are in an expression that is grouped by. -/
def ungrouped (isKey : Expr → Bool) (e : Expr) : List (QualifiedName × Span) :=
  e.occurrences.filterMap fun o =>
    if o.isBelow Node.isQuery || o.isBelow Node.isAggregate || o.isWithin (Node.isExpr isKey)
    then none else o.node.column?

theorem ungroupedColumns_eq_ungrouped (keys : List String) (e : Expr) :
    e.ungroupedColumns keys = e.ungrouped fun x => keys.contains x.groupingText := by
  have either (kind kind' : Expr → Bool) :
      Node.isExpr (fun e => kind e || kind' e) = fun n => n.isExpr kind || n.isExpr kind' := by
    funext n
    cases n <;> rfl
  rw [ungroupedColumns, reach_eq_occurrences, List.filterMap_filterMap]
  apply List.filterMap_congr
  intro o _
  rw [met?, either, Occurrence.isBelow_or, Occurrence.isWithin, Node.isAggregate]
  cases o.isBelow Node.isQuery <;> cases o.isBelow (Node.isExpr fun x => x.aggregate?.isSome) <;>
    cases o.isBelow (Node.isExpr fun x => keys.contains x.groupingText) <;>
    simp only [Bool.or_true, Bool.true_or, Bool.or_false, if_true, Option.bind_none]
  -- Nothing that encloses the occurrence ends the search: it depends on the node itself.
  obtain ⟨steps, n⟩ := o
  cases n with
  | expr e =>
    obtain ⟨span, form⟩ := e
    cases form with
    | column name => rfl
    | _ => exact (ite_self _).symm
  | _ => rfl

end Expr

end SqlSyntax
