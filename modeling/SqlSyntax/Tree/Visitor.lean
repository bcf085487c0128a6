import SqlSyntax.Tree.Expressions

/-!
# Visitors

A visitor has a method for each sort of node. The method is given the walk over
what is below the node, and it may do this walk, or leave it out, in between its own
doings; without a method of its own, a visitor just walks on. What a visitor has
seen is a state that is handed through.

## Main results

* `Visitor.run_everyNode` — the visitor that notes every node down notes what
  `Node.preorder` lists.
* `Visitor.run_everyExpr` — the visitor that only has a method for expressions notes
  what `Node.expressions` lists.
-/

namespace SqlSyntax

/-- What is done at a node, given the walk over what is below it. Without further
notice this is the walk alone. -/
structure Visitor (σ : Type) where
  statement : Statement → (σ → σ) → σ → σ := fun _ walk => walk
  query : Query → (σ → σ) → σ → σ := fun _ walk => walk
  select : Select → (σ → σ) → σ → σ := fun _ walk => walk
  selectItem : SelectItem → (σ → σ) → σ → σ := fun _ walk => walk
  relation : Relation → (σ → σ) → σ → σ := fun _ walk => walk
  join : Join → (σ → σ) → σ → σ := fun _ walk => walk
  expr : Expr → (σ → σ) → σ → σ := fun _ walk => walk
  column : ColumnDefinition → (σ → σ) → σ → σ := fun _ walk => walk

namespace Visitor

/-- The method for the sort of a node. -/
def visit {σ : Type} (v : Visitor σ) : Node → (σ → σ) → σ → σ
  | .statement s => v.statement s
  | .query q => v.query q
  | .select s => v.select s
  | .selectItem i => v.selectItem i
  | .relation r => v.relation r
  | .join j => v.join j
  | .expr e => v.expr e
  | .column c => v.column c

/-- Visits a node. The walk below it visits the nodes directly below it one after
the other. -/
def run {σ : Type} (v : Visitor σ) (n : Node) : σ → σ :=
  v.visit n fun seen => n.children.attach.foldl (fun seen c => v.run c.1 seen) seen
termination_by sizeOf n
decreasing_by exact Node.sizeOf_lt_of_mem_children c.2

theorem run_eq {σ : Type} (v : Visitor σ) (n : Node) :
    v.run n = v.visit n fun seen => n.children.foldl (fun seen c => v.run c seen) seen := by
  have walk (seen : σ) : n.children.attach.foldl (fun seen c => v.run c.1 seen) seen =
      n.children.foldl (fun seen c => v.run c seen) seen := by
    rw [List.foldl_subtype (g := fun seen c => v.run c seen) (fun _ _ _ => rfl),
      List.unattach_attach]
  rw [run]
  exact congrArg (v.visit n) (funext walk)

/-! ## Visitors that take notes -/

/-- Notes every node down and walks on. -/
def everyNode : Visitor (List Node) where
  statement s walk seen := walk (seen ++ [.statement s])
  query q walk seen := walk (seen ++ [.query q])
  select s walk seen := walk (seen ++ [.select s])
  selectItem i walk seen := walk (seen ++ [.selectItem i])
  relation r walk seen := walk (seen ++ [.relation r])
  join j walk seen := walk (seen ++ [.join j])
  expr e walk seen := walk (seen ++ [.expr e])
  column c walk seen := walk (seen ++ [.column c])

/-- Notes every expression down and walks on, and has no other method. -/
def everyExpr : Visitor (List Expr) where
  expr e walk seen := walk (seen ++ [e])

/-- Visits that only append append one behind the other. -/
theorem foldl_append {α : Type} {v : Visitor (List α)} {notes : Node → List α}
    {nodes : List Node} (h : ∀ c ∈ nodes, ∀ seen, v.run c seen = seen ++ notes c)
    (seen : List α) :
    nodes.foldl (fun seen c => v.run c seen) seen = seen ++ nodes.flatMap notes := by
  induction nodes generalizing seen with
  | nil => simp
  | cons n nodes ih =>
    rw [List.foldl_cons, h n (List.mem_cons_self ..),
      ih fun c hc => h c (List.mem_cons_of_mem _ hc), List.append_assoc, List.flatMap_cons]

theorem run_everyNode (n : Node) (seen : List Node) :
    everyNode.run n seen = seen ++ n.preorder := by
  induction n using Node.induction generalizing seen with
  | step n ih =>
    have method : everyNode.visit n = fun walk seen => walk (seen ++ [n]) := by cases n <;> rfl
    rw [run_eq, method]
    show n.children.foldl _ (seen ++ [n]) = _
    rw [foldl_append ih, n.preorder_eq, List.append_assoc, List.singleton_append]

theorem run_everyExpr (n : Node) (seen : List Expr) :
    everyExpr.run n seen = seen ++ n.expressions := by
  induction n using Node.induction generalizing seen with
  | step n ih =>
    have method : everyExpr.visit n = fun walk seen => walk (seen ++ n.expr?.toList) := by
      cases n <;> simp [everyExpr, visit, Node.expr?]
    rw [run_eq, method]
    show n.children.foldl _ (seen ++ n.expr?.toList) = _
    rw [foldl_append ih, n.expressions_eq, List.append_assoc]

end Visitor

end SqlSyntax
