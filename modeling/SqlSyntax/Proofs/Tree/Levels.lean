import SqlSyntax.Proofs.Tree.Induction
import SqlSyntax.Proofs.Tree.WellFormed

/-!
# Levels of nesting

The nesting that a tree takes is counted the way the limit on it is: a level
for each expression and query, and one for each infix operator and set operator
that stands before something. `Node.Admissible` says that a tree is well formed
and that a number of levels is enough for it.

## Main results

* `Statement.WellFormed.admissible` — for every well-formed statement there are
  enough levels, and more do no harm.
* `Node.Admissible.wellFormed` — all nodes of an admissible tree are well formed.
* `Node.admissible_operand_iff`, `Node.admissible_infix_iff`,
  `Node.admissible_query_iff` — the levels that are left below a node.
-/

namespace SqlSyntax

/-- Levels that an expression takes by itself: one, and one for each infix
operator that is folded to make it. -/
def Expr.height (e : Expr) : Nat := e.leftLevels.length + 1

/-- The operands of an expression, each with the levels that are gone before
it. A left operand is read with none gone: its own operators are folded first. -/
def Expr.gradedOperands (e : Expr) : List (Nat × Expr) :=
  match e.level?, e.operands with
  | some _, l :: others => (0, l) :: others.map fun x => (e.height, x)
  | _, operands => operands.map fun x => (e.height, x)

namespace Node

/-- Levels that a node takes by itself. -/
def height : Node → Nat
  | .expr e => e.height
  | .query q => q.body.selects.length
  | _ => 0

/-- The nodes directly below a node, each with the levels that are gone before
it. -/
def gradedChildren : Node → List (Nat × Node)
  | .expr e =>
    e.gradedOperands.map (fun x => (x.1, .expr x.2))
      ++ e.query?.toList.map fun q => (e.height, .query q)
  | .query q =>
    q.body.selects.zipIdx.map (fun s => (s.2 + 1, .select s.1.2))
      ++ q.trailing.map fun e => (q.body.selects.length, .expr e)
  | n => n.children.map fun c => (0, c)

theorem gradedChildren_map_snd (n : Node) : n.gradedChildren.map Prod.snd = n.children := by
  match n with
  | .expr e =>
    have operands : e.gradedOperands.map (fun x => Node.expr x.2) = e.operands.map .expr := by
      unfold Expr.gradedOperands
      split <;> simp_all
    simp only [gradedChildren, children, List.map_append, List.map_map, Function.comp_def]
    rw [operands]
  | .query q =>
    have selects : q.body.selects.zipIdx.map (fun s => Node.select s.1.2) =
        q.body.selects.map fun s => .select s.2 := by
      conv_rhs => rw [← List.zipIdx_map_fst 0 q.body.selects, List.map_map]
      rfl
    simp only [gradedChildren, children, List.map_append, List.map_map, Function.comp_def]
    rw [selects]
  | .statement s | .select s | .selectItem s | .relation s | .join s | .column s =>
    simp [gradedChildren, Function.comp_def]

theorem mem_children_of_mem_gradedChildren {n : Node} {p : Nat × Node}
    (h : p ∈ n.gradedChildren) : p.2 ∈ n.children := by
  rw [← gradedChildren_map_snd]
  exact List.mem_map_of_mem h

theorem exists_mem_gradedChildren {n c : Node} (h : c ∈ n.children) :
    ∃ k, (k, c) ∈ n.gradedChildren := by
  rw [← gradedChildren_map_snd] at h
  obtain ⟨p, hp, rfl⟩ := List.mem_map.1 h
  exact ⟨p.1, hp⟩

/-- Whether a tree is well formed and `depth` levels are enough for it. -/
inductive Admissible : Nat → Node → Prop where
  | intro {depth : Nat} {n : Node} (wellFormed : n.WellFormed) (height : n.height ≤ depth)
      (below : ∀ p ∈ n.gradedChildren, Admissible (depth - p.1) p.2) : Admissible depth n

theorem Admissible.wellFormed {depth : Nat} {n : Node} (h : n.Admissible depth) :
    ∀ x ∈ n.preorder, x.WellFormed := by
  induction h with
  | @intro depth n here _ below ih =>
    intro x hx
    rw [preorder_eq, List.mem_cons, List.mem_flatMap] at hx
    rcases hx with rfl | ⟨c, hc, hx⟩
    · exact here
    · obtain ⟨k, hk⟩ := exists_mem_gradedChildren hc
      exact ih (k, c) hk x hx

theorem Admissible.mono {depth more : Nat} {n : Node} (h : n.Admissible depth)
    (hle : depth ≤ more) : n.Admissible more := by
  induction h generalizing more with
  | intro here height _ ih =>
    exact .intro here (Nat.le_trans height hle) fun p hp => ih p hp (Nat.sub_le_sub_right hle p.1)

theorem admissible_iff {depth : Nat} {n : Node} :
    n.Admissible depth ↔ n.WellFormed ∧ n.height ≤ depth ∧
      ∀ p ∈ n.gradedChildren, p.2.Admissible (depth - p.1) :=
  ⟨fun ⟨here, height, below⟩ => ⟨here, height, below⟩, fun ⟨here, height, below⟩ =>
    .intro here height below⟩

/-! ### Levels that are left below a node -/

/-- An expression that is not infix leaves all levels but one. -/
theorem admissible_operand_iff {depth : Nat} {e : Expr} (hlevel : e.level? = none) :
    (Node.expr e).Admissible (depth + 1) ↔ e.WellFormed ∧
      (∀ x ∈ e.operands, (Node.expr x).Admissible depth) ∧
      ∀ q ∈ e.query?, (Node.query q).Admissible depth := by
  have height : e.height = 1 := by rw [Expr.height, (Expr.leftLevels_eq_nil_iff e).2 hlevel]; rfl
  have graded : e.gradedOperands = e.operands.map fun x => (1, x) := by
    rw [Expr.gradedOperands, hlevel, height]
  rw [admissible_iff]
  show e.WellFormed ∧ e.height ≤ depth + 1 ∧ _ ↔ _
  simp [gradedChildren, graded, height, or_imp, forall_and]

/-- An infix expression leaves what it has beyond its height, except to its left
operand. -/
theorem admissible_infix_iff {levels k : Nat} {e l : Expr} {others : List Expr}
    (hlevel : e.level? = some k) (hoperands : e.operands = l :: others) :
    (Node.expr e).Admissible (e.height + levels) ↔ e.WellFormed ∧
      (Node.expr l).Admissible (e.height + levels) ∧
      (∀ x ∈ others, (Node.expr x).Admissible levels) ∧
      ∀ q ∈ e.query?, (Node.query q).Admissible levels := by
  have graded : e.gradedOperands = (0, l) :: others.map fun x => (e.height, x) := by
    rw [Expr.gradedOperands, hlevel, hoperands]
  rw [admissible_iff]
  show e.WellFormed ∧ e.height ≤ e.height + levels ∧ _ ↔ _
  simp [gradedChildren, graded, or_imp, forall_and]

/-- Whether `depth` levels are enough for the selections of a body, each of which
takes one from those behind it. -/
def BodyAdmissible (depth : Nat) (b : QueryBody) : Prop :=
  ∀ p ∈ b.selects.zipIdx, (Node.select p.1.2).Admissible (depth - (p.2 + 1))

theorem bodyAdmissible_select {depth : Nat} {s : Select} :
    BodyAdmissible depth (.select s) ↔ (Node.select s).Admissible (depth - 1) := by
  simp [BodyAdmissible]

theorem bodyAdmissible_setOperation {depth : Nat} {span : Span} {left : QueryBody}
    {op : SetOperator} {all : Bool} {right : Select} :
    BodyAdmissible depth (.setOperation span left op all right) ↔
      BodyAdmissible depth left ∧
      (Node.select right).Admissible (depth - (left.selects.length + 1)) := by
  simp [BodyAdmissible, List.zipIdx_append, or_imp, forall_and]

/-- The end of a query has the levels that its selections leave. -/
theorem admissible_query_iff {depth : Nat} {q : Query} :
    (Node.query q).Admissible depth ↔ (∀ o ∈ q.orderBy, o.items ≠ []) ∧
      q.body.selects.length ≤ depth ∧ BodyAdmissible depth q.body ∧
      ∀ e ∈ q.trailing, (Node.expr e).Admissible (depth - q.body.selects.length) := by
  rw [admissible_iff]
  show (∀ o ∈ q.orderBy, o.items ≠ []) ∧ q.body.selects.length ≤ depth ∧ _ ↔ _
  simp only [gradedChildren, BodyAdmissible, List.forall_mem_append, List.forall_mem_map]

/-- Whether a node takes no level and leaves all to the nodes directly below
it. -/
def isFlat : Node → Bool
  | .expr _ | .query _ => false
  | _ => true

theorem admissible_flat_iff {depth : Nat} {n : Node} (h : n.isFlat) :
    n.Admissible depth ↔ n.WellFormed ∧ ∀ c ∈ n.children, c.Admissible depth := by
  rw [admissible_iff]
  cases n <;> simp_all [isFlat, height, gradedChildren]

/-! ### Levels enough -/

/-- One bound that is enough for each entry of a list. -/
theorem exists_depth_of_forall {l : List (Nat × Node)}
    (h : ∀ p ∈ l, ∃ depth, p.2.Admissible depth) :
    ∃ depth, ∀ p ∈ l, p.2.Admissible (depth - p.1) := by
  induction l with
  | nil => exact ⟨0, nofun⟩
  | cons p l ih =>
    obtain ⟨d, hd⟩ := h p (List.mem_cons_self ..)
    obtain ⟨d', hd'⟩ := ih fun q hq => h q (List.mem_cons_of_mem _ hq)
    refine ⟨max (d + p.1) d', fun q hq => ?_⟩
    rcases List.mem_cons.1 hq with rfl | hq
    · exact hd.mono (by omega)
    · exact (hd' q hq).mono (by omega)

/-- There are levels enough for every well-formed tree. -/
theorem exists_admissible {n : Node} (h : ∀ x ∈ n.preorder, x.WellFormed) :
    ∃ depth, n.Admissible depth := by
  induction n using Node.induction with
  | step n ih =>
    have below : ∀ p ∈ n.gradedChildren, ∃ depth, p.2.Admissible depth := by
      intro p hp
      have hc := mem_children_of_mem_gradedChildren hp
      refine ih p.2 hc fun x hx => h x ?_
      rw [preorder_eq, List.mem_cons, List.mem_flatMap]
      exact .inr ⟨p.2, hc, hx⟩
    have here : n.WellFormed := h n (by rw [preorder_eq]; exact List.mem_cons_self ..)
    obtain ⟨d, hd⟩ := exists_depth_of_forall below
    exact ⟨max d n.height, .intro here (Nat.le_max_right ..) fun p hp =>
      (hd p hp).mono (Nat.sub_le_sub_right (Nat.le_max_left ..) _)⟩

end Node

/-- For every well-formed statement there are enough levels, and more do no
harm. -/
theorem Statement.WellFormed.admissible {s : Statement} (h : s.WellFormed) :
    ∃ depth, ∀ more, depth ≤ more → (Node.statement s).Admissible more := by
  obtain ⟨depth, hdepth⟩ := Node.exists_admissible h
  exact ⟨depth, fun _ hle => hdepth.mono hle⟩

end SqlSyntax
