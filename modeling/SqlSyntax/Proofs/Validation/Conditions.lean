import Mathlib.Data.List.Perm.Basic
import SqlSyntax.Parser.Statement
import SqlSyntax.Proofs.Tree.Induction
import SqlSyntax.Proofs.Validation.Codes
import SqlSyntax.Proofs.Validation.Searches

/-!
# Aggregates in conditions

An aggregate has no value for a single row, so it cannot stand in a condition that
rows are to meet: behind `WHERE`, or behind `ON` in a join. An aggregate in the argument
of another one is not counted by itself, and the queries in a condition have conditions
of their own.

The rules look at selections and at joins, and not at what `UPDATE` and `DELETE` have
behind `WHERE`.

## Main results

* `Node.misplacedAggregates` — the aggregates in the condition at a node.
* `Statement.reports_aggregateInWhere_perm` — those below a statement are warned about,
  each once.
* `unreported_aggregate_of_delete` — those of the statement itself are missed.
-/

namespace SqlSyntax

/-- The condition that rows are to meet at a node, with what there is to find about an
aggregate in it. -/
def Node.rowCondition? : Node → Option (Expr × (QualifiedName → Finding))
  | .statement (.update s) => s.condition.map (·, .aggregateInWhere)
  | .statement (.delete s) => s.condition.map (·, .aggregateInWhere)
  | .select s => s.condition.map (·, .aggregateInWhere)
  | .join ⟨_, _, _, .on e⟩ => some (e, .aggregateInJoin)
  | _ => none

/-- Warnings about the aggregates in the condition at a node. -/
def Node.misplacedAggregates (n : Node) : List Warning :=
  n.rowCondition?.toList.flatMap fun (e, finding) =>
    e.outermostAggregates.map fun (function, span) => ⟨finding function, span⟩

namespace Select

theorem conditionWarnings_eq (s : Select) :
    s.conditionWarnings = (Node.select s).misplacedAggregates := by
  rw [conditionWarnings, Node.misplacedAggregates, Node.rowCondition?]
  cases s.condition with
  | none => rfl
  | some e => simp [Expr.aggregates_eq_outermost]

end Select

theorem Join.filter_code (j : Join) :
    j.warnings.filter (fun w => w.code = .aggregateInWhere) =
      (Node.join j).misplacedAggregates := by
  obtain ⟨span, kind, relation, condition⟩ := j
  cases condition with
  | on e =>
    have found : ∀ w ∈ (Join.mk span kind relation (.on e)).warnings,
        w.code = .aggregateInWhere := List.forall_mem_map.2 fun _ _ => rfl
    rw [filter_of_code found, if_pos rfl]
    simp [warnings, Node.misplacedAggregates, Node.rowCondition?, Expr.aggregates_eq_outermost]
  | shared => rfl
  | none =>
    simp only [warnings]
    split <;> rfl

/-- Below the statement itself, aggregates in conditions are found at joins by what
looks at places, and at selections by what looks at these. -/
theorem Node.misplacedAggregates_of_ne {p : Place} (h : ∀ s, p.node ≠ .statement s) :
    p.warnings.filter (fun w => w.code = .aggregateInWhere) ++
      (p.node.select?.toList.flatMap fun s => s.reports .aggregateInWhere) =
        p.node.misplacedAggregates := by
  obtain ⟨names, n⟩ := p
  cases n with
  | statement s => exact absurd rfl (h s)
  | select s =>
    rw [Place.filter_code (by simp [codes])]
    simp [select?, Select.reports, Select.conditionWarnings_eq]
  | join j => simp [select?, Place.warnings, Join.filter_code]
  | _ =>
    rw [Place.filter_code (by simp [codes])]
    rfl

/-- Aggregates in the conditions below a statement are warned about, each once, and
nothing else is warned about in this way. -/
theorem Statement.reports_aggregateInWhere_perm (s : Statement) :
    (s.reports .aggregateInWhere).Perm
      ((s.children.flatMap Node.preorder).flatMap Node.misplacedAggregates) := by
  obtain ⟨below, places, nodes⟩ := s.exists_places
  have own : (Place.mk [] (.statement s)).warnings.filter
      (fun w => w.code = .aggregateInWhere) = [] := Place.filter_code (by simp [Node.codes])
  have lower (p : Place) (hp : p ∈ below) (t : Statement) : p.node ≠ .statement t := by
    have mem : p.node ∈ (Node.statement s).children.flatMap Node.preorder :=
      nodes ▸ List.mem_map_of_mem hp
    exact Node.ne_statement_of_mem_below mem t
  refine (s.reports_perm .aggregateInWhere).trans ?_
  refine (List.flatMap_append_perm ..).trans (.of_eq ?_)
  rw [places, List.flatMap_cons, own, ← nodes, List.flatMap_map]
  exact List.flatMap_congr fun p hp => Node.misplacedAggregates_of_ne (lower p hp)

/-- What belongs to the statement itself is missed. -/
theorem unreported_aggregate_of_delete :
    ∃ s, parseStatement {} "DELETE FROM t WHERE COUNT(*) > 1" = .ok s ∧
      ¬ (s.reports .aggregateInWhere).Perm (s.nodes.flatMap Node.misplacedAggregates) := by
  have missed : (match parseStatement {} "DELETE FROM t WHERE COUNT(*) > 1" with
      | .ok s => decide
        ¬ (s.reports .aggregateInWhere).Perm (s.nodes.flatMap Node.misplacedAggregates)
      | .error _ => false) = true := by decide +kernel
  cases h : parseStatement {} "DELETE FROM t WHERE COUNT(*) > 1" with
  | error => simp [h] at missed
  | ok s =>
    rw [h] at missed
    exact ⟨s, rfl, of_decide_eq_true missed⟩

end SqlSyntax
