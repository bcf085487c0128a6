import SqlSyntax.Parser.Name
import SqlSyntax.Proofs.Tree.Precedence
import SqlSyntax.Token.Lexeme

/-!
# Well-formed trees

The types of the tree allow more than the syntax does: an empty list where the
syntax wants one element at least, a condition on a cross join, operands that
precedence would place elsewhere. `Node.WellFormed` names these conditions, for
one node at a time, and a statement is well formed when all its nodes are.
-/

namespace SqlSyntax

/-! ## Leaves -/

/-- Whether a text is a single number for the lexer. -/
def IsNumber (text : String) : Prop :=
  match text.toList with
  | [] => False
  | c :: r => Lexeme.scan c r = .ok (.number, r.length)

def Literal.WellFormed : Literal → Prop
  | .number text => IsNumber text
  | _ => True

/-- Whether the lengths of a data type are in the range of lengths. -/
def DataType.WellFormed : DataType → Prop
  | .decimalOf precision scale =>
    precision ≤ Parser.maxLength ∧ ∀ n ∈ scale, n ≤ Parser.maxLength
  | .char length | .varchar length => ∀ n ∈ length, n ≤ Parser.maxLength
  | _ => True

/-! ## Nodes -/

/-- The conditions on an expression itself. -/
def Expr.WellFormed (e : Expr) : Prop :=
  e.OperandsFit Above ∧
    match e with
    | ⟨_, .literal v⟩ => v.WellFormed
    | ⟨_, .inList _ _ items⟩ => items ≠ []
    | ⟨_, .call _ distinct arguments⟩ => distinct → arguments.items ≠ []
    | ⟨_, .case _ branches _⟩ => branches ≠ []
    | ⟨_, .cast _ type⟩ => type.WellFormed
    | _ => True

def TableConstraint.columns : TableConstraint → List Identifier
  | .primaryKey _ columns | .unique _ columns => columns

/-- The conditions on a statement itself. -/
def Statement.Complete : Statement → Prop
  | .insert ⟨_, _, _, .values rows⟩ => rows ≠ [] ∧ ∀ row ∈ rows, row ≠ []
  | .update s => s.assignments ≠ []
  | .createTable s =>
    (s.columns = [] → s.constraints ≠ []) ∧ ∀ c ∈ s.constraints, c.columns ≠ []
  | .createIndex s => s.columns ≠ []
  | _ => True

/-- The conditions on a join itself. -/
def Join.WellFormed (j : Join) : Prop :=
  (j.kind = .cross → j.condition = .none) ∧ ∀ columns, j.condition = .shared columns → columns ≠ []

/-- The conditions of the syntax on one node. -/
def Node.WellFormed : Node → Prop
  | .statement s => s.Complete
  | .query q => ∀ o ∈ q.orderBy, o.items ≠ []
  | .select s =>
    s.projection ≠ [] ∧ (∀ f ∈ s.source, f.tables ≠ []) ∧ ∀ g ∈ s.groupBy, g.keys ≠ []
  | .selectItem _ | .relation _ => True
  | .join j => j.WellFormed
  | .expr e => e.WellFormed
  | .column c => c.type.WellFormed

/-- Every expression of a well-formed tree respects precedence. -/
theorem Node.respectsLevels {n : Node} (h : ∀ x ∈ n.preorder, x.WellFormed) :
    ∀ e ∈ n.expressions, e.RespectsLevels := by
  intro e he
  have node : Node.expr e ∈ n.preorder := by
    obtain ⟨x, hx, hxe⟩ := List.mem_filterMap.1 he
    cases x <;> cases hxe
    exact hx
  exact (h _ node).1.imp fun _ _ above => above.lt_level

/-- A statement is well formed when all its nodes are. -/
def Statement.WellFormed (s : Statement) : Prop := ∀ n ∈ s.nodes, n.WellFormed

end SqlSyntax
