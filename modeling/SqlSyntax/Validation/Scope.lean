import SqlSyntax.Tree.Node
import SqlSyntax.Unicode.LowerCase

/-!
# Scopes

Which names a column can be qualified with depends on where it stands. The
relations of a selection can be used in all of its clauses and in everything
nested in them, and so can the table that is updated or deleted from. What
orders and limits the result of a single selection sees the relations of that
selection; the result of a set operation has no relations of its own.

Names are compared in lower case.

## Main results

* `Place.map_node_preorder` — the places of a statement are its nodes, in the
  order of the walk.
-/

namespace SqlSyntax

open Unicode (lowerCase)

/-- The name of a relation in lower case, if it has one. -/
def Relation.scopeName? (r : Relation) : Option String := r.name?.map lowerCase

/-- The relations of a selection. -/
def Select.relations (s : Select) : List Relation :=
  match s.source with
  | none => []
  | some f => f.relations

/-- The names that a selection brings into scope. -/
def Select.scopeNames (s : Select) : List String := s.relations.filterMap Relation.scopeName?

/-- The names that a query brings into scope for what orders and limits its
result. -/
def Query.scopeNames (q : Query) : List String :=
  match q.body with
  | .select s => s.scopeNames
  | .setOperation .. => []

/-- The name of the table that a statement changes, where columns can be
qualified with it. -/
def Statement.scopeNames : Statement → List String
  | .update s => [lowerCase (s.alias?.getD s.table.base).value]
  | .delete s => [lowerCase (s.alias?.getD s.table.base).value]
  | _ => []

/-- A node and the names that columns can be qualified with where it stands. -/
structure Place where
  names : List String
  node : Node

namespace Place

/-- Nodes under the same names. -/
def under (names : List String) (nodes : List Node) : List Place := nodes.map (⟨names, ·⟩)

/-- The places directly below a place. -/
def children : Place → List Place
  | ⟨names, .statement s⟩ => under (s.scopeNames ++ names) s.children
  | ⟨names, .query q⟩ =>
    under names (q.body.selects.map (.select ·.2))
      ++ under (q.scopeNames ++ names) (q.trailing.map .expr)
  | ⟨names, .select s⟩ => under (s.scopeNames ++ names) s.children
  | ⟨names, n⟩ => under names n.children

@[simp] theorem map_node_under (names : List String) (nodes : List Node) :
    (under names nodes).map (·.node) = nodes := by
  simp [under, Function.comp_def]

theorem map_node_children (p : Place) : p.children.map (·.node) = p.node.children := by
  obtain ⟨names, n⟩ := p
  cases n <;> simp [children, Node.children]

theorem sizeOf_node_lt_of_mem_children {c p : Place} (h : c ∈ p.children) :
    sizeOf c.node < sizeOf p.node := by
  have : c.node ∈ p.children.map (·.node) := List.mem_map_of_mem h
  rw [map_node_children] at this
  exact Node.sizeOf_lt_of_mem_children this

/-- A place and all places below it, in the order of the walk. -/
def preorder (p : Place) : List Place :=
  p :: p.children.attach.flatMap fun c => preorder c.1
termination_by sizeOf p.node
decreasing_by exact sizeOf_node_lt_of_mem_children c.2

theorem preorder_eq (p : Place) : p.preorder = p :: p.children.flatMap preorder := by
  rw [preorder, List.flatMap_subtype, List.unattach_attach]
  exact fun _ _ => rfl

theorem map_node_preorder (p : Place) : p.preorder.map (·.node) = p.node.preorder := by
  rw [preorder_eq, Node.preorder_eq, List.map_cons, List.map_flatMap, ← map_node_children,
    List.flatMap_map]
  congr 1
  simp only [List.flatMap]
  congr 1
  exact List.map_congr_left fun c hc => map_node_preorder c
termination_by sizeOf p.node
decreasing_by exact sizeOf_node_lt_of_mem_children hc

end Place

/-- The places of a statement in the order of the walk. -/
def Statement.places (s : Statement) : List Place := (Place.mk [] (.statement s)).preorder

end SqlSyntax
