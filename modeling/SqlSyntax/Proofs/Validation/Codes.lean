import Mathlib.Data.List.Basic
import SqlSyntax.Validation.Rules

/-!
# Warnings by code

Each rule looks at nodes of one sort and warns under its own code, so that the
warnings of a statement under a code come from the nodes of one sort.

## Main results

* `Place.code_mem` — the codes that there can be at a node.
* `Select.filter_code` — the warnings about a selection as a whole, by code.
* `Statement.reports_perm` — the warnings of a statement under a code.
-/

namespace SqlSyntax

/-- The warnings of a statement that have a code. -/
def Statement.reports (s : Statement) (code : WarningCode) : List Warning :=
  s.warnings.filter fun w => w.code = code

/-- The codes of what there can be to warn about at a node, apart from what is below
it. -/
def Node.codes : Node → List WarningCode
  | .statement _ =>
    [.insertArityMismatch, .missingWhere, .duplicateColumn, .multiplePrimaryKeys]
  | .select _ => [.duplicateAlias]
  | .selectItem _ => [.unknownQualifier]
  | .join _ => [.joinWithoutCondition, .aggregateInWhere]
  | .expr _ => [.unknownQualifier, .subqueryColumnCount]
  | .query _ | .relation _ | .column _ => []

section Places

variable {w : Warning}

theorem Insert.code_of_mem {s : Insert} (h : w ∈ s.warnings) : w.code = .insertArityMismatch := by
  unfold warnings at h
  split at h
  · cases h
  · split at h
    · cases h
    · obtain ⟨row, -, rfl⟩ := List.mem_map.1 h
      rfl

theorem code_of_mem_missingWhere {verb : Keyword} {condition : Option Expr} {span : Span}
    (h : w ∈ missingWhere verb condition span) : w.code = .missingWhere := by
  unfold missingWhere at h
  split at h
  · cases h
  · rw [List.mem_singleton.1 h]
    rfl

theorem CreateTable.code_of_mem {s : CreateTable} (h : w ∈ s.warnings) :
    w.code = .duplicateColumn ∨ w.code = .multiplePrimaryKeys := by
  rcases List.mem_append.1 h with h | h
  · obtain ⟨c, -, rfl⟩ := List.mem_map.1 h
    exact .inl rfl
  · obtain ⟨span, -, rfl⟩ := List.mem_map.1 h
    exact .inr rfl

theorem Join.code_of_mem {j : Join} (h : w ∈ j.warnings) :
    w.code = .joinWithoutCondition ∨ w.code = .aggregateInWhere := by
  unfold warnings at h
  split at h
  · split at h
    · cases h
    · rw [List.mem_singleton.1 h]
      exact .inl rfl
  · obtain ⟨a, -, rfl⟩ := List.mem_map.1 h
    exact .inr rfl
  · cases h

theorem code_of_mem_unknownQualifier {names : List String} {qualifier : Identifier}
    (h : w ∈ unknownQualifier names qualifier) : w.code = .unknownQualifier := by
  unfold unknownQualifier at h
  split at h
  · cases h
  · rw [List.mem_singleton.1 h]
    rfl

theorem Query.code_of_mem_widthWarnings {q : Query} (h : w ∈ q.widthWarnings) :
    w.code = .subqueryColumnCount := by
  unfold widthWarnings at h
  split at h
  · rw [List.mem_singleton.1 h]
    rfl
  · cases h

/-- The codes that there can be at a node. -/
theorem Place.code_mem {p : Place} (h : w ∈ p.warnings) : w.code ∈ p.node.codes := by
  obtain ⟨names, n⟩ := p
  cases n with
  | statement s =>
    cases s with
    | insert s => simp [Node.codes, Insert.code_of_mem h]
    | update s | delete s => simp [Node.codes, code_of_mem_missingWhere h]
    | createTable s => rcases CreateTable.code_of_mem h with code | code <;> simp [Node.codes, code]
    | _ => cases h
  | select s =>
    obtain ⟨r, -, rfl⟩ := List.mem_map.1 h
    exact List.mem_singleton_self _
  | selectItem i =>
    cases i with
    | qualifiedWildcard => simp [Node.codes, code_of_mem_unknownQualifier h]
    | _ => cases h
  | join j => rcases j.code_of_mem h with code | code <;> simp [Node.codes, code]
  | expr e =>
    obtain ⟨span, form⟩ := e
    cases form with
    | column name =>
      simp only [warnings] at h
      split at h
      · cases h
      · simp [Node.codes, code_of_mem_unknownQualifier h]
    | subquery q | inQuery _ _ q => simp [Node.codes, q.code_of_mem_widthWarnings h]
    | _ => cases h
  | _ => cases h

end Places

theorem Place.filter_code {p : Place} {code : WarningCode} (h : code ∉ p.node.codes) :
    p.warnings.filter (fun w => w.code = code) = [] :=
  List.filter_eq_nil_iff.2 fun _ hw same => h (of_decide_eq_true same ▸ code_mem hw)

/-! ## Selections -/

/-- The warnings about a selection as a whole that have a code. -/
def Select.reports (s : Select) : WarningCode → List Warning
  | .duplicateAlias => s.aliasWarnings
  | .aggregateInWhere => s.conditionWarnings
  | .havingWithoutGrouping => s.havingWarnings
  | .wildcardInAggregate => if s.isGrouped then s.wildcardWarnings else []
  | .ungroupedColumn => if s.isGrouped then s.ungroupedWarnings else []
  | _ => []

/-- Warnings that are all of one code. -/
theorem filter_of_code {ws : List Warning} {own : WarningCode} (h : ∀ w ∈ ws, w.code = own)
    (code : WarningCode) :
    ws.filter (fun w => w.code = code) = if own = code then ws else [] := by
  split
  · exact List.filter_eq_self.2 fun w hw => decide_eq_true ((h w hw).trans ‹_›)
  · exact List.filter_eq_nil_iff.2 fun w hw same =>
      ‹¬ _› ((h w hw).symm.trans (of_decide_eq_true same))

theorem Select.filter_code (s : Select) (code : WarningCode) :
    s.warnings.filter (fun w => w.code = code) = s.reports code := by
  have aliases : ∀ w ∈ s.aliasWarnings, w.code = .duplicateAlias :=
    List.forall_mem_map.2 fun _ _ => rfl
  have condition : ∀ w ∈ s.conditionWarnings, w.code = .aggregateInWhere :=
    List.forall_mem_map.2 fun _ _ => rfl
  have wildcards : ∀ w ∈ s.wildcardWarnings, w.code = .wildcardInAggregate :=
    List.forall_mem_map.2 fun _ _ => rfl
  have ungrouped : ∀ w ∈ s.ungroupedWarnings, w.code = .ungroupedColumn :=
    List.forall_mem_map.2 fun _ _ => rfl
  have having : ∀ w ∈ s.havingWarnings, w.code = .havingWithoutGrouping := by
    unfold havingWarnings
    split
    · exact List.forall_mem_singleton.2 rfl
    · exact nofun
  have grouped : (if s.isGrouped then s.wildcardWarnings ++ s.ungroupedWarnings else []).filter
      (fun w => w.code = code) = if s.isGrouped then
        (if .wildcardInAggregate = code then s.wildcardWarnings else []) ++
          if .ungroupedColumn = code then s.ungroupedWarnings else [] else [] := by
    split
    · rw [List.filter_append, filter_of_code wildcards, filter_of_code ungrouped]
    · rfl
  rw [warnings, List.filter_append, List.filter_append, List.filter_append, grouped,
    filter_of_code aliases, filter_of_code condition, filter_of_code having]
  cases code <;> simp [reports]

/-! ## Statements -/

/-- The places of a statement are its own, where nothing can be qualified, and those
of the nodes below it. -/
theorem Statement.exists_places (s : Statement) :
    ∃ below, s.places = ⟨[], .statement s⟩ :: below ∧
      below.map Place.node = s.children.flatMap Node.preorder := by
  refine ⟨_, Place.preorder_eq _, ?_⟩
  have nodes := Place.map_node_preorder ⟨[], .statement s⟩
  rw [Place.preorder_eq, List.map_cons, Node.preorder_eq] at nodes
  exact (List.cons.inj nodes).2

/-- The warnings of a statement under a code are those at its nodes and those about its
selections. -/
theorem Statement.reports_perm (s : Statement) (code : WarningCode) :
    (s.reports code).Perm (s.places.flatMap (fun p => p.warnings.filter fun w => w.code = code) ++
      s.places.flatMap fun p => p.node.select?.toList.flatMap fun t => t.reports code) := by
  have nodes : s.nodes = s.places.map Place.node :=
    (Place.map_node_preorder ⟨[], .statement s⟩).symm
  refine ((List.mergeSort_perm ..).filter _).trans (.of_eq ?_)
  rw [List.filter_append, List.filter_flatMap, List.filter_flatMap,
    List.filterMap_eq_flatMap_toList, List.flatMap_assoc, nodes, List.flatMap_map]
  simp only [Select.filter_code]

end SqlSyntax
