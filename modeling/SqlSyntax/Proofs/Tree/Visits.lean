import SqlSyntax.Proofs.Tree.Induction
import SqlSyntax.Proofs.Tree.Parts
import SqlSyntax.Tree.Visitor

/-!
# What visitors reach

The parts of a tree are given by the fields of the types that it is made of, apart
from any walk. Some of them are nodes at which a walk stops. The walk reaches all of
these, each once, and each before what is below it.

## Main results

* `Part.Lists`, `Part.ListsAll` — the nodes among the parts of a tree.
* `Part.Lists.enumerates` — they are the nodes at the places of the tree.
* `Node.lists` — they are what the walk lists.
* `Statement.visits` — what visitors that take notes have noted in the end.
-/

namespace SqlSyntax

/-! ## Nodes among parts -/

/-- The node that a part is, if a walk stops there. -/
def Part.node? : Part → Option Node
  | .expr e => some (.expr e)
  | .query q => some (.query q)
  | .select s => some (.select s)
  | .selectItem i => some (.selectItem i)
  | .relation r => some (.relation r)
  | .join j => some (.join j)
  | .column c => some (.column c)
  | _ => none

mutual

/-- `p.Lists ns`: the nodes among a part and all parts below it are `ns`, one for
each of these parts that is a node, those below a part behind it. -/
inductive Part.Lists : Part → List Node → Prop where
  | part {p : Part} {ns : List Node} (below : Part.ListsAll p.children ns) :
    Part.Lists p (p.node?.toList ++ ns)

/-- The nodes among several parts and all parts below them. -/
inductive Part.ListsAll : List Part → List Node → Prop where
  | nil : Part.ListsAll [] []
  | cons {p : Part} {ps : List Part} {ms ns : List Node} (first : Part.Lists p ms)
      (others : Part.ListsAll ps ns) : Part.ListsAll (p :: ps) (ms ++ ns)

end

namespace Part

theorem ListsAll.singleton {p : Part} {ns : List Node} (h : p.Lists ns) : ListsAll [p] ns := by
  rw [← List.append_nil ns]
  exact .cons h .nil

theorem ListsAll.append {ps qs : List Part} {ms ns : List Node} (h : ListsAll ps ms)
    (h' : ListsAll qs ns) : ListsAll (ps ++ qs) (ms ++ ns) := by
  induction ps generalizing ms with
  | nil =>
    cases h
    exact h'
  | cons p ps ih =>
    cases h with
    | cons first others =>
      rw [List.cons_append, List.append_assoc]
      exact .cons first (ih others)

theorem ListsAll.map {α : Type} {f : α → Part} {g : α → List Node} {as : List α}
    (h : ∀ a ∈ as, (f a).Lists (g a)) : ListsAll (as.map f) (as.flatMap g) := by
  induction as with
  | nil => exact .nil
  | cons a as ih =>
    exact .cons (h a (List.mem_cons_self ..)) (ih fun b hb => h b (List.mem_cons_of_mem _ hb))

theorem ListsAll.flatMap {α : Type} {f : α → List Part} {g : α → List Node} {as : List α}
    (h : ∀ a ∈ as, ListsAll (f a) (g a)) : ListsAll (as.flatMap f) (as.flatMap g) := by
  induction as with
  | nil => exact .nil
  | cons a as ih =>
    exact (h a (List.mem_cons_self ..)).append (ih fun b hb => h b (List.mem_cons_of_mem _ hb))

theorem ListsAll.option {α : Type} {f : α → Part} {g : α → List Node} {o : Option α}
    (h : ∀ a ∈ o, (f a).Lists (g a)) : ListsAll (o.toList.map f) (o.toList.flatMap g) :=
  .map fun a ha => h a (Option.mem_toList.1 ha)

/-! ### Parts without nodes -/

theorem lists_identifier (i : Identifier) : (Part.identifier i).Lists [] := .part .nil

theorem listsAll_nil {α : Type} {f : α → Part} {as : List α} (h : ∀ a ∈ as, (f a).Lists []) :
    ListsAll (as.map f) [] := by
  have lists := ListsAll.map h
  rwa [List.flatMap_eq_nil_iff.2 fun _ _ => rfl] at lists

theorem listsAll_identifiers (is : List Identifier) : ListsAll (is.map .identifier) [] :=
  listsAll_nil fun i _ => lists_identifier i

theorem lists_name (n : QualifiedName) : (Part.name n).Lists [] :=
  .part (listsAll_identifiers n.parts)

theorem listsAll_alias (label : Option Identifier) :
    ListsAll (label.toList.map .identifier) [] := listsAll_identifiers _

/-! ### Places -/

/-- What stands at a place, which is the way to it: the first number says below which
child of the part it is, and so on. -/
def at? (p : Part) : List Nat → Option Part
  | [] => some p
  | k :: place => p.children[k]?.bind fun c => c.at? place

def nodeAt? (p : Part) (place : List Nat) : Option Node := (p.at? place).bind node?

theorem nodeAt?_cons {p c : Part} {k : Nat} (h : p.children[k]? = some c) (place : List Nat) :
    p.nodeAt? (k :: place) = c.nodeAt? place := by
  rw [nodeAt?, at?, h, Option.bind_some, nodeAt?]

/-- `p.EnumeratesFrom k places ns`: `places` are the places of all nodes that are below
the children of a part from the `k`-th on, each once and each before those below it,
and `ns` are the nodes there. -/
structure EnumeratesFrom (p : Part) (k : Nat) (places : List (List Nat)) (ns : List Node) :
    Prop where
  mem_iff : ∀ place, place ∈ places ↔
    (∃ i rest, place = i :: rest ∧ k ≤ i) ∧ (p.nodeAt? place).isSome
  ordered : places.Pairwise fun place later => ¬ later <+: place
  nodes : ns = places.filterMap p.nodeAt?

/-- `p.Enumerates places ns`: the same of all nodes at and below a part. -/
structure Enumerates (p : Part) (places : List (List Nat)) (ns : List Node) : Prop where
  mem_iff : ∀ place, place ∈ places ↔ (p.nodeAt? place).isSome
  ordered : places.Pairwise fun place later => ¬ later <+: place
  nodes : ns = places.filterMap p.nodeAt?

theorem EnumeratesFrom.enumerates {p : Part} {places : List (List Nat)} {ns : List Node}
    (h : p.EnumeratesFrom 0 places ns) :
    p.Enumerates ((p.node?.toList.map fun _ => []) ++ places) (p.node?.toList ++ ns) where
  mem_iff place := by
    cases place with
    | nil => cases hp : p.node? <;> simp [h.mem_iff, nodeAt?, at?, hp]
    | cons k rest => cases p.node? <;> simp [h.mem_iff]
  ordered := by
    cases p.node? with
    | none => exact h.ordered
    | some n =>
      refine List.pairwise_cons.2 ⟨fun later hl hpre => ?_, h.ordered⟩
      obtain ⟨⟨i, rest, rfl, -⟩, -⟩ := (h.mem_iff later).1 hl
      exact List.cons_ne_nil _ _ (List.prefix_nil.1 hpre)
  nodes := by
    cases hp : p.node? <;> simp [h.nodes, nodeAt?, at?, hp]

theorem EnumeratesFrom.nil {p : Part} {k : Nat} (h : p.children.length ≤ k) :
    p.EnumeratesFrom k [] [] where
  mem_iff place := by
    constructor
    · intro hnil
      cases hnil
    · rintro ⟨⟨i, rest, rfl, hk⟩, hsome⟩
      rw [nodeAt?, at?, List.getElem?_eq_none (h.trans hk)] at hsome
      cases hsome
  ordered := .nil
  nodes := rfl

theorem EnumeratesFrom.cons {p c : Part} {k : Nat} {places others : List (List Nat)}
    {ms ns : List Node} (hc : p.children[k]? = some c) (first : c.Enumerates places ms)
    (rest : p.EnumeratesFrom (k + 1) others ns) :
    p.EnumeratesFrom k (places.map (k :: ·) ++ others) (ms ++ ns) where
  mem_iff place := by
    rw [List.mem_append, List.mem_map, rest.mem_iff]
    constructor
    · rintro (⟨below, hb, rfl⟩ | ⟨⟨i, below, rfl, hi⟩, hsome⟩)
      · refine ⟨⟨k, below, rfl, k.le_refl⟩, ?_⟩
        rw [nodeAt?_cons hc]
        exact (first.mem_iff below).1 hb
      · exact ⟨⟨i, below, rfl, by omega⟩, hsome⟩
    · rintro ⟨⟨i, below, rfl, hi⟩, hsome⟩
      rcases hi.eq_or_lt with rfl | hlt
      · rw [nodeAt?_cons hc] at hsome
        exact .inl ⟨below, (first.mem_iff below).2 hsome, rfl⟩
      · exact .inr ⟨⟨i, below, rfl, hlt⟩, hsome⟩
  ordered := by
    rw [List.pairwise_append, List.pairwise_map]
    refine ⟨first.ordered.imp fun h hpre => h ((List.cons_prefix_cons.1 hpre).2), rest.ordered, ?_⟩
    intro place hplace later hlater hpre
    obtain ⟨below, -, rfl⟩ := List.mem_map.1 hplace
    obtain ⟨⟨i, _, rfl, hi⟩, -⟩ := (rest.mem_iff later).1 hlater
    have := (List.cons_prefix_cons.1 hpre).1
    omega
  nodes := by
    rw [List.filterMap_append, List.filterMap_map, ← rest.nodes, first.nodes]
    congr 2
    exact (funext fun place => nodeAt?_cons hc place).symm

mutual

theorem Lists.enumerates {p : Part} {ns : List Node} :
    p.Lists ns → ∃ places, p.Enumerates places ns
  | .part below =>
    have ⟨_, h⟩ := ListsAll.enumeratesFrom (k := 0) below rfl
    ⟨_, h.enumerates⟩

theorem ListsAll.enumeratesFrom {p : Part} {k : Nat} {ps : List Part} {ns : List Node} :
    ListsAll ps ns → p.children.drop k = ps → ∃ places, p.EnumeratesFrom k places ns
  | .nil, h => ⟨[], .nil (List.drop_eq_nil_iff.1 h)⟩
  | .cons first others, h =>
    have hc : p.children[k]? = some _ := by rw [← List.head?_drop, h]; rfl
    have hrest : p.children.drop (k + 1) = _ := by rw [← List.tail_drop, h]; rfl
    have ⟨_, hfirst⟩ := Lists.enumerates first
    have ⟨_, hothers⟩ := ListsAll.enumeratesFrom others hrest
    ⟨_, .cons hc hfirst hothers⟩

end

end Part

/-! ## The walk -/

namespace Node

open SqlSyntax.Part

/-- The part that a node is. -/
def part : Node → Part
  | .statement s => s.part
  | .query q => .query q
  | .select s => .select s
  | .selectItem i => .selectItem i
  | .relation r => .relation r
  | .join j => .join j
  | .expr e => .expr e
  | .column c => .column c

/-- The nodes of the walk that are parts: all but the statement, which is no part of
its own. -/
def walked : Node → List Node
  | .statement s => s.children.flatMap preorder
  | n => n.preorder

theorem lists_of_children {n : Node} {p : Part} (hp : p.node? = some n)
    (h : ListsAll p.children (n.children.flatMap preorder)) : p.Lists n.preorder := by
  rw [n.preorder_eq]
  have lists := Lists.part h
  rwa [hp] at lists

/-- The selections of a body are listed from left to right. -/
theorem lists_body {b : QueryBody}
    (h : ∀ s ∈ b.selects, (Part.select s.2).Lists (Node.select s.2).preorder) :
    b.part.Lists (b.selects.flatMap fun s => (Node.select s.2).preorder) := by
  cases b with
  | select s => simpa [QueryBody.part] using h (none, s) (List.mem_singleton_self _)
  | setOperation span left op all right =>
    rw [QueryBody.selects_setOperation] at h ⊢
    rw [List.flatMap_append, List.flatMap_singleton]
    have first := lists_body fun s hs => h s (List.mem_append_left _ hs)
    have last := h (some (op, all), right) (List.mem_append_right _ (List.mem_singleton_self _))
    exact .part (.cons first (.singleton last))

/-- A statement is no node below itself: its parts list what is below it. -/
theorem lists_statement {s : Statement} (h : ∀ c ∈ s.children, c.part.Lists c.walked) :
    s.part.Lists (s.children.flatMap preorder) := by
  cases s with
  | query q =>
    rw [Statement.children, List.flatMap_singleton]
    exact h _ (List.mem_singleton_self _)
  | insert s =>
    obtain ⟨_, table, columns, source⟩ := s
    refine .part (.cons (lists_name table) ((listsAll_identifiers columns).append ?_))
    cases source with
    | values rows =>
      have values : ∀ e ∈ rows.flatten, (Part.expr e).Lists (Node.expr e).preorder :=
        fun e he => h (.expr e) (List.mem_map_of_mem he)
      show ListsAll _ ((rows.flatten.map Node.expr).flatMap preorder)
      rw [List.flatMap_map]
      exact .map values
    | query q => exact .cons (h _ (List.mem_singleton_self _)) .nil
  | update s =>
    have assigned : ∀ a ∈ s.assignments, (Part.assignment a).Lists (Node.expr a.value).preorder :=
      fun a ha => .part (.cons (lists_identifier a.column)
        (.singleton (h (.expr a.value) (List.mem_append_left _ (List.mem_map.2 ⟨a, ha, rfl⟩)))))
    have condition : ∀ e ∈ s.condition, (Part.expr e).Lists (Node.expr e).preorder := fun e he =>
      h (.expr e) (List.mem_append_right _ (List.mem_map_of_mem (Option.mem_toList.2 he)))
    have := Lists.part (p := .update s) (.cons (lists_name s.table)
      ((listsAll_alias s.alias?).append ((ListsAll.map assigned).append (.option condition))))
    simpa [Statement.part, Statement.children, node?, List.flatMap_map] using this
  | delete s =>
    have condition : ∀ e ∈ s.condition, (Part.expr e).Lists (Node.expr e).preorder := fun e he =>
      h (.expr e) (List.mem_map_of_mem (Option.mem_toList.2 he))
    have := Lists.part (p := .delete s) (.cons (lists_name s.table)
      ((listsAll_alias s.alias?).append (.option condition)))
    simpa [Statement.part, Statement.children, node?, List.flatMap_map] using this
  | createTable s =>
    have columns : ∀ c ∈ s.columns, (Part.column c).Lists (Node.column c).preorder :=
      fun c hc => h (.column c) (List.mem_map_of_mem hc)
    have constraints : ListsAll (s.constraints.map .constraint) [] :=
      listsAll_nil fun c _ => .part (listsAll_identifiers c.columns)
    have := Lists.part (p := .createTable s)
      (.cons (lists_name s.name) ((ListsAll.map columns).append constraints))
    simpa [Statement.part, Statement.children, node?, List.flatMap_map] using this
  | createIndex s =>
    exact .part (.cons (lists_identifier _) (.cons (lists_name _) (listsAll_identifiers _)))
  | createDatabase s => exact .part (.singleton (lists_identifier _))
  | alterTable s =>
    obtain ⟨_, name, alteration⟩ := s
    refine .part (.cons (lists_name name) ?_)
    cases alteration with
    | addColumn c => exact .cons (h _ (List.mem_singleton_self _)) .nil
    | dropColumn i => exact listsAll_identifiers [i]
    | renameTable i => exact listsAll_identifiers [i]
    | renameColumn old new => exact listsAll_identifiers [old, new]
  | drop s => exact .part (.singleton (lists_name _))

/-- The walk lists the nodes among the parts of a tree. -/
theorem lists (n : Node) : n.part.Lists n.walked := by
  induction n using Node.formInduction with
  | column s n => exact lists_of_children rfl (.cons (lists_name n) .nil)
  | literal s v => exact lists_of_children rfl .nil
  | unary s op e ih => exact lists_of_children rfl (.cons ih .nil)
  | binary s op l r ihl ihr => exact lists_of_children rfl (.cons ihl (.cons ihr .nil))
  | is s e negated test ih => exact lists_of_children rfl (.cons ih .nil)
  | inList s e negated items ih ihi =>
    refine lists_of_children rfl ?_
    have := ListsAll.cons ih (.map ihi)
    simpa [part, walked, children, Part.children, ExprForm.parts, Expr.operands, Expr.query?,
      List.flatMap_map] using this
  | inQuery s e negated q ihe ihq => exact lists_of_children rfl (.cons ihe (.cons ihq .nil))
  | between s e negated low high ihe ihl ihh =>
    exact lists_of_children rfl (.cons ihe (.cons ihl (.cons ihh .nil)))
  | like s e negated pattern ihe ihp => exact lists_of_children rfl (.cons ihe (.cons ihp .nil))
  | call s n distinct arguments ih =>
    refine lists_of_children rfl ?_
    have := ListsAll.cons (lists_name n) (.map ih)
    simpa [part, walked, children, Part.children, ExprForm.parts, Expr.operands, Expr.query?,
      List.flatMap_map] using this
  | case s operand branches otherwise iho ihb ihe =>
    refine lists_of_children rfl ?_
    have branch : ∀ b ∈ branches, (Part.branch b).Lists
        ([Node.expr b.condition, .expr b.result].flatMap preorder) := fun b hb =>
      .part (.cons (ihb b hb).1 (.cons (ihb b hb).2 .nil))
    have := (ListsAll.option iho).append ((ListsAll.map branch).append (.option ihe))
    simpa [part, walked, children, Part.children, ExprForm.parts, Expr.operands, Expr.query?,
      List.flatMap_map, List.flatMap_assoc] using this
  | cast s e type ih => exact lists_of_children rfl (.cons ih .nil)
  | existsQuery s q ih => exact lists_of_children rfl (.cons ih .nil)
  | subquery s q ih => exact lists_of_children rfl (.cons ih .nil)
  | nested s e ih => exact lists_of_children rfl (.cons ih .nil)
  | query q ihs iho ihl =>
    obtain ⟨_, body, orderBy, limit⟩ := q
    have ordered : ∀ o ∈ orderBy, (Part.orderBy o).Lists
        (o.items.flatMap fun i => (Node.expr i.expr).preorder) := fun o ho =>
      .part (.map fun i hi => .part (.singleton (iho o ho i hi)))
    have limited : ∀ l ∈ limit, (Part.limit l).Lists
        ((Node.expr l.count).preorder ++ l.offset.toList.flatMap fun e => (Node.expr e).preorder) :=
      fun l hl => .part (.cons (ihl l hl).1 (.option (ihl l hl).2))
    refine lists_of_children rfl ?_
    have := ListsAll.cons (lists_body ihs) ((ListsAll.option ordered).append (.option limited))
    cases orderBy <;> cases limit <;>
      simpa [part, walked, children, Part.children, Query.trailing, List.flatMap_map] using this
  | select s ihi iht ihc ihg ihh =>
    obtain ⟨_, _, projection, source, condition, groupBy, having⟩ := s
    have sources : ∀ f ∈ source, (Part.source f).Lists (f.tables.flatMap fun t =>
        (Node.relation t.relation).preorder ++ t.joins.flatMap fun j => (Node.join j).preorder) :=
      fun f hf => .part (.map fun t ht => .part (.cons (iht f hf t ht).1 (.map (iht f hf t ht).2)))
    have grouped : ∀ g ∈ groupBy, (Part.groupBy g).Lists
        (g.keys.flatMap fun e => (Node.expr e).preorder) := fun g hg => .part (.map (ihg g hg))
    refine lists_of_children rfl ?_
    have := (ListsAll.map ihi).append ((ListsAll.option sources).append
      ((ListsAll.option ihc).append ((ListsAll.option grouped).append (.option ihh))))
    cases source <;> cases groupBy <;>
      simpa [part, walked, children, Part.children, Select.children, List.flatMap_map,
        List.flatMap_assoc] using this
  | wildcard s => exact lists_of_children rfl .nil
  | qualifiedWildcard s n => exact lists_of_children rfl (.cons (lists_name n) .nil)
  | selected s e label ih =>
    exact lists_of_children rfl (.cons ih (listsAll_alias label))
  | table s n label => exact lists_of_children rfl (.cons (lists_name n) (listsAll_alias label))
  | derived s q label ih => exact lists_of_children rfl (.cons ih (listsAll_alias label))
  | join s kind relation condition ihr ihc =>
    cases condition with
    | on e => exact lists_of_children rfl (.cons ihr (.cons (ihc e rfl) .nil))
    | shared columns => exact lists_of_children rfl (.cons ihr (listsAll_identifiers columns))
    | none => exact lists_of_children rfl (.cons ihr .nil)
  | columnDefinition c ih =>
    refine lists_of_children rfl ?_
    have default : ∀ o ∈ c.options, ListsAll o.parts
        (o.default?.toList.flatMap fun e => (Node.expr e).preorder) := fun o ho =>
      .option fun e he => ih e (by cases o <;> simp_all [ColumnOption.default?])
    have := ListsAll.cons (lists_identifier c.name) (.flatMap default)
    simpa [part, walked, children, Part.children, List.flatMap_map,
      List.filterMap_eq_flatMap_toList, List.flatMap_assoc] using this
  | statement s ih => exact lists_statement ih

end Node

/-- The visitor that notes every node down has in the end noted the statement and then
the nodes at certain places: at all places where there is a node, each of them once,
and none after one that is below it. The visitor that has a method for expressions
only has noted those of these nodes that are expressions, in the same order. -/
theorem Statement.visits (s : Statement) : ∃ places : List (List Nat),
    (∀ place, place ∈ places ↔ (s.part.nodeAt? place).isSome) ∧
    places.Pairwise (fun place later => ¬ later <+: place) ∧
    Visitor.everyNode.run (.statement s) [] =
      .statement s :: places.filterMap s.part.nodeAt? ∧
    Visitor.everyExpr.run (.statement s) [] =
      (Visitor.everyNode.run (.statement s) []).filterMap Node.expr? := by
  obtain ⟨places, h⟩ := (Node.lists (.statement s)).enumerates
  refine ⟨places, h.mem_iff, h.ordered, ?_, ?_⟩
  · have walked : s.children.flatMap Node.preorder = places.filterMap s.part.nodeAt? := h.nodes
    rw [Visitor.run_everyNode, List.nil_append, Node.preorder_eq]
    exact congrArg _ walked
  · rw [Visitor.run_everyExpr, Visitor.run_everyNode]
    rfl

end SqlSyntax
