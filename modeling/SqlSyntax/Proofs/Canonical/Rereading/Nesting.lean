import SqlSyntax.Proofs.Canonical.Rereading.Statement
import SqlSyntax.Proofs.Tree.Levels

/-!
# Reading canonical trees again

A tree is read again by induction over its nodes. Infix operators are printed
around the expression that they are folded onto and read after it, so the
induction says of an expression how what comes behind it is folded on, and of
the selections of a query how what comes behind them is combined with them.

## Main results

* `Node.rereads` — an admissible tree is read again with as many levels.
-/

namespace SqlSyntax

open Grammar

/-! ## Expressions -/

namespace Expr

/-- Whether an expression is read again, with whatever is folded onto it. -/
def Refolds (e : Expr) : Prop :=
  ∀ ⦃levels level : Nat⦄ ⦃ts : List Token⦄, (Node.expr e).Admissible (e.height + levels) →
    e.Above level → Spelled e.pieces ts → ∃ e', e'.mapSpans .erase = e.mapSpans .erase ∧
      ∀ vs f, folds False levels level e' vs f → exprs False (e.height + levels) level (ts ++ vs) f

theorem Refolds.rereads {e : Expr} (h : e.Refolds) {depth level : Nat}
    (admissible : (Node.expr e).Admissible depth) (above : e.Above level) :
    (phrases False depth).RereadsExpr level e := by
  intro ts spelled
  obtain ⟨levels, rfl⟩ := Nat.exists_eq_add_of_le (Node.admissible_iff.1 admissible).2.1
  obtain ⟨e', same, folded⟩ := h admissible above spelled
  have reading := folded [] e' (folds_nil ..)
  rw [List.append_nil] at reading
  exact ⟨e', reading, same⟩

theorem Refolds.rereadsWhole {e : Expr} (h : e.Refolds) {depth : Nat}
    (admissible : (Node.expr e).Admissible depth) : (phrases False depth).RereadsExpr 0 e :=
  h.rereads admissible e.above_zero

/-- An expression that is not infix is read again as an operand. -/
theorem refolds_of_operand {e : Expr} (hlevel : e.level? = none)
    (h : ∀ depth, e.WellFormed → (∀ x ∈ e.operands, (Node.expr x).Admissible depth) →
      (∀ q ∈ e.query?, (Node.query q).Admissible depth) →
      Rereads (IsOperand (phrases False depth)) (mapSpans .erase) e.pieces e) : e.Refolds := by
  intro levels level ts admissible above spelled
  have height : e.height = 1 := by rw [height, (leftLevels_eq_nil_iff e).2 hlevel]; rfl
  rw [height, Nat.add_comm] at admissible ⊢
  obtain ⟨here, operands, query⟩ := (Node.admissible_operand_iff hlevel).1 admissible
  obtain ⟨o, operand, same⟩ := h levels here operands query spelled
  exact ⟨o, same, fun vs f fold => ⟨ts, vs, o, rfl, operand, fold⟩⟩

/-- An infix expression is read again by folding its operator, with what stands
behind it, onto its left operand. -/
theorem refolds_of_infix {e l : Expr} {others : List Expr} {qs : List Piece}
    (op : InfixOperator) (hlevels : e.leftLevels = op.level :: l.leftLevels)
    (hoperands : e.operands = l :: others) (hpieces : e.pieces = l.pieces ++ .space :: qs)
    (hl : l.Refolds) (hfits : e.WellFormed → l.FitsLeft op.level)
    (h : ∀ {levels : Nat} {l' : Expr}, mapSpans .erase l' = mapSpans .erase l → e.WellFormed →
      (∀ x ∈ others, (Node.expr x).Admissible levels) →
      (∀ q ∈ e.query?, (Node.query q).Admissible levels) →
      Rereads (IsFold (phrases False levels) l' op) (mapSpans .erase) qs e) : e.Refolds := by
  intro levels level ts admissible above spelled
  have hlevel : e.level? = some op.level := by rw [← leftLevels_head?, hlevels]; rfl
  obtain ⟨here, left, others, query⟩ := (Node.admissible_infix_iff hlevel hoperands).1 admissible
  have height : e.height + levels = l.height + (levels + 1) := by
    rw [Expr.height, hlevels, List.length_cons, Expr.height]
    omega
  rw [Above, hlevels, List.forall_mem_cons] at above
  rw [hpieces] at spelled
  obtain ⟨us, ws, rfl, first, spelled⟩ := Spelled.append_iff.1 spelled
  rw [height] at left ⊢
  obtain ⟨l', same, folded⟩ := hl left above.2 first
  obtain ⟨e', fold, same'⟩ := h same here others query (Spelled.space_iff.1 spelled)
  have isOpen : op.level ≤ l'.openLevel := by
    have bound : op.level ≤ signLevel :=
      Nat.le_of_lt (e.leftLevels_lt_signLevel _ (hlevels ▸ List.mem_cons_self ..))
    have respects : ∀ x ∈ l.expressions, x.RespectsLevels := fun x hx =>
      Node.respectsLevels left.wellFormed x (by
        rwa [Node.expressions_eq_directExpressions])
    rw [← openLevel_mapSpans .erase, same, openLevel_mapSpans]
    exact le_openLevel_of_fitsLeft bound respects (hfits here)
  refine ⟨e', same', fun vs f rest => ?_⟩
  rw [List.append_assoc]
  exact folded _ _ (.inr ⟨op, ws, vs, e', rfl, above.1, isOpen, fold, rest⟩)

end Expr

/-! ## Nodes -/

/-- Whether a node is read again, with the levels that it is admissible with. -/
def Node.Rereads : Node → Prop
  | .statement s => ∀ {depth}, (Node.statement s).Admissible depth →
    SqlSyntax.Rereads (IsStatement (phrases False depth)) (Statement.mapSpans .erase) s.pieces s
  | .query q => ∀ {depth}, (Node.query q).Admissible depth → (phrases False depth).RereadsQuery q
  | .select s => ∀ {depth}, (Node.select s).Admissible depth →
    SqlSyntax.Rereads (IsSelect (phrases False depth)) (Select.mapSpans .erase) s.pieces s
  | .selectItem i => ∀ {depth}, (Node.selectItem i).Admissible depth →
    SqlSyntax.Rereads (IsSelectItem (phrases False depth)) (SelectItem.mapSpans .erase) i.pieces i
  | .relation r => ∀ {depth}, (Node.relation r).Admissible depth →
    SqlSyntax.Rereads (IsRelation (phrases False depth)) (Relation.mapSpans .erase) r.pieces r
  | .join j => ∀ {depth}, (Node.join j).Admissible depth →
    SqlSyntax.Rereads (IsJoin (phrases False depth)) (Join.mapSpans .erase) j.pieces j
  | .expr e => e.Refolds
  | .column c => ∀ {depth}, (Node.column c).Admissible depth →
    SqlSyntax.Rereads (IsColumnDefinition (phrases False depth)) (ColumnDefinition.mapSpans .erase)
      c.pieces c

/-! ### Queries -/

/-- The selections of a query are read again, with whatever is combined with
them. -/
theorem QueryBody.recombines {levels : Nat} : ∀ {b : QueryBody} {ts : List Token},
    (∀ s ∈ b.selects, (Node.select s.2).Rereads) →
    Node.BodyAdmissible (b.selects.length + levels) b → Spelled b.pieces ts →
    ∃ b', b'.mapSpans .erase = b.mapSpans .erase ∧ ∀ vs q, combines False levels ts b' vs q →
      queries False (b.selects.length + levels) (ts ++ vs) q
  | .select s, ts, h, admissible, spelled => by
    rw [selects_select, List.length_singleton, Nat.add_comm] at admissible ⊢
    have select := Node.bodyAdmissible_select.1 admissible
    obtain ⟨s', reading, same⟩ := h (none, s) (List.mem_singleton_self _) select spelled
    exact ⟨.select s', congrArg QueryBody.select same, fun vs q rest =>
      ⟨ts, vs, s', rfl, reading, rest⟩⟩
  | .setOperation span left op all right, ts, h, admissible, spelled => by
    simp only [pieces, List.append_assoc] at spelled
    obtain ⟨us, vs, rfl, first, spelled⟩ := Spelled.append_iff.1 spelled
    obtain ⟨t, ws, rfl, kind, spelled⟩ := Spelled.keyword_iff.1 (Spelled.space_iff.1 spelled)
    obtain ⟨as, ss, rfl, mark, second⟩ :
        ∃ as ss, ws = as ++ ss ∧ Flag .ALL as all ∧ Spelled right.pieces ss := by
      cases all with
      | false => exact ⟨[], ws, rfl, .absent, Spelled.space_iff.1 spelled⟩
      | true =>
        obtain ⟨u, ss, rfl, kind, spelled⟩ := Spelled.keyword_iff.1 (Spelled.space_iff.1 spelled)
        exact ⟨[u], ss, rfl, .present kind, Spelled.space_iff.1 spelled⟩
    have height : (setOperation span left op all right).selects.length + levels =
        left.selects.length + (levels + 1) := by
      rw [selects_setOperation, List.length_append, List.length_singleton]
      omega
    rw [height] at admissible ⊢
    rw [selects_setOperation, List.forall_mem_append] at h
    obtain ⟨before, select⟩ := Node.bodyAdmissible_setOperation.1 admissible
    rw [show left.selects.length + (levels + 1) - (left.selects.length + 1) = levels by omega]
      at select
    obtain ⟨left', same, combined⟩ := recombines h.1 before first
    obtain ⟨right', reading, same'⟩ := h.2 _ (List.mem_singleton_self _) select second
    refine ⟨.setOperation (left'.span.union right'.span) left' op all right', ?_, fun vs q rest => ?_⟩
    · simp [mapSpans, same, same']
    · rw [List.append_assoc]
      exact combined _ _ (.inr ⟨op, _, vs, _, rfl, .intro kind mark reading, rest⟩)

theorem Query.rereads {q : Query} {depth : Nat} (admissible : (Node.query q).Admissible depth)
    (selects : ∀ s ∈ q.body.selects, (Node.select s.2).Rereads)
    (ordered : ∀ o ∈ q.orderBy, ∀ i ∈ o.items, i.expr.Refolds)
    (limited : ∀ l ∈ q.limit, l.count.Refolds ∧ ∀ e ∈ l.offset, e.Refolds) :
    (phrases False depth).RereadsQuery q := by
  obtain ⟨items, hle, body, trailing⟩ := Node.admissible_query_iff.1 admissible
  obtain ⟨levels, rfl⟩ := Nat.exists_eq_add_of_le hle
  rw [Nat.add_sub_cancel_left, Query.forall_trailing] at trailing
  intro ts spelled
  rw [Query.pieces_eq, List.append_assoc] at spelled
  obtain ⟨us, vs, rfl, selected, spelled⟩ := Spelled.append_iff.1 spelled
  obtain ⟨os, ls, rfl, orders, limits⟩ := Spelled.append_iff.1 spelled
  obtain ⟨body', same, combined⟩ := QueryBody.recombines selects body selected
  obtain ⟨orderBy', orderBy, same₁⟩ := Rereads.optional (fun o ho => OrderBy.rereads (items o ho)
    fun i hi => (ordered o ho i hi).rereadsWhole (trailing.1 o ho i hi)) orders
  obtain ⟨limit', limit, same₂⟩ := Rereads.optional (fun l hl => Limit.rereads
    ((limited l hl).1.rereadsWhole (trailing.2 l hl).1) fun e he =>
      ((limited l hl).2 e he).rereadsWhole ((trailing.2 l hl).2 e he)) limits
  obtain ⟨_, _, _, _⟩ := q
  exact ⟨_, combined _ _ (combines_of_tail (.intro orderBy limit)), by
    simp [mapSpans, same, same₁, same₂]⟩

/-! ### Statements -/

theorem Statement.rereads {s : Statement} {depth : Nat}
    (admissible : (Node.statement s).Admissible depth)
    (below : ∀ c ∈ s.children, c.Rereads) :
    Rereads (IsStatement (phrases False depth)) (Statement.mapSpans .erase) s.pieces s := by
  obtain ⟨here, inner⟩ := (Node.admissible_flat_iff rfl).1 admissible
  match s, here, inner, below with
  | .query q, _, inner, below =>
    intro ts spelled
    obtain ⟨q', reading, same⟩ :=
      below (.query q) (List.mem_singleton_self _) (inner _ (List.mem_singleton_self _)) spelled
    exact ⟨.query q', .query reading, congrArg Statement.query same⟩
  | .insert ⟨_, _, _, .values rows⟩, here, inner, below =>
    simp only [Node.children, Statement.children, List.forall_mem_map, List.forall_mem_flatten]
      at inner below
    exact Insert.rereads (InsertSource.rereads_values here.1 here.2 fun row hrow e he =>
      Expr.Refolds.rereadsWhole (below row hrow e he) (inner row hrow e he))
  | .insert ⟨_, _, _, .query q⟩, _, inner, below =>
    exact Insert.rereads (InsertSource.rereads_query
      (below (.query q) (List.mem_singleton_self _) (inner _ (List.mem_singleton_self _))))
  | .update s, here, inner, below =>
    simp only [Node.children, Statement.children, List.forall_mem_append, List.forall_mem_map,
      Option.mem_toList] at inner below
    exact Update.rereads here
      (fun a ha => Expr.Refolds.rereadsWhole (below.1 a ha) (inner.1 a ha))
      fun e he => Expr.Refolds.rereadsWhole (below.2 e he) (inner.2 e he)
  | .delete s, _, inner, below =>
    simp only [Node.children, Statement.children, List.forall_mem_map, Option.mem_toList]
      at inner below
    exact Delete.rereads fun e he => Expr.Refolds.rereadsWhole (below e he) (inner e he)
  | .createTable s, here, inner, below =>
    simp only [Node.children, Statement.children, List.forall_mem_map] at inner below
    exact CreateTable.rereads here fun c hc => below c hc (inner c hc)
  | .createIndex s, here, _, _ => exact CreateIndex.rereads here
  | .createDatabase s, _, _, _ => exact s.rereads
  | .alterTable s, _, inner, below =>
    exact AlterTable.rereads fun c hc =>
      have child : Node.column c ∈ Statement.children (.alterTable s) := by
        simp [Statement.children, hc]
      below _ child (inner _ child)
  | .drop s, _, _, _ => exact s.rereads

/-- An admissible tree is read again with as many levels. -/
theorem Node.rereads (n : Node) : n.Rereads := by
  induction n using Node.formInduction with
  | column s n => exact Expr.refolds_of_operand rfl fun _ _ _ _ => Expr.rereads_column n
  | literal s v => exact Expr.refolds_of_operand rfl fun _ _ _ _ => Expr.rereads_literal
  | unary s op e he =>
    refine Expr.refolds_of_operand rfl fun depth here operands _ => Expr.rereads_unary ?_
    refine Expr.Refolds.rereads he (operands e (List.mem_singleton_self _)) ?_
    cases op with
    | not => exact here.1
    | minus | plus => exact Expr.above_of_level?_eq_none here.1 _
  | binary s op l r hl hr =>
    refine Expr.refolds_of_infix (.binary op) rfl rfl rfl hl (fun here => here.1.1)
      fun same here others _ => Expr.rereads_binary same ?_
    exact Expr.Refolds.rereads hr (others r (List.mem_singleton_self _)) here.1.2
  | is s e negated test he =>
    refine Expr.refolds_of_infix .is rfl rfl ?_ he (fun here => here.1)
      fun same _ _ _ => Expr.rereads_is same
    simp [Expr.pieces]
  | inList s e negated items he ih =>
    refine Expr.refolds_of_infix (.predicate negated .isIn) rfl rfl ?_ he
      (fun here => here.1) fun same here others _ => Expr.rereads_predicate (k := .IN) rfl
        (Expr.rereads_inList same here.2 fun i hi =>
          Expr.Refolds.rereadsWhole (ih i hi) (others i hi))
    simp [Expr.pieces]
  | inQuery s e negated q he hq =>
    refine Expr.refolds_of_infix (.predicate negated .isIn) rfl rfl ?_ he
      (fun here => here.1) fun same _ _ query => Expr.rereads_predicate (k := .IN) rfl
        (Expr.rereads_inQuery same (hq (query q rfl)))
    simp [Expr.pieces]
  | between s e negated low high he hlow hhigh =>
    refine Expr.refolds_of_infix (.predicate negated .between) rfl rfl ?_ he
      (fun here => here.1.1) fun same here others _ => Expr.rereads_predicate (k := .BETWEEN) rfl
        (Expr.rereads_between same ?_ ?_)
    · simp [Expr.pieces, Expr.piecesBehind]
    · exact Expr.Refolds.rereads hlow (others low (by simp)) here.1.2.1
    · exact Expr.Refolds.rereads hhigh (others high (by simp)) here.1.2.2
  | like s e negated pattern he hpattern =>
    refine Expr.refolds_of_infix (.predicate negated .like) rfl rfl ?_ he
      (fun here => here.1.1) fun same here others _ => Expr.rereads_predicate (k := .LIKE) rfl
        (Expr.rereads_like same ?_)
    · simp [Expr.pieces]
    · exact Expr.Refolds.rereads hpattern (others pattern (by simp)) here.1.2
  | call s n distinct arguments ih =>
    exact Expr.refolds_of_operand rfl fun _ here operands _ => Expr.rereads_call here.2 fun i hi =>
      Expr.Refolds.rereadsWhole (ih i hi) (operands i hi)
  | case s operand branches otherwise first body last =>
    refine Expr.refolds_of_operand rfl fun _ here operands _ => ?_
    simp only [Expr.operands, List.forall_mem_append, List.forall_mem_flatMap,
      List.forall_mem_cons, Option.mem_toList] at operands
    exact Expr.rereads_case here.2
      (fun e he => Expr.Refolds.rereadsWhole (first e he) (operands.1.1 e he))
      (fun b hb => ⟨Expr.Refolds.rereadsWhole (body b hb).1 (operands.1.2 b hb).1,
        Expr.Refolds.rereadsWhole (body b hb).2 (operands.1.2 b hb).2.1⟩)
      fun e he => Expr.Refolds.rereadsWhole (last e he) (operands.2 e he)
  | cast s e type he =>
    exact Expr.refolds_of_operand rfl fun _ here operands _ => Expr.rereads_cast
      (Expr.Refolds.rereadsWhole he (operands e (List.mem_singleton_self _))) here.2
  | existsQuery s q hq =>
    exact Expr.refolds_of_operand rfl fun _ _ _ query => Expr.rereads_existsQuery (hq (query q rfl))
  | subquery s q hq =>
    exact Expr.refolds_of_operand rfl fun _ _ _ query => Expr.rereads_subquery (hq (query q rfl))
  | nested s e he =>
    exact Expr.refolds_of_operand rfl fun _ _ operands _ => Expr.rereads_nested
      (Expr.Refolds.rereadsWhole he (operands e (List.mem_singleton_self _)))
  | query q selects ordered limited =>
    exact fun admissible => Query.rereads admissible selects ordered limited
  | select s items tables condition keys having =>
    intro depth admissible
    obtain ⟨here, inner⟩ := (admissible_flat_iff rfl).1 admissible
    obtain ⟨inItems, inTables, inCondition, inKeys, inHaving⟩ :=
      (forall_children_select s).1 inner
    exact Select.rereads here (fun i hi => items i hi (inItems i hi))
      (fun f hf t ht => ⟨(tables f hf t ht).1 (inTables f hf t ht).1,
        fun j hj => (tables f hf t ht).2 j hj ((inTables f hf t ht).2 j hj)⟩)
      (fun e he => Expr.Refolds.rereadsWhole (condition e he) (inCondition e he))
      (fun g hg e he => Expr.Refolds.rereadsWhole (keys g hg e he) (inKeys g hg e he))
      fun e he => Expr.Refolds.rereadsWhole (having e he) (inHaving e he)
  | wildcard s => exact fun _ => SelectItem.rereads_wildcard
  | qualifiedWildcard s n => exact fun _ => SelectItem.rereads_qualifiedWildcard n
  | selected s e label he =>
    intro depth admissible
    have inner := ((admissible_flat_iff rfl).1 admissible).2 (.expr e) (by simp [children])
    exact SelectItem.rereads_expr label (Expr.Refolds.rereadsWhole he inner)
  | table s n label => exact fun _ => Relation.rereads_table n label
  | derived s q label hq =>
    intro depth admissible
    have inner := ((admissible_flat_iff rfl).1 admissible).2 (.query q) (by simp [children])
    exact Relation.rereads_derived label (hq inner)
  | join s kind relation condition hr hc =>
    intro depth admissible
    obtain ⟨here, inner⟩ := (admissible_flat_iff rfl).1 admissible
    obtain ⟨inRelation, inCondition⟩ := (forall_children_join _).1 inner
    exact Join.rereads here (hr inRelation) fun e he =>
      Expr.Refolds.rereadsWhole (hc e he) (inCondition e he)
  | columnDefinition c ih =>
    intro depth admissible
    obtain ⟨here, inner⟩ := (admissible_flat_iff rfl).1 admissible
    have inner := (forall_children_column c).1 inner
    exact ColumnDefinition.rereads here fun e he =>
      Expr.Refolds.rereadsWhole (ih e he) (inner e he)
  | statement s ih => exact fun admissible => Statement.rereads admissible ih

end SqlSyntax
