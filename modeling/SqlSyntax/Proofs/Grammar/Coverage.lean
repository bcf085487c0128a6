import SqlSyntax.Proofs.Grammar.Layout
import SqlSyntax.Proofs.Grammar.Statement
import SqlSyntax.Proofs.Parser.Relocation

/-!
# Readings are laid on their tokens

What is read from tokens in order is laid on them. The grammar is gone through
for every relation in which parts compose, given that it holds of the
expressions and queries inside; what it takes for these is said at the end, for
`Laid` itself.

The left operand of an infix operator is a part that no reading of the grammar
ends with: it is what was folded so far. It can be read by itself all the same,
since folding one operator more is again a reading.

## Main results

* `IsOperand.spread`, `IsFold.spread`, `IsSetOperand.spread`,
  `IsQueryTail.spread` — the children of what stands for a level.
* `exprs_snoc` — one more infix operator behind an expression.
* `phrases_lay` — the readings of every depth are laid on their tokens.
* `IsStatement.laid` — statements, given what is nested in them.
-/

namespace SqlSyntax.Grammar

variable {ts us : List Token}

section

variable {L : List Token → Part → Prop} (hL : Composes L)

include hL

/-! ## Names -/

theorem IsIdentifier.laid ⦃ts : List Token⦄ ⦃i : Identifier⦄ (h : IsIdentifier ts i)
    (_ : Ordered ts) : L ts (.identifier i) := by
  obtain @⟨t, -⟩ := h
  exact hL.of_spread (covers_token t) (.skip _) rfl

omit hL in
/-- The last of some names ends where its tokens do. -/
theorem Many.last_identifier {k : TokenKind} {is : List Identifier}
    (h : Many (Behind k IsIdentifier) us is) (t : Token) (i : Identifier)
    (hi : i.span = t.span) : ∃ u, (t :: us).getLast? = some u ∧
      ∃ j, (i :: is).getLast? = some j ∧ j.span = u.span := by
  induction h generalizing t i with
  | nil => exact ⟨t, rfl, i, rfl, hi⟩
  | cons head _ ih =>
    obtain ⟨-, part⟩ := head
    obtain @⟨u, _, _⟩ := part
    simpa using ih u _ rfl

theorem IsName.laid ⦃ts : List Token⦄ ⦃n : QualifiedName⦄ (h : IsName ts n)
    (ordered : Ordered ts) : L ts (.name n) := by
  refine hL.of_spread ?_ (h.parts.spread_map (IsIdentifier.laid hL) ordered) rfl
  obtain ⟨parts, span⟩ := h
  have base : n.parts.getLast? = some n.base := by simp [QualifiedName.parts]
  generalize n.parts = l at parts span base
  obtain ⟨first, others⟩ := parts
  obtain @⟨t, _, _⟩ := first
  obtain ⟨u, last, j, hj, same⟩ := others.last_identifier t ⟨t.span, t.value⟩ rfl
  obtain rfl : n.base = j := Option.some.inj (base.symm.trans hj)
  have hle := ordered.start_le (t := t) rfl (List.mem_of_getLast? last)
  have hle' := ordered.stop_le last (List.mem_cons_self ..)
  refine ⟨t, u, rfl, last, ?_⟩
  rw [Part.span, span _ rfl, same, Span.union, Nat.min_eq_left hle, Nat.max_eq_right hle']

theorem IsColumnList.spread {cs : List Identifier} (h : IsColumnList ts cs)
    (ordered : Ordered ts) : Spread L ts (cs.map .identifier) :=
  Parenthesized.spread (f := (·.map .identifier))
    (fun _ _ h ordered => Separated.spread_map (IsIdentifier.laid hL) h ordered) h ordered

theorem IsAlias.spread {label : Option Identifier} (h : IsAlias ts label) (ordered : Ordered ts) :
    Spread L ts (label.toList.map .identifier) := by
  cases h with
  | none => exact .skip []
  | bare name => exact .part (name.laid hL ordered)
  | announced name =>
    obtain ⟨-, name⟩ := name
    exact (Spread.part (name.laid hL ordered.tail)).behind

end

/-! ## Expressions -/

/-- Whether what is read is in a relation to its tokens in which parts compose. -/
structure Phrases.Lays (P : Phrases) (L : List Token → Part → Prop) : Prop extends
    composes : Composes L where
  expr : ∀ {level : Nat} ⦃ts : List Token⦄ ⦃e : Expr⦄, P.expr level ts e → Ordered ts →
    L ts (.expr e)
  query : ∀ ⦃ts : List Token⦄ ⦃q : Query⦄, P.query ts q → Ordered ts → L ts (.query q)

section

variable {L : List Token → Part → Prop} {P : Phrases} (hP : P.Lays L)

include hP

theorem IsArguments.spread ⦃ts : List Token⦄ ⦃a : Bool × Arguments⦄ (h : IsArguments P ts a)
    (ordered : Ordered ts) : Spread L ts (a.2.items.map .expr) := by
  cases h with
  | star | none => exact .skip _
  | list _ items =>
    exact Spread.after _ (items.spread_map hP.expr ordered.right)

theorem IsBranch.laid ⦃ts : List Token⦄ ⦃b : WhenBranch⦄ (h : IsBranch P ts b)
    (ordered : Ordered ts) : L ts (.branch b) := by
  obtain ⟨-, condition, result⟩ := h
  obtain ⟨-, result⟩ := result
  have below := ordered.tail
  exact hP.of_spread (covers_through ordered)
    (.behind (.cons (hP.expr condition below.left)
      (.behind (.part (hP.expr result below.right.tail))))) rfl

theorem IsCast.spread ⦃ts : List Token⦄ ⦃c : Expr × DataType⦄ (h : IsCast P ts c)
    (ordered : Ordered ts) : Spread L ts [.expr c.1] := by
  obtain ⟨operand, -⟩ := h
  exact (Spread.part (hP.expr operand ordered.left)).before _

/-- An operand covers its tokens, and its parts are laid on them. -/
theorem IsOperand.spread {e : Expr} (h : IsOperand P ts e) (ordered : Ordered ts) :
    Covers ts e.span ∧ Spread L ts e.form.parts := by
  cases h with
  | column name =>
    have laid := name.laid hP.composes ordered
    exact ⟨hP.covers laid, .part laid⟩
  | call name arguments =>
    have laid := name.laid hP.composes ordered.left
    exact ⟨(hP.covers laid).through ordered,
      .cons laid (arguments.spread (IsArguments.spread hP) ordered.right)⟩
  | literal => exact ⟨covers_token _, .skip _⟩
  | unary _ operand =>
    have laid := hP.expr operand ordered.tail
    exact ⟨(covers_token _).union [] (hP.covers laid) ordered, .behind (.part laid)⟩
  | case _ operand _ body otherwise _ =>
    have below := ordered.tail
    refine ⟨covers_through ordered, .behind ?_⟩
    refine .append (operand.spread_map hP.expr below.left) (.append ?_ (.before ?_ _))
    · exact body.spread_map (IsBranch.laid hP) below.right.left
    · rw [List.map_eq_flatMap]
      exact otherwise.spread (fun _ _ h ordered =>
        Behind.spread (fun _ _ h ordered => .part (hP.expr h ordered)) h ordered)
        below.right.right.left
  | cast _ body =>
    exact ⟨covers_through ordered, .behind (body.spread (IsCast.spread hP) ordered.tail)⟩
  | existsQuery _ query =>
    exact ⟨covers_through ordered, .behind (query.spread (f := fun q => [.query q])
      (fun _ _ h ordered => .part (hP.query h ordered)) ordered.tail)⟩
  | subquery _ query _ =>
    exact ⟨covers_through ordered,
      .behind (.before (.part (hP.query query ordered.tail.left)) _)⟩
  | nested _ inner _ =>
    exact ⟨covers_through ordered,
      .behind (.before (.part (hP.expr inner ordered.tail.left)) _)⟩

/-- What is folded onto an operand covers the tokens of both. -/
theorem IsFold.spread {left e : Expr} {op : InfixOperator} (h : IsFold P left op us e)
    (hleft : L ts (.expr left)) (ordered : Ordered (ts ++ us)) :
    Covers (ts ++ us) e.span ∧ Spread L (ts ++ us) e.form.parts := by
  cases h with
  | binary _ right =>
    have laid := hP.expr right ordered.right.tail
    exact ⟨(hP.covers hleft).union [_] (hP.covers laid) ordered,
      .cons hleft (.behind (.part laid))⟩
  | is => exact ⟨(hP.covers hleft).through_right nofun ordered, .before (.part hleft) _⟩
  | predicate _ _ tail =>
    refine ⟨(hP.covers hleft).through_right (by simp) ordered, ?_⟩
    have below := ordered.right.right.tail
    cases tail with
    | inList items =>
      refine .cons hleft (.after _ (.behind ?_))
      exact items.spread (fun _ _ h ordered => Separated.spread_map hP.expr h ordered) below
    | inQuery query =>
      refine .cons hleft (.after _ (.behind ?_))
      exact query.spread (f := fun q => [.query q])
        (fun _ _ h ordered => .part (hP.query h ordered)) below
    | between low high =>
      obtain ⟨-, high⟩ := high
      refine .cons hleft (.after _ (.behind ?_))
      exact .cons (hP.expr low below.left) (.behind (.part (hP.expr high below.right.tail)))
    | like pattern =>
      exact .cons hleft (.after _ (.behind (.part (hP.expr pattern below))))

/-! ## Queries -/

theorem IsSelectItem.laid ⦃ts : List Token⦄ ⦃i : SelectItem⦄ (h : IsSelectItem P ts i)
    (ordered : Ordered ts) : L ts (.selectItem i) := by
  cases h with
  | wildcard => exact hP.of_spread (covers_token _) (.skip _) rfl
  | qualifiedWildcard name =>
    have laid := name.laid hP.composes ordered.left
    exact hP.of_spread ((hP.covers laid).through ordered) (.before (.part laid) _) rfl
  | expr item name =>
    have laid := hP.expr item ordered.left
    exact hP.of_spread ((hP.covers laid).through ordered)
      (.cons laid (name.spread hP.composes ordered.right)) rfl

theorem IsRelation.laid {r : Relation} (h : IsRelation P ts r) (ordered : Ordered ts) :
    L ts (.relation r) := by
  cases h with
  | table name label =>
    have laid := name.laid hP.composes ordered.left
    exact hP.of_spread ((hP.covers laid).through ordered)
      (.cons laid (label.spread hP.composes ordered.right)) rfl
  | derived _ query _ label =>
    have below := ordered.tail
    exact hP.of_spread (covers_through ordered) (.behind (.cons (hP.query query below.left)
      (.behind (label.spread hP.composes below.right.tail)))) rfl

theorem IsJoinCondition.spread {kind : JoinKind} {c : JoinCondition}
    (h : IsJoinCondition P kind ts c) (ordered : Ordered ts) : Spread L ts c.parts := by
  cases h with
  | on _ condition =>
    exact condition.spread (f := fun e => [.expr e])
      (fun _ _ h ordered => .part (hP.expr h ordered)) ordered
  | shared _ columns =>
    exact columns.spread (f := (·.map .identifier))
      (fun _ _ h ordered => IsColumnList.spread hP.composes h ordered) ordered
  | none => exact .skip []

theorem IsJoin.laid ⦃ts : List Token⦄ ⦃j : Join⦄ (h : IsJoin P ts j) (ordered : Ordered ts) :
    L ts (.join j) := by
  obtain ⟨-, relation, condition⟩ := h
  have below := ordered.tail.right
  exact hP.of_spread (covers_through ordered) (.behind (.after _
    (.cons (relation.laid hP below.left) (condition.spread hP below.right)))) rfl

theorem IsJoinedTable.laid ⦃ts : List Token⦄ ⦃t : JoinedTable⦄ (h : IsJoinedTable P ts t)
    (ordered : Ordered ts) : L ts (.joinedTable t) := by
  obtain ⟨relation, joins⟩ := h
  have laid := relation.laid hP ordered.left
  exact hP.of_spread ((hP.covers laid).through ordered)
    (.cons laid (joins.spread_map (IsJoin.laid hP) ordered.right)) rfl

theorem IsFrom.laid ⦃ts : List Token⦄ ⦃f : From⦄ (h : IsFrom P ts f) (ordered : Ordered ts) :
    L ts (.source f) := by
  obtain ⟨-, body⟩ := h
  exact hP.of_spread (covers_through ordered)
    (.behind (body.spread_map (IsJoinedTable.laid hP) ordered.tail)) rfl

theorem IsGroupBy.laid ⦃ts : List Token⦄ ⦃g : GroupBy⦄ (h : IsGroupBy P ts g)
    (ordered : Ordered ts) : L ts (.groupBy g) := by
  obtain ⟨-, -, body⟩ := h
  exact hP.of_spread (covers_through ordered)
    (.behind (.behind (body.spread_map hP.expr ordered.tail.tail))) rfl

/-- An expression behind a keyword that may be absent. -/
theorem Optional.spread_expr {k : Keyword} {level : Nat} {o : Option Expr}
    (h : Optional (Behind (.keyword k) (P.expr level)) ts o) (ordered : Ordered ts) :
    Spread L ts (o.toList.map .expr) := by
  rw [List.map_eq_flatMap]
  exact h.spread (fun _ _ h ordered =>
    Behind.spread (fun _ _ h ordered => .part (hP.expr h ordered)) h ordered) ordered

theorem IsSelect.laid {s : Select} (h : IsSelect P ts s) (ordered : Ordered ts) :
    L ts (.select s) := by
  obtain ⟨-, -, items, source, condition, groupBy, having⟩ := h
  have hps := ordered.tail.right
  have hfs := hps.right
  have hws := hfs.right
  have hgs := hws.right
  exact hP.of_spread (covers_through ordered) (.behind (.after _
    (.append (items.spread_map (IsSelectItem.laid hP) hps.left)
      (.append (source.spread_map (IsFrom.laid hP) hfs.left)
        (.append (condition.spread_expr hP hws.left)
          (.append (groupBy.spread_map (IsGroupBy.laid hP) hgs.left)
            (having.spread_expr hP hgs.right))))))) rfl

theorem IsOrderItem.laid ⦃ts : List Token⦄ ⦃i : OrderItem⦄ (h : IsOrderItem P ts i)
    (ordered : Ordered ts) : L ts (.orderItem i) := by
  obtain ⟨item, -, -⟩ := h
  have laid := hP.expr item ordered.left
  exact hP.of_spread ((hP.covers laid).through ordered) (.before (.part laid) _) rfl

theorem IsOrderBy.laid ⦃ts : List Token⦄ ⦃o : OrderBy⦄ (h : IsOrderBy P ts o)
    (ordered : Ordered ts) : L ts (.orderBy o) := by
  obtain ⟨-, -, body⟩ := h
  exact hP.of_spread (covers_through ordered)
    (.behind (.behind (body.spread_map (IsOrderItem.laid hP) ordered.tail.tail))) rfl

theorem IsLimit.laid ⦃ts : List Token⦄ ⦃l : Limit⦄ (h : IsLimit P ts l) (ordered : Ordered ts) :
    L ts (.limit l) := by
  cases h with
  | count _ count offset =>
    have below := ordered.tail
    exact hP.of_spread (covers_through ordered) (.behind (.cons (hP.expr count below.left)
      (offset.spread_expr hP below.right))) rfl
  | offsetFirst _ _ offset count =>
    -- The tree holds the count first.
    obtain ⟨-, count⟩ := count
    have below := ordered.tail
    exact hP.intro rfl (covers_through ordered) (.behind (.cons (hP.expr offset below.left)
      (.behind (.part (hP.expr count below.right.tail))))) (List.Perm.swap ..)

/-- The clauses at the end of a query are laid behind its selections. -/
theorem IsQueryTail.spread {before : List Token} {body : QueryBody} {q : Query}
    (h : IsQueryTail P before body ts q) (hbody : L before body.part)
    (ordered : Ordered (before ++ ts)) :
    Covers (before ++ ts) q.span ∧ Spread L (before ++ ts) (Part.query q).children := by
  obtain ⟨orderBy, limit⟩ := h
  have covers := hP.covers hbody
  rw [Part.span_bodyPart] at covers
  exact ⟨covers.through ordered, .cons hbody (.append
    (orderBy.spread_map (IsOrderBy.laid hP) ordered.right.left)
    (limit.spread_map (IsLimit.laid hP) ordered.right.right))⟩

theorem IsSetOperand.spread {before : List Token} {left b : QueryBody} {op : SetOperator}
    (h : IsSetOperand P left op ts b) (hleft : L before left.part)
    (ordered : Ordered (before ++ ts)) :
    Covers (before ++ ts) b.part.span ∧ Spread L (before ++ ts) b.part.children := by
  obtain @⟨t, as, ss, _, _, -, -, select⟩ := h
  have laid := select.laid hP ordered.right.tail.right
  have covers := hP.covers hleft
  rw [Part.span_bodyPart] at covers
  exact ⟨covers.union (t :: as) (hP.covers laid) ordered,
    .cons hleft (.behind (.after _ (.part laid)))⟩

end

/-! ## Folding and combining -/

section

variable {depth level : Nat} {left e : Expr}

theorem folds_snoc {depth' : Nat} {op : InfixOperator} {m : Expr}
    (h : folds True depth level left ts e) (hlevel : level < op.level)
    (hop : op.level ≤ e.openLevel) (fold : IsFold (phrases True depth') e op us m) :
    folds True (depth + depth' + 1) level left (ts ++ us) m := by
  induction depth generalizing left ts with
  | zero =>
    obtain ⟨rfl, rfl⟩ := h
    rw [Nat.zero_add]
    exact .inr ⟨op, us, [], m, by simp, hlevel, hop, fold, folds_nil ..⟩
  | succ depth ih =>
    rw [show depth + 1 + depth' + 1 = depth + depth' + 1 + 1 by omega]
    rcases h with ⟨rfl, rfl⟩ | ⟨op', us', vs, m', rfl, hlevel', hop', fold', others⟩
    · exact .inr ⟨op, us, [], m, by simp, hlevel, hop, fold_deepen fold (by omega),
        folds_nil ..⟩
    · rw [List.append_assoc]
      exact .inr ⟨op', us', vs ++ us, m', rfl, hlevel', hop', fold_deepen fold' (by omega),
        ih others⟩

/-- One more infix operator behind an expression. -/
theorem exprs_snoc {depth' : Nat} {op : InfixOperator} {m : Expr}
    (h : exprs True depth level ts e) (hlevel : level < op.level) (hop : op.level ≤ e.openLevel)
    (fold : IsFold (phrases True depth') e op us m) :
    exprs True (depth + depth' + 1) level (ts ++ us) m := by
  cases depth with
  | zero => exact h.elim
  | succ depth =>
    obtain ⟨us', vs, o, rfl, operand, others⟩ := h
    rw [show depth + 1 + depth' + 1 = depth + depth' + 1 + 1 by omega]
    exact ⟨us', vs ++ us, o, by simp, operand_deepen operand (by omega),
      folds_snoc others hlevel hop fold⟩

theorem folds_lay (hsub : ∀ d < depth, (phrases True d).Lays Laid)
    (h : folds True depth level left us e) (hleft : Laid ts (.expr left))
    (ordered : Ordered (ts ++ us)) : Laid (ts ++ us) (.expr e) := by
  induction depth generalizing left ts us with
  | zero =>
    obtain ⟨rfl, rfl⟩ := h
    rwa [List.append_nil]
  | succ depth ih =>
    rcases h with ⟨rfl, rfl⟩ | ⟨op, vs, ws, m, rfl, hlevel, hop, fold, others⟩
    · rwa [List.append_nil]
    · rw [← List.append_assoc] at ordered ⊢
      obtain ⟨covers, parts⟩ := fold.spread (hsub depth (Nat.lt_succ_self _)) hleft ordered.left
      obtain ⟨d, reading⟩ := hleft.reading
      exact ih (fun d hd => hsub d (Nat.lt_succ_of_lt hd)) others
        (.of_spread covers parts ⟨_, exprs_snoc reading (by omega) hop fold⟩) ordered

theorem combines_lay (hsub : ∀ d ≤ depth, (phrases True d).Lays Laid) {before : List Token}
    {left : QueryBody} {q : Query} (h : combines True depth before left ts q)
    (hleft : Laid before left.part) (ordered : Ordered (before ++ ts)) :
    Covers (before ++ ts) q.span ∧ Spread Laid (before ++ ts) (Part.query q).children := by
  induction depth generalizing before left ts with
  | zero => exact IsQueryTail.spread (hsub 0 (Nat.le_refl _)) h hleft ordered
  | succ depth ih =>
    rcases (combines_succ ..).1 h with tail | ⟨op, us, vs, b, rfl, operand, others⟩
    · exact IsQueryTail.spread (hsub _ (Nat.le_refl _)) tail hleft ordered
    · rw [← List.append_assoc] at ordered ⊢
      obtain ⟨covers, parts⟩ := operand.spread (hsub depth (Nat.le_succ _)) hleft ordered.left
      have laid : Laid (before ++ us) b.part :=
        .of_spread covers parts (by cases b <;> trivial)
      exact ih (fun d hd => hsub d (Nat.le_succ_of_le hd)) others laid ordered

/-- The readings of every depth are laid on their tokens. -/
theorem phrases_lay (depth : Nat) : (phrases True depth).Lays Laid := by
  induction depth using Nat.strongRecOn with
  | ind depth ih =>
    cases depth with
    | zero => exact ⟨laid_composes, nofun, nofun⟩
    | succ depth =>
      have hP := ih depth (Nat.lt_succ_self _)
      refine ⟨laid_composes, fun h ordered => ?_, fun ts q h ordered => ?_⟩
      · obtain ⟨us, vs, o, rfl, operand, others⟩ := h
        obtain ⟨covers, parts⟩ := operand.spread hP ordered.left
        have reading : exprs True (depth + 1) 0 us o :=
          ⟨us, [], o, (List.append_nil us).symm, operand, folds_nil ..⟩
        exact folds_lay (fun d hd => ih d (Nat.lt_succ_of_lt hd)) others
          (.of_spread covers parts ⟨_, reading⟩) ordered
      · have whole := h
        obtain ⟨us, vs, s, rfl, select, others⟩ := h
        obtain ⟨covers, parts⟩ := combines_lay (fun d hd => ih d (Nat.lt_succ_of_le hd)) others
          (select.laid hP ordered.left) ordered
        exact .of_spread covers parts ⟨_, whole⟩

end

/-! ## Statements -/

section

variable {L : List Token → Part → Prop} {P : Phrases} (hP : P.Lays L)

include hP

theorem IsInsertSource.spread {s : InsertSource} (h : IsInsertSource P ts s)
    (ordered : Ordered ts) : Spread L ts s.parts := by
  cases h with
  | values body =>
    have rows := body.spread (f := (·.flatMap fun row => row.map .expr)) (fun _ _ h ordered =>
      Separated.spread (fun _ _ h ordered => Parenthesized.spread (f := (·.map .expr))
        (fun _ _ h ordered => Separated.spread_map hP.expr h ordered) h ordered) h ordered) ordered
    simpa [InsertSource.parts, List.map_flatten, List.flatMap] using rows
  | query query => exact .part (hP.query query ordered)

theorem IsInsert.laid {s : Insert} (h : IsInsert P ts s) (ordered : Ordered ts) :
    L ts (.insert s) := by
  have covers (t : Token) {ts : List Token} (ordered : Ordered (t :: ts)) := covers_through ordered
  cases h with
  | plain _ _ table columns source =>
    have below := ordered.tail.tail
    refine hP.of_spread (covers _ ordered) (.behind (.behind
      (.cons (table.laid hP.composes below.left)
        (.append ?_ (source.spread hP below.right.right))))) rfl
    cases columns with
    | listed columns => exact IsColumnList.spread hP.composes columns below.right.left
    | none => exact .skip []
  | parenthesized _ _ table source =>
    have below := ordered.tail.tail
    exact hP.of_spread (covers _ ordered) (.behind (.behind
      (.cons (table.laid hP.composes below.left) (source.spread (f := fun q => [.query q])
        (fun _ _ h ordered => .part (hP.query h ordered)) below.right)))) rfl

theorem IsAssignment.laid ⦃ts : List Token⦄ ⦃a : Assignment⦄ (h : IsAssignment P ts a)
    (ordered : Ordered ts) : L ts (.assignment a) := by
  obtain ⟨column, value⟩ := h
  obtain ⟨-, value⟩ := value
  have laid := column.laid hP.composes ordered.left
  exact hP.of_spread ((hP.covers laid).through ordered)
    (.cons laid (.behind (.part (hP.expr value ordered.right.tail)))) rfl

theorem IsUpdate.laid {s : Update} (h : IsUpdate P ts s) (ordered : Ordered ts) :
    L ts (.update s) := by
  obtain ⟨-, table, label, set, condition⟩ := h
  have below := ordered.tail
  exact hP.of_spread (covers_through ordered) (.behind (.cons (table.laid hP.composes below.left)
    (.append (label.spread hP.composes below.right.left) (.append
      (set.spread (fun _ _ h ordered => Separated.spread_map (IsAssignment.laid hP) h ordered)
        below.right.right.left)
      (condition.spread_expr hP below.right.right.right))))) rfl

theorem IsDelete.laid {s : Delete} (h : IsDelete P ts s) (ordered : Ordered ts) :
    L ts (.delete s) := by
  obtain ⟨-, -, table, label, condition⟩ := h
  have below := ordered.tail.tail
  exact hP.of_spread (covers_through ordered) (.behind (.behind
    (.cons (table.laid hP.composes below.left)
      (.append (label.spread hP.composes below.right.left)
        (condition.spread_expr hP below.right.right))))) rfl

theorem IsColumnOption.spread ⦃ts : List Token⦄ ⦃o : ColumnOption⦄ (h : IsColumnOption P ts o)
    (ordered : Ordered ts) : Spread L ts o.parts := by
  cases h with
  | null | notNull | primaryKey | unique => exact .skip _
  | default value =>
    exact value.spread (f := fun e => [.expr e])
      (fun _ _ h ordered => .part (hP.expr h ordered)) ordered

theorem IsColumnDefinition.laid ⦃ts : List Token⦄ ⦃c : ColumnDefinition⦄
    (h : IsColumnDefinition P ts c) (ordered : Ordered ts) : L ts (.column c) := by
  obtain ⟨name, -, options⟩ := h
  have laid := name.laid hP.composes ordered.left
  exact hP.of_spread ((hP.covers laid).through ordered) (.cons laid (.after _
    (options.spread (IsColumnOption.spread hP) ordered.right.right))) rfl

omit hP in
theorem IsConstraint.laid (hL : Composes L) {c : TableConstraint} (h : IsConstraint ts c)
    (ordered : Ordered ts) : L ts (.constraint c) := by
  cases h with
  | primaryKey _ _ columns =>
    exact hL.of_spread (covers_through ordered)
      (.behind (.behind (IsColumnList.spread hL columns ordered.tail.tail))) rfl
  | unique _ columns =>
    exact hL.of_spread (covers_through ordered)
      (.behind (IsColumnList.spread hL columns ordered.tail)) rfl

/-- A constraint or a column as a part. -/
def elementPart : TableConstraint ⊕ ColumnDefinition → Part :=
  Sum.elim .constraint .column

theorem IsTableElement.laid ⦃ts : List Token⦄ ⦃x : TableConstraint ⊕ ColumnDefinition⦄
    (h : IsTableElement P ts x) (ordered : Ordered ts) : L ts (elementPart x) := by
  cases h with
  | constraint constraint => exact constraint.laid hP.composes ordered
  | column column => exact column.laid hP ordered

theorem IsCreateTable.laid {s : CreateTable} (h : IsCreateTable P ts s) (ordered : Ordered ts) :
    L ts (.createTable s) := by
  obtain @⟨_, _, _, _, _, _, _, elements, -, -, -, name, body⟩ := h
  have below := ordered.tail.tail.right
  have parts := (elements_perm elements).map elementPart
  rw [List.map_append, List.map_map, List.map_map] at parts
  exact hP.intro rfl (covers_through ordered) (.behind (.behind (.after _
    (.cons (name.laid hP.composes below.left) (body.spread
      (fun _ _ h ordered => Separated.spread_map (IsTableElement.laid hP) h ordered)
      below.right))))) (parts.cons _)

omit hP in
theorem IsCreateDatabase.laid (hL : Composes L) {s : CreateDatabase} (h : IsCreateDatabase ts s)
    (ordered : Ordered ts) : L ts (.createDatabase s) := by
  obtain ⟨-, -, name⟩ := h
  exact hL.of_spread (covers_through ordered)
    (.behind (.behind (.part (name.laid hL ordered.tail.tail)))) rfl

omit hP in
theorem IsCreateIndex.laid (hL : Composes L) {s : CreateIndex} (h : IsCreateIndex ts s)
    (ordered : Ordered ts) : L ts (.createIndex s) := by
  obtain ⟨-, -, -, name, on, columns⟩ := h
  have below := ordered.tail.right.tail
  have target := on.spread (f := fun n => [.name n])
    (fun _ _ h ordered => .part (h.laid hL ordered)) below.right.left
  exact hL.of_spread (covers_through ordered) (.behind (.after _ (.behind
    (.cons (name.laid hL below.left)
      (target.append (IsColumnList.spread hL columns below.right.right)))))) rfl

theorem IsAlteration.spread {a : Alteration} (h : IsAlteration P ts a) (ordered : Ordered ts) :
    Spread L ts a.parts := by
  have below {t : Token} {ts : List Token} (ordered : Ordered (t :: ts)) := ordered.tail
  cases h with
  | addColumn _ _ column =>
    exact .behind (.after _ (.part (column.laid hP (below ordered).right)))
  | dropColumn _ _ column =>
    exact .behind (.after _ (.part (column.laid hP.composes (below ordered).right)))
  | renameTable _ name =>
    obtain ⟨-, name⟩ := name
    exact .behind (.behind (.part (name.laid hP.composes (below (below ordered)))))
  | renameColumn _ _ old new =>
    obtain ⟨-, new⟩ := new
    have names := (below ordered).right
    exact .behind (.after _ (.cons (old.laid hP.composes names.left)
      (.behind (.part (new.laid hP.composes names.right.tail)))))

theorem IsAlterTable.laid {s : AlterTable} (h : IsAlterTable P ts s) (ordered : Ordered ts) :
    L ts (.alterTable s) := by
  obtain ⟨-, -, name, alteration⟩ := h
  have below := ordered.tail.tail
  exact hP.of_spread (covers_through ordered) (.behind (.behind
    (.cons (name.laid hP.composes below.left) (alteration.spread hP below.right)))) rfl

omit hP in
theorem IsDrop.laid (hL : Composes L) {s : Drop} (h : IsDrop ts s) (ordered : Ordered ts) :
    L ts (.drop s) := by
  obtain ⟨-, -, -, name⟩ := h
  exact hL.of_spread (covers_through ordered)
    (.behind (.behind (.after _ (.part (name.laid hL ordered.tail.tail.right))))) rfl

theorem IsStatement.laid {s : Statement} (h : IsStatement P ts s) (ordered : Ordered ts) :
    L ts s.part := by
  cases h with
  | query body => exact hP.query body ordered
  | insert body => exact body.laid hP ordered
  | update body => exact body.laid hP ordered
  | delete body => exact body.laid hP ordered
  | createTable body => exact body.laid hP ordered
  | createIndex body => exact body.laid hP.composes ordered
  | createDatabase body => exact body.laid hP.composes ordered
  | alterTable body => exact body.laid hP ordered
  | drop body => exact body.laid hP.composes ordered

end

end SqlSyntax.Grammar
