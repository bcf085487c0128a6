import SqlSyntax.Proofs.Grammar.Statement
import SqlSyntax.Proofs.Tree.Levels

/-!
# Readings are admissible

What is read with some levels of nesting is a well-formed tree that needs no
more of them. For a fold this is an invariant of the loop: the height of the
left operand and the levels that are left add up to the same number in every
round.

That a number is a single lexeme is nothing the grammar knows. `Lexed` says so
about the tokens.

## Main results

* `phrases_admits` — the readings of a depth are admissible at it.
* `IsStatement.admissible` — the same for statements.
-/

namespace SqlSyntax.Grammar

/-- Whether every number among some tokens is a number for the lexer. -/
def Lexed (ts : List Token) : Prop := ∀ t ∈ ts, t.kind = .number → IsNumber t.text

@[simp] theorem lexed_nil : Lexed [] := nofun

@[simp] theorem lexed_cons {t : Token} {ts : List Token} :
    Lexed (t :: ts) ↔ (t.kind = .number → IsNumber t.text) ∧ Lexed ts :=
  List.forall_mem_cons

@[simp] theorem lexed_append {ts us : List Token} :
    Lexed (ts ++ us) ↔ Lexed ts ∧ Lexed us :=
  List.forall_mem_append

/-! ## Lists and options -/

section

variable {α : Type} {R : List Token → α → Prop} {Q : α → Prop} {ts : List Token}
  (hR : ∀ ts a, R ts a → Lexed ts → Q a)

include hR

theorem Many.forall_mem {as : List α} (h : Many R ts as) (hts : Lexed ts) : ∀ a ∈ as, Q a := by
  induction h with
  | nil => nofun
  | cons head _ ih =>
    rw [lexed_append] at hts
    exact List.forall_mem_cons.2 ⟨hR _ _ head hts.1, ih hts.2⟩

theorem Behind.holds {k : TokenKind} {a : α} (h : Behind k R ts a) (hts : Lexed ts) : Q a := by
  obtain ⟨-, part⟩ := h
  exact hR _ _ part (lexed_cons.1 hts).2

theorem Separated.forall_mem {k : TokenKind} {as : List α} (h : Separated k R ts as)
    (hts : Lexed ts) : as ≠ [] ∧ ∀ a ∈ as, Q a := by
  obtain ⟨first, others⟩ := h
  rw [lexed_append] at hts
  exact ⟨nofun, List.forall_mem_cons.2
    ⟨hR _ _ first hts.1, Many.forall_mem (fun _ _ h => Behind.holds hR h) others hts.2⟩⟩

theorem Parenthesized.holds {a : α} (h : Parenthesized R ts a) (hts : Lexed ts) : Q a := by
  obtain ⟨-, part, -⟩ := h
  simp only [lexed_cons, lexed_append] at hts
  exact hR _ _ part hts.2.1

theorem Optional.forall_mem {o : Option α} (h : Optional R ts o) (hts : Lexed ts) :
    ∀ a ∈ o, Q a := by
  cases h with
  | none => nofun
  | some part =>
    rintro _ ⟨⟩
    exact hR _ _ part hts

end

/-! ## Leaves -/

theorem IsLength.le_maxLength {ts : List Token} {n : Nat} (h : IsLength ts n) :
    n ≤ Parser.maxLength := by
  obtain ⟨-, value⟩ := h
  exact Digits.valueUpTo_le value

theorem IsColumnList.ne_nil {ts : List Token} {cs : List Identifier} (h : IsColumnList ts cs) :
    cs ≠ [] := by
  obtain ⟨-, list, -⟩ := h
  obtain ⟨-, -⟩ := list
  nofun

theorem typeNamed?_wellFormed {name : String} {type : DataType}
    (h : Parser.typeNamed? name = some (.plain type)) : type.WellFormed := by
  unfold Parser.typeNamed? at h
  split at h <;> simp only [Option.some.injEq, reduceCtorEq, Parser.TypeForm.plain.injEq] at h
  all_goals
    subst h
    trivial

theorem typeNamed?_sized {name : String} {type : Option Nat → DataType}
    (h : Parser.typeNamed? name = some (.sized type)) (length : Option Nat)
    (hlength : ∀ n ∈ length, n ≤ Parser.maxLength) : (type length).WellFormed := by
  unfold Parser.typeNamed? at h
  split at h <;> simp only [Option.some.injEq, reduceCtorEq, Parser.TypeForm.sized.injEq] at h
  all_goals
    subst h
    exact hlength

theorem IsDataType.wellFormed {ts : List Token} {type : DataType} (h : IsDataType ts type) :
    type.WellFormed := by
  obtain ⟨-, name, tail⟩ := h
  cases tail with
  | plain => exact typeNamed?_wellFormed name
  | double | doublePrecision | decimal => trivial
  | decimalOf size =>
    obtain ⟨-, size, -⟩ := size
    cases size with
    | precision length => exact ⟨length.le_maxLength, nofun⟩
    | scale length scale =>
      obtain ⟨-, scale⟩ := scale
      refine ⟨length.le_maxLength, ?_⟩
      rintro _ ⟨⟩
      exact scale.le_maxLength
  | sized type => exact typeNamed?_sized name none nofun
  | sizedOf type size =>
    obtain ⟨-, size, -⟩ := size
    refine typeNamed?_sized name _ ?_
    rintro _ ⟨⟩
    exact size.le_maxLength

theorem Literal.wellFormed_of_ofToken? {t : Token} {v : Literal}
    (h : Literal.ofToken? t = some v) (ht : t.kind = .number → IsNumber t.text) :
    v.WellFormed := by
  unfold Literal.ofToken? at h
  split at h <;> simp only [Option.some.injEq, reduceCtorEq] at h
  all_goals subst h
  · rename_i kind
    exact ht kind
  all_goals trivial

/-! ## Expressions -/

/-- Readings that are admissible with some levels, and bind above their own. -/
structure Phrases.Admits (P : Phrases) (depth : Nat) : Prop where
  expr : ∀ {level ts e}, P.expr level ts e → Lexed ts →
    (Node.expr e).Admissible depth ∧ e.Above level
  query : ∀ {ts q}, P.query ts q → Lexed ts → (Node.query q).Admissible depth

section

variable {P : Phrases} {depth : Nat} (hP : P.Admits depth)

include hP

theorem Phrases.Admits.wholeExpr (ts : List Token) (e : Expr) (h : P.wholeExpr ts e)
    (hts : Lexed ts) : (Node.expr e).Admissible depth :=
  (hP.expr h hts).1

theorem IsArguments.admissible {ts : List Token} {distinct : Bool} {as : Arguments}
    (h : IsArguments P ts (distinct, as)) (hts : Lexed ts) :
    (distinct → as.items ≠ []) ∧ ∀ x ∈ as.items, (Node.expr x).Admissible depth := by
  cases h with
  | star | none => exact ⟨nofun, nofun⟩
  | list _ items =>
    obtain ⟨hne, hitems⟩ := items.forall_mem hP.wholeExpr (lexed_append.1 hts).2
    exact ⟨fun _ => hne, hitems⟩

theorem IsBranch.admissible (ts : List Token) (b : WhenBranch) (h : IsBranch P ts b)
    (hts : Lexed ts) :
    (Node.expr b.condition).Admissible depth ∧ (Node.expr b.result).Admissible depth := by
  obtain ⟨-, condition, result⟩ := h
  simp only [lexed_cons, lexed_append] at hts
  exact ⟨hP.wholeExpr _ _ condition hts.2.1, result.holds hP.wholeExpr hts.2.2⟩

/-- What stands before the first infix operator takes a level. -/
theorem IsOperand.admissible {ts : List Token} {e : Expr} (h : IsOperand P ts e)
    (hts : Lexed ts) : (Node.expr e).Admissible (depth + 1) ∧ e.level? = none := by
  cases h with
  | column =>
    refine ⟨(Node.admissible_operand_iff rfl).2 ⟨⟨trivial, trivial⟩, ?_, ?_⟩, rfl⟩ <;> rintro _ ⟨⟩
  | @call ts us n distinct as name arguments =>
    obtain ⟨-, arguments, -⟩ := arguments
    simp only [lexed_append, lexed_cons] at hts
    obtain ⟨marked, items⟩ := arguments.admissible hP hts.2.2.1
    refine ⟨(Node.admissible_operand_iff rfl).2 ⟨⟨trivial, marked⟩, items, ?_⟩, rfl⟩
    rintro _ ⟨⟩
  | literal value =>
    have := Literal.wellFormed_of_ofToken? value (lexed_cons.1 hts).1
    refine ⟨(Node.admissible_operand_iff rfl).2 ⟨⟨trivial, this⟩, ?_, ?_⟩, rfl⟩ <;> rintro _ ⟨⟩
  | @unary t ts op e kind operand =>
    obtain ⟨below, above⟩ := hP.expr operand (lexed_cons.1 hts).2
    have fits : Expr.OperandsFit Expr.Above ⟨t.span.union e.span, .unary op e⟩ := by
      cases op with
      | not => exact above
      | minus | plus => exact Expr.level?_eq_none_of_above above
    refine ⟨(Node.admissible_operand_iff rfl).2
      ⟨⟨fits, trivial⟩, List.forall_mem_singleton.2 below, ?_⟩, rfl⟩
    rintro _ ⟨⟩
  | @case t c os bs es o branches e kind operand nonempty body otherwise =>
    simp only [lexed_cons, lexed_append] at hts
    obtain ⟨-, hos, hbs, hes, -⟩ := hts
    have operand := operand.forall_mem hP.wholeExpr hos
    have body := body.forall_mem (IsBranch.admissible hP) hbs
    have otherwise := otherwise.forall_mem (fun _ _ h => h.holds hP.wholeExpr) hes
    refine ⟨(Node.admissible_operand_iff rfl).2 ⟨⟨trivial, nonempty⟩, ?_, by rintro _ ⟨⟩⟩, rfl⟩
    simp only [Expr.operands, List.mem_append, List.mem_flatMap, Option.mem_toList]
    rintro x ((hx | ⟨b, hb, hx⟩) | hx)
    · exact operand x hx
    · simp only [List.mem_cons, List.not_mem_nil, or_false] at hx
      rcases hx with rfl | rfl
      · exact (body b hb).1
      · exact (body b hb).2
    · exact otherwise x hx
  | cast kind body =>
    obtain ⟨-, body, -⟩ := body
    obtain ⟨operand, type⟩ := body
    simp only [lexed_cons, lexed_append] at hts
    have wf := type.holds (Q := DataType.WellFormed) (fun _ _ h _ => h.wellFormed) hts.2.2.1.2
    have below := hP.wholeExpr _ _ operand hts.2.2.1.1
    refine ⟨(Node.admissible_operand_iff rfl).2
      ⟨⟨trivial, wf⟩, List.forall_mem_singleton.2 below, ?_⟩, rfl⟩
    rintro _ ⟨⟩
  | existsQuery kind query =>
    have below := query.holds (fun _ _ h => hP.query h) (lexed_cons.1 hts).2
    refine ⟨(Node.admissible_operand_iff rfl).2 ⟨⟨trivial, trivial⟩, ?_, ?_⟩, rfl⟩ <;> rintro _ ⟨⟩
    exact below
  | subquery opening query closing =>
    simp only [lexed_cons, lexed_append] at hts
    refine ⟨(Node.admissible_operand_iff rfl).2 ⟨⟨trivial, trivial⟩, ?_, ?_⟩, rfl⟩ <;> rintro _ ⟨⟩
    exact hP.query query hts.2.1
  | nested opening inner closing =>
    simp only [lexed_cons, lexed_append] at hts
    have below := hP.wholeExpr _ _ inner hts.2.1
    refine ⟨(Node.admissible_operand_iff rfl).2
      ⟨⟨trivial, trivial⟩, List.forall_mem_singleton.2 below, ?_⟩, rfl⟩
    rintro _ ⟨⟩

/-- A fold adds the level of its operator in front of those of its left operand
and takes one level. -/
theorem IsFold.admissible {left e : Expr} {op : InfixOperator} {ts : List Token}
    (h : IsFold P left op ts e) (hts : Lexed ts) (hle : op.level ≤ left.openLevel)
    (hleft : (Node.expr left).Admissible (left.height + (depth + 1))) :
    (Node.expr e).Admissible (e.height + depth) ∧ e.leftLevels = op.level :: left.leftLevels := by
  have fits := Expr.fitsLeft_of_le_openLevel hle
  have levels : left.height + (depth + 1) = left.leftLevels.length + 1 + 1 + depth := by
    unfold Expr.height
    omega
  rw [levels] at hleft
  cases h with
  | binary kind right =>
    obtain ⟨below, above⟩ := hP.expr right (lexed_cons.1 hts).2
    exact ⟨(Node.admissible_infix_iff rfl rfl).2
      ⟨⟨⟨fits, above⟩, trivial⟩, hleft, List.forall_mem_singleton.2 below, nofun⟩, rfl⟩
  | is => exact ⟨(Node.admissible_infix_iff rfl rfl).2 ⟨⟨fits, trivial⟩, hleft, nofun, nofun⟩, rfl⟩
  | predicate negation kind tail =>
    simp only [lexed_append, lexed_cons] at hts
    cases tail with
    | inList items =>
      obtain ⟨hne, hitems⟩ :=
        items.holds (fun _ _ h => Separated.forall_mem hP.wholeExpr h) hts.2.2
      exact ⟨(Node.admissible_infix_iff rfl rfl).2 ⟨⟨fits, hne⟩, hleft, hitems, nofun⟩, rfl⟩
    | inQuery query =>
      have below := query.holds (fun _ _ h => hP.query h) hts.2.2
      refine ⟨(Node.admissible_infix_iff rfl rfl).2 ⟨⟨fits, trivial⟩, hleft, nofun, ?_⟩, rfl⟩
      rintro _ ⟨⟩
      exact below
    | between low high =>
      rw [lexed_append] at hts
      obtain ⟨below, above⟩ := hP.expr low hts.2.2.1
      obtain ⟨below', above'⟩ := high.holds (fun _ _ h => hP.expr h) hts.2.2.2
      exact ⟨(Node.admissible_infix_iff rfl rfl).2 ⟨⟨⟨fits, above, above'⟩, trivial⟩, hleft,
        List.forall_mem_cons.2 ⟨below, List.forall_mem_singleton.2 below'⟩, nofun⟩, rfl⟩
    | like pattern =>
      obtain ⟨below, above⟩ := hP.expr pattern hts.2.2
      exact ⟨(Node.admissible_infix_iff rfl rfl).2
        ⟨⟨⟨fits, above⟩, trivial⟩, hleft, List.forall_mem_singleton.2 below, nofun⟩, rfl⟩

/-! ## Queries -/

theorem IsSelectItem.admissible (ts : List Token) (i : SelectItem) (h : IsSelectItem P ts i)
    (hts : Lexed ts) : (Node.selectItem i).Admissible depth := by
  rw [Node.admissible_flat_iff rfl]
  cases h with
  | wildcard | qualifiedWildcard => exact ⟨trivial, nofun⟩
  | expr item =>
    exact ⟨trivial, List.forall_mem_singleton.2
      (hP.wholeExpr _ _ item (lexed_append.1 hts).1)⟩

theorem IsRelation.admissible {ts : List Token} {r : Relation} (h : IsRelation P ts r)
    (hts : Lexed ts) : (Node.relation r).Admissible depth := by
  rw [Node.admissible_flat_iff rfl]
  cases h with
  | table => exact ⟨trivial, nofun⟩
  | derived opening query =>
    simp only [lexed_cons, lexed_append] at hts
    exact ⟨trivial, List.forall_mem_singleton.2 (hP.query query hts.2.1)⟩

theorem IsJoin.admissible (ts : List Token) (j : Join) (h : IsJoin P ts j) (hts : Lexed ts) :
    (Node.join j).Admissible depth := by
  obtain ⟨words, relation, condition⟩ := h
  simp only [lexed_cons, lexed_append] at hts
  have relation := relation.admissible hP hts.2.2.1
  rw [Node.admissible_flat_iff rfl, Node.forall_children_join]
  cases condition with
  | on inner condition =>
    refine ⟨⟨fun h => absurd h inner, nofun⟩, relation, ?_⟩
    rintro _ ⟨⟩
    exact condition.holds hP.wholeExpr hts.2.2.2
  | shared inner columns =>
    refine ⟨⟨fun h => absurd h inner, ?_⟩, relation, nofun⟩
    rintro _ ⟨⟩
    obtain ⟨-, columns⟩ := columns
    exact IsColumnList.ne_nil columns
  | none => exact ⟨⟨fun _ => rfl, nofun⟩, relation, nofun⟩

theorem IsJoinedTable.admissible (ts : List Token) (t : JoinedTable) (h : IsJoinedTable P ts t)
    (hts : Lexed ts) : (Node.relation t.relation).Admissible depth ∧
      ∀ j ∈ t.joins, (Node.join j).Admissible depth := by
  obtain ⟨relation, joins⟩ := h
  rw [lexed_append] at hts
  exact ⟨relation.admissible hP hts.1, joins.forall_mem (IsJoin.admissible hP) hts.2⟩

theorem IsSelect.admissible {ts : List Token} {s : Select} (h : IsSelect P ts s)
    (hts : Lexed ts) : (Node.select s).Admissible depth := by
  obtain ⟨kind, quantifier, items, source, condition, groupBy, having⟩ := h
  simp only [lexed_cons, lexed_append] at hts
  obtain ⟨-, -, hps, hfs, hws, hgs, hhs⟩ := hts
  obtain ⟨hne, items⟩ := items.forall_mem (IsSelectItem.admissible hP) hps
  have source := source.forall_mem (Q := fun f => f.tables ≠ [] ∧ ∀ t ∈ f.tables,
      (Node.relation t.relation).Admissible depth ∧
      ∀ j ∈ t.joins, (Node.join j).Admissible depth) (by
    rintro us f ⟨-, body⟩ hus
    exact body.forall_mem (IsJoinedTable.admissible hP) (lexed_cons.1 hus).2) hfs
  have groupBy := groupBy.forall_mem (Q := fun g => g.keys ≠ [] ∧
      ∀ e ∈ g.keys, (Node.expr e).Admissible depth) (by
    rintro us g ⟨-, -, body⟩ hus
    simp only [lexed_cons] at hus
    exact body.forall_mem hP.wholeExpr hus.2.2) hgs
  rw [Node.admissible_flat_iff rfl]
  exact ⟨⟨hne, fun f hf => (source f hf).1, fun g hg => (groupBy g hg).1⟩,
    (Node.forall_children_select _).2 ⟨items, fun f hf => (source f hf).2,
      condition.forall_mem (fun _ _ h => h.holds hP.wholeExpr) hws,
      fun g hg => (groupBy g hg).2,
      having.forall_mem (fun _ _ h => h.holds hP.wholeExpr) hhs⟩⟩

theorem IsOrderBy.admissible (ts : List Token) (o : OrderBy) (h : IsOrderBy P ts o)
    (hts : Lexed ts) :
    o.items ≠ [] ∧ ∀ i ∈ o.items, (Node.expr i.expr).Admissible depth := by
  obtain ⟨-, -, body⟩ := h
  simp only [lexed_cons] at hts
  refine body.forall_mem ?_ hts.2.2
  rintro us i ⟨item, -, -⟩ hus
  exact hP.wholeExpr _ _ item (lexed_append.1 hus).1

theorem IsLimit.admissible (ts : List Token) (l : Limit) (h : IsLimit P ts l) (hts : Lexed ts) :
    (Node.expr l.count).Admissible depth ∧ ∀ e ∈ l.offset, (Node.expr e).Admissible depth := by
  cases h with
  | count kind count offset =>
    simp only [lexed_cons, lexed_append] at hts
    exact ⟨hP.wholeExpr _ _ count hts.2.1,
      offset.forall_mem (fun _ _ h => h.holds hP.wholeExpr) hts.2.2⟩
  | offsetFirst _ kind offset count =>
    simp only [lexed_cons, lexed_append] at hts
    refine ⟨count.holds hP.wholeExpr hts.2.2, ?_⟩
    rintro _ ⟨⟩
    exact hP.wholeExpr _ _ offset hts.2.1

/-- The end of a query has the levels that are left. -/
theorem IsQueryTail.admissible {before ts : List Token} {body : QueryBody} {q : Query}
    (h : IsQueryTail P before body ts q) (hts : Lexed ts) {levels : Nat}
    (hlevels : levels = body.selects.length + depth) (hbody : Node.BodyAdmissible levels body) :
    (Node.query q).Admissible levels := by
  obtain ⟨orderBy, limit⟩ := h
  rw [lexed_append] at hts
  have orderBy := orderBy.forall_mem (IsOrderBy.admissible hP) hts.1
  have limit := limit.forall_mem (IsLimit.admissible hP) hts.2
  subst hlevels
  refine Node.admissible_query_iff.2
    ⟨fun o ho => (orderBy o ho).1, Nat.le_add_right .., hbody, ?_⟩
  rw [Nat.add_sub_cancel_left]
  exact (Query.forall_trailing _).2 ⟨fun o ho => (orderBy o ho).2, limit⟩

end

/-! ## Every depth -/

/-- Through the rounds of folding, the levels that are left and the height of
what is folded add up to the same. -/
theorem folds_admissible {comma : Prop} {depth : Nat}
    (hP : ∀ d < depth, (phrases comma d).Admits d) {level : Nat} {left e : Expr}
    {ts : List Token} (h : folds comma depth level left ts e) (hts : Lexed ts)
    (hleft : (Node.expr left).Admissible (left.height + depth)) (above : left.Above level) :
    (Node.expr e).Admissible (left.height + depth) ∧ e.Above level := by
  induction depth generalizing left ts with
  | zero =>
    obtain ⟨-, rfl⟩ := h
    exact ⟨hleft, above⟩
  | succ depth ih =>
    rcases (folds_succ ..).1 h with ⟨-, rfl⟩ | ⟨op, us, vs, m, rfl, hlevel, hle, fold, go⟩
    · exact ⟨hleft, above⟩
    · rw [lexed_append] at hts
      obtain ⟨hm, levels⟩ :=
        fold.admissible (hP depth (Nat.lt_succ_self _)) hts.1 hle hleft
      have above : m.Above level := by
        rw [Expr.Above, levels]
        exact List.forall_mem_cons.2 ⟨hlevel, above⟩
      have height : m.height + depth = left.height + (depth + 1) := by
        rw [Expr.height, levels, List.length_cons, Expr.height]
        omega
      rw [← height]
      exact ih (fun d hd => hP d (Nat.lt_succ_of_lt hd)) go hts.2 hm above

theorem combines_admissible {comma : Prop} {depth : Nat}
    (hP : ∀ d ≤ depth, (phrases comma d).Admits d) {before ts : List Token} {left : QueryBody}
    {q : Query} {levels : Nat}
    (h : combines comma depth before left ts q) (hts : Lexed ts)
    (hlevels : levels = left.selects.length + depth) (hleft : Node.BodyAdmissible levels left) :
    (Node.query q).Admissible levels := by
  induction depth generalizing before left ts with
  | zero => exact IsQueryTail.admissible (hP 0 (Nat.le_refl _)) h hts hlevels hleft
  | succ depth ih =>
    rcases (combines_succ ..).1 h with tail | ⟨op, us, vs, b, rfl, operand, go⟩
    · exact tail.admissible (hP _ (Nat.le_refl _)) hts hlevels hleft
    · obtain ⟨kind, quantifier, select⟩ := operand
      simp only [lexed_cons, lexed_append] at hts
      have select := select.admissible (hP depth (Nat.le_succ _)) hts.1.2.2
      refine ih (fun d hd => hP d (Nat.le_succ_of_le hd)) go hts.2 ?_ ?_
      · rw [QueryBody.selects_setOperation, List.length_append, List.length_singleton]
        omega
      · refine Node.bodyAdmissible_setOperation.2 ⟨hleft, ?_⟩
        rwa [show levels - (left.selects.length + 1) = depth from by omega]

/-- What is read with some levels is admissible with as many. -/
theorem phrases_admits (comma : Prop) (depth : Nat) : (phrases comma depth).Admits depth := by
  induction depth using Nat.strongRecOn with
  | ind depth ih =>
    cases depth with
    | zero => exact ⟨nofun, nofun⟩
    | succ depth =>
      have hP := ih depth (Nat.lt_succ_self _)
      constructor
      · rintro level ts e ⟨us, vs, o, rfl, operand, fold⟩ hts
        rw [lexed_append] at hts
        obtain ⟨admissible, plain⟩ := operand.admissible hP hts.1
        have height : o.height + depth = depth + 1 := by
          rw [Expr.height, (Expr.leftLevels_eq_nil_iff o).2 plain, List.length_nil]
          omega
        rw [← height] at admissible ⊢
        exact folds_admissible (fun d hd => ih d (Nat.lt_succ_of_lt hd)) fold hts.2 admissible
          (Expr.above_of_level?_eq_none plain level)
      · rintro ts q ⟨us, vs, s, rfl, select, combine⟩ hts
        rw [lexed_append] at hts
        have select := select.admissible hP hts.1
        refine combines_admissible (fun d hd => ih d (Nat.lt_succ_of_le hd)) combine hts.2 ?_
          (Node.bodyAdmissible_select.2 select)
        rw [QueryBody.selects_select, List.length_singleton]
        omega

/-! ## Statements -/

section

variable {P : Phrases} {depth : Nat} (hP : P.Admits depth)

include hP

theorem IsInsertSource.admissible {ts : List Token} {source : InsertSource}
    (h : IsInsertSource P ts source) (hts : Lexed ts) (span : Span) (table : QualifiedName)
    (columns : List Identifier) :
    (Node.statement (.insert ⟨span, table, columns, source⟩)).Admissible depth := by
  rw [Node.admissible_flat_iff rfl]
  cases h with
  | values body =>
    obtain ⟨-, body⟩ := body
    obtain ⟨hne, rows⟩ := body.forall_mem
      (fun _ _ h => Parenthesized.holds (fun _ _ h => Separated.forall_mem hP.wholeExpr h) h)
      (lexed_cons.1 hts).2
    refine ⟨⟨hne, fun row hrow => (rows row hrow).1⟩, ?_⟩
    show ∀ c ∈ List.map Node.expr _, _
    rw [List.forall_mem_map]
    intro e he
    obtain ⟨row, hrow, he⟩ := List.mem_flatten.1 he
    exact (rows row hrow).2 e he
  | query query => exact ⟨trivial, List.forall_mem_singleton.2 (hP.query query hts)⟩

theorem IsInsert.admissible {ts : List Token} {s : Insert} (h : IsInsert P ts s)
    (hts : Lexed ts) : (Node.statement (.insert s)).Admissible depth := by
  cases h with
  | plain insert into table columns source =>
    simp only [lexed_cons, lexed_append] at hts
    exact source.admissible hP hts.2.2.2.2 ..
  | parenthesized insert into table source =>
    simp only [lexed_cons, lexed_append] at hts
    have query := source.holds (fun _ _ h => hP.query h) hts.2.2.2
    exact (Node.admissible_flat_iff rfl).2 ⟨trivial, List.forall_mem_singleton.2 query⟩

theorem IsUpdate.admissible {ts : List Token} {s : Update} (h : IsUpdate P ts s)
    (hts : Lexed ts) : (Node.statement (.update s)).Admissible depth := by
  obtain ⟨update, table, name, set, condition⟩ := h
  simp only [lexed_cons, lexed_append] at hts
  obtain ⟨-, -, -, has, hws⟩ := hts
  obtain ⟨hne, values⟩ := set.holds (fun _ _ h => Separated.forall_mem
    (Q := fun a : Assignment => (Node.expr a.value).Admissible depth) (by
      rintro us a ⟨column, value⟩ hus
      exact value.holds hP.wholeExpr (lexed_append.1 hus).2) h) has
  have condition := condition.forall_mem (fun _ _ h => h.holds hP.wholeExpr) hws
  refine (Node.admissible_flat_iff rfl).2 ⟨hne, List.forall_mem_append.2 ⟨?_, ?_⟩⟩
  · exact List.forall_mem_map.2 values
  · exact List.forall_mem_map.2 fun e he => condition e (Option.mem_toList.1 he)

theorem IsDelete.admissible {ts : List Token} {s : Delete} (h : IsDelete P ts s)
    (hts : Lexed ts) : (Node.statement (.delete s)).Admissible depth := by
  obtain ⟨delete, source, table, name, condition⟩ := h
  simp only [lexed_cons, lexed_append] at hts
  have condition := condition.forall_mem (fun _ _ h => h.holds hP.wholeExpr) hts.2.2.2.2
  exact (Node.admissible_flat_iff rfl).2
    ⟨trivial, List.forall_mem_map.2 fun e he => condition e (Option.mem_toList.1 he)⟩

theorem IsColumnDefinition.admissible {ts : List Token} {c : ColumnDefinition}
    (h : IsColumnDefinition P ts c) (hts : Lexed ts) : (Node.column c).Admissible depth := by
  obtain ⟨name, type, options⟩ := h
  simp only [lexed_append] at hts
  have options := options.forall_mem
    (Q := fun o => ∀ e, o = .default e → (Node.expr e).Admissible depth) (by
      intro us o h hus
      cases h with
      | default value =>
        rintro _ ⟨⟩
        exact value.holds hP.wholeExpr hus
      | _ => nofun) hts.2.2
  exact (Node.admissible_flat_iff rfl).2 ⟨type.wellFormed,
    (Node.forall_children_column _).2 fun e he => options _ he e rfl⟩

theorem IsCreateTable.admissible {ts : List Token} {s : CreateTable}
    (h : IsCreateTable P ts s) (hts : Lexed ts) :
    (Node.statement (.createTable s)).Admissible depth := by
  obtain ⟨create, table, guard, name, body⟩ := h
  simp only [lexed_cons, lexed_append] at hts
  obtain ⟨hne, elements⟩ := body.holds (fun _ _ h => Separated.forall_mem
    (Q := fun x : TableConstraint ⊕ ColumnDefinition =>
      (∀ c, x = .inl c → c.columns ≠ []) ∧ ∀ c, x = .inr c → (Node.column c).Admissible depth)
    (by
      intro us x h hus
      cases h with
      | constraint constraint =>
        refine ⟨?_, nofun⟩
        rintro _ ⟨⟩
        cases constraint with
        | primaryKey primary key columns => exact IsColumnList.ne_nil columns
        | unique unique columns => exact IsColumnList.ne_nil columns
      | column column =>
        refine ⟨nofun, ?_⟩
        rintro _ ⟨⟩
        exact column.admissible hP hus) h) hts.2.2.2.2
  refine (Node.admissible_flat_iff rfl).2 ⟨⟨?_, ?_⟩, ?_⟩
  · -- A list of elements without columns is one of constraints.
    intro hcolumns hconstraints
    obtain ⟨x, xs, rfl⟩ := List.exists_cons_of_ne_nil hne
    cases x <;> simp at hcolumns hconstraints
  · intro c hc
    obtain ⟨x, hx, hxc⟩ := List.mem_filterMap.1 hc
    exact (elements x hx).1 c (by cases x <;> simp_all)
  · refine List.forall_mem_map.2 fun c hc => ?_
    obtain ⟨x, hx, hxc⟩ := List.mem_filterMap.1 hc
    exact (elements x hx).2 c (by cases x <;> simp_all)

/-- A statement that is read with some levels is admissible with as many. -/
theorem IsStatement.admissible {ts : List Token} {s : Statement} (h : IsStatement P ts s)
    (hts : Lexed ts) : (Node.statement s).Admissible depth := by
  cases h with
  | query body =>
    exact (Node.admissible_flat_iff rfl).2
      ⟨trivial, List.forall_mem_singleton.2 (hP.query body hts)⟩
  | insert body => exact body.admissible hP hts
  | update body => exact body.admissible hP hts
  | delete body => exact body.admissible hP hts
  | createTable body => exact body.admissible hP hts
  | createIndex body =>
    obtain ⟨create, mark, index, name, on, columns⟩ := body
    exact (Node.admissible_flat_iff rfl).2 ⟨columns.ne_nil, nofun⟩
  | createDatabase | drop => exact (Node.admissible_flat_iff rfl).2 ⟨trivial, nofun⟩
  | alterTable body =>
    obtain ⟨alter, table, name, alteration⟩ := body
    simp only [lexed_cons, lexed_append] at hts
    rw [Node.admissible_flat_iff rfl]
    cases alteration with
    | addColumn add noise column =>
      simp only [lexed_cons, lexed_append] at hts
      exact ⟨trivial, List.forall_mem_singleton.2 (column.admissible hP hts.2.2.2.2.2)⟩
    | _ => exact ⟨trivial, nofun⟩

end

end SqlSyntax.Grammar
