import SqlSyntax.Proofs.Content.Expr
import SqlSyntax.Proofs.Grammar.Query

/-!
# Content of queries

The clauses of a query yield the content of their trees, each in a frame of its
own: an `ORDER BY` is where `NULLS FIRST` can stand, and a limit where a comma
changes the order of what is said.

## Main results

* `IsSelect.yields`, `IsOrderBy.yields`, `IsLimit.yields`
* `IsQueryTail.yields`, `IsSetOperand.yields` — what is behind a selection yields
  what it adds to it.
-/

namespace SqlSyntax.Grammar

open Content

section

variable {P : Phrases} (hP : P.Yielding) {R : Bool → Prop} (hR : P.comma → R true)
  {o : List Frame} {K : TokenKind → Prop} {ts : List Token}

/-! ## Selected items -/

include hP hR in
theorem IsSelectItem.yields {i : SelectItem} (h : IsSelectItem P ts i) :
    Yields (Calm R .plain o Opens) (Calm R .plain o Anything) ts i.content := by
  cases h with
  | wildcard kind => exact yields_operator kind trivial
  | qualifiedWildcard name dot star =>
    have name := name.yields (R := R) (f := .plain) (o := o) (K := Opens) fun _ => Opens.names
    have dot := yields_dot (R := R) (f := .plain) (o := o) (K := Named) (L := Anything) dot trivial
    have star := yields_operator (R := R) (f := .plain) (o := o) (K := Anything) (L := Anything)
      star trivial
    exact name.append (Yields.append dot star)
  | expr item name =>
    have item := hP.expr (R := R) (f := .plain) (o := o) (K := Opens) hR nofun (fun _ => id) item
    exact item.append name.yields

/-! ## Relations -/

include hP hR in
theorem IsRelation.yields {r : Relation} (hK : ∀ k, K k → k ≠ .keyword .CAST)
    (h : IsRelation P ts r) :
    Yields (Calm R .plain o K) (Calm R .plain o Anything) ts r.content := by
  cases h with
  | table name alias? =>
    have name : Yields (Calm R .plain o K) _ _ _ := name.yields fun _ _ => nofun
    exact name.append alias?.yields
  | derived opening query closing alias? =>
    have inner : Yields (Calm R .plain o K) (Calm R .plain o Anything) _ _ :=
      (Parenthesized.intro opening query closing).yields nofun hK trivial
        fun _ inner => hP.query hR inner
    simpa [Relation.content] using inner.append alias?.yields

theorem IsJoinKind.yields {kind : JoinKind} (h : IsJoinKind ts kind) :
    Yields (Calm R .plain o Anything) (Calm R .plain o (· = .keyword .JOIN)) ts kind.content := by
  have join : ∀ {t : Token} {K : TokenKind → Prop}, t.kind = .keyword .JOIN →
      Yields (Calm R .plain o K) (Calm R .plain o (· = .keyword .JOIN)) [t] [.keyword .JOIN] :=
    fun kind => yields_keyword kind rfl nofun rfl
  cases h with
  | plain word => exact join word
  | inner words =>
    obtain _ | ⟨inner, _ | ⟨word, _ | _⟩⟩ := words
    exact Yields.append (yields_silent (L := Anything) inner rfl trivial) (join word)
  | cross words =>
    obtain _ | ⟨cross, _ | ⟨word, _ | _⟩⟩ := words
    exact .keyword cross rfl (join (K := Anything) word) trivial
  | outer side word noise last =>
    have noise := noise.yields (R := R) (f := .plain) (o := o) (K := Anything) (L := Anything) rfl
      (fun _ => id) trivial
    have plain : isPlain kind.keyword := by rcases side with rfl | rfl | rfl <;> rfl
    refine (YieldsBefore.keyword word plain (noise.append (join last)) trivial).congr ?_
    rcases side with rfl | rfl | rfl <;> rfl

include hP hR in
theorem IsJoinCondition.yields {kind : JoinKind} {c : JoinCondition}
    (h : IsJoinCondition P kind ts c) :
    Yields (Calm R .plain o Anything) (Calm R .plain o Anything) ts c.content := by
  cases h with
  | on _ condition =>
    exact (expr_behind hP hR (f := .plain) nofun condition rfl ⟨nofun, rfl⟩).forget
  | shared _ columns =>
    exact columns.yields (L := (· = .keyword .USING)) rfl rfl
      fun _ list => IsColumnList.yields list nofun (fun _ h => h ▸ nofun) trivial
  | none => exact yields_nil fun _ => id

include hP hR in
theorem IsJoin.yields {j : Join} (h : IsJoin P ts j) :
    Yields (Calm R .plain o Anything) (Calm R .plain o Anything) ts j.content := by
  obtain ⟨words, relation, condition⟩ := h
  have relation := relation.yields hP hR (o := o) (K := (· = .keyword .JOIN)) fun _ h => h ▸ nofun
  exact words.yields.append (relation.append (condition.yields hP hR))

include hP hR in
theorem IsJoinedTable.yields {t : JoinedTable} (h : IsJoinedTable P ts t) :
    Yields (Calm R .plain o Opens) (Calm R .plain o Anything) ts t.content := by
  obtain ⟨relation, joins⟩ := h
  have relation := relation.yields hP hR (o := o) (K := Opens) fun _ h => h.1
  exact relation.append (joins.yields fun _ _ join => join.yields hP hR)

/-! ## Clauses -/

include hP hR in
theorem IsFrom.yields {f : From} (h : IsFrom P ts f) :
    Yields (Calm R .plain o Anything) (Calm R .plain o Anything) ts f.content := by
  obtain ⟨kind, body⟩ := h
  have body := body.yields (A := Calm R .plain o Opens) (B := Calm R .plain o Anything)
    (fun _ _ table => table.yields hP hR) fun _ kind => yields_comma kind nofun nofun ⟨nofun, rfl⟩
  exact .keyword kind rfl body ⟨nofun, rfl⟩

include hP hR in
theorem IsGroupBy.yields {g : GroupBy} (h : IsGroupBy P ts g) :
    Yields (Calm R .plain o Anything) (Calm R .plain o Anything) ts g.content := by
  obtain ⟨group, by_, body⟩ := h
  have keys := exprs_yields hP hR (f := .plain) (o := o) (K := Opens) nofun nofun nofun body
    fun _ => id
  exact .keyword (L := Anything) group rfl (.keyword by_ rfl keys.forget ⟨nofun, rfl⟩) trivial

theorem IsQuantifier.yields {distinct : Bool} (h : IsQuantifier ts distinct) :
    Yields (Calm R .plain o (· = .keyword .SELECT)) (Calm R .plain o Opens) ts
      (flag .DISTINCT distinct) := by
  cases h with
  | distinct kind => exact yields_keyword kind rfl nofun ⟨nofun, rfl⟩
  | all noise =>
    cases noise with
    | absent => exact yields_nil fun _ hm => hm.imp fun _ h => h ▸ ⟨nofun, rfl⟩
    | present kind => exact yields_noiseAll kind ⟨nofun, rfl⟩

include hP hR in
theorem optional_expr_behind {k : Keyword} {e : Option Expr}
    (h : Optional (Behind (.keyword k) P.wholeExpr) ts e) (plain : isPlain k)
    (opens : Opens (.keyword k)) :
    Yields (Calm R .plain o Anything) (Calm R .plain o Anything) ts
      (Expr.contentAfter [.keyword k] e) := by
  have clause := h.yields (A := Calm R .plain o Anything) (c := (.keyword k :: Expr.content ·))
    (fun _ => id) fun _ _ part => (expr_behind hP hR (f := .plain) nofun part plain opens).forget
  exact clause.congr (by simp)

include hP hR in
theorem IsSelect.yields {s : Select} (h : IsSelect P ts s) :
    Yields (Calm R .plain o K) (Calm R .plain o Anything) ts s.content := by
  obtain ⟨kind, quantifier, items, source, condition, groupBy, having⟩ := h
  have quantifier := quantifier.yields (R := R) (o := o)
  have items := items.yields (A := Calm R .plain o Opens) (B := Calm R .plain o Anything)
    (fun _ _ item => item.yields hP hR) fun _ kind => yields_comma kind nofun nofun ⟨nofun, rfl⟩
  have source := source.yields (A := Calm R .plain o Anything) (fun _ => id)
    fun _ _ clause => clause.yields hP hR
  have condition := optional_expr_behind hP hR (o := o) condition rfl ⟨nofun, rfl⟩
  have groupBy := groupBy.yields (A := Calm R .plain o Anything) (fun _ => id)
    fun _ _ clause => clause.yields hP hR
  have having := optional_expr_behind hP hR (o := o) having rfl ⟨nofun, rfl⟩
  have clauses := source.append (condition.append (groupBy.append having))
  exact (YieldsBefore.keyword kind rfl (quantifier.append (items.append clauses)) rfl).congr
    (by simp [Select.content])

/-! ## Order and limit -/

theorem IsDirection.yields {d : Direction} (h : IsDirection ts d) :
    Yields (Calm R .ordered o Done) (Calm R .ordered o Done) ts d.content := by
  cases h with
  | descending kind => exact yields_keyword kind rfl nofun rfl
  | ascending noise => exact noise.yields rfl (fun _ => id) rfl

theorem IsNulls.yields {n : NullsPlacement} (h : IsNulls ts n) :
    Yields (Calm R .ordered o Done) (Calm R .ordered o Done) ts n.content := by
  obtain ⟨nulls, place⟩ := h
  have place : Yields (Calm R .ordered o Done) _ _ _ :=
    yields_placement place (by cases n <;> simp [NullsPlacement.word, placementWords])
  exact Yields.append (yields_placement nulls (by simp [placementWords])) place

include hP hR in
theorem IsOrderItem.yields {i : OrderItem} (h : IsOrderItem P ts i) :
    Yields (Calm R .ordered o Opens) (Calm R .ordered o Done) ts i.content := by
  obtain ⟨item, direction, nulls⟩ := h
  have item := hP.expr (R := R) (f := .ordered) (o := o) (K := Opens) hR nofun (fun _ => id) item
  have nulls := nulls.yields (A := Calm R .ordered o Done) (fun _ => id)
    fun _ _ placement => placement.yields
  exact item.append (direction.yields.append nulls)

include hP hR in
theorem IsOrderBy.yields {b : OrderBy} (h : IsOrderBy P ts b) :
    Yields (Calm R .plain o Anything) (Calm R .ordered o Done) ts b.content := by
  obtain ⟨order, by_, body⟩ := h
  have items := body.yields (A := Calm R .ordered o Opens) (B := Calm R .ordered o Done)
    (fun _ _ item => item.yields hP hR) fun _ kind => yields_comma kind nofun nofun ⟨nofun, rfl⟩
  exact Yields.append (yields_order order) (.keyword by_ rfl items ⟨nofun, rfl⟩)

include hP hR in
/-- A limit yields its count first, also where the offset is written first. -/
theorem IsLimit.yields {l : Limit} (h : IsLimit P ts l) :
    Yields (Ends R o) (Ends R o) ts l.content := by
  have opens : Opens (.keyword .LIMIT) := ⟨nofun, rfl⟩
  cases h with
  | count kind count offset =>
    have count := hP.expr (R := R) (f := .limited) (o := o) (K := Opens) hR nofun (fun _ => id)
      count
    have offset := offset.yields (A := Calm R .limited o Done) (c := Expr.content) (fun _ => id)
      fun _ _ part => by
        obtain ⟨kind, part⟩ := part
        have word := yields_silent (R := R) (f := .limited) (o := o) (K := Done) (L := Opens)
          kind rfl ⟨nofun, rfl⟩
        exact word.append (hP.expr hR nofun (fun _ => id) part)
    exact (Yields.append (yields_limit kind opens) (count.append offset)).mono (fun _ => id)
      fun _ => At.ends
  | @offsetFirst t os cs b c allowed kind offset count =>
    obtain ⟨comma, count⟩ := count
    have offset := hP.expr (R := R) (f := .limited) (o := o) (K := Opens) hR nofun (fun _ => id)
      offset
    have comma := yields_limitComma (R := R) (o := o) (K := Done) (L := Opens) comma ⟨nofun, rfl⟩
    have count := hP.expr (R := (· = true)) (f := .limited) (o := o) (K := Opens)
      (fun _ => rfl) nofun (fun _ => id) count
    have swapped := (offset.append (comma.append count)).perm
      (d := c.content ++ b.content) List.perm_append_comm fun _ hm => hm.reordered
    refine ((Yields.append (yields_limit kind opens) swapped).mono (fun _ => id) ?_).congr
      (by simp [Limit.content])
    intro m hm
    exact ⟨hm.outer, hm.expects, hm.skip, hm.reordered ▸ hR allowed⟩

/-! ## Combining selections -/

include hP hR in
theorem IsSetOperand.yields {left body : QueryBody} {op : SetOperator}
    (h : IsSetOperand P left op ts body) :
    ∃ c, body.content = left.content ++ c ∧
      Yields (Calm R .plain o Anything) (Calm R .plain o Anything) ts c := by
  obtain @⟨t, as, ss, all, right, kind, quantifier, select⟩ := h
  have quantifier : Yields (Calm R .plain o (· = .keyword op.keyword)) (Calm R .plain o Anything)
      as (flag .ALL all) := by
    cases quantifier with
    | absent => exact yields_nil fun _ hm => hm.imp fun _ _ => trivial
    | present kind =>
      exact yields_all kind (fun _ h => h ▸ by cases op <;> exact nofun) trivial
  have plain : isPlain op.keyword := by cases op <;> rfl
  exact ⟨_, rfl, .keyword kind plain (quantifier.append (select.yields hP hR)) rfl⟩

include hP hR in
theorem IsQueryTail.yields {before : List Token} {body : QueryBody} {q : Query}
    (h : IsQueryTail P before body ts q) :
    ∃ c, q.content = body.content ++ c ∧ Yields (Calm R .plain o Anything) (Ends R o) ts c := by
  obtain ⟨orderBy, limit⟩ := h
  have orderBy := orderBy.yields (A := Calm R .plain o Anything) (B := Ends R o) (fun _ => At.ends)
    fun _ _ clause => (clause.yields hP hR).mono (fun _ => id) fun _ => At.ends
  have limit := limit.yields (A := Ends R o) (fun _ => id) fun _ _ clause => clause.yields hP hR
  exact ⟨_, by simp [Query.content], orderBy.append limit⟩

end

end SqlSyntax.Grammar
