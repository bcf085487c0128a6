import SqlSyntax.Proofs.Parser.Guidance.Expr
import SqlSyntax.Proofs.Parser.Soundness.Query

/-!
# Guidance of the parsers of queries

Every clause notes the keyword that it starts with, if it is absent, and every
item what may come behind it. The readings of the phrase around it say that it
can.
-/

namespace SqlSyntax.Parser

open Grammar Expectation

variable {V : Beginnings} {P : Phrases} {sub : Nested} {before : List Token} {s : ParserState}

/-! ## Selected items -/

theorem atQualifiedWildcard_guides (ready : Ready V before s) :
    Guides V before atQualifiedWildcard s := by
  refine .bindLook (Q := fun t => t = s) ready (.of_ok_nil rfl (.refl ready.isEnd) ready)
    (fun _ _ h => ?_) fun t ht => ?_
  · obtain ⟨rfl, rfl⟩ := EStateM.Result.ok.inj h
    exact ⟨rfl, rfl⟩
  obtain rfl := ht
  split
  · exact .pure ready
  · refine .map ?_
    unfold Guides raiseFailure
    cases t.failure with
    | some e => trivial
    | none => exact ⟨[], .refl ready.isEnd, by rwa [List.append_nil]⟩

theorem qualifiedWildcard_guides : GuidesTo V qualifiedWildcard (IsSelectItem P) := by
  intro before s h ready
  have dot := kind_punctuation .dot
  have star := kind_operator .times
  refine .bindSound ready qualifiedName_sound (qualifiedName_guides
    (fun ts n hn => h.part (.qualifiedWildcard hn dot star) (by simp)) ready)
    fun n s₁ ts _ ready₁ name => ?_
  refine .punctuation ready₁ (fun d dot => h.part (.qualifiedWildcard name dot star) (by simp))
    fun d s₂ dot _ ready₂ => ?_
  exact .operator ready₂ (fun w star => h.part (.qualifiedWildcard name dot star) (by simp))
    fun _ _ _ _ ready₃ => .spanned ready₃

section

variable (hsub : GuidesNested V P sub)

include hsub

theorem selectItem_guides : GuidesTo V (selectItem sub) (IsSelectItem P) := by
  intro before s h ready
  refine .operator? ready (fun t star => h (.wildcard star)) (fun _ _ _ _ ready₁ => .pure ready₁)
    fun s₁ _ ready₁ => ?_
  refine .bindLook (Q := fun _ => True) ready₁ (atQualifiedWildcard_guides ready₁)
    (fun _ _ h => ⟨atQualifiedWildcard_eq_ok h, trivial⟩) fun b _ => ?_
  split
  · exact qualifiedWildcard_guides h ready₁
  · refine .bindSound ready₁ hsub.sound.wholeExpr (hsub.wholeExpr
      (fun ts e he => h.part (.expr he .none) (by simp)) ready₁) fun e s₂ ts _ ready₂ item => ?_
    refine .bindSound ready₂ alias?_sound (alias?_guides
      (fun us label hl => h.part (.expr item hl) (by simp)) ready₂)
      fun _ _ _ _ ready₃ _ => .spanned ready₃

/-! ## Relations -/

theorem relation_guides : GuidesTo V (relation sub) (IsRelation P) := by
  intro before s h ready
  obtain ⟨qs, q, some_⟩ := hsub.someQuery
  have closing := kind_punctuation .closeParen
  refine .punctuation? ready
    (fun t opening => h.part (.derived opening some_ closing .none) (by simp))
    (fun t s₁ opening _ ready₁ => ?_) fun s₁ _ ready₁ => ?_
  · refine .bindSound ready₁ hsub.sound.query (hsub.query
      (fun ts q hq => h.part (.derived opening hq closing .none) (by simp)) ready₁)
      fun q s₂ qs _ ready₂ query => ?_
    refine .punctuation ready₂
      (fun c closing => h.part (.derived opening query closing .none) (by simp))
      fun c s₃ closing _ ready₃ => ?_
    exact .bindSound ready₃ alias?_sound (alias?_guides
      (fun us label hl => h.part (.derived opening query closing hl) (by simp)) ready₃)
      fun _ _ _ _ ready₄ _ => .spanned ready₄
  · refine .bindSound ready₁ qualifiedName_sound (qualifiedName_guides
      (fun ts n hn => h.part (.table hn .none) (by simp)) ready₁) fun n s₂ ts _ ready₂ name => ?_
    exact .bindSound ready₂ alias?_sound (alias?_guides
      (fun us label hl => h.part (.table name hl) (by simp)) ready₂)
      fun _ _ _ _ ready₃ _ => .spanned ready₃

end

/-! ## Joins -/

theorem someRelation (P : Phrases) : ∃ ts r, IsRelation P ts r := by
  obtain ⟨ts, n, hn⟩ := someName
  exact ⟨_, _, .table hn .none⟩

/-- The words of a join in front of a relation. -/
theorem exists_isJoin {ws rs cs : List Token} {kind : JoinKind} {r : Relation} {c : JoinCondition}
    (words : IsJoinKind ws kind) (relation : IsRelation P rs r)
    (condition : IsJoinCondition P kind cs c) : ∃ j, IsJoin P (ws ++ (rs ++ cs)) j := by
  obtain ⟨t, ks, rfl⟩ : ∃ t ks, ws = t :: ks := by
    cases words with
    | plain | outer => exact ⟨_, _, rfl⟩
    | inner words | cross words =>
      cases words
      exact ⟨_, _, rfl⟩
  exact ⟨_, .intro words relation condition⟩

theorem joinKind?_guides (h : ∀ {ws kind}, IsJoinKind ws kind → V.holds (before ++ ws))
    (ready : Ready V before s) : Guides V before joinKind? s := by
  have join := kind_keyword .JOIN
  have single : ∀ {t : Token} (kind : JoinKind), kind = .inner ∨ kind = .cross →
      t.kind = .keyword kind.keyword → V.holds (before ++ [t]) := by
    intro t kind side word
    rcases side with rfl | rfl
    · exact V.of_prefix (h (.inner (.cons word (.cons join .nil)))) (by simp)
    · exact V.of_prefix (h (.cross (.cons word (.cons join .nil)))) (by simp)
  have outer : ∀ {t : Token} (kind : JoinKind), kind = .left ∨ kind = .right ∨ kind = .full →
      t.kind = .keyword kind.keyword → V.holds (before ++ [t]) := fun kind side word =>
    V.of_prefix (h (.outer side word .absent join)) (by simp)
  have absent : Guides V before (do
      note [.keyword .JOIN, .keyword .INNER, .keyword .LEFT, .keyword .RIGHT, .keyword .FULL,
        .keyword .CROSS]
      return (none : Option JoinKind)) s := by
    refine .bindNote ready ?_ fun _ _ ready₁ => .pure ready₁
    refine .cons trivial (h (.plain join)) ?_
    refine .cons trivial (single .inner (.inl rfl) rfl) ?_
    refine .cons trivial (outer .left (.inl rfl) rfl) ?_
    refine .cons trivial (outer .right (.inr (.inl rfl)) rfl) ?_
    refine .cons trivial (outer .full (.inr (.inr rfl)) rfl) ?_
    exact .cons trivial (single .cross (.inr rfl) rfl) .nil
  have side : ∀ kind : JoinKind, kind = .left ∨ kind = .right ∨ kind = .full →
      (ahead s).kind = .keyword kind.keyword → Guides V before (do
        let _ ← next
        let _ ← keyword? .OUTER
        return some kind) s := fun kind side word =>
    .bindNext ready (by simp [Token.isEnd, word]) fun _ _ ready₁ => .keyword? ready₁
      (fun u noise => V.of_prefix (h (.outer side word (.present noise) join)) (by simp))
      (fun _ _ _ _ ready₂ => .pure ready₂) fun _ _ ready₂ => .pure ready₂
  refine .bindPeek ready ?_
  cases word : (ahead s).kind with
  | keyword k =>
    have here : (ahead s).isEnd = false := by simp [Token.isEnd, word]
    cases k with
    | JOIN => exact .pure ready
    | INNER | CROSS => exact .bindNext ready here fun _ _ ready₁ => .pure ready₁
    | LEFT => exact side .left (.inl rfl) word
    | RIGHT => exact side .right (.inr (.inl rfl)) word
    | FULL => exact side .full (.inr (.inr rfl)) word
    | _ => exact absent
  | _ => exact absent

section

variable (hsub : GuidesNested V P sub)

include hsub

theorem joinCondition_guides (kind : JoinKind) :
    GuidesTo V (joinCondition sub kind) (IsJoinCondition P kind) := by
  intro before s h ready
  obtain ⟨xs, x, some_⟩ := hsub.someExpr 0
  unfold joinCondition
  split
  · exact .pure ready
  · rename_i inner
    refine .keyword? ready (fun t on => h.part (.on inner (.intro on some_)) (by simp))
      (fun t s₁ on _ ready₁ => ?_) fun s₁ _ ready₁ => ?_
    · exact .map (hsub.wholeExpr
        (fun ts e he => h.part (.on inner (.intro on he)) (by simp)) ready₁)
    · obtain ⟨cs, columns, someColumns⟩ := someColumnList
      refine .keyword? ready₁
        (fun t using_ => h.part (.shared inner (.intro using_ someColumns)) (by simp))
        (fun t s₂ using_ _ ready₂ => ?_) fun _ _ ready₂ => .pure ready₂
      exact .map (columnList_guides
        (fun ts cs hcs => h.part (.shared inner (.intro using_ hcs)) (by simp)) ready₂)

theorem join?_guides (h : Fits V before (IsJoin P)) (ready : Ready V before s) :
    Guides V before (join? sub) s := by
  obtain ⟨rs, r, some_⟩ := someRelation P
  have begins : ∀ {ws rs cs kind r c}, IsJoinKind ws kind → IsRelation P rs r →
      IsJoinCondition P kind cs c → V.holds (before ++ (ws ++ (rs ++ cs))) :=
    fun words relation condition =>
      (exists_isJoin words relation condition).elim fun _ join => h join
  refine .bindPeek ready ?_
  refine .bindSound ready joinKind?_sound (joinKind?_guides (fun words =>
    V.of_prefix (begins words some_ .none) (by simp)) ready) fun o s₁ ks _ ready₁ words => ?_
  rcases words with ⟨rfl, rfl⟩ | ⟨kind, rfl, words⟩
  · exact .pure ready₁
  refine .keyword ready₁ (fun u join =>
    V.of_prefix (begins (words.isJoinKind join) some_ .none) (by simp)) fun u s₂ join _ ready₂ => ?_
  refine .bindSound ready₂ (relation_sound hsub.sound) (relation_guides hsub
    (fun ts r hr => V.of_prefix (begins (words.isJoinKind join) hr .none) (by simp)) ready₂)
    fun r s₃ rs _ ready₃ relation => ?_
  exact .bindSound ready₃ (joinCondition_sound hsub.sound kind) (joinCondition_guides hsub kind
    (fun ts c hc => V.of_prefix (begins (words.isJoinKind join) relation hc) (by simp)) ready₃)
    fun _ _ _ _ ready₄ _ => .spanned ready₄

theorem joinedTable_guides : GuidesTo V (joinedTable sub) (IsJoinedTable P) := by
  intro before s h ready
  refine .bindSound ready (relation_sound hsub.sound) (relation_guides hsub
    (fun ts r hr => h.part (.intro hr .nil) (by simp)) ready) fun r s₁ rs _ ready₁ relation => ?_
  refine .bindSound ready₁
    (fun _ _ _ => collect_sound (optionalStep_sound (join?_sound hsub.sound) (by intros; rfl)
      (by intros; rfl)))
    (collect_guides (optionalStep_sound (join?_sound hsub.sound) (by intros; rfl)
      (by intros; rfl)) (fun before as s h ready => ?_)
      (fun ts js hjs => h.part (.intro relation hjs) (by simp)) ready₁)
    fun _ _ _ _ ready₂ _ => .spanned ready₂
  refine (join?_guides hsub (fun ts j hj => h.part (.cons hj .nil) (by simp)) ready).bindPure ?_
  intro o
  cases o <;> exact ⟨_, rfl⟩

/-! ## Clauses -/

omit hsub in
theorem someSelect (P : Phrases) : ∃ ts s, IsSelect P ts s :=
  ⟨_, _, .intro (kind_keyword .SELECT) (.all .absent)
    (separated_one (.wildcard (kind_operator .times))) .none .none .none .none⟩

theorem fromClause?_guides : GuidesTo V (fromClause? sub) (Optional (IsFrom P)) := by
  intro before s h ready
  obtain ⟨rs, r, some_⟩ := someRelation P
  refine .keyword? ready
    (fun t kind => h.part (.some (.intro kind (separated_one (.intro some_ .nil)))) (by simp))
    (fun t s₁ kind _ ready₁ => ?_) fun _ _ ready₁ => .pure ready₁
  exact .bindSound ready₁ (commaSeparated_sound (joinedTable_sound hsub.sound))
    (commaSeparated_guides (joinedTable_sound hsub.sound) (joinedTable_guides hsub)
      (fun ts tables ht => h.part (.some (.intro kind ht)) (by simp)) ready₁)
    fun _ _ _ _ ready₂ _ => .spanned ready₂

theorem conditionAfter?_guides (k : Keyword) :
    GuidesTo V (conditionAfter? sub k) (Optional (Behind (.keyword k) P.wholeExpr)) := by
  intro before s h ready
  obtain ⟨xs, x, some_⟩ := hsub.someExpr 0
  refine .keyword? ready (fun t kind => h.part (.some (.intro kind some_)) (by simp))
    (fun t s₁ kind _ ready₁ => ?_) fun _ _ ready₁ => .pure ready₁
  exact .map (hsub.wholeExpr (fun ts e he => h.part (.some (.intro kind he)) (by simp)) ready₁)

theorem groupBy?_guides : GuidesTo V (groupBy? sub) (Optional (IsGroupBy P)) := by
  intro before s h ready
  obtain ⟨xs, x, some_⟩ := hsub.someExpr 0
  refine .keyword? ready (fun t group => h.part
    (.some (.intro group (kind_keyword .BY) (separated_one some_))) (by simp))
    (fun t s₁ group _ ready₁ => ?_) fun _ _ ready₁ => .pure ready₁
  refine .keyword ready₁
    (fun u by_ => h.part (.some (.intro group by_ (separated_one some_))) (by simp))
    fun u s₂ by_ _ ready₂ => ?_
  exact .bindSound ready₂ (commaSeparated_sound hsub.sound.wholeExpr)
    (commaSeparated_guides hsub.sound.wholeExpr hsub.wholeExpr
      (fun ts keys hk => h.part (.some (.intro group by_ hk)) (by simp)) ready₂)
    fun _ _ _ _ ready₃ _ => .spanned ready₃

theorem select_guides : GuidesTo V (select sub) (IsSelect P) := by
  intro before s h ready
  have star : CommaSeparated (IsSelectItem P) [(Expectation.operator .times).sample] _ :=
    separated_one (.wildcard (kind_operator .times))
  refine .keyword ready
    (fun t kind => h.part (.intro kind (.all .absent) star .none .none .none .none) (by simp))
    fun t s₁ kind _ ready₁ => ?_
  -- The clauses, once the quantifier is read.
  have clauses : ∀ {ds s₂ distinct}, IsQuantifier ds distinct →
      Ready V (before ++ [t] ++ ds) s₂ → Guides V (before ++ [t] ++ ds)
        (do
          let projection ← commaSeparated (selectItem sub)
          let source ← fromClause? sub
          let condition ← conditionAfter? sub .WHERE
          let groupBy ← groupBy? sub
          let having ← conditionAfter? sub .HAVING
          return (⟨← spanFrom t.span, distinct, projection, source, condition, groupBy, having⟩ :
            Select)) s₂ := by
    intro ds s₂ distinct quantifier ready₂
    refine .bindSound ready₂ (commaSeparated_sound (selectItem_sound hsub.sound))
      (commaSeparated_guides (selectItem_sound hsub.sound) (selectItem_guides hsub)
        (fun ps _ items => h.part (.intro kind quantifier items .none .none .none .none)
          (by simp)) ready₂) fun projection s₃ ps _ ready₃ items => ?_
    refine .bindSound ready₃ (fromClause?_sound hsub.sound) (fromClause?_guides hsub
      (fun fs _ source => h.part (.intro kind quantifier items source .none .none .none)
        (by simp)) ready₃) fun f s₄ fs _ ready₄ source => ?_
    refine .bindSound ready₄ (conditionAfter?_sound hsub.sound .WHERE)
      (conditionAfter?_guides hsub .WHERE (fun ws _ condition =>
        h.part (.intro kind quantifier items source condition .none .none) (by simp)) ready₄)
      fun w s₅ ws _ ready₅ condition => ?_
    refine .bindSound ready₅ (groupBy?_sound hsub.sound) (groupBy?_guides hsub
      (fun gs _ groupBy => h.part (.intro kind quantifier items source condition groupBy .none)
        (by simp)) ready₅) fun g s₆ gs _ ready₆ groupBy => ?_
    exact .bindSound ready₆ (conditionAfter?_sound hsub.sound .HAVING)
      (conditionAfter?_guides hsub .HAVING (fun hs _ having =>
        h.part (.intro kind quantifier items source condition groupBy having) (by simp)) ready₆)
      fun _ _ _ _ ready₇ _ => .spanned ready₇
  have begins : ∀ {ds distinct}, IsQuantifier ds distinct → V.holds (before ++ [t] ++ ds) :=
    fun quantifier => h.part (.intro kind quantifier star .none .none .none .none) (by simp)
  refine .keyword? ready₁ (fun u distinct => begins (.distinct distinct))
    (fun u s₂ distinct _ ready₂ => clauses (.distinct distinct) ready₂) fun s₂ _ ready₂ => ?_
  exact .noise ready₂ (fun u all => begins (.all (.present all)))
    fun _ ds s₃ noise _ ready₃ => clauses (.all noise) ready₃

end

theorem direction_guides : GuidesTo V direction IsDirection := by
  intro before s h ready
  refine .keyword? ready (fun t kind => h (.descending kind)) (fun _ _ _ _ ready₁ => .pure ready₁)
    fun s₁ _ ready₁ => ?_
  exact .keyword? ready₁ (fun t kind => h (.ascending (.present kind)))
    (fun _ _ _ _ ready₂ => .pure ready₂) fun _ _ ready₂ => .pure ready₂

theorem nullsPlacement?_guides : GuidesTo V nullsPlacement? (Optional IsNulls) := by
  intro before s h ready
  have first : IsWord NullsPlacement.first.word [(Expectation.word "FIRST").sample] :=
    .intro rfl (by decide +kernel)
  refine .word? ready (by simp [contextualWords])
    (fun t kind spelled => h.part (.some (.intro (.intro kind spelled) first)) (by simp))
    (fun t s₁ kind spelled _ ready₁ => ?_) fun _ _ ready₁ => .pure ready₁
  have nulls : IsWord "NULLS" [t] := .intro kind spelled
  have place : ∀ {u : Token} (n : NullsPlacement), u.kind = .identifier .bare →
      capitals u.text = n.word → V.holds (before ++ [t] ++ [u]) := fun n kind spelled =>
    h.part (.some (.intro nulls (.intro kind spelled))) (by simp)
  refine .word? ready₁ (by simp [contextualWords]) (fun u kind spelled => place .first kind spelled)
    (fun _ _ _ _ _ ready₂ => .pure ready₂) fun s₂ _ ready₂ => ?_
  exact .word? ready₂ (by simp [contextualWords]) (fun u kind spelled => place .last kind spelled)
    (fun _ _ _ _ _ ready₃ => .pure ready₃) fun _ _ ready₃ => .unexpected ready₃

section

variable (hsub : GuidesNested V P sub)

include hsub

theorem orderItem_guides : GuidesTo V (orderItem sub) (IsOrderItem P) := by
  intro before s h ready
  have ascending : IsDirection [] .ascending := .ascending .absent
  refine .bindSound ready hsub.sound.wholeExpr (hsub.wholeExpr
    (fun es e he => h.part (.intro he ascending .none) (by simp)) ready)
    fun e s₁ es _ ready₁ item => ?_
  refine .bindSound ready₁ direction_sound (direction_guides
    (fun ds d hd => h.part (.intro item hd .none) (by simp)) ready₁)
    fun d s₂ ds _ ready₂ direction => ?_
  exact .bindSound ready₂ nullsPlacement?_sound (nullsPlacement?_guides
    (fun ns n hn => h.part (.intro item direction hn) (by simp)) ready₂)
    fun _ _ _ _ ready₃ _ => .spanned ready₃

theorem orderBy?_guides : GuidesTo V (orderBy? sub) (Optional (IsOrderBy P)) := by
  intro before s h ready
  obtain ⟨xs, x, some_⟩ := hsub.someExpr 0
  have item : CommaSeparated (IsOrderItem P) (xs ++ ([] ++ [])) _ :=
    separated_one (.intro some_ (.ascending .absent) .none)
  refine .keyword? ready
    (fun t order => h.part (.some (.intro order (kind_keyword .BY) item)) (by simp))
    (fun t s₁ order _ ready₁ => ?_) fun _ _ ready₁ => .pure ready₁
  refine .keyword ready₁ (fun u by_ => h.part (.some (.intro order by_ item)) (by simp))
    fun u s₂ by_ _ ready₂ => ?_
  exact .bindSound ready₂ (commaSeparated_sound (orderItem_sound hsub.sound))
    (commaSeparated_guides (orderItem_sound hsub.sound) (orderItem_guides hsub)
      (fun ts items hi => h.part (.some (.intro order by_ hi)) (by simp)) ready₂)
    fun _ _ _ _ ready₃ _ => .spanned ready₃

theorem limit?_guides : GuidesTo V (limit? sub) (Optional (IsLimit P)) := by
  intro before s h ready
  obtain ⟨xs, x, some_⟩ := hsub.someExpr 0
  have comma := hsub.sound.comma
  refine .keyword? ready (fun t kind => h.part (.some (.count kind some_ .none)) (by simp))
    (fun t s₁ kind _ ready₁ => ?_) fun _ _ ready₁ => .pure ready₁
  refine .bindSound ready₁ hsub.sound.wholeExpr (hsub.wholeExpr
    (fun ts e he => h.part (.some (.count kind he .none)) (by simp)) ready₁)
    fun e s₂ es _ ready₂ first => ?_
  refine .punctuation? ready₂
    (fun u sep => h.part (.some (.offsetFirst comma kind first (.intro sep some_))) (by simp))
    (fun u s₃ sep _ ready₃ => ?_) fun s₃ _ ready₃ => ?_
  · exact .bindSound ready₃ hsub.sound.wholeExpr (hsub.wholeExpr (fun ts c hc =>
      h.part (.some (.offsetFirst comma kind first (.intro sep hc))) (by simp)) ready₃)
      fun _ _ _ _ ready₄ _ => .spanned ready₄
  · refine .keyword? ready₃
      (fun u offset => h.part (.some (.count kind first (.some (.intro offset some_)))) (by simp))
      (fun u s₄ offset _ ready₄ => ?_) fun _ _ ready₄ => .spanned ready₄
    exact .bindSound ready₄ hsub.sound.wholeExpr (hsub.wholeExpr (fun ts o ho =>
      h.part (.some (.count kind first (.some (.intro offset ho)))) (by simp)) ready₄)
      fun _ _ _ _ ready₅ _ => .spanned ready₅

/-! ## Combining selections -/

omit hsub in
theorem setOperator?_guides
    (h : ∀ (op : SetOperator) (t : Token), t.kind = .keyword op.keyword → V.holds (before ++ [t]))
    (ready : Ready V before s) : Guides V before setOperator? s := by
  have absent : Guides V before (do
      note [.keyword .UNION, .keyword .INTERSECT, .keyword .EXCEPT]
      return (none : Option SetOperator)) s :=
    .bindNote ready (.cons trivial (h .union _ rfl) (.cons trivial (h .intersect _ rfl)
      (.cons trivial (h .except _ rfl) .nil))) fun _ _ ready₁ => .pure ready₁
  refine .bindPeek ready ?_
  cases (ahead s).kind with
  | keyword k =>
    cases k with
    | UNION | INTERSECT | EXCEPT => exact .pure ready
    | _ => exact absent
  | _ => exact absent

theorem setOperand_guides {left : QueryBody} {op : SetOperator}
    (kind : (ahead s).kind = .keyword op.keyword) (h : Fits V before (IsSetOperand P left op))
    (ready : Ready V before s) : Guides V before (setOperand sub left op) s := by
  obtain ⟨xs, x, some_⟩ := someSelect P
  refine .bindNext ready (by simp [Token.isEnd, kind]) fun s₁ _ ready₁ => ?_
  refine .flag ready₁ (fun t all => h.part (.intro kind (.present all) some_) (by simp))
    fun o as s₂ mark _ ready₂ => ?_
  exact .map (select_guides hsub (fun ts x hx => h.part (.intro kind mark hx) (by simp)) ready₂)

theorem queryTail_guides {from_ : List Token} {body : QueryBody} :
    GuidesTo V (queryTail sub body) (IsQueryTail P from_ body) := by
  intro before s h ready
  refine .bindSound ready (orderBy?_sound hsub.sound) (orderBy?_guides hsub
    (fun os o ho => h.part (.intro ho .none) (by simp)) ready) fun o s₁ os _ ready₁ orderBy => ?_
  exact .bindSound ready₁ (limit?_sound hsub.sound) (limit?_guides hsub
    (fun ls l hl => h.part (.intro orderBy hl) (by simp)) ready₁)
    fun _ _ _ _ ready₂ _ => .spanned ready₂

end

end SqlSyntax.Parser
