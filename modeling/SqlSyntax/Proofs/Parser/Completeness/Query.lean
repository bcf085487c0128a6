import SqlSyntax.Parser.Query
import SqlSyntax.Proofs.Grammar.Query
import SqlSyntax.Proofs.Parser.Completeness.Expr

/-!
# Completeness of the parsers of queries

The clauses of a query come in a fixed order. `clauseRank` is the place of the
token that a clause starts with, and a parser for a clause reads it before any
token of a later place: there it finds the clauses in between absent.

## Main results

* `select_reads`, `setOperand_reads`, `queryTail_reads` — what a query is put
  together from.
-/

namespace SqlSyntax.Parser

open Grammar

/-! ## The order of clauses -/

/-- Place of what starts with a token of a kind among the parts of a query; zero
for what is no such part. -/
def clauseRank : TokenKind → Nat
  | .keyword .ON | .keyword .USING => 1
  | .keyword .JOIN | .keyword .INNER | .keyword .CROSS | .keyword .LEFT | .keyword .RIGHT
  | .keyword .FULL => 2
  | .punctuation .comma => 3
  | .keyword .FROM => 4
  | .keyword .WHERE => 5
  | .keyword .GROUP => 6
  | .keyword .HAVING => 7
  | .keyword .UNION | .keyword .INTERSECT | .keyword .EXCEPT => 8
  | .keyword .ORDER => 9
  | .keyword .LIMIT => 10
  | .punctuation .closeParen | .punctuation .semicolon | .endOfInput => 11
  | _ => 0

/-- Whether what comes next has a place from `rank` on. -/
def AtClause (rank : Nat) (rest : List Token) : Prop := rank ≤ clauseRank (headKind rest)

theorem atClause_head {t : Token} {ts : List Token} {k : TokenKind} {rank : Nat} (h : t.kind = k)
    (hk : rank ≤ clauseRank k) : AtClause rank (t :: ts) := by
  rwa [AtClause, headKind_cons, h]

theorem AtClause.mono {rank rank' : Nat} {rest : List Token} (h : AtClause rank rest)
    (hle : rank' ≤ rank) : AtClause rank' rest :=
  Nat.le_trans hle h

theorem AtClause.ne {rank : Nat} {rest : List Token} {k : TokenKind} (h : AtClause rank rest)
    (hk : clauseRank k < rank) : headKind rest ≠ k := by
  rintro rfl
  exact absurd h (Nat.not_le.2 hk)

/-- What has a place ends an expression. -/
theorem AtClause.endsExpr {rank : Nat} {rest : List Token} (h : AtClause rank rest)
    (hrank : 0 < rank) : endsExpr (headKind rest) := by
  have pos : 0 < clauseRank (headKind rest) := Nat.lt_of_lt_of_le hrank h
  unfold clauseRank at pos
  split at pos <;> first | contradiction | (rename_i kind; rw [kind]; rfl)

theorem atClause_of_endsQuery {rest : List Token} (h : endsQuery (headKind rest)) :
    AtClause 11 rest := by
  unfold AtClause
  unfold endsQuery at h
  split at h <;> first | contradiction | (rename_i kind; rw [kind]; exact Nat.le_refl _)

/-- An optional clause before what comes later. -/
theorem Optional.atClause {α : Type} {R : List Token → α → Prop} {ts rest : List Token}
    {o : Option α} {rank rank' : Nat} (h : Optional R ts o)
    (hstart : ∀ ts a, R ts a → ∃ t us, ts = t :: us ∧ rank ≤ clauseRank t.kind)
    (hrest : AtClause rank' rest) (hle : rank ≤ rank') : AtClause rank (ts ++ rest) := by
  cases h with
  | none => exact hrest.mono hle
  | some part =>
    obtain ⟨t, us, rfl, ht⟩ := hstart _ _ part
    exact ht

theorem alias_reads {ts : List Token} {o : Option Identifier} {before rest : List Token}
    {rank : Nat} (h : IsAlias ts o) (hrest : AtClause rank rest) (hrank : 0 < rank) :
    ReadsAfter before alias? ts o rest :=
  alias?_reads h (hrest.ne hrank) fun _ => hrest.ne hrank

/-- An alias ends an expression, or what is behind it does. -/
theorem endsExpr_of_alias {ts : List Token} {o : Option Identifier} {rest : List Token}
    (h : IsAlias ts o) (hrest : endsExpr (headKind rest)) :
    endsExpr (headKind (ts ++ rest)) := by
  cases h with
  | none => exact hrest
  | bare name =>
    obtain ⟨kind⟩ := name
    exact endsExpr_head kind rfl
  | announced name =>
    obtain ⟨as, -⟩ := name
    exact endsExpr_head as rfl

/-! ## Selected items -/

theorem atQualifiedWildcard_bind {α : Type} {f : Bool → Parser α} {before us rest : List Token}
    {a : α}
    (h : ReadsAfter before (f ((startsQualifiedWildcard? (us ++ rest)).getD false)) us a rest) :
    ReadsAfter before (atQualifiedWildcard >>= f) us a rest := by
  intro s htokens hfailure hend hlast
  obtain ⟨s', hs', hc⟩ := h htokens hfailure hend hlast
  refine ⟨s', bind_eq_ok.2 ⟨_, s, ?_, hs'⟩, hc⟩
  refine bind_eq_ok.2 ⟨s, s, rfl, ?_⟩
  rw [htokens]
  cases startsQualifiedWildcard? (us ++ rest) with
  | some answer => rfl
  | none =>
    refine bind_eq_ok.2 ⟨(), s, ?_, rfl⟩
    unfold raiseFailure
    rw [hfailure]

section

variable {P : Phrases} {sub : Nested} (hsub : ReadsNested P sub) {before rest : List Token}

include hsub

theorem selectItem_reads {ts : List Token} {i : SelectItem} (h : IsSelectItem P ts i)
    (hrest : AtClause 3 rest) : Reads (selectItem sub) ts i rest := by
  cases h with
  | wildcard star => exact .bindLast (operator?_reads star) .pure
  | @qualifiedWildcard ts d w n name dot star =>
    obtain ⟨t, us, style, rfl, kind⟩ := name.start
    refine .bindNil (operator?_absent (by simp [kind])) (atQualifiedWildcard_bind ?_)
    have answer : (startsQualifiedWildcard? (t :: us ++ [d, w] ++ rest)).getD false := by
      rw [List.append_assoc]
      exact congrArg (Option.getD · false) (startsQualifiedWildcard?_wildcard name dot star)
    rw [if_pos answer]
    refine .bind (qualifiedName_reads name ?_) ?_
    · rintro ⟨-, hstar⟩
      exact hstar star
    refine .bindToken (punctuation_reads dot) (.bindLast (operator_reads star) ?_)
    exact .spanned (by simp) (by simp)
  | @expr ts us e label item name =>
    have ends := endsExpr_of_alias name (hrest.endsExpr (by decide))
    have read : ∀ b : List Token, ReadsAfter b sub.wholeExpr ts e (us ++ rest) := fun _ =>
      hsub.exprBefore item ends
    have wildcard : startsQualifiedWildcard? (ts ++ (us ++ rest)) ≠ some true :=
      hsub.proper.wildcard item fun dot => by
        rw [dot] at ends
        exact nomatch ends
    have answer : ¬ (startsQualifiedWildcard? (ts ++ us ++ rest)).getD false := by
      rw [List.append_assoc]
      cases h : startsQualifiedWildcard? (ts ++ (us ++ rest)) with
      | none => exact nofun
      | some answer => cases answer <;> simp_all
    obtain ⟨t, _, rfl, starts⟩ := hsub.proper.start item
    refine .bindNil (operator?_absent (kind_ne_of_starts starts rfl))
      (atQualifiedWildcard_bind ?_)
    rw [if_neg answer]
    refine .bind (read _) (.bindLast (alias_reads name hrest (by decide)) ?_)
    exact .spanned (by simp) (by simp)

/-! ## Relations -/

theorem relation_reads {ts : List Token} {r : Relation} (h : IsRelation P ts r)
    (hrest : AtClause 1 rest) : Reads (relation sub) ts r rest := by
  cases h with
  | @table ts us n label name alias' =>
    have ends := endsExpr_of_alias alias' (hrest.endsExpr (by decide))
    have read : ∀ b : List Token, ReadsAfter b qualifiedName ts n (us ++ rest) := fun _ =>
      qualifiedName_reads name fun h => by
        rw [h.1] at ends
        exact nomatch ends
    obtain ⟨t, _, style, rfl, kind⟩ := name.start
    refine .bindNil (punctuation?_absent (by simp [kind])) (.bind (read _) ?_)
    refine .bindLast (alias_reads alias' hrest (by decide)) ?_
    exact .spanned (by simp) (by simp)
  | derived opening query closing alias' =>
    refine .bindToken (punctuation?_reads opening)
      (.bind (hsub.query_before query (endsQuery_head closing)) ?_)
    refine .bindToken (punctuation_reads closing)
      (.bindLast (alias_reads alias' hrest (by decide)) ?_)
    exact .spanned (by simp) (by simp)

/-! ## Joins -/

omit hsub in
theorem joinKind?_absent (hrest : AtClause 3 rest) :
    ReadsAfter before joinKind? [] none rest := by
  refine .bindPeek fun t ht _ => ?_
  have absent : ∀ k, clauseRank k < 3 → t.kind ≠ k := fun k hk => ht ▸ hrest.ne hk
  cases kind : t.kind with
  | keyword k =>
    cases k with
    | JOIN | INNER | CROSS | LEFT | RIGHT | FULL => exact absurd kind (absent _ (by decide))
    | _ => exact .bindNil note_reads .pure
  | _ => exact .bindNil note_reads .pure

omit hsub in
/-- The words of a join are those before its `JOIN`, and `JOIN`. -/
theorem joinKind?_reads {ts : List Token} {kind : JoinKind} (h : IsJoinKind ts kind) :
    ∃ ws u, ts = ws ++ [u] ∧ u.kind = .keyword .JOIN ∧
      ∀ before rest, ReadsAfter before joinKind? ws (some kind) (u :: rest) := by
  have single : ∀ {k : Keyword} {t : Token}, t.kind = .keyword k → k = .INNER ∨ k = .CROSS →
      ∀ before rest, ReadsAfter before joinKind? [t]
        (some (if k = .INNER then .inner else .cross)) rest := by
    intro k t kind hk before rest
    refine .bindPeek fun u hu _ => ?_
    simp only [hu, List.cons_append, headKind_cons, kind]
    rcases hk with rfl | rfl <;> exact .bindLast (next_reads (by simp [Token.isEnd, kind])) .pure
  cases h with
  | @plain t join =>
    refine ⟨[], t, rfl, join, fun before rest => .bindPeek fun u hu _ => ?_⟩
    simp only [hu, List.nil_append, headKind_cons, join]
    exact .pure
  | inner words =>
    obtain _ | ⟨inner, _ | ⟨join, _ | _⟩⟩ := words
    exact ⟨[_], _, rfl, join, fun before rest => single inner (.inl rfl) before _⟩
  | cross words =>
    obtain _ | ⟨cross, _ | ⟨join, _ | _⟩⟩ := words
    exact ⟨[_], _, rfl, join, fun before rest => single cross (.inr rfl) before _⟩
  | @outer t u ns kind side word noise join =>
    refine ⟨t :: ns, u, rfl, join, fun before rest => .bindPeek fun v hv _ => ?_⟩
    have read : ReadsAfter before (do
        let _ ← next
        let _ ← keyword? .OUTER
        return some kind) (t :: ns) (some kind) (u :: rest) := by
      refine .bindToken (next_reads (by simp [Token.isEnd, word])) ?_
      cases noise with
      | absent => exact .bindLast (keyword?_absent (by simp [join])) .pure
      | present outer => exact .bindLast (keyword?_reads outer) .pure
    simp only [hv, List.cons_append, headKind_cons, word]
    rcases side with rfl | rfl | rfl <;> exact read

theorem joinCondition_reads {kind : JoinKind} {ts : List Token} {c : JoinCondition}
    (h : IsJoinCondition P kind ts c) (hrest : AtClause 2 rest) :
    ReadsAfter before (joinCondition sub kind) ts c rest := by
  unfold joinCondition
  cases h with
  | on inner condition =>
    obtain ⟨on, condition⟩ := condition
    rw [if_neg inner]
    exact .bindToken (keyword?_reads on)
      (.bindLast (hsub.exprBefore condition (hrest.endsExpr (by decide))) .pure)
  | shared inner columns =>
    obtain ⟨using_, columns⟩ := columns
    rw [if_neg inner]
    exact .bindNil (keyword?_absent (by simp [using_]))
      (.bindToken (keyword?_reads using_) (.bindLast (.after (columnList_reads columns)) .pure))
  | none =>
    split
    · exact .pure
    · exact .bindNil (keyword?_absent (hrest.ne (by decide)))
        (.bindNil (keyword?_absent (hrest.ne (by decide))) .pure)

theorem join?_reads {ts : List Token} {j : Join} (h : IsJoin P ts j) (hrest : AtClause 2 rest) :
    Reads (join? sub) ts (some j) rest := by
  obtain @⟨t, ks, rs, cs, kind, r, c, words, relation, condition⟩ := h
  obtain ⟨ws, u, first, join, read⟩ := joinKind?_reads words
  have tokens : t :: (ks ++ (rs ++ cs)) = ws ++ u :: (rs ++ cs) := by
    rw [← List.cons_append, first, List.append_assoc]
    rfl
  have ends : AtClause 1 (cs ++ rest) := by
    cases condition with
    | on inner condition =>
      obtain ⟨on, -⟩ := condition
      exact atClause_head on (by decide)
    | shared inner columns =>
      obtain ⟨using_, -⟩ := columns
      exact atClause_head using_ (by decide)
    | none => exact hrest.mono (by decide)
  refine .bindPeek fun v _ hv => ?_
  obtain rfl := hv t rfl
  rw [tokens]
  refine .bind (read _ _) (.bindToken (keyword_reads join)
    (.bind (.after (relation_reads hsub relation ends)) ?_))
  refine .bindLast (joinCondition_reads hsub condition hrest) ?_
  exact .spanned (by simp) (by simp)

omit hsub in
theorem IsJoin.start {ts : List Token} {j : Join} (h : IsJoin P ts j) :
    ∃ t us, ts = t :: us ∧ 2 ≤ clauseRank t.kind := by
  obtain @⟨t, ks, rs, cs, kind, r, c, words, relation, condition⟩ := h
  refine ⟨t, _, rfl, ?_⟩
  cases words with
  | plain join => exact Nat.le_of_eq (by rw [join]; rfl)
  | inner words =>
    obtain _ | ⟨inner, _⟩ := words
    exact Nat.le_of_eq (by rw [inner]; rfl)
  | cross words =>
    obtain _ | ⟨cross, _⟩ := words
    exact Nat.le_of_eq (by rw [cross]; rfl)
  | outer side word =>
    rw [word]
    rcases side with rfl | rfl | rfl <;> exact Nat.le_refl 2

theorem joinedTable_reads {ts : List Token} {t : JoinedTable} (h : IsJoinedTable P ts t)
    (hrest : AtClause 3 rest) : Reads (joinedTable sub) ts t rest := by
  obtain @⟨rs, ts, r, js, relation, joins⟩ := h
  have ends : AtClause 1 (ts ++ rest) := by
    cases joins with
    | nil => exact hrest.mono (by decide)
    | cons head =>
      obtain ⟨t, us, rfl, place⟩ := IsJoin.start head
      exact Nat.le_trans (by decide) place
  refine .bind (relation_reads hsub relation ends) ?_
  refine .bindLast (.after (collect_reads (F := AtClause 2) (hrest.mono (by decide)) ?_ ?_ ?_
    joins)) ?_
  · intro ts j us join
    obtain ⟨t, us, rfl, place⟩ := IsJoin.start join
    exact ⟨nofun, place⟩
  · exact fun joins ts j us join hus => .bindLast (join?_reads hsub join hus) .pure
  · exact fun joins => .bindNil (.bindPeek fun t _ _ =>
      .bindNil (joinKind?_absent hrest) .pure) .pure
  · rw [List.reverse_reverse]
    obtain ⟨t, us, rfl, -⟩ := relation.start
    exact .spanned (by simp) (by simp)

/-! ## Clauses -/

theorem fromClause?_reads {ts : List Token} {o : Option From} (h : Optional (IsFrom P) ts o)
    (hrest : AtClause 5 rest) : Reads (fromClause? sub) ts o rest := by
  cases h with
  | none => exact .bindNil (keyword?_absent (hrest.ne (by decide))) .pure
  | some clause =>
    obtain ⟨kind, tables⟩ := clause
    refine .bindToken (keyword?_reads kind) ?_
    refine .bindLast (.after (commaSeparated_reads (F := AtClause 3)
      (fun _ _ _ table hus => joinedTable_reads hsub table hus)
      (fun _ _ comma => atClause_head comma (Nat.le_refl _)) (hrest.mono (by decide))
      (hrest.ne (by decide)) tables)) ?_
    exact .spanned (by simp) (by simp)

theorem conditionAfter?_reads {k : Keyword} {ts : List Token} {o : Option Expr}
    (h : Optional (Behind (.keyword k) P.wholeExpr) ts o) (hrest : endsExpr (headKind rest))
    (hk : headKind rest ≠ .keyword k) :
    ReadsAfter before (conditionAfter? sub k) ts o rest := by
  cases h with
  | none => exact .bindNil (keyword?_absent hk) .pure
  | some clause =>
    obtain ⟨kind, condition⟩ := clause
    exact .bindToken (keyword?_reads kind) (.bindLast (hsub.exprBefore condition hrest) .pure)

theorem groupBy?_reads {ts : List Token} {o : Option GroupBy} (h : Optional (IsGroupBy P) ts o)
    (hrest : AtClause 7 rest) : Reads (groupBy? sub) ts o rest := by
  cases h with
  | none => exact .bindNil (keyword?_absent (hrest.ne (by decide))) .pure
  | some clause =>
    obtain ⟨group, by_, keys⟩ := clause
    refine .bindToken (keyword?_reads group) (.bindToken (keyword_reads by_) ?_)
    refine .bindLast (exprList_reads hsub keys (hrest.endsExpr (by decide))
      (hrest.ne (by decide))) ?_
    exact .spanned (by simp) (by simp)

omit hsub in
/-- The tokens behind an optional clause that starts with a keyword. -/
theorem atClause_behind {α : Type} {R : List Token → α → Prop} {k : TokenKind} {ts : List Token}
    {o : Option α} {rank rank' : Nat} (h : Optional (Behind k R) ts o) (hk : rank ≤ clauseRank k)
    (hrest : AtClause rank' rest) (hle : rank ≤ rank') : AtClause rank (ts ++ rest) := by
  refine Optional.atClause h (fun _ _ part => ?_) hrest hle
  obtain ⟨kind, -⟩ := part
  exact ⟨_, _, rfl, kind ▸ hk⟩

/-- No selected item starts with a keyword that no expression starts with. -/
theorem items_head_ne {ts : List Token} {is : List SelectItem} {k : Keyword}
    (h : CommaSeparated (IsSelectItem P) ts is) (hk : startsExpr (.keyword k) = false) :
    headKind (ts ++ rest) ≠ .keyword k := by
  obtain ⟨first, -⟩ := h
  cases first with
  | wildcard star => simp [star]
  | qualifiedWildcard name =>
    obtain ⟨t, us, style, rfl, kind⟩ := name.start
    simp [kind]
  | expr item =>
    obtain ⟨t, us, rfl, starts⟩ := hsub.proper.start item
    exact kind_ne_of_starts starts hk

/-- The clauses of a selection behind its items, from the last to the first. -/
theorem select_reads {ts : List Token} {q : Select} (h : IsSelect P ts q)
    (hrest : AtClause 8 rest) : Reads (select sub) ts q rest := by
  obtain @⟨t, ds, ps, fs, ws, gs, hs, distinct, projection, f, w, g, h, kind, quantifier, items,
    source, condition, groupBy, having⟩ := h
  have atHaving : AtClause 7 (hs ++ rest) := atClause_behind having (by decide) hrest (by decide)
  have atGroup : AtClause 6 (gs ++ (hs ++ rest)) := by
    refine Optional.atClause groupBy (fun _ _ part => ?_) atHaving (by decide)
    obtain ⟨group, -, -⟩ := part
    exact ⟨_, _, rfl, by rw [group]; exact Nat.le_refl 6⟩
  have atWhere : AtClause 5 (ws ++ (gs ++ (hs ++ rest))) :=
    atClause_behind condition (by decide) atGroup (by decide)
  have atFrom : AtClause 4 (fs ++ (ws ++ (gs ++ (hs ++ rest)))) := by
    refine Optional.atClause source (fun _ _ part => ?_) atWhere (by decide)
    obtain ⟨kind, -⟩ := part
    exact ⟨_, _, rfl, by rw [kind]; exact Nat.le_refl 4⟩
  have clauses : ∀ b : List Token, b ≠ [] → ReadsAfter b (do
      let projection ← commaSeparated (selectItem sub)
      let source ← fromClause? sub
      let condition ← conditionAfter? sub .WHERE
      let groupBy ← groupBy? sub
      let having ← conditionAfter? sub .HAVING
      return (⟨← spanFrom t.span, distinct, projection, source, condition, groupBy, having⟩ :
        Select)) (ps ++ (fs ++ (ws ++ (gs ++ hs))))
      ⟨t.span.through (b ++ (ps ++ (fs ++ (ws ++ (gs ++ hs))))), distinct, projection, f, w, g, h⟩
      rest := by
    intro b hb
    simp only [← List.append_assoc] at atHaving atGroup atWhere atFrom
    refine .bind (.after (commaSeparated_reads (F := AtClause 3)
      (fun _ _ _ item hus => selectItem_reads hsub item hus)
      (fun _ _ comma => atClause_head comma (Nat.le_refl _)) ?_ ?_ items)) ?_
    · simpa using atFrom.mono (by decide)
    · simpa using atFrom.ne (k := .punctuation .comma) (by decide)
    refine .bind (.after (fromClause?_reads hsub source (by simpa using atWhere))) ?_
    refine .bind (conditionAfter?_reads hsub condition ?_ ?_) ?_
    · simpa using atGroup.endsExpr (by decide)
    · simpa using atGroup.ne (k := .keyword .WHERE) (by decide)
    refine .bind (.after (groupBy?_reads hsub groupBy (by simpa using atHaving))) ?_
    refine .bindLast (conditionAfter?_reads hsub having (hrest.endsExpr (by decide))
      (hrest.ne (by decide))) ?_
    exact .spanned (by simp [hb]) (by simp)
  refine .bindToken (keyword_reads kind) ?_
  cases quantifier with
  | distinct distinct =>
    exact .bindToken (keyword?_reads distinct) (.bindNil .pure (clauses _ (by simp)))
  | all noise =>
    cases noise with
    | absent =>
      refine .bindNil (keyword?_absent ?_) (.bindNil (keyword?_absent ?_)
        (.bindNil .pure (clauses _ (by simp))))
      · simpa using items_head_ne hsub items (k := .DISTINCT) rfl
      · simpa using items_head_ne hsub items (k := .ALL) rfl
    | present all =>
      refine .bindNil (keyword?_absent (by simp [all])) ?_
      exact .bindToken (keyword?_reads all) (.bindNil .pure (clauses _ (by simp)))

/-! ## Order and limit -/

omit hsub in
theorem direction_reads {ts : List Token} {d : Direction} (h : IsDirection ts d)
    (hdesc : headKind rest ≠ .keyword .DESC) (hasc : headKind rest ≠ .keyword .ASC) :
    ReadsAfter before direction ts d rest := by
  cases h with
  | descending kind => exact .bindLast (keyword?_reads kind) .pure
  | ascending noise =>
    cases noise with
    | absent => exact .bindNil (keyword?_absent hdesc) (.bindNil (keyword?_absent hasc) .pure)
    | present asc =>
      exact .bindNil (keyword?_absent (by simp [asc])) (.bindLast (keyword?_reads asc) .pure)

omit hsub in
theorem nullsPlacement?_reads {ts : List Token} {o : Option NullsPlacement}
    (h : Optional IsNulls ts o) (hrest : headKind rest ≠ .identifier .bare) :
    ReadsAfter before nullsPlacement? ts o rest := by
  cases h with
  | none => exact .bindNil (word?_absent hrest) .pure
  | @some _ n part =>
    obtain ⟨nulls, place⟩ := part
    obtain ⟨kind, text⟩ := nulls
    obtain ⟨kind', text'⟩ := place
    refine .bindToken (word?_reads kind text) ?_
    cases n with
    | first => exact .bindLast (word?_reads kind' text') .pure
    | last =>
      exact .bindNil (word?_other (by rw [text']; decide)) (.bindLast (word?_reads kind' text') .pure)

theorem orderItem_reads {ts : List Token} {i : OrderItem} (h : IsOrderItem P ts i)
    (hrest : AtClause 3 rest) : Reads (orderItem sub) ts i rest := by
  obtain @⟨es, ds, ns, e, d, n, item, direction, nulls⟩ := h
  have atNulls : headKind (ns ++ rest) = .identifier .bare ∨ AtClause 3 (ns ++ rest) := by
    cases nulls with
    | none => exact .inr hrest
    | some part =>
      obtain ⟨⟨kind, -⟩, -⟩ := part
      exact .inl kind
  have ends : endsExpr (headKind (ds ++ ns ++ rest)) := by
    cases direction with
    | descending kind => exact endsExpr_head kind rfl
    | ascending noise =>
      cases noise with
      | absent =>
        rcases atNulls with bare | place
        · exact (congrArg (endsExpr ·) bare).trans rfl
        · exact place.endsExpr (by decide)
      | present kind => exact endsExpr_head kind rfl
  refine .bind (hsub.exprBefore item ends) (.bind (direction_reads direction ?_ ?_) ?_)
  · rcases atNulls with bare | place
    · simp [bare]
    · exact place.ne (by decide)
  · rcases atNulls with bare | place
    · simp [bare]
    · exact place.ne (by decide)
  refine .bindLast (nullsPlacement?_reads nulls (hrest.ne (by decide))) ?_
  obtain ⟨t, us, rfl, -⟩ := hsub.proper.start item
  exact .spanned (by simp) (by simp)

theorem orderBy?_reads {ts : List Token} {o : Option OrderBy} (h : Optional (IsOrderBy P) ts o)
    (hrest : AtClause 10 rest) : Reads (orderBy? sub) ts o rest := by
  cases h with
  | none => exact .bindNil (keyword?_absent (hrest.ne (by decide))) .pure
  | some clause =>
    obtain ⟨order, by_, items⟩ := clause
    refine .bindToken (keyword?_reads order) (.bindToken (keyword_reads by_) ?_)
    refine .bindLast (.after (commaSeparated_reads (F := AtClause 3)
      (fun _ _ _ item hus => orderItem_reads hsub item hus)
      (fun _ _ comma => atClause_head comma (Nat.le_refl _)) (hrest.mono (by decide))
      (hrest.ne (by decide)) items)) ?_
    exact .spanned (by simp) (by simp)

theorem limit?_reads {ts : List Token} {o : Option Limit} (h : Optional (IsLimit P) ts o)
    (hrest : AtClause 11 rest) : Reads (limit? sub) ts o rest := by
  have last : ∀ {cs : List Token} {c : Expr}, P.wholeExpr cs c → ∀ b : List Token,
      ReadsAfter b sub.wholeExpr cs c rest := fun h _ =>
    hsub.exprBefore h (hrest.endsExpr (by decide))
  cases h with
  | none => exact .bindNil (keyword?_absent (hrest.ne (by decide))) .pure
  | some clause =>
    cases clause with
    | count kind count offset =>
      refine .bindToken (keyword?_reads kind) ?_
      cases offset with
      | none =>
        rw [List.append_nil]
        refine .bindLast (last count _) (.bindNil (punctuation?_absent (hrest.ne (by decide))) ?_)
        refine .bindNil (keyword?_absent (hrest.ne (by decide))) (.bindNil .pure ?_)
        exact .spanned (by simp) (by simp)
      | some offset =>
        obtain ⟨offset, first⟩ := offset
        refine .bind (hsub.exprBefore count (endsExpr_head offset rfl)) ?_
        refine .bindNil (punctuation?_absent (by simp [offset])) ?_
        refine .bindToken (keyword?_reads offset) (.bindLast (last first _) (.bindNil .pure ?_))
        exact .spanned (by simp) (by simp)
    | offsetFirst _ kind offset count =>
      obtain ⟨comma, count⟩ := count
      refine .bindToken (keyword?_reads kind)
        (.bind (hsub.exprBefore offset (endsExpr_head comma rfl)) ?_)
      refine .bindToken (punctuation?_reads comma) (.bindLast (last count _) (.bindNil .pure ?_))
      exact .spanned (by simp) (by simp)

/-! ## Combining selections -/

omit hsub in
theorem setOperator?_reads {op : SetOperator} (h : headKind rest = .keyword op.keyword) :
    ReadsAfter before setOperator? [] (some op) rest := by
  refine .bindPeek fun t ht _ => ?_
  simp only [ht, List.nil_append, h]
  cases op <;> exact .pure

omit hsub in
theorem setOperator?_absent (hrest : AtClause 9 rest) :
    ReadsAfter before setOperator? [] none rest := by
  refine .bindPeek fun t ht _ => ?_
  have absent : ∀ k, clauseRank k < 9 → t.kind ≠ k := fun k hk => ht ▸ hrest.ne hk
  cases kind : t.kind with
  | keyword k =>
    cases k with
    | UNION | INTERSECT | EXCEPT => exact absurd kind (absent _ (by decide))
    | _ => exact .bindNil note_reads .pure
  | _ => exact .bindNil note_reads .pure

theorem setOperand_reads {left body : QueryBody} {op : SetOperator} {ts : List Token}
    (h : IsSetOperand P left op ts body) (hrest : AtClause 8 rest) :
    Reads (setOperand sub left op) ts body rest := by
  obtain ⟨kind, quantifier, select⟩ := h
  refine .bindToken (next_reads (by simp [Token.isEnd, kind])) ?_
  cases quantifier with
  | absent =>
    refine .bindNil (keyword?_absent ?_) (.bindLast (.after (select_reads hsub select hrest)) .pure)
    obtain ⟨kind, -⟩ := select
    simp [kind]
  | present all =>
    exact .bindToken (keyword?_reads all)
      (.bindLast (.after (select_reads hsub select hrest)) .pure)

omit hsub in
theorem limit_place {ts : List Token} {o : Option Limit} (h : Optional (IsLimit P) ts o)
    (hrest : AtClause 11 rest) : AtClause 10 (ts ++ rest) := by
  refine Optional.atClause h (fun _ _ part => ?_) hrest (by decide)
  cases part with
  | count kind | offsetFirst _ kind => exact ⟨_, _, rfl, by rw [kind]; exact Nat.le_refl 10⟩

omit hsub in
theorem queryTail_place {front ts : List Token} {body : QueryBody} {q : Query}
    (h : IsQueryTail P front body ts q) (hrest : AtClause 11 rest) : AtClause 9 (ts ++ rest) := by
  obtain ⟨orderBy, limit⟩ := h
  rw [List.append_assoc]
  refine Optional.atClause orderBy (fun _ _ part => ?_) (limit_place limit hrest) (by decide)
  obtain ⟨order, -, -⟩ := part
  exact ⟨_, _, rfl, by rw [order]; exact Nat.le_refl 9⟩

theorem queryTail_reads {front ts : List Token} {body : QueryBody} {q : Query}
    (h : IsQueryTail P front body ts q) (hfront : front ≠ []) (hrest : AtClause 11 rest) :
    ReadsAfter front (queryTail sub body) ts q rest := by
  obtain ⟨orderBy, limit⟩ := h
  refine .bind (.after (orderBy?_reads hsub orderBy (limit_place limit hrest))) ?_
  refine .bindLast (.after (limit?_reads hsub limit hrest)) ?_
  exact .spanned (by simp [hfront]) (by simp)

end

end SqlSyntax.Parser
