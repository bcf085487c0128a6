import SqlSyntax.Parser.Query
import SqlSyntax.Proofs.Grammar.Query
import SqlSyntax.Proofs.Parser.Soundness.Expr

/-!
# Soundness of the parsers of queries

Every clause, from the parsers for what is nested in it. The parsers of
optional clauses are sound for `Optional`.

## Main results

* `select_sound`, `setOperand_sound`, `queryTail_sound` — what a query is put
  together from.
-/

namespace SqlSyntax.Parser

open Grammar

variable {P : Phrases} {sub : Nested} (hsub : SoundNested P sub)

/-! ## Selected items -/

theorem atQualifiedWildcard_eq_ok {s s' : ParserState} {b : Bool}
    (h : atQualifiedWildcard s = .ok b s') : s = s' := by
  obtain ⟨s₀, s₁, hget, h⟩ := bind_eq_ok.1 h
  obtain ⟨rfl, rfl⟩ : s = s₀ ∧ s = s₁ := EStateM.Result.ok.inj hget
  cases answer : startsQualifiedWildcard? s.tokens with
  | some answer' =>
    simp only [answer] at h
    exact (pure_eq_ok.1 h).2
  | none =>
    simp only [answer] at h
    obtain ⟨_, s₂, hraise, h⟩ := bind_eq_ok.1 h
    obtain ⟨-, rfl⟩ := pure_eq_ok.1 h
    unfold raiseFailure at hraise
    split at hraise
    · exact nomatch hraise
    · exact (EStateM.Result.ok.inj hraise).2

theorem qualifiedWildcard_sound : Sound qualifiedWildcard (IsSelectItem P) := by
  intro s i s' hend h
  obtain ⟨n, s₁, hname, h⟩ := bind_eq_ok.1 h
  obtain ⟨ts, hc₁, name⟩ := qualifiedName_sound hend hname
  obtain ⟨_, s₂, hdot, h⟩ := bind_eq_ok.1 h
  obtain ⟨d, dot, -, hc₂⟩ := punctuation_eq_ok hc₁.isEnd hdot
  obtain ⟨_, s₃, hstar, h⟩ := bind_eq_ok.1 h
  obtain ⟨w, star, -, hc₃⟩ := operator_eq_ok hc₂.isEnd hstar
  obtain ⟨span, s₄, hspan, h⟩ := bind_eq_ok.1 h
  have consumed : Consumes s (ts ++ [d, w]) s₃ := hc₁.trans (hc₂.trans hc₃)
  obtain ⟨rfl, rfl⟩ := spanFrom_eq_ok hspan (by simp) consumed
  obtain ⟨rfl, rfl⟩ := pure_eq_ok.1 h
  exact ⟨_, consumed, .qualifiedWildcard name dot star⟩

section

include hsub

theorem selectItem_sound : Sound (selectItem sub) (IsSelectItem P) := by
  intro s i s' hend h
  obtain ⟨o, s₁, hstar, h⟩ := bind_eq_ok.1 h
  rcases operator?_eq_ok hend hstar with ⟨rfl, hc₁⟩ | ⟨t, star, rfl, hc₁⟩
  · obtain ⟨b, s₂, hat, h⟩ := bind_eq_ok.1 h
    obtain rfl := atQualifiedWildcard_eq_ok hat
    split at h
    · obtain ⟨ts, hc₂, item⟩ := qualifiedWildcard_sound hc₁.isEnd h
      exact ⟨ts, hc₁.trans hc₂, item⟩
    · obtain ⟨e, s₃, he, h⟩ := bind_eq_ok.1 h
      obtain ⟨ts, hc₂, item⟩ := hsub.wholeExpr hc₁.isEnd he
      obtain ⟨label, s₄, hlabel, h⟩ := bind_eq_ok.1 h
      obtain ⟨us, hc₃, name⟩ := alias?_sound hc₂.isEnd hlabel
      obtain ⟨span, s₅, hspan, h⟩ := bind_eq_ok.1 h
      have consumed : Consumes s (ts ++ us) s₄ := hc₁.trans (hc₂.trans hc₃)
      obtain ⟨t, _, rfl, -⟩ := hsub.proper.start item
      obtain ⟨rfl, rfl⟩ := spanFrom_eq_ok hspan (by simp) consumed
      obtain ⟨rfl, rfl⟩ := pure_eq_ok.1 h
      exact ⟨_, consumed, .expr item name⟩
  · obtain ⟨rfl, rfl⟩ := pure_eq_ok.1 h
    exact ⟨_, hc₁, .wildcard star⟩

/-! ## Relations -/

theorem relation_sound : Sound (relation sub) (IsRelation P) := by
  intro s r s' hend h
  obtain ⟨o, s₁, hopen, h⟩ := bind_eq_ok.1 h
  rcases punctuation?_eq_ok hend hopen with ⟨rfl, hc₁⟩ | ⟨t, opening, rfl, hc₁⟩
  · obtain ⟨n, s₂, hname, h⟩ := bind_eq_ok.1 h
    obtain ⟨ts, hc₂, name⟩ := qualifiedName_sound hc₁.isEnd hname
    obtain ⟨label, s₃, hlabel, h⟩ := bind_eq_ok.1 h
    obtain ⟨us, hc₃, alias'⟩ := alias?_sound hc₂.isEnd hlabel
    obtain ⟨span, s₄, hspan, h⟩ := bind_eq_ok.1 h
    have consumed : Consumes s (ts ++ us) s₃ := hc₁.trans (hc₂.trans hc₃)
    obtain ⟨t, _, _, rfl, -⟩ := name.start
    obtain ⟨rfl, rfl⟩ := spanFrom_eq_ok hspan (by simp) consumed
    obtain ⟨rfl, rfl⟩ := pure_eq_ok.1 h
    exact ⟨_, consumed, .table name alias'⟩
  · obtain ⟨q, s₂, hq, h⟩ := bind_eq_ok.1 h
    obtain ⟨qs, hc₂, query⟩ := hsub.query hc₁.isEnd hq
    obtain ⟨_, s₃, hclose, h⟩ := bind_eq_ok.1 h
    obtain ⟨c, closing, -, hc₃⟩ := punctuation_eq_ok hc₂.isEnd hclose
    obtain ⟨label, s₄, hlabel, h⟩ := bind_eq_ok.1 h
    obtain ⟨us, hc₄, alias'⟩ := alias?_sound hc₃.isEnd hlabel
    obtain ⟨span, s₅, hspan, h⟩ := bind_eq_ok.1 h
    have consumed : Consumes s (t :: (qs ++ c :: us)) s₄ :=
      hc₁.trans (hc₂.trans (hc₃.trans hc₄))
    obtain ⟨rfl, rfl⟩ := spanFrom_eq_ok hspan (by simp) consumed
    obtain ⟨rfl, rfl⟩ := pure_eq_ok.1 h
    exact ⟨_, consumed, .derived opening query closing alias'⟩

end

/-! ## Joins -/

/-- Keywords before the `JOIN` of a join of a kind. -/
inductive IsJoinWords : List Token → JoinKind → Prop where
  | none : IsJoinWords [] .inner
  | word {t : Token} {kind : JoinKind} (side : kind = .inner ∨ kind = .cross)
      (word : t.kind = .keyword kind.keyword) : IsJoinWords [t] kind
  | outer {t : Token} {ns : List Token} {kind : JoinKind}
      (side : kind = .left ∨ kind = .right ∨ kind = .full) (word : t.kind = .keyword kind.keyword)
      (noise : Noise .OUTER ns) : IsJoinWords (t :: ns) kind

theorem IsJoinWords.isJoinKind {ts : List Token} {kind : JoinKind} {u : Token}
    (h : IsJoinWords ts kind) (join : u.kind = .keyword .JOIN) : IsJoinKind (ts ++ [u]) kind := by
  cases h with
  | none => exact .plain join
  | word side word =>
    rcases side with rfl | rfl
    · exact .inner (.cons word (.cons join .nil))
    · exact .cross (.cons word (.cons join .nil))
  | outer side word noise => exact .outer side word noise join

theorem joinKind?_sound : Sound joinKind? fun ts o =>
    (o = none ∧ ts = []) ∨ ∃ kind, o = some kind ∧ IsJoinWords ts kind := by
  intro s o s' hend h
  obtain ⟨t, s₁, hp, h⟩ := bind_eq_ok.1 h
  obtain ⟨rfl, rfl⟩ := peek_eq_ok hp
  have absent : ∀ es, (do note es; return none) s = .ok o s' → ∃ ts, Consumes s ts s' ∧
      ((o = none ∧ ts = []) ∨ ∃ kind, o = some kind ∧ IsJoinWords ts kind) := by
    intro es h
    obtain ⟨_, s₁, hnote, h⟩ := bind_eq_ok.1 h
    obtain ⟨rfl, rfl⟩ := pure_eq_ok.1 h
    exact ⟨_, note_eq_ok hend hnote, .inl ⟨rfl, rfl⟩⟩
  have single : ∀ kind : JoinKind, kind = .inner ∨ kind = .cross →
      (ahead s).kind = .keyword kind.keyword →
      (do let _ ← next; return some kind) s = .ok o s' → ∃ ts, Consumes s ts s' ∧
        ((o = none ∧ ts = []) ∨ ∃ kind, o = some kind ∧ IsJoinWords ts kind) := by
    intro kind side word h
    obtain ⟨_, s₁, hn, h⟩ := bind_eq_ok.1 h
    obtain ⟨rfl, hc⟩ := next_eq_ok hend hn (by simp [Token.isEnd, word])
    obtain ⟨rfl, rfl⟩ := pure_eq_ok.1 h
    exact ⟨_, hc, .inr ⟨kind, rfl, .word side word⟩⟩
  have outer : ∀ kind : JoinKind, kind = .left ∨ kind = .right ∨ kind = .full →
      (ahead s).kind = .keyword kind.keyword →
      (do let _ ← next; let _ ← keyword? .OUTER; return some kind) s = .ok o s' →
      ∃ ts, Consumes s ts s' ∧
        ((o = none ∧ ts = []) ∨ ∃ kind, o = some kind ∧ IsJoinWords ts kind) := by
    intro kind side word h
    obtain ⟨_, s₁, hn, h⟩ := bind_eq_ok.1 h
    obtain ⟨rfl, hc₁⟩ := next_eq_ok hend hn (by simp [Token.isEnd, word])
    obtain ⟨_, s₂, hnoise, h⟩ := bind_eq_ok.1 h
    obtain ⟨rfl, rfl⟩ := pure_eq_ok.1 h
    obtain ⟨ns, hc₂, noise⟩ := noise_sound hc₁.isEnd hnoise
    exact ⟨_, hc₁.trans hc₂, .inr ⟨kind, rfl, .outer side word noise⟩⟩
  cases word : (ahead s).kind with
  | keyword k =>
    simp only [word] at h
    cases k with
    | JOIN =>
      obtain ⟨rfl, rfl⟩ := pure_eq_ok.1 h
      exact ⟨[], .refl hend, .inr ⟨.inner, rfl, .none⟩⟩
    | INNER => exact single .inner (.inl rfl) word h
    | CROSS => exact single .cross (.inr rfl) word h
    | LEFT => exact outer .left (.inl rfl) word h
    | RIGHT => exact outer .right (.inr (.inl rfl)) word h
    | FULL => exact outer .full (.inr (.inr rfl)) word h
    | _ => exact absent _ h
  | _ =>
    simp only [word] at h
    exact absent _ h

section

include hsub

theorem joinCondition_sound (kind : JoinKind) :
    Sound (joinCondition sub kind) (IsJoinCondition P kind) := by
  intro s c s' hend h
  unfold joinCondition at h
  split at h
  · obtain ⟨rfl, rfl⟩ := pure_eq_ok.1 h
    exact ⟨[], .refl hend, .none⟩
  · rename_i inner
    obtain ⟨o, s₁, hon, h⟩ := bind_eq_ok.1 h
    rcases keyword?_eq_ok hend hon with ⟨rfl, hc₁⟩ | ⟨t, on, rfl, hc₁⟩
    · obtain ⟨o, s₂, husing, h⟩ := bind_eq_ok.1 h
      rcases keyword?_eq_ok hc₁.isEnd husing with ⟨rfl, hc₂⟩ | ⟨t, using_, rfl, hc₂⟩
      · obtain ⟨rfl, rfl⟩ := pure_eq_ok.1 h
        exact ⟨_, hc₁.trans hc₂, .none⟩
      · obtain ⟨cs, s₃, hcolumns, h⟩ := bind_eq_ok.1 h
        obtain ⟨rfl, rfl⟩ := pure_eq_ok.1 h
        obtain ⟨ts, hc₃, columns⟩ := columnList_sound hc₂.isEnd hcolumns
        exact ⟨_, hc₁.trans (hc₂.trans hc₃), .shared inner (.intro using_ columns)⟩
    · obtain ⟨e, s₂, he, h⟩ := bind_eq_ok.1 h
      obtain ⟨rfl, rfl⟩ := pure_eq_ok.1 h
      obtain ⟨ts, hc₂, condition⟩ := hsub.wholeExpr hc₁.isEnd he
      exact ⟨_, hc₁.trans hc₂, .on inner (.intro on condition)⟩

/-- A join, if one comes next. -/
theorem join?_sound : Sound (join? sub) fun ts o =>
    (o = none ∧ ts = []) ∨ ∃ j, o = some j ∧ IsJoin P ts j := by
  intro s o s' hend h
  obtain ⟨start, s₀, hp, h⟩ := bind_eq_ok.1 h
  obtain ⟨rfl, rfl⟩ := peek_eq_ok hp
  obtain ⟨o, s₁, hkind, h⟩ := bind_eq_ok.1 h
  obtain ⟨ks, hc₁, ⟨rfl, rfl⟩ | ⟨kind, rfl, words⟩⟩ := joinKind?_sound hend hkind
  · obtain ⟨rfl, rfl⟩ := pure_eq_ok.1 h
    exact ⟨_, hc₁, .inl ⟨rfl, rfl⟩⟩
  · obtain ⟨_, s₂, hjoin, h⟩ := bind_eq_ok.1 h
    obtain ⟨u, join, -, hc₂⟩ := keyword_eq_ok hc₁.isEnd hjoin
    obtain ⟨r, s₃, hrelation, h⟩ := bind_eq_ok.1 h
    obtain ⟨rs, hc₃, relation⟩ := relation_sound hsub hc₂.isEnd hrelation
    obtain ⟨c, s₄, hcondition, h⟩ := bind_eq_ok.1 h
    obtain ⟨cs, hc₄, condition⟩ := joinCondition_sound hsub kind hc₃.isEnd hcondition
    obtain ⟨span, s₅, hspan, h⟩ := bind_eq_ok.1 h
    have words' := words.isJoinKind join
    obtain ⟨t, us, first⟩ : ∃ t us, ks ++ [u] = t :: us := by
      cases ks <;> exact ⟨_, _, rfl⟩
    rw [first] at words'
    have consumed : Consumes s (t :: (us ++ (rs ++ cs))) s₄ := by
      have h₄ := (hc₁.trans hc₂).trans (hc₃.trans hc₄)
      rwa [first] at h₄
    have start : ahead s = t := by
      rw [ahead, consumed.tokens]
      rfl
    rw [start] at hspan
    obtain ⟨rfl, rfl⟩ := spanFrom_eq_ok hspan (by simp) consumed
    obtain ⟨rfl, rfl⟩ := pure_eq_ok.1 h
    exact ⟨_, consumed, .inr ⟨_, rfl, .intro words' relation condition⟩⟩

theorem joinedTable_sound : Sound (joinedTable sub) (IsJoinedTable P) := by
  intro s t s' hend h
  obtain ⟨r, s₁, hrelation, h⟩ := bind_eq_ok.1 h
  obtain ⟨rs, hc₁, relation⟩ := relation_sound hsub hend hrelation
  obtain ⟨js, s₂, hloop, h⟩ := bind_eq_ok.1 h
  obtain ⟨ts, hc₂, joins⟩ := collect_sound
    (optionalStep_sound (join?_sound hsub) (by intros; rfl) (by intros; rfl)) hc₁.isEnd hloop
  obtain ⟨span, s₃, hspan, h⟩ := bind_eq_ok.1 h
  have consumed := hc₁.trans hc₂
  obtain ⟨t, _, rfl⟩ := relation.start
  obtain ⟨rfl, rfl⟩ := spanFrom_eq_ok hspan (by simp) consumed
  obtain ⟨rfl, rfl⟩ := pure_eq_ok.1 h
  exact ⟨_, consumed, .intro relation joins⟩

/-! ## Clauses -/

theorem fromClause?_sound : Sound (fromClause? sub) (Optional (IsFrom P)) := by
  intro s o s' hend h
  obtain ⟨o, s₁, hfrom, h⟩ := bind_eq_ok.1 h
  rcases keyword?_eq_ok hend hfrom with ⟨rfl, hc₁⟩ | ⟨t, kind, rfl, hc₁⟩
  · obtain ⟨rfl, rfl⟩ := pure_eq_ok.1 h
    exact ⟨_, hc₁, .none⟩
  · obtain ⟨tables, s₂, htables, h⟩ := bind_eq_ok.1 h
    obtain ⟨ts, hc₂, body⟩ := commaSeparated_sound (joinedTable_sound hsub) hc₁.isEnd htables
    obtain ⟨span, s₃, hspan, h⟩ := bind_eq_ok.1 h
    have consumed : Consumes s (t :: ts) s₂ := hc₁.trans hc₂
    obtain ⟨rfl, rfl⟩ := spanFrom_eq_ok hspan (by simp) consumed
    obtain ⟨rfl, rfl⟩ := pure_eq_ok.1 h
    exact ⟨_, consumed, .some (.intro kind body)⟩

theorem conditionAfter?_sound (k : Keyword) :
    Sound (conditionAfter? sub k) (Optional (Behind (.keyword k) P.wholeExpr)) := by
  intro s o s' hend h
  obtain ⟨o, s₁, hk, h⟩ := bind_eq_ok.1 h
  rcases keyword?_eq_ok hend hk with ⟨rfl, hc₁⟩ | ⟨t, kind, rfl, hc₁⟩
  · obtain ⟨rfl, rfl⟩ := pure_eq_ok.1 h
    exact ⟨_, hc₁, .none⟩
  · obtain ⟨e, s₂, he, h⟩ := bind_eq_ok.1 h
    obtain ⟨rfl, rfl⟩ := pure_eq_ok.1 h
    obtain ⟨ts, hc₂, condition⟩ := hsub.wholeExpr hc₁.isEnd he
    exact ⟨_, hc₁.trans hc₂, .some (.intro kind condition)⟩

theorem groupBy?_sound : Sound (groupBy? sub) (Optional (IsGroupBy P)) := by
  intro s o s' hend h
  obtain ⟨o, s₁, hgroup, h⟩ := bind_eq_ok.1 h
  rcases keyword?_eq_ok hend hgroup with ⟨rfl, hc₁⟩ | ⟨t, group, rfl, hc₁⟩
  · obtain ⟨rfl, rfl⟩ := pure_eq_ok.1 h
    exact ⟨_, hc₁, .none⟩
  · obtain ⟨_, s₂, hby, h⟩ := bind_eq_ok.1 h
    obtain ⟨u, by_, -, hc₂⟩ := keyword_eq_ok hc₁.isEnd hby
    obtain ⟨keys, s₃, hkeys, h⟩ := bind_eq_ok.1 h
    obtain ⟨ts, hc₃, body⟩ := commaSeparated_sound hsub.wholeExpr hc₂.isEnd hkeys
    obtain ⟨span, s₄, hspan, h⟩ := bind_eq_ok.1 h
    have consumed : Consumes s (t :: u :: ts) s₃ := hc₁.trans (hc₂.trans hc₃)
    obtain ⟨rfl, rfl⟩ := spanFrom_eq_ok hspan (by simp) consumed
    obtain ⟨rfl, rfl⟩ := pure_eq_ok.1 h
    exact ⟨_, consumed, .some (.intro group by_ body)⟩

theorem select_sound : Sound (select sub) (IsSelect P) := by
  intro s x s' hend h
  obtain ⟨start, s₁, hselect, h⟩ := bind_eq_ok.1 h
  obtain ⟨t, kind, rfl, hc₁⟩ := keyword_eq_ok hend hselect
  -- The clauses, once the quantifier is read.
  have clauses : ∀ {ds s₂ distinct}, Consumes s₁ ds s₂ → IsQuantifier ds distinct →
      (do
        let projection ← commaSeparated (selectItem sub)
        let source ← fromClause? sub
        let condition ← conditionAfter? sub .WHERE
        let groupBy ← groupBy? sub
        let having ← conditionAfter? sub .HAVING
        return (⟨← spanFrom t.span, distinct, projection, source, condition, groupBy, having⟩ :
          Select)) s₂ = .ok x s' →
      ∃ ts, Consumes s ts s' ∧ IsSelect P ts x := by
    intro ds s₂ distinct hc₂ quantifier h
    obtain ⟨projection, s₃, hitems, h⟩ := bind_eq_ok.1 h
    obtain ⟨ps, hc₃, items⟩ := commaSeparated_sound (selectItem_sound hsub) hc₂.isEnd hitems
    obtain ⟨f, s₄, hfrom, h⟩ := bind_eq_ok.1 h
    obtain ⟨fs, hc₄, source⟩ := fromClause?_sound hsub hc₃.isEnd hfrom
    obtain ⟨w, s₅, hwhere, h⟩ := bind_eq_ok.1 h
    obtain ⟨ws, hc₅, condition⟩ := conditionAfter?_sound hsub .WHERE hc₄.isEnd hwhere
    obtain ⟨g, s₆, hgroup, h⟩ := bind_eq_ok.1 h
    obtain ⟨gs, hc₆, groupBy⟩ := groupBy?_sound hsub hc₅.isEnd hgroup
    obtain ⟨v, s₇, hhaving, h⟩ := bind_eq_ok.1 h
    obtain ⟨hs, hc₇, having⟩ := conditionAfter?_sound hsub .HAVING hc₆.isEnd hhaving
    obtain ⟨span, s₈, hspan, h⟩ := bind_eq_ok.1 h
    have consumed : Consumes s (t :: (ds ++ (ps ++ (fs ++ (ws ++ (gs ++ hs)))))) s₇ :=
      hc₁.trans (hc₂.trans (hc₃.trans (hc₄.trans (hc₅.trans (hc₆.trans hc₇)))))
    obtain ⟨rfl, rfl⟩ := spanFrom_eq_ok hspan (by simp) consumed
    obtain ⟨rfl, rfl⟩ := pure_eq_ok.1 h
    exact ⟨_, consumed, .intro kind quantifier items source condition groupBy having⟩
  obtain ⟨o, s₂, hdistinct, h⟩ := bind_eq_ok.1 h
  rcases keyword?_eq_ok hc₁.isEnd hdistinct with ⟨rfl, hc₂⟩ | ⟨u, distinct, rfl, hc₂⟩
  · obtain ⟨_, s₃, hall, h⟩ := bind_eq_ok.1 h
    obtain ⟨ds, hc₃, noise⟩ := noise_sound hc₂.isEnd hall
    exact clauses (hc₂.trans hc₃) (.all noise) h
  · exact clauses hc₂ (.distinct distinct) h

end

theorem direction_sound : Sound direction IsDirection := by
  intro s d s' hend h
  obtain ⟨o, s₁, hdesc, h⟩ := bind_eq_ok.1 h
  rcases keyword?_eq_ok hend hdesc with ⟨rfl, hc₁⟩ | ⟨t, kind, rfl, hc₁⟩
  · obtain ⟨_, s₂, hasc, h⟩ := bind_eq_ok.1 h
    obtain ⟨rfl, rfl⟩ := pure_eq_ok.1 h
    obtain ⟨ts, hc₂, noise⟩ := noise_sound hc₁.isEnd hasc
    exact ⟨_, hc₁.trans hc₂, .ascending noise⟩
  · obtain ⟨rfl, rfl⟩ := pure_eq_ok.1 h
    exact ⟨_, hc₁, .descending kind⟩

theorem nullsPlacement?_sound : Sound nullsPlacement? (Optional IsNulls) := by
  intro s o s' hend h
  obtain ⟨o, s₁, hnulls, h⟩ := bind_eq_ok.1 h
  rcases word?_eq_ok hend hnulls with ⟨rfl, hc₁⟩ | ⟨t, kind, spelled, rfl, hc₁⟩
  · obtain ⟨rfl, rfl⟩ := pure_eq_ok.1 h
    exact ⟨_, hc₁, .none⟩
  · have nulls : IsWord "NULLS" [t] := .intro kind spelled
    obtain ⟨o, s₂, hfirst, h⟩ := bind_eq_ok.1 h
    rcases word?_eq_ok hc₁.isEnd hfirst with ⟨rfl, hc₂⟩ | ⟨u, kind, spelled, rfl, hc₂⟩
    · obtain ⟨o, s₃, hlast, h⟩ := bind_eq_ok.1 h
      rcases word?_eq_ok hc₂.isEnd hlast with ⟨rfl, hc₃⟩ | ⟨u, kind, spelled, rfl, hc₃⟩
      · exact absurd h unexpected_ne_ok
      · obtain ⟨rfl, rfl⟩ := pure_eq_ok.1 h
        exact ⟨_, hc₁.trans (hc₂.trans hc₃), .some (.intro nulls (.intro kind spelled))⟩
    · obtain ⟨rfl, rfl⟩ := pure_eq_ok.1 h
      exact ⟨_, hc₁.trans hc₂, .some (.intro nulls (.intro kind spelled))⟩

section

include hsub

theorem orderItem_sound : Sound (orderItem sub) (IsOrderItem P) := by
  intro s i s' hend h
  obtain ⟨e, s₁, he, h⟩ := bind_eq_ok.1 h
  obtain ⟨es, hc₁, item⟩ := hsub.wholeExpr hend he
  obtain ⟨d, s₂, hdirection, h⟩ := bind_eq_ok.1 h
  obtain ⟨ds, hc₂, direction⟩ := direction_sound hc₁.isEnd hdirection
  obtain ⟨n, s₃, hnulls, h⟩ := bind_eq_ok.1 h
  obtain ⟨ns, hc₃, nulls⟩ := nullsPlacement?_sound hc₂.isEnd hnulls
  obtain ⟨span, s₄, hspan, h⟩ := bind_eq_ok.1 h
  have consumed := hc₁.trans (hc₂.trans hc₃)
  obtain ⟨t, _, rfl, -⟩ := hsub.proper.start item
  obtain ⟨rfl, rfl⟩ := spanFrom_eq_ok hspan (by simp) consumed
  obtain ⟨rfl, rfl⟩ := pure_eq_ok.1 h
  exact ⟨_, consumed, .intro item direction nulls⟩

theorem orderBy?_sound : Sound (orderBy? sub) (Optional (IsOrderBy P)) := by
  intro s o s' hend h
  obtain ⟨o, s₁, horder, h⟩ := bind_eq_ok.1 h
  rcases keyword?_eq_ok hend horder with ⟨rfl, hc₁⟩ | ⟨t, order, rfl, hc₁⟩
  · obtain ⟨rfl, rfl⟩ := pure_eq_ok.1 h
    exact ⟨_, hc₁, .none⟩
  · obtain ⟨_, s₂, hby, h⟩ := bind_eq_ok.1 h
    obtain ⟨u, by_, -, hc₂⟩ := keyword_eq_ok hc₁.isEnd hby
    obtain ⟨items, s₃, hitems, h⟩ := bind_eq_ok.1 h
    obtain ⟨ts, hc₃, body⟩ := commaSeparated_sound (orderItem_sound hsub) hc₂.isEnd hitems
    obtain ⟨span, s₄, hspan, h⟩ := bind_eq_ok.1 h
    have consumed : Consumes s (t :: u :: ts) s₃ := hc₁.trans (hc₂.trans hc₃)
    obtain ⟨rfl, rfl⟩ := spanFrom_eq_ok hspan (by simp) consumed
    obtain ⟨rfl, rfl⟩ := pure_eq_ok.1 h
    exact ⟨_, consumed, .some (.intro order by_ body)⟩

theorem limit?_sound : Sound (limit? sub) (Optional (IsLimit P)) := by
  intro s o s' hend h
  obtain ⟨o, s₁, hlimit, h⟩ := bind_eq_ok.1 h
  rcases keyword?_eq_ok hend hlimit with ⟨rfl, hc₁⟩ | ⟨t, kind, rfl, hc₁⟩
  · obtain ⟨rfl, rfl⟩ := pure_eq_ok.1 h
    exact ⟨_, hc₁, .none⟩
  · obtain ⟨first, s₂, hfirst, h⟩ := bind_eq_ok.1 h
    obtain ⟨fs, hc₂, first'⟩ := hsub.wholeExpr hc₁.isEnd hfirst
    obtain ⟨o, s₃, hcomma, h⟩ := bind_eq_ok.1 h
    rcases punctuation?_eq_ok hc₂.isEnd hcomma with ⟨rfl, hc₃⟩ | ⟨u, comma, rfl, hc₃⟩
    · obtain ⟨o, s₄, hoffset, h⟩ := bind_eq_ok.1 h
      rcases keyword?_eq_ok hc₃.isEnd hoffset with ⟨rfl, hc₄⟩ | ⟨u, offset, rfl, hc₄⟩
      · obtain ⟨_, s₅, hpure, h⟩ := bind_eq_ok.1 h
        obtain ⟨rfl, rfl⟩ := pure_eq_ok.1 hpure
        obtain ⟨span, s₆, hspan, h⟩ := bind_eq_ok.1 h
        have consumed : Consumes s (t :: (fs ++ [])) s₄ :=
          hc₁.trans (hc₂.trans (hc₃.trans hc₄))
        obtain ⟨rfl, rfl⟩ := spanFrom_eq_ok hspan (by simp) consumed
        obtain ⟨rfl, rfl⟩ := pure_eq_ok.1 h
        exact ⟨_, consumed, .some (.count kind first' .none)⟩
      · obtain ⟨second, s₅, hsecond, h⟩ := bind_eq_ok.1 h
        obtain ⟨ss, hc₅, second'⟩ := hsub.wholeExpr hc₄.isEnd hsecond
        obtain ⟨_, s₆, hpure, h⟩ := bind_eq_ok.1 h
        obtain ⟨rfl, rfl⟩ := pure_eq_ok.1 hpure
        obtain ⟨span, s₇, hspan, h⟩ := bind_eq_ok.1 h
        have consumed : Consumes s (t :: (fs ++ u :: ss)) s₅ :=
          hc₁.trans (hc₂.trans (hc₃.trans (hc₄.trans hc₅)))
        obtain ⟨rfl, rfl⟩ := spanFrom_eq_ok hspan (by simp) consumed
        obtain ⟨rfl, rfl⟩ := pure_eq_ok.1 h
        exact ⟨_, consumed, .some (.count kind first' (.some (.intro offset second')))⟩
    · obtain ⟨second, s₄, hsecond, h⟩ := bind_eq_ok.1 h
      obtain ⟨ss, hc₄, second'⟩ := hsub.wholeExpr hc₃.isEnd hsecond
      obtain ⟨_, s₅, hpure, h⟩ := bind_eq_ok.1 h
      obtain ⟨rfl, rfl⟩ := pure_eq_ok.1 hpure
      obtain ⟨span, s₆, hspan, h⟩ := bind_eq_ok.1 h
      have consumed : Consumes s (t :: (fs ++ u :: ss)) s₄ :=
        hc₁.trans (hc₂.trans (hc₃.trans hc₄))
      obtain ⟨rfl, rfl⟩ := spanFrom_eq_ok hspan (by simp) consumed
      obtain ⟨rfl, rfl⟩ := pure_eq_ok.1 h
      exact ⟨_, consumed, .some (.offsetFirst hsub.comma kind first' (.intro comma second'))⟩

/-! ## Combining selections -/

omit hsub in
theorem setOperator?_eq_ok {s s' : ParserState} {o : Option SetOperator} (hend : s.finish.isEnd)
    (h : setOperator? s = .ok o s') :
    (o = none ∧ Consumes s [] s') ∨
      ∃ op, o = some op ∧ s = s' ∧ (ahead s).kind = .keyword op.keyword := by
  obtain ⟨t, s₁, hp, h⟩ := bind_eq_ok.1 h
  obtain ⟨rfl, rfl⟩ := peek_eq_ok hp
  have absent : ∀ es, (do note es; return none) s = .ok o s' → o = none ∧ Consumes s [] s' := by
    intro es h
    obtain ⟨_, s₁, hnote, h⟩ := bind_eq_ok.1 h
    obtain ⟨rfl, rfl⟩ := pure_eq_ok.1 h
    exact ⟨rfl, note_eq_ok hend hnote⟩
  cases word : (ahead s).kind with
  | keyword k =>
    simp only [word] at h
    cases k with
    | UNION | INTERSECT | EXCEPT =>
      obtain ⟨rfl, rfl⟩ := pure_eq_ok.1 h
      exact .inr ⟨_, rfl, rfl, rfl⟩
    | _ => exact .inl (absent _ h)
  | _ =>
    simp only [word] at h
    exact .inl (absent _ h)

theorem setOperand_sound {left b : QueryBody} {op : SetOperator} {s s' : ParserState}
    (hend : s.finish.isEnd) (kind : (ahead s).kind = .keyword op.keyword)
    (h : setOperand sub left op s = .ok b s') :
    ∃ ts, Consumes s ts s' ∧ IsSetOperand P left op ts b := by
  obtain ⟨t, s₁, hn, h⟩ := bind_eq_ok.1 h
  obtain ⟨rfl, hc₁⟩ := next_eq_ok hend hn (by simp [Token.isEnd, kind])
  obtain ⟨all, s₂, hall, h⟩ := bind_eq_ok.1 h
  obtain ⟨as, hc₂, quantifier⟩ := flag_sound hc₁.isEnd hall
  obtain ⟨right, s₃, hselect, h⟩ := bind_eq_ok.1 h
  obtain ⟨ss, hc₃, select⟩ := select_sound hsub hc₂.isEnd hselect
  obtain ⟨rfl, rfl⟩ := pure_eq_ok.1 h
  have consumed : Consumes s (ahead s :: (as ++ ss)) s₃ := hc₁.trans (hc₂.trans hc₃)
  exact ⟨_, consumed, .intro kind quantifier select⟩

/-- The end of a query whose selections were consumed from `s₀` on. -/
theorem queryTail_sound {before : List Token} {body : QueryBody} {q : Query}
    {s₀ s s' : ParserState} (hc₀ : Consumes s₀ before s) (hbefore : before ≠ [])
    (h : queryTail sub body s = .ok q s') :
    ∃ ts, Consumes s ts s' ∧ IsQueryTail P before body ts q := by
  obtain ⟨o, s₁, horder, h⟩ := bind_eq_ok.1 h
  obtain ⟨os, hc₁, orderBy⟩ := orderBy?_sound hsub hc₀.isEnd horder
  obtain ⟨l, s₂, hlimit, h⟩ := bind_eq_ok.1 h
  obtain ⟨ls, hc₂, limit⟩ := limit?_sound hsub hc₁.isEnd hlimit
  obtain ⟨span, s₃, hspan, h⟩ := bind_eq_ok.1 h
  have consumed := hc₀.trans (hc₁.trans hc₂)
  obtain ⟨rfl, rfl⟩ := spanFrom_eq_ok hspan (by simp [hbefore]) consumed
  obtain ⟨rfl, rfl⟩ := pure_eq_ok.1 h
  exact ⟨_, hc₁.trans hc₂, .intro orderBy limit⟩

end

end SqlSyntax.Parser
