import SqlSyntax.Parser.Statement
import SqlSyntax.Proofs.Grammar.Statement
import SqlSyntax.Proofs.Parser.Soundness.Nesting

/-!
# Soundness of the parsers of statements

## Main results

* `statement_sound` — a statement is read from the tokens that its parser
  consumed.
* `wholeStatement_sound` — behind a whole statement stands a semicolon or not,
  and the end of the input.
-/

namespace SqlSyntax.Parser

open Grammar

variable {P : Phrases} {sub : Nested} (hsub : SoundNested P sub)

/-! ## Changes of the data -/

theorem atParenthesizedQuery_eq_ok {s s' : ParserState} {b : Bool}
    (h : atParenthesizedQuery s = .ok b s') : s = s' := by
  obtain ⟨t, s₁, hp, h⟩ := bind_eq_ok.1 h
  obtain ⟨rfl, rfl⟩ := peek_eq_ok hp
  split at h
  · obtain ⟨u, s₂, hu, h⟩ := bind_eq_ok.1 h
    obtain ⟨rfl, -⟩ := peekAt_eq_ok hu
    exact (pure_eq_ok.1 h).2
  · exact (pure_eq_ok.1 h).2

theorem insertColumns_sound : Sound insertColumns IsInsertColumns := by
  intro s cs s' hend h
  obtain ⟨t, s₁, hp, h⟩ := bind_eq_ok.1 h
  obtain ⟨rfl, rfl⟩ := peek_eq_ok hp
  split at h
  · obtain ⟨ts, hc, columns⟩ := columnList_sound hend h
    exact ⟨ts, hc, .listed columns⟩
  · obtain ⟨_, s₂, hnote, h⟩ := bind_eq_ok.1 h
    obtain ⟨rfl, rfl⟩ := pure_eq_ok.1 h
    exact ⟨[], note_eq_ok hend hnote, .none⟩

section

include hsub

theorem insertSource_sound : Sound (insertSource sub) (IsInsertSource P) := by
  intro s x s' hend h
  obtain ⟨o, s₁, hvalues, h⟩ := bind_eq_ok.1 h
  rcases keyword?_eq_ok hend hvalues with ⟨rfl, hc₁⟩ | ⟨t, values, rfl, hc₁⟩
  · have hother : Sound (do
        note [.keyword .VALUES, .keyword .SELECT]
        unexpected : Parser InsertSource) (IsInsertSource P) := by
      intro s x s' hend h
      obtain ⟨_, s₁, -, h⟩ := bind_eq_ok.1 h
      exact absurd h unexpected_ne_ok
    obtain ⟨ts, hc₂, source⟩ := queryOr_sound hsub (fun _ _ hq => .query hq) hother hc₁.isEnd h
    exact ⟨ts, hc₁.trans hc₂, source⟩
  · obtain ⟨rows, s₂, hrows, h⟩ := bind_eq_ok.1 h
    obtain ⟨rfl, rfl⟩ := pure_eq_ok.1 h
    obtain ⟨ts, hc₂, body⟩ := commaSeparated_sound
      (parenthesized_sound (commaSeparated_sound hsub.wholeExpr)) hc₁.isEnd hrows
    exact ⟨_, hc₁.trans hc₂, .values (.intro values body)⟩

theorem insert_sound : Sound (insert sub) (IsInsert P) := by
  intro s x s' hend h
  obtain ⟨start, s₁, hinsert, h⟩ := bind_eq_ok.1 h
  obtain ⟨t, kind, rfl, hc₁⟩ := keyword_eq_ok hend hinsert
  obtain ⟨_, s₂, hinto, h⟩ := bind_eq_ok.1 h
  obtain ⟨u, into, -, hc₂⟩ := keyword_eq_ok hc₁.isEnd hinto
  obtain ⟨n, s₃, hname, h⟩ := bind_eq_ok.1 h
  obtain ⟨ns, hc₃, table⟩ := qualifiedName_sound hc₂.isEnd hname
  obtain ⟨b, s₄, hat, h⟩ := bind_eq_ok.1 h
  obtain rfl := atParenthesizedQuery_eq_ok hat
  split at h
  · obtain ⟨q, s₅, hq, h⟩ := bind_eq_ok.1 h
    obtain ⟨qs, hc₄, source⟩ := parenthesized_sound hsub.query hc₃.isEnd hq
    obtain ⟨span, s₆, hspan, h⟩ := bind_eq_ok.1 h
    have consumed : Consumes s (t :: u :: (ns ++ qs)) s₅ :=
      hc₁.trans (hc₂.trans (hc₃.trans hc₄))
    obtain ⟨rfl, rfl⟩ := spanFrom_eq_ok hspan (by simp) consumed
    obtain ⟨rfl, rfl⟩ := pure_eq_ok.1 h
    exact ⟨_, consumed, .parenthesized kind into table source⟩
  · obtain ⟨is, s₅, hcolumns, h⟩ := bind_eq_ok.1 h
    obtain ⟨cs, hc₄, columns⟩ := insertColumns_sound hc₃.isEnd hcolumns
    obtain ⟨source, s₆, hsource, h⟩ := bind_eq_ok.1 h
    obtain ⟨ss, hc₅, source⟩ := insertSource_sound hsub hc₄.isEnd hsource
    obtain ⟨span, s₇, hspan, h⟩ := bind_eq_ok.1 h
    have consumed : Consumes s (t :: u :: (ns ++ (cs ++ ss))) s₆ :=
      hc₁.trans (hc₂.trans (hc₃.trans (hc₄.trans hc₅)))
    obtain ⟨rfl, rfl⟩ := spanFrom_eq_ok hspan (by simp) consumed
    obtain ⟨rfl, rfl⟩ := pure_eq_ok.1 h
    exact ⟨_, consumed, .plain kind into table columns source⟩

theorem assignment_sound : Sound (assignment sub) (IsAssignment P) := by
  intro s a s' hend h
  obtain ⟨c, s₁, hcolumn, h⟩ := bind_eq_ok.1 h
  obtain ⟨cs, hc₁, column⟩ := identifier_sound hend hcolumn
  obtain ⟨_, s₂, hequal, h⟩ := bind_eq_ok.1 h
  obtain ⟨t, equal, -, hc₂⟩ := operator_eq_ok hc₁.isEnd hequal
  obtain ⟨v, s₃, hvalue, h⟩ := bind_eq_ok.1 h
  obtain ⟨vs, hc₃, value⟩ := hsub.wholeExpr hc₂.isEnd hvalue
  obtain ⟨span, s₄, hspan, h⟩ := bind_eq_ok.1 h
  have consumed := hc₁.trans (hc₂.trans hc₃)
  obtain ⟨rfl, rfl⟩ := spanFrom_eq_ok hspan (by simp) consumed
  obtain ⟨rfl, rfl⟩ := pure_eq_ok.1 h
  exact ⟨_, consumed, .intro column (.intro equal value)⟩

theorem update_sound : Sound (update sub) (IsUpdate P) := by
  intro s x s' hend h
  obtain ⟨start, s₁, hupdate, h⟩ := bind_eq_ok.1 h
  obtain ⟨t, kind, rfl, hc₁⟩ := keyword_eq_ok hend hupdate
  obtain ⟨n, s₂, hname, h⟩ := bind_eq_ok.1 h
  obtain ⟨ns, hc₂, table⟩ := qualifiedName_sound hc₁.isEnd hname
  obtain ⟨label, s₃, hlabel, h⟩ := bind_eq_ok.1 h
  obtain ⟨ls, hc₃, name⟩ := alias?_sound hc₂.isEnd hlabel
  obtain ⟨_, s₄, hset, h⟩ := bind_eq_ok.1 h
  obtain ⟨u, set, -, hc₄⟩ := keyword_eq_ok hc₃.isEnd hset
  obtain ⟨assignments, s₅, hassignments, h⟩ := bind_eq_ok.1 h
  obtain ⟨as, hc₅, body⟩ :=
    commaSeparated_sound (assignment_sound hsub) hc₄.isEnd hassignments
  obtain ⟨w, s₆, hwhere, h⟩ := bind_eq_ok.1 h
  obtain ⟨ws, hc₆, condition⟩ := conditionAfter?_sound hsub .WHERE hc₅.isEnd hwhere
  obtain ⟨span, s₇, hspan, h⟩ := bind_eq_ok.1 h
  have consumed : Consumes s (t :: (ns ++ (ls ++ (u :: as ++ ws)))) s₆ :=
    hc₁.trans (hc₂.trans (hc₃.trans ((hc₄.trans hc₅).trans hc₆)))
  obtain ⟨rfl, rfl⟩ := spanFrom_eq_ok hspan (by simp) consumed
  obtain ⟨rfl, rfl⟩ := pure_eq_ok.1 h
  exact ⟨_, consumed, .intro kind table name (.intro set body) condition⟩

theorem delete_sound : Sound (delete sub) (IsDelete P) := by
  intro s x s' hend h
  obtain ⟨start, s₁, hdelete, h⟩ := bind_eq_ok.1 h
  obtain ⟨t, kind, rfl, hc₁⟩ := keyword_eq_ok hend hdelete
  obtain ⟨_, s₂, hfrom, h⟩ := bind_eq_ok.1 h
  obtain ⟨u, source, -, hc₂⟩ := keyword_eq_ok hc₁.isEnd hfrom
  obtain ⟨n, s₃, hname, h⟩ := bind_eq_ok.1 h
  obtain ⟨ns, hc₃, table⟩ := qualifiedName_sound hc₂.isEnd hname
  obtain ⟨label, s₄, hlabel, h⟩ := bind_eq_ok.1 h
  obtain ⟨ls, hc₄, name⟩ := alias?_sound hc₃.isEnd hlabel
  obtain ⟨w, s₅, hwhere, h⟩ := bind_eq_ok.1 h
  obtain ⟨ws, hc₅, condition⟩ := conditionAfter?_sound hsub .WHERE hc₄.isEnd hwhere
  obtain ⟨span, s₆, hspan, h⟩ := bind_eq_ok.1 h
  have consumed : Consumes s (t :: u :: (ns ++ (ls ++ ws))) s₅ :=
    hc₁.trans (hc₂.trans (hc₃.trans (hc₄.trans hc₅)))
  obtain ⟨rfl, rfl⟩ := spanFrom_eq_ok hspan (by simp) consumed
  obtain ⟨rfl, rfl⟩ := pure_eq_ok.1 h
  exact ⟨_, consumed, .intro kind source table name condition⟩

/-! ## Changes of the schema -/

/-- An option of a column, if one comes next. -/
theorem columnOption?_sound : Sound (columnOption? sub) fun ts o =>
    (o = none ∧ ts = []) ∨ ∃ a, o = some a ∧ IsColumnOption P ts a := by
  intro s o s' hend h
  obtain ⟨t, s₁, hp, h⟩ := bind_eq_ok.1 h
  obtain ⟨rfl, rfl⟩ := peek_eq_ok hp
  have absent : ∀ es, (do note es; return none) s = .ok o s' → ∃ ts, Consumes s ts s' ∧
      ((o = none ∧ ts = []) ∨ ∃ a, o = some a ∧ IsColumnOption P ts a) := by
    intro es h
    obtain ⟨_, s₁, hnote, h⟩ := bind_eq_ok.1 h
    obtain ⟨rfl, rfl⟩ := pure_eq_ok.1 h
    exact ⟨_, note_eq_ok hend hnote, .inl ⟨rfl, rfl⟩⟩
  cases word : (ahead s).kind with
  | keyword k =>
    have here : (ahead s).isEnd = false := by simp [Token.isEnd, word]
    simp only [word] at h
    cases k with
    | NOT =>
      obtain ⟨_, s₁, hn, h⟩ := bind_eq_ok.1 h
      obtain ⟨rfl, hc₁⟩ := next_eq_ok hend hn here
      obtain ⟨_, s₂, hnull, h⟩ := bind_eq_ok.1 h
      obtain ⟨u, null, -, hc₂⟩ := keyword_eq_ok hc₁.isEnd hnull
      obtain ⟨rfl, rfl⟩ := pure_eq_ok.1 h
      exact ⟨_, hc₁.trans hc₂, .inr ⟨_, rfl, .notNull (.cons word (.cons null .nil))⟩⟩
    | NULL =>
      obtain ⟨_, s₁, hn, h⟩ := bind_eq_ok.1 h
      obtain ⟨rfl, hc₁⟩ := next_eq_ok hend hn here
      obtain ⟨rfl, rfl⟩ := pure_eq_ok.1 h
      exact ⟨_, hc₁, .inr ⟨_, rfl, .null (.cons word .nil)⟩⟩
    | PRIMARY =>
      obtain ⟨_, s₁, hn, h⟩ := bind_eq_ok.1 h
      obtain ⟨rfl, hc₁⟩ := next_eq_ok hend hn here
      obtain ⟨_, s₂, hkey, h⟩ := bind_eq_ok.1 h
      obtain ⟨u, key, -, hc₂⟩ := keyword_eq_ok hc₁.isEnd hkey
      obtain ⟨rfl, rfl⟩ := pure_eq_ok.1 h
      exact ⟨_, hc₁.trans hc₂, .inr ⟨_, rfl, .primaryKey (.cons word (.cons key .nil))⟩⟩
    | UNIQUE =>
      obtain ⟨_, s₁, hn, h⟩ := bind_eq_ok.1 h
      obtain ⟨rfl, hc₁⟩ := next_eq_ok hend hn here
      obtain ⟨rfl, rfl⟩ := pure_eq_ok.1 h
      exact ⟨_, hc₁, .inr ⟨_, rfl, .unique (.cons word .nil)⟩⟩
    | DEFAULT =>
      obtain ⟨_, s₁, hn, h⟩ := bind_eq_ok.1 h
      obtain ⟨rfl, hc₁⟩ := next_eq_ok hend hn here
      obtain ⟨e, s₂, he, h⟩ := bind_eq_ok.1 h
      obtain ⟨ts, hc₂, value⟩ := hsub.wholeExpr hc₁.isEnd he
      obtain ⟨rfl, rfl⟩ := pure_eq_ok.1 h
      exact ⟨_, hc₁.trans hc₂, .inr ⟨_, rfl, .default (.intro word value)⟩⟩
    | _ => exact absent _ h
  | _ =>
    simp only [word] at h
    exact absent _ h

theorem columnDefinition_sound : Sound (columnDefinition sub) (IsColumnDefinition P) := by
  intro s c s' hend h
  obtain ⟨n, s₁, hname, h⟩ := bind_eq_ok.1 h
  obtain ⟨ns, hc₁, name⟩ := identifier_sound hend hname
  obtain ⟨d, s₂, htype, h⟩ := bind_eq_ok.1 h
  obtain ⟨ts, hc₂, type⟩ := dataType_sound hc₁.isEnd htype
  obtain ⟨list, s₃, hloop, h⟩ := bind_eq_ok.1 h
  obtain ⟨os, hc₃, options⟩ := collect_sound
    (optionalStep_sound (columnOption?_sound hsub) (by intros; rfl) (by intros; rfl)) hc₂.isEnd hloop
  obtain ⟨span, s₄, hspan, h⟩ := bind_eq_ok.1 h
  have consumed := hc₁.trans (hc₂.trans hc₃)
  have hne : ns ≠ [] := by
    obtain ⟨_⟩ := name
    simp
  obtain ⟨rfl, rfl⟩ := spanFrom_eq_ok hspan (by simp [hne]) consumed
  obtain ⟨rfl, rfl⟩ := pure_eq_ok.1 h
  exact ⟨_, consumed, .intro name type options⟩

theorem tableElement_sound : Sound (tableElement sub) (IsTableElement P) := by
  intro s x s' hend h
  obtain ⟨start, s₀, hp, h⟩ := bind_eq_ok.1 h
  obtain ⟨rfl, rfl⟩ := peek_eq_ok hp
  -- The span starts at the token that was looked at first.
  have first : ∀ {t ts s₁}, Consumes s (t :: ts) s₁ → ahead s = t := by
    intro t ts s₁ hc
    rw [ahead, hc.tokens]
    rfl
  obtain ⟨o, s₁, hprimary, h⟩ := bind_eq_ok.1 h
  rcases keyword?_eq_ok hend hprimary with ⟨rfl, hc₁⟩ | ⟨t, primary, rfl, hc₁⟩
  · obtain ⟨o, s₂, hunique, h⟩ := bind_eq_ok.1 h
    rcases keyword?_eq_ok hc₁.isEnd hunique with ⟨rfl, hc₂⟩ | ⟨t, unique, rfl, hc₂⟩
    · obtain ⟨c, s₃, hcolumn, h⟩ := bind_eq_ok.1 h
      obtain ⟨rfl, rfl⟩ := pure_eq_ok.1 h
      obtain ⟨ts, hc₃, column⟩ := columnDefinition_sound hsub hc₂.isEnd hcolumn
      exact ⟨_, hc₁.trans (hc₂.trans hc₃), .column column⟩
    · obtain ⟨cs, s₃, hcolumns, h⟩ := bind_eq_ok.1 h
      obtain ⟨ts, hc₃, columns⟩ := columnList_sound hc₂.isEnd hcolumns
      obtain ⟨span, s₄, hspan, h⟩ := bind_eq_ok.1 h
      have consumed : Consumes s (t :: ts) s₃ := hc₁.trans (hc₂.trans hc₃)
      rw [first consumed] at hspan
      obtain ⟨rfl, rfl⟩ := spanFrom_eq_ok hspan (by simp) consumed
      obtain ⟨rfl, rfl⟩ := pure_eq_ok.1 h
      exact ⟨_, consumed, .constraint (.unique unique columns)⟩
  · obtain ⟨_, s₂, hkey, h⟩ := bind_eq_ok.1 h
    obtain ⟨u, key, -, hc₂⟩ := keyword_eq_ok hc₁.isEnd hkey
    obtain ⟨cs, s₃, hcolumns, h⟩ := bind_eq_ok.1 h
    obtain ⟨ts, hc₃, columns⟩ := columnList_sound hc₂.isEnd hcolumns
    obtain ⟨span, s₄, hspan, h⟩ := bind_eq_ok.1 h
    have consumed : Consumes s (t :: u :: ts) s₃ := hc₁.trans (hc₂.trans hc₃)
    rw [first consumed] at hspan
    obtain ⟨rfl, rfl⟩ := spanFrom_eq_ok hspan (by simp) consumed
    obtain ⟨rfl, rfl⟩ := pure_eq_ok.1 h
    exact ⟨_, consumed, .constraint (.primaryKey primary key columns)⟩

end

theorem ifNotExists_sound : Sound ifNotExists (IsGuard [.IF, .NOT, .EXISTS]) := by
  intro s b s' hend h
  obtain ⟨o, s₁, hif, h⟩ := bind_eq_ok.1 h
  rcases keyword?_eq_ok hend hif with ⟨rfl, hc₁⟩ | ⟨t, if_, rfl, hc₁⟩
  · obtain ⟨rfl, rfl⟩ := pure_eq_ok.1 h
    exact ⟨_, hc₁, .absent⟩
  · obtain ⟨_, s₂, hnot, h⟩ := bind_eq_ok.1 h
    obtain ⟨u, not, -, hc₂⟩ := keyword_eq_ok hc₁.isEnd hnot
    obtain ⟨_, s₃, hexists, h⟩ := bind_eq_ok.1 h
    obtain ⟨v, exists_, -, hc₃⟩ := keyword_eq_ok hc₂.isEnd hexists
    obtain ⟨rfl, rfl⟩ := pure_eq_ok.1 h
    exact ⟨_, hc₁.trans (hc₂.trans hc₃),
      .present (.cons if_ (.cons not (.cons exists_ .nil)))⟩

theorem ifExists_sound : Sound ifExists (IsGuard [.IF, .EXISTS]) := by
  intro s b s' hend h
  obtain ⟨o, s₁, hif, h⟩ := bind_eq_ok.1 h
  rcases keyword?_eq_ok hend hif with ⟨rfl, hc₁⟩ | ⟨t, if_, rfl, hc₁⟩
  · obtain ⟨rfl, rfl⟩ := pure_eq_ok.1 h
    exact ⟨_, hc₁, .absent⟩
  · obtain ⟨_, s₂, hexists, h⟩ := bind_eq_ok.1 h
    obtain ⟨u, exists_, -, hc₂⟩ := keyword_eq_ok hc₁.isEnd hexists
    obtain ⟨rfl, rfl⟩ := pure_eq_ok.1 h
    exact ⟨_, hc₁.trans hc₂, .present (.cons if_ (.cons exists_ .nil))⟩

section

include hsub

theorem createTable_sound {t u : Token} (create : t.kind = .keyword .CREATE)
    (table : u.kind = .keyword .TABLE) {s₀ s s' : ParserState} {x : CreateTable}
    (hc₀ : Consumes s₀ [t, u] s) (h : createTable sub t.span s = .ok x s') :
    ∃ ts, Consumes s₀ ts s' ∧ IsCreateTable P ts x := by
  obtain ⟨g, s₁, hguard, h⟩ := bind_eq_ok.1 h
  obtain ⟨gs, hc₁, guard⟩ := ifNotExists_sound hc₀.isEnd hguard
  obtain ⟨n, s₂, hname, h⟩ := bind_eq_ok.1 h
  obtain ⟨ns, hc₂, name⟩ := qualifiedName_sound hc₁.isEnd hname
  obtain ⟨elements, s₃, helements, h⟩ := bind_eq_ok.1 h
  obtain ⟨es, hc₃, body⟩ := parenthesized_sound
    (commaSeparated_sound (tableElement_sound hsub)) hc₂.isEnd helements
  obtain ⟨span, s₄, hspan, h⟩ := bind_eq_ok.1 h
  have consumed : Consumes s₀ (t :: u :: (gs ++ (ns ++ es))) s₃ :=
    hc₀.trans (hc₁.trans (hc₂.trans hc₃))
  obtain ⟨rfl, rfl⟩ := spanFrom_eq_ok hspan (by simp) consumed
  obtain ⟨rfl, rfl⟩ := pure_eq_ok.1 h
  exact ⟨_, consumed, .intro create table guard name body⟩

omit hsub in
theorem createDatabase_sound {t u : Token} (create : t.kind = .keyword .CREATE)
    (database : u.kind = .keyword .DATABASE) {s₀ s s' : ParserState} {x : CreateDatabase}
    (hc₀ : Consumes s₀ [t, u] s) (h : createDatabase t.span s = .ok x s') :
    ∃ ts, Consumes s₀ ts s' ∧ IsCreateDatabase ts x := by
  obtain ⟨n, s₁, hname, h⟩ := bind_eq_ok.1 h
  obtain ⟨ns, hc₁, name⟩ := identifier_sound hc₀.isEnd hname
  obtain ⟨span, s₂, hspan, h⟩ := bind_eq_ok.1 h
  have consumed : Consumes s₀ (t :: u :: ns) s₁ := hc₀.trans hc₁
  obtain ⟨rfl, rfl⟩ := spanFrom_eq_ok hspan (by simp) consumed
  obtain ⟨rfl, rfl⟩ := pure_eq_ok.1 h
  exact ⟨_, consumed, .intro create database name⟩

omit hsub in
theorem createIndex_sound {t : Token} (create : t.kind = .keyword .CREATE)
    {s₀ s s' : ParserState} {x : CreateIndex} (hc₀ : Consumes s₀ [t] s)
    (h : createIndex t.span s = .ok x s') : ∃ ts, Consumes s₀ ts s' ∧ IsCreateIndex ts x := by
  obtain ⟨unique, s₁, hunique, h⟩ := bind_eq_ok.1 h
  obtain ⟨fs, hc₁, mark⟩ := flag_sound hc₀.isEnd hunique
  obtain ⟨_, s₂, hindex, h⟩ := bind_eq_ok.1 h
  obtain ⟨u, index, -, hc₂⟩ := keyword_eq_ok hc₁.isEnd hindex
  obtain ⟨n, s₃, hname, h⟩ := bind_eq_ok.1 h
  obtain ⟨ns, hc₃, name⟩ := identifier_sound hc₂.isEnd hname
  obtain ⟨_, s₄, hon, h⟩ := bind_eq_ok.1 h
  obtain ⟨v, on, -, hc₄⟩ := keyword_eq_ok hc₃.isEnd hon
  obtain ⟨table, s₅, htable, h⟩ := bind_eq_ok.1 h
  obtain ⟨ts, hc₅, table'⟩ := qualifiedName_sound hc₄.isEnd htable
  obtain ⟨is, s₆, hcolumns, h⟩ := bind_eq_ok.1 h
  obtain ⟨cs, hc₆, columns⟩ := columnList_sound hc₅.isEnd hcolumns
  obtain ⟨span, s₇, hspan, h⟩ := bind_eq_ok.1 h
  have consumed : Consumes s₀ (t :: (fs ++ u :: (ns ++ (v :: ts ++ cs)))) s₆ :=
    hc₀.trans (hc₁.trans (hc₂.trans (hc₃.trans ((hc₄.trans hc₅).trans hc₆))))
  obtain ⟨rfl, rfl⟩ := spanFrom_eq_ok hspan (by simp) consumed
  obtain ⟨rfl, rfl⟩ := pure_eq_ok.1 h
  exact ⟨_, consumed, .intro create mark index name (.intro on table') columns⟩

theorem create_sound : Sound (create sub) (IsStatement P) := by
  intro s x s' hend h
  obtain ⟨start, s₁, hcreate, h⟩ := bind_eq_ok.1 h
  obtain ⟨t, create, rfl, hc₁⟩ := keyword_eq_ok hend hcreate
  obtain ⟨o, s₂, htable, h⟩ := bind_eq_ok.1 h
  rcases keyword?_eq_ok hc₁.isEnd htable with ⟨rfl, hc₂⟩ | ⟨u, table, rfl, hc₂⟩
  · obtain ⟨o, s₃, hdatabase, h⟩ := bind_eq_ok.1 h
    rcases keyword?_eq_ok hc₂.isEnd hdatabase with ⟨rfl, hc₃⟩ | ⟨u, database, rfl, hc₃⟩
    · obtain ⟨y, s₄, hy, h⟩ := bind_eq_ok.1 h
      obtain ⟨rfl, rfl⟩ := pure_eq_ok.1 h
      have hc : Consumes s [t] s₃ := hc₁.trans (hc₂.trans hc₃)
      obtain ⟨ts, hc', body⟩ := createIndex_sound create hc hy
      exact ⟨ts, hc', .createIndex body⟩
    · obtain ⟨y, s₄, hy, h⟩ := bind_eq_ok.1 h
      obtain ⟨rfl, rfl⟩ := pure_eq_ok.1 h
      have hc : Consumes s [t, u] s₃ := hc₁.trans (hc₂.trans hc₃)
      obtain ⟨ts, hc', body⟩ := createDatabase_sound create database hc hy
      exact ⟨ts, hc', .createDatabase body⟩
  · obtain ⟨y, s₃, hy, h⟩ := bind_eq_ok.1 h
    obtain ⟨rfl, rfl⟩ := pure_eq_ok.1 h
    obtain ⟨ts, hc', body⟩ := createTable_sound hsub create table (hc₁.trans hc₂) hy
    exact ⟨ts, hc', .createTable body⟩

end

theorem renameTail_sound {t : Token} (rename : t.kind = .keyword .RENAME) :
    Sound renameTail fun ts a => IsAlteration P (t :: ts) a := by
  intro s a s' hend h
  obtain ⟨o, s₁, hto, h⟩ := bind_eq_ok.1 h
  rcases keyword?_eq_ok hend hto with ⟨rfl, hc₁⟩ | ⟨u, to_, rfl, hc₁⟩
  · obtain ⟨_, s₂, hnoise, h⟩ := bind_eq_ok.1 h
    obtain ⟨ns, hc₂, noise⟩ := noise_sound hc₁.isEnd hnoise
    obtain ⟨i, s₃, hold, h⟩ := bind_eq_ok.1 h
    obtain ⟨os, hc₃, old⟩ := identifier_sound hc₂.isEnd hold
    obtain ⟨_, s₄, hto, h⟩ := bind_eq_ok.1 h
    obtain ⟨u, to_, -, hc₄⟩ := keyword_eq_ok hc₃.isEnd hto
    obtain ⟨j, s₅, hnew, h⟩ := bind_eq_ok.1 h
    obtain ⟨us, hc₅, new⟩ := identifier_sound hc₄.isEnd hnew
    obtain ⟨rfl, rfl⟩ := pure_eq_ok.1 h
    have consumed : Consumes s (ns ++ (os ++ u :: us)) s₅ :=
      hc₁.trans (hc₂.trans (hc₃.trans (hc₄.trans hc₅)))
    exact ⟨_, consumed, .renameColumn rename noise old (.intro to_ new)⟩
  · obtain ⟨n, s₂, hname, h⟩ := bind_eq_ok.1 h
    obtain ⟨ns, hc₂, name⟩ := identifier_sound hc₁.isEnd hname
    obtain ⟨rfl, rfl⟩ := pure_eq_ok.1 h
    exact ⟨_, hc₁.trans hc₂, .renameTable rename (.intro to_ name)⟩

section

include hsub

theorem alteration_sound : Sound (alteration sub) (IsAlteration P) := by
  intro s a s' hend h
  obtain ⟨t, s₁, hp, h⟩ := bind_eq_ok.1 h
  obtain ⟨rfl, rfl⟩ := peek_eq_ok hp
  cases word : (ahead s).kind with
  | keyword k =>
    have here : (ahead s).isEnd = false := by simp [Token.isEnd, word]
    simp only [word] at h
    cases k with
    | ADD =>
      obtain ⟨_, s₁, hn, h⟩ := bind_eq_ok.1 h
      obtain ⟨rfl, hc₁⟩ := next_eq_ok hend hn here
      obtain ⟨_, s₂, hnoise, h⟩ := bind_eq_ok.1 h
      obtain ⟨ns, hc₂, noise⟩ := noise_sound hc₁.isEnd hnoise
      obtain ⟨c, s₃, hcolumn, h⟩ := bind_eq_ok.1 h
      obtain ⟨cs, hc₃, column⟩ := columnDefinition_sound hsub hc₂.isEnd hcolumn
      obtain ⟨rfl, rfl⟩ := pure_eq_ok.1 h
      have consumed : Consumes s (ahead s :: (ns ++ cs)) s₃ := hc₁.trans (hc₂.trans hc₃)
      exact ⟨_, consumed, .addColumn word noise column⟩
    | DROP =>
      obtain ⟨_, s₁, hn, h⟩ := bind_eq_ok.1 h
      obtain ⟨rfl, hc₁⟩ := next_eq_ok hend hn here
      obtain ⟨_, s₂, hnoise, h⟩ := bind_eq_ok.1 h
      obtain ⟨ns, hc₂, noise⟩ := noise_sound hc₁.isEnd hnoise
      obtain ⟨c, s₃, hcolumn, h⟩ := bind_eq_ok.1 h
      obtain ⟨cs, hc₃, column⟩ := identifier_sound hc₂.isEnd hcolumn
      obtain ⟨rfl, rfl⟩ := pure_eq_ok.1 h
      have consumed : Consumes s (ahead s :: (ns ++ cs)) s₃ := hc₁.trans (hc₂.trans hc₃)
      exact ⟨_, consumed, .dropColumn word noise column⟩
    | RENAME =>
      obtain ⟨_, s₁, hn, h⟩ := bind_eq_ok.1 h
      obtain ⟨rfl, hc₁⟩ := next_eq_ok hend hn here
      obtain ⟨ts, hc₂, rename⟩ := renameTail_sound word hc₁.isEnd h
      exact ⟨_, hc₁.trans hc₂, rename⟩
    | _ =>
      obtain ⟨_, s₁, -, h⟩ := bind_eq_ok.1 h
      exact absurd h unexpected_ne_ok
  | _ =>
    simp only [word] at h
    obtain ⟨_, s₁, -, h⟩ := bind_eq_ok.1 h
    exact absurd h unexpected_ne_ok

theorem alterTable_sound : Sound (alterTable sub) (IsAlterTable P) := by
  intro s x s' hend h
  obtain ⟨start, s₁, halter, h⟩ := bind_eq_ok.1 h
  obtain ⟨t, alter, rfl, hc₁⟩ := keyword_eq_ok hend halter
  obtain ⟨_, s₂, htable, h⟩ := bind_eq_ok.1 h
  obtain ⟨u, table, -, hc₂⟩ := keyword_eq_ok hc₁.isEnd htable
  obtain ⟨n, s₃, hname, h⟩ := bind_eq_ok.1 h
  obtain ⟨ns, hc₃, name⟩ := qualifiedName_sound hc₂.isEnd hname
  obtain ⟨a, s₄, halteration, h⟩ := bind_eq_ok.1 h
  obtain ⟨as, hc₄, alteration⟩ := alteration_sound hsub hc₃.isEnd halteration
  obtain ⟨span, s₅, hspan, h⟩ := bind_eq_ok.1 h
  have consumed : Consumes s (t :: u :: (ns ++ as)) s₄ := hc₁.trans (hc₂.trans (hc₃.trans hc₄))
  obtain ⟨rfl, rfl⟩ := spanFrom_eq_ok hspan (by simp) consumed
  obtain ⟨rfl, rfl⟩ := pure_eq_ok.1 h
  exact ⟨_, consumed, .intro alter table name alteration⟩

end

theorem objectKind?_eq_some {k : TokenKind} {o : ObjectKind} (h : objectKind? k = some o) :
    k = .keyword o.keyword := by
  unfold objectKind? at h
  split at h <;> simp only [Option.some.injEq, reduceCtorEq] at h
  all_goals
    subst h
    rfl

theorem drop_sound : Sound drop IsDrop := by
  intro s x s' hend h
  obtain ⟨start, s₁, hdrop, h⟩ := bind_eq_ok.1 h
  obtain ⟨t, drop, rfl, hc₁⟩ := keyword_eq_ok hend hdrop
  obtain ⟨u, s₂, hp, h⟩ := bind_eq_ok.1 h
  obtain ⟨rfl, rfl⟩ := peek_eq_ok hp
  cases hkind : objectKind? (ahead s₁).kind with
  | none =>
    simp only [hkind] at h
    obtain ⟨_, s₂, -, h⟩ := bind_eq_ok.1 h
    exact absurd h unexpected_ne_ok
  | some kind =>
    simp only [hkind] at h
    have object := objectKind?_eq_some hkind
    obtain ⟨_, s₂, hn, h⟩ := bind_eq_ok.1 h
    obtain ⟨rfl, hc₂⟩ := next_eq_ok hc₁.isEnd hn (by simp [Token.isEnd, object])
    obtain ⟨g, s₃, hguard, h⟩ := bind_eq_ok.1 h
    obtain ⟨gs, hc₃, guard⟩ := ifExists_sound hc₂.isEnd hguard
    obtain ⟨n, s₄, hname, h⟩ := bind_eq_ok.1 h
    obtain ⟨ns, hc₄, name⟩ := qualifiedName_sound hc₃.isEnd hname
    obtain ⟨span, s₅, hspan, h⟩ := bind_eq_ok.1 h
    have consumed : Consumes s (t :: ahead s₁ :: (gs ++ ns)) s₄ :=
      hc₁.trans (hc₂.trans (hc₃.trans hc₄))
    obtain ⟨rfl, rfl⟩ := spanFrom_eq_ok hspan (by simp) consumed
    obtain ⟨rfl, rfl⟩ := pure_eq_ok.1 h
    exact ⟨_, consumed, .intro drop object guard name⟩

/-! ## Statements -/

theorem statement_sound (max : Nat) : Sound (statement max) (IsStatement (phrases True max)) := by
  intro s x s' hend h
  have hsub := nested_sound max max
  obtain ⟨t, s₁, hp, h⟩ := bind_eq_ok.1 h
  obtain ⟨rfl, rfl⟩ := peek_eq_ok hp
  have absent : ∀ es, (do note es; unexpected : Parser Statement) s ≠ .ok x s' := by
    intro es h
    obtain ⟨_, s₁, -, h⟩ := bind_eq_ok.1 h
    exact unexpected_ne_ok h
  cases word : (ahead s).kind with
  | keyword k =>
    simp only [word] at h
    cases k with
    | SELECT =>
      obtain ⟨y, s₁, hy, h⟩ := bind_eq_ok.1 h
      obtain ⟨rfl, rfl⟩ := pure_eq_ok.1 h
      obtain ⟨ts, hc, body⟩ := hsub.query hend hy
      exact ⟨ts, hc, .query body⟩
    | INSERT =>
      obtain ⟨y, s₁, hy, h⟩ := bind_eq_ok.1 h
      obtain ⟨rfl, rfl⟩ := pure_eq_ok.1 h
      obtain ⟨ts, hc, body⟩ := insert_sound hsub hend hy
      exact ⟨ts, hc, .insert body⟩
    | UPDATE =>
      obtain ⟨y, s₁, hy, h⟩ := bind_eq_ok.1 h
      obtain ⟨rfl, rfl⟩ := pure_eq_ok.1 h
      obtain ⟨ts, hc, body⟩ := update_sound hsub hend hy
      exact ⟨ts, hc, .update body⟩
    | DELETE =>
      obtain ⟨y, s₁, hy, h⟩ := bind_eq_ok.1 h
      obtain ⟨rfl, rfl⟩ := pure_eq_ok.1 h
      obtain ⟨ts, hc, body⟩ := delete_sound hsub hend hy
      exact ⟨ts, hc, .delete body⟩
    | CREATE => exact create_sound hsub hend h
    | ALTER =>
      obtain ⟨y, s₁, hy, h⟩ := bind_eq_ok.1 h
      obtain ⟨rfl, rfl⟩ := pure_eq_ok.1 h
      obtain ⟨ts, hc, body⟩ := alterTable_sound hsub hend hy
      exact ⟨ts, hc, .alterTable body⟩
    | DROP =>
      obtain ⟨y, s₁, hy, h⟩ := bind_eq_ok.1 h
      obtain ⟨rfl, rfl⟩ := pure_eq_ok.1 h
      obtain ⟨ts, hc, body⟩ := drop_sound hend hy
      exact ⟨ts, hc, .drop body⟩
    | _ => exact absurd h (absent _)
  | _ =>
    simp only [word] at h
    exact absurd h (absent _)

/-! ## Whole statements -/

/-- Behind a whole statement comes the end of the input, and no error. -/
theorem wholeStatement_sound {max : Nat} {s s' : ParserState} {x : Statement}
    (hend : s.finish.isEnd) (h : wholeStatement max s = .ok x s') :
    ∃ ts us, Consumes s (ts ++ us) s' ∧ IsStatement (phrases True max) ts x ∧ IsClosing us ∧
      (ahead s').isEnd ∧ (s'.tokens = [] → s'.failure = none) := by
  obtain ⟨x, s₁, hx, h⟩ := bind_eq_ok.1 h
  obtain ⟨ts, hc₁, statement⟩ := statement_sound max hend hx
  obtain ⟨o, s₂, hsemicolon, h⟩ := bind_eq_ok.1 h
  obtain ⟨us, hc₂, closing⟩ : ∃ us, Consumes s₁ us s₂ ∧ IsClosing us := by
    rcases punctuation?_eq_ok hc₁.isEnd hsemicolon with ⟨-, hc⟩ | ⟨t, kind, -, hc⟩
    · exact ⟨_, hc, .none⟩
    · exact ⟨_, hc, .semicolon kind⟩
  obtain ⟨_, s₃, hlast, h⟩ := bind_eq_ok.1 h
  obtain ⟨rfl, rfl⟩ := pure_eq_ok.1 h
  obtain ⟨t, s₄, hp, hlast⟩ := bind_eq_ok.1 hlast
  have looked := hp
  obtain ⟨rfl, rfl⟩ := peek_eq_ok hp
  cases here : (ahead s₂).isEnd with
  | false =>
    rw [if_neg (by simp [here])] at hlast
    obtain ⟨_, s₄, -, hlast⟩ := bind_eq_ok.1 hlast
    exact absurd hlast failAt_ne_ok
  | true =>
    rw [if_pos here] at hlast
    obtain ⟨-, rfl⟩ := pure_eq_ok.1 hlast
    refine ⟨ts, us, hc₁.trans hc₂, statement, closing, here, fun hnil => ?_⟩
    by_contra hfailure
    obtain ⟨e, he⟩ := Option.ne_none_iff_exists'.1 hfailure
    simp [peek, peekAt, hnil, he] at looked

end SqlSyntax.Parser
