import SqlSyntax.Proofs.Canonical.Rereading.Expr
import SqlSyntax.Proofs.Grammar.Query

/-!
# Reading canonical queries again

The parts of a query are read again when the expressions and queries in them
are.
-/

namespace SqlSyntax

open Grammar

variable {P : Phrases} {s : Span}

/-! ## Selected items -/

theorem SelectItem.rereads_wildcard :
    Rereads (IsSelectItem P) (SelectItem.mapSpans .erase) (pieces (.wildcard s)) (.wildcard s) := by
  intro ts spelled
  rw [pieces] at spelled
  obtain ⟨t, us, rfl, kind, spelled⟩ := Spelled.operator_iff.1 spelled
  obtain rfl := Spelled.nil_iff.1 spelled
  exact ⟨_, .wildcard kind, rfl⟩

theorem SelectItem.rereads_qualifiedWildcard (n : QualifiedName) :
    Rereads (IsSelectItem P) (SelectItem.mapSpans .erase) (pieces (.qualifiedWildcard s n))
      (.qualifiedWildcard s n) := by
  intro ts spelled
  rw [pieces] at spelled
  obtain ⟨us, vs, rfl, named, spelled⟩ := Spelled.append_iff.1 spelled
  obtain ⟨d, ws, rfl, dot, spelled⟩ := Spelled.punctuation_iff.1 spelled
  obtain ⟨w, xs, rfl, star, spelled⟩ := Spelled.operator_iff.1 spelled
  obtain rfl := Spelled.nil_iff.1 spelled
  obtain ⟨n', name, same⟩ := n.rereads named
  exact ⟨_, .qualifiedWildcard name dot star, by simp [mapSpans, same]⟩

theorem SelectItem.rereads_expr {e : Expr} (label : Option Identifier) (he : P.RereadsExpr 0 e) :
    Rereads (IsSelectItem P) (SelectItem.mapSpans .erase) (pieces (.expr s e label))
      (.expr s e label) := by
  intro ts spelled
  rw [pieces] at spelled
  obtain ⟨us, vs, rfl, item, named⟩ := Spelled.append_iff.1 spelled
  obtain ⟨e', reading, same⟩ := he item
  obtain ⟨label', name, same'⟩ := rereads_aliasPieces label named
  exact ⟨_, .expr reading name, by simp [mapSpans, same, same']⟩

/-! ## Relations -/

theorem Relation.rereads_table (n : QualifiedName) (label : Option Identifier) :
    Rereads (IsRelation P) (Relation.mapSpans .erase) (pieces (.table s n label))
      (.table s n label) := by
  intro ts spelled
  rw [pieces] at spelled
  obtain ⟨us, vs, rfl, named, labelled⟩ := Spelled.append_iff.1 spelled
  obtain ⟨n', name, same⟩ := n.rereads named
  obtain ⟨label', reading, same'⟩ := rereads_aliasPieces label labelled
  exact ⟨_, .table name reading, by simp [mapSpans, same, same']⟩

theorem Relation.rereads_derived {q : Query} (label : Option Identifier)
    (hq : P.RereadsQuery q) :
    Rereads (IsRelation P) (Relation.mapSpans .erase) (pieces (.derived s q label))
      (.derived s q label) := by
  intro ts spelled
  rw [pieces] at spelled
  obtain ⟨us, vs, rfl, inner, labelled⟩ := Spelled.append_iff.1 spelled
  obtain ⟨o, ws, c, rfl, opening, inner, closing⟩ := Spelled.parenthesized_iff.1 inner
  obtain ⟨q', query, same⟩ := hq inner
  obtain ⟨label', reading, same'⟩ := rereads_aliasPieces label labelled
  refine ⟨.derived (o.span.through (o :: (ws ++ c :: vs))) q' label', ?_,
    by simp [mapSpans, same, same']⟩
  simpa using IsRelation.derived opening query closing reading

theorem JoinKind.isJoinKind {kind : JoinKind} {ts : List Token}
    (h : Keywords [kind.keyword, .JOIN] ts) : IsJoinKind ts kind := by
  cases kind with
  | inner => exact .inner h
  | cross => exact .cross h
  | left | right | full =>
    obtain _ | ⟨word, _ | ⟨join, _ | _⟩⟩ := h
    exact .outer (by simp) word .absent join

theorem Join.rereads {j : Join} (h : j.WellFormed)
    (relation : Rereads (IsRelation P) (Relation.mapSpans .erase) j.relation.pieces j.relation)
    (condition : ∀ e, j.condition = .on e → P.RereadsExpr 0 e) :
    Rereads (IsJoin P) (Join.mapSpans .erase) j.pieces j := by
  obtain ⟨s, kind, r, c⟩ := j
  intro ts spelled
  simp only [pieces, List.append_assoc, List.cons_append, List.nil_append] at spelled
  obtain ⟨us, vs, rfl, words, spelled⟩ := Spelled.append_iff.1 spelled
  obtain ⟨rs, cs, rfl, joined, spelled⟩ := Spelled.append_iff.1 (Spelled.space_iff.1 spelled)
  obtain ⟨r', reading, same⟩ := relation joined
  have words := JoinKind.isJoinKind (Spelled.keywords_iff.1 words)
  have plain : c ≠ .none → kind ≠ .cross := fun hne hkind => hne (h.1 hkind)
  obtain ⟨c', reading', same'⟩ : ∃ c', IsJoinCondition P kind cs c' ∧
      JoinCondition.mapSpans .erase c' = JoinCondition.mapSpans .erase c := by
    cases c with
    | none =>
      obtain rfl := Spelled.nil_iff.1 spelled
      exact ⟨.none, .none, rfl⟩
    | on e =>
      have crossless := plain (by simp)
      obtain ⟨e', reading, same⟩ :=
        Rereads.behind .ON (condition e rfl) (Spelled.space_iff.1 spelled)
      exact ⟨.on e', .on crossless reading, by simp [JoinCondition.mapSpans, same]⟩
    | shared columns =>
      have crossless := plain (by simp)
      obtain ⟨columns', reading, same⟩ :=
        (rereads_columnPieces (h.2 columns rfl)).behind .USING (Spelled.space_iff.1 spelled)
      exact ⟨.shared columns', .shared crossless reading, by
        simp [JoinCondition.mapSpans, same]⟩
  obtain ⟨t, ws, rfl⟩ : ∃ t ws, us = t :: ws := by
    cases words with
    | plain | outer => exact ⟨_, _, rfl⟩
    | inner both | cross both => cases both with | cons => exact ⟨_, _, rfl⟩
  exact ⟨_, .intro words reading reading', by simp [mapSpans, same, same']⟩

theorem JoinedTable.rereads {t : JoinedTable}
    (relation : Rereads (IsRelation P) (Relation.mapSpans .erase) t.relation.pieces t.relation)
    (joins : ∀ j ∈ t.joins, Rereads (IsJoin P) (Join.mapSpans .erase) j.pieces j) :
    Rereads (IsJoinedTable P) (JoinedTable.mapSpans .erase) t.pieces t := by
  intro ts spelled
  obtain ⟨us, vs, rfl, first, others⟩ := Spelled.append_iff.1 spelled
  obtain ⟨r', reading, same⟩ := relation first
  obtain ⟨js', readings, sames⟩ := Rereads.many joins others
  exact ⟨_, .intro reading readings, by simp [mapSpans, same, sames]⟩

/-! ## Clauses -/

theorem From.rereads {f : From} (hne : f.tables ≠ [])
    (h : ∀ t ∈ f.tables, Rereads (IsJoinedTable P) (JoinedTable.mapSpans .erase) t.pieces t) :
    Rereads (IsFrom P) (From.mapSpans .erase) f.pieces f := by
  intro ts spelled
  obtain ⟨tables', ⟨kind, body⟩, sames⟩ := (Rereads.commaSeparated hne h).behind .FROM spelled
  exact ⟨_, .intro kind body, by simp [mapSpans, sames]⟩

/-- What is behind two keywords. -/
theorem Spelled.keywords_two {k l : Keyword} {ps : List Piece} {ts : List Token}
    (h : Spelled (Piece.keywords [k, l] ++ [.space] ++ ps) ts) :
    ∃ t u us, ts = t :: u :: us ∧ t.kind = .keyword k ∧ u.kind = .keyword l ∧ Spelled ps us := by
  simp only [List.append_assoc, List.cons_append, List.nil_append] at h
  obtain ⟨us, vs, rfl, words, behind⟩ := append_iff.1 h
  obtain _ | ⟨first, _ | ⟨second, _ | _⟩⟩ := keywords_iff.1 words
  exact ⟨_, _, vs, rfl, first, second, space_iff.1 behind⟩

theorem GroupBy.rereads {g : GroupBy} (hne : g.keys ≠ []) (h : ∀ e ∈ g.keys, P.RereadsExpr 0 e) :
    Rereads (IsGroupBy P) (GroupBy.mapSpans .erase) g.pieces g := by
  intro ts spelled
  rw [GroupBy.pieces_eq] at spelled
  obtain ⟨t, u, us, rfl, group, by_, spelled⟩ := Spelled.keywords_two spelled
  obtain ⟨keys', body, sames⟩ := Rereads.commaSeparated hne h spelled
  exact ⟨_, .intro group by_ body, by simp [mapSpans, sames]⟩

theorem Select.rereads {s : Select} (h : (Node.select s).WellFormed)
    (items : ∀ i ∈ s.projection,
      Rereads (IsSelectItem P) (SelectItem.mapSpans .erase) i.pieces i)
    (tables : ∀ f ∈ s.source, ∀ t ∈ f.tables,
      Rereads (IsRelation P) (Relation.mapSpans .erase) t.relation.pieces t.relation ∧
      ∀ j ∈ t.joins, Rereads (IsJoin P) (Join.mapSpans .erase) j.pieces j)
    (condition : ∀ e ∈ s.condition, P.RereadsExpr 0 e)
    (keys : ∀ g ∈ s.groupBy, ∀ e ∈ g.keys, P.RereadsExpr 0 e)
    (having : ∀ e ∈ s.having, P.RereadsExpr 0 e) :
    Rereads (IsSelect P) (Select.mapSpans .erase) s.pieces s := by
  obtain ⟨projection, source, groupBy⟩ := h
  intro ts spelled
  rw [Select.pieces_eq] at spelled
  simp only [List.append_assoc] at spelled
  obtain ⟨t, us, rfl, kind, spelled⟩ := Spelled.keyword_iff.1 spelled
  obtain ⟨ds, vs, rfl, mark, spelled⟩ := Spelled.flag_iff.1 (Spelled.space_iff.1 spelled)
  obtain ⟨ps, ws, rfl, selected, spelled⟩ := Spelled.append_iff.1 spelled
  obtain ⟨fs, xs, rfl, sources, spelled⟩ := Spelled.append_iff.1 spelled
  obtain ⟨cs, ys, rfl, conditions, spelled⟩ := Spelled.append_iff.1 spelled
  obtain ⟨gs, hs, rfl, groups, havings⟩ := Spelled.append_iff.1 spelled
  obtain ⟨projection', body, same⟩ := Rereads.commaSeparated projection items selected
  obtain ⟨source', reading, same₁⟩ := Rereads.optional (fun f hf => From.rereads (source f hf)
    fun t ht => JoinedTable.rereads (tables f hf t ht).1 (tables f hf t ht).2) sources
  obtain ⟨condition', reading₂, same₂⟩ := rereads_optionalBehind .WHERE condition conditions
  obtain ⟨groupBy', reading₃, same₃⟩ := Rereads.optional
    (fun g hg => GroupBy.rereads (groupBy g hg) (keys g hg)) groups
  obtain ⟨having', reading₄, same₄⟩ := rereads_optionalBehind .HAVING having havings
  have quantifier : IsQuantifier ds s.distinct := by
    generalize s.distinct = distinct at mark
    cases mark with
    | absent => exact .all .absent
    | present kind => exact .distinct kind
  obtain ⟨_, _, _, _, _, _, _⟩ := s
  exact ⟨_, .intro kind quantifier body reading reading₂ reading₃ reading₄, by
    simp [mapSpans, same, same₁, same₂, same₃, same₄]⟩

theorem OrderItem.rereads {i : OrderItem} (h : P.RereadsExpr 0 i.expr) :
    Rereads (IsOrderItem P) (OrderItem.mapSpans .erase) i.pieces i := by
  intro ts spelled
  rw [OrderItem.pieces_eq, List.append_assoc] at spelled
  obtain ⟨es, us, rfl, item, spelled⟩ := Spelled.append_iff.1 spelled
  obtain ⟨t, ns, rfl, kind, placed⟩ := Spelled.keyword_iff.1 (Spelled.space_iff.1 spelled)
  obtain ⟨e', reading, same⟩ := h item
  have direction : IsDirection [t] i.direction := by
    cases hd : i.direction with
    | ascending => exact .ascending (.present (by rw [kind, hd]; rfl))
    | descending => exact .descending (by rw [kind, hd]; rfl)
  have nulls : ∀ n, Rereads IsNulls id n.pieces n := by
    intro n ts spelled
    obtain ⟨us, vs, rfl, first, second⟩ := Spelled.append_iff.1
      (show Spelled ([.word "NULLS"] ++ [.space, .word n.word]) ts from spelled)
    exact ⟨n, .intro (.of_spelled first rfl)
      (.of_spelled (Spelled.space_iff.1 second) (by cases n <;> rfl)), rfl⟩
  obtain ⟨nulls', reading', same'⟩ := Rereads.optional (fun n _ => nulls n) placed
  have same' : nulls' = i.nulls := by simpa using same'
  exact ⟨_, .intro reading direction reading', by simp [mapSpans, same, same']⟩

theorem OrderBy.rereads {o : OrderBy} (hne : o.items ≠ [])
    (h : ∀ i ∈ o.items, P.RereadsExpr 0 i.expr) :
    Rereads (IsOrderBy P) (OrderBy.mapSpans .erase) o.pieces o := by
  intro ts spelled
  rw [OrderBy.pieces_eq] at spelled
  obtain ⟨t, u, us, rfl, order, by_, spelled⟩ := Spelled.keywords_two spelled
  obtain ⟨items', body, sames⟩ :=
    Rereads.commaSeparated hne (fun i hi => OrderItem.rereads (h i hi)) spelled
  exact ⟨_, .intro order by_ body, by simp [mapSpans, sames]⟩

theorem Limit.rereads {l : Limit} (count : P.RereadsExpr 0 l.count)
    (offset : ∀ e ∈ l.offset, P.RereadsExpr 0 e) :
    Rereads (IsLimit P) (Limit.mapSpans .erase) l.pieces l := by
  intro ts spelled
  rw [Limit.pieces_eq] at spelled
  obtain ⟨us, vs, rfl, counted, moved⟩ := Spelled.append_iff.1 spelled
  obtain ⟨count', ⟨kind, reading⟩, same⟩ := rereads_piecesBehind .LIMIT count counted
  obtain ⟨offset', reading', same'⟩ := rereads_optionalBehind .OFFSET offset moved
  exact ⟨_, .count kind reading reading', by simp [mapSpans, same, same']⟩

end SqlSyntax
