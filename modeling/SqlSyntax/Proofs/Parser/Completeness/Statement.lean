import SqlSyntax.Proofs.Grammar.Statement
import SqlSyntax.Proofs.Parser.Completeness.Nesting

/-!
# Completeness of the parsers of statements

## Main results

* `wholeStatement_reads` — a statement in front of the end of the input is read
  as what it is.
-/

namespace SqlSyntax.Parser

open Grammar

theorem not_atNameDot {rest : List Token} (h : headKind rest ≠ .punctuation .dot) :
    ¬ AtNameDot rest := fun hdot => h hdot.1

/-- A name in front of a token that is no dot. -/
theorem name_reads {ts : List Token} {n : QualifiedName} {before rest : List Token}
    (h : IsName ts n) (hrest : headKind rest ≠ .punctuation .dot) :
    ReadsAfter before qualifiedName ts n rest :=
  qualifiedName_reads h (not_atNameDot hrest)

section

variable {P : Phrases} {sub : Nested} (hsub : ReadsNested P sub) {before rest : List Token}

include hsub

/-! ## Changes of the data -/

theorem insertSource_reads {ts : List Token} {s : InsertSource} (h : IsInsertSource P ts s)
    (hrest : endsQuery (headKind rest)) : ReadsAfter before (insertSource sub) ts s rest := by
  have place := atClause_of_endsQuery hrest
  cases h with
  | values rows =>
    obtain ⟨kind, rows⟩ := rows
    refine .bindToken (keyword?_reads kind) (.bindLast (.after ?_) .pure)
    refine commaSeparated_reads (F := fun _ => True) (fun _ _ _ row _ => ?_)
      (fun _ _ _ => trivial) trivial (place.ne (by decide)) rows
    exact parenthesized_reads (fun _ _ _ _ items closing =>
      exprList_reads hsub items (endsExpr_head closing rfl) (by simp [closing])) row
  | @query q query =>
    have read : ∀ (b : List Token) (otherwise : Parser InsertSource),
        ReadsAfter b (sub.queryOr .query otherwise) ts (.query q) rest := fun _ _ =>
      queryOr_reads_query hsub query hrest
    obtain ⟨t, us, rfl, kind⟩ := hsub.proper.select query
    exact .bindNil (keyword?_absent (by simp [kind])) (read ..)

/-- A source of rows starts with a keyword. -/
theorem insertSource_start {ts : List Token} {s : InsertSource} (h : IsInsertSource P ts s) :
    ∃ t us k, ts = t :: us ∧ t.kind = .keyword k := by
  cases h with
  | values rows =>
    obtain ⟨kind, -⟩ := rows
    exact ⟨_, _, _, rfl, kind⟩
  | query query =>
    obtain ⟨t, us, rfl, kind⟩ := hsub.proper.select query
    exact ⟨t, us, _, rfl, kind⟩

omit hsub in
theorem atParenthesizedQuery_reads (b : Bool)
    (h : b = true ↔ headKind rest = .punctuation .openParen ∧
      headKind (rest.drop 1) = .keyword .SELECT) :
    ReadsAfter before atParenthesizedQuery [] b rest := by
  refine .bindPeek fun t ht _ => ?_
  by_cases opening : headKind rest = .punctuation .openParen
  · rw [if_pos (by simpa [ht] using opening)]
    refine .bindPeekAt fun u hu => ?_
    have same : (u.kind == .keyword .SELECT) = b := by
      rw [Bool.eq_iff_iff, h, hu]
      simp [opening]
    rw [same]
    exact .pure
  · rw [if_neg (by simpa [ht] using opening)]
    have no : false = b := by
      cases b with
      | false => rfl
      | true => exact absurd (h.1 rfl).1 opening
    rw [no]
    exact .pure

omit hsub in
theorem insertColumns_reads {ts : List Token} {cs : List Identifier} (h : IsInsertColumns ts cs)
    (hrest : headKind rest ≠ .punctuation .openParen) :
    ReadsAfter before insertColumns ts cs rest := by
  refine .bindPeek fun t ht _ => ?_
  cases h with
  | listed columns =>
    have read : ∀ b : List Token, ReadsAfter b columnList ts cs rest := fun _ =>
      .after (columnList_reads columns)
    obtain ⟨opening, -, -⟩ := columns
    rw [if_pos (by simp [ht, opening])]
    exact read _
  | none =>
    rw [if_neg (by simpa [ht] using hrest)]
    exact .bindNil note_reads .pure

theorem insert_reads {ts : List Token} {i : Insert} (h : IsInsert P ts i)
    (hrest : endsQuery (headKind rest)) : Reads (insert sub) ts i rest := by
  cases h with
  | @plain t u ns cs ss n is s insert into table columns source =>
    have read : ∀ b : List Token, ReadsAfter b (insertSource sub) ss s rest := fun _ =>
      insertSource_reads hsub source hrest
    obtain ⟨v, vs, k, rfl, kind⟩ := insertSource_start hsub source
    have read' : ∀ b : List Token, ReadsAfter b insertColumns cs is (v :: vs ++ rest) := fun _ =>
      insertColumns_reads columns (by simp [kind])
    refine .bindToken (keyword_reads insert) (.bindToken (keyword_reads into) ?_)
    refine .bind (name_reads table ?_) (.bindNil (atParenthesizedQuery_reads false ?_) ?_)
    · cases columns with
      | none => simp [kind]
      | listed columns =>
        obtain ⟨opening, -, -⟩ := columns
        simp [opening]
    · cases columns with
      | none => simp [kind]
      | listed columns =>
        obtain ⟨opening, columns, -⟩ := columns
        obtain ⟨first, -⟩ := columns
        obtain ⟨name⟩ := first
        simp [name]
    refine .bind (read' _) (.bindLast (read _) ?_)
    exact .spanned (by simp) (by simp)
  | parenthesized insert into table source =>
    have read : ∀ b : List Token, ReadsAfter b (parenthesized sub.query) _ _ rest := fun _ =>
      parenthesizedQuery_reads hsub source
    obtain ⟨opening, query, closing⟩ := source
    obtain ⟨t, us, rfl, kind⟩ := hsub.proper.select query
    refine .bindToken (keyword_reads insert) (.bindToken (keyword_reads into) ?_)
    refine .bind (name_reads table (by simp [opening])) ?_
    refine .bindNil (atParenthesizedQuery_reads true (by simp [opening, kind])) ?_
    exact .bindLast (read _) (.spanned (by simp) (by simp))

theorem assignment_reads {ts : List Token} {a : Assignment} (h : IsAssignment P ts a)
    (hrest : endsExpr (headKind rest)) : Reads (assignment sub) ts a rest := by
  obtain ⟨column, value⟩ := h
  obtain ⟨equal, value⟩ := value
  refine .bind (identifier_reads column) (.bindToken (operator_reads equal) ?_)
  exact .bindLast (hsub.exprBefore value hrest) (.spanned (by simp) (by simp))

theorem update_reads {ts : List Token} {u : Update} (h : IsUpdate P ts u)
    (hrest : endsQuery (headKind rest)) : Reads (update sub) ts u rest := by
  have place := atClause_of_endsQuery hrest
  obtain ⟨update, table, label, set, condition⟩ := h
  obtain ⟨set, assignments⟩ := set
  have atWhere : AtClause 5 _ := atClause_behind condition (by decide) place (by decide)
  refine .bindToken (keyword_reads update) (.bind (name_reads table ?_) ?_)
  · cases label with
    | none => simp [set]
    | bare name =>
      obtain ⟨kind⟩ := name
      simp [kind]
    | announced name =>
      obtain ⟨as, -⟩ := name
      simp [as]
  refine .bind (alias?_reads label (by simp [set]) (by simp [set])) ?_
  refine .bindToken (keyword_reads set) (.bind (.after (commaSeparated_reads
    (F := fun us => endsExpr (headKind us)) (fun _ _ _ a hus => assignment_reads hsub a hus)
    (fun _ _ comma => endsExpr_head comma rfl) (atWhere.endsExpr (by decide))
    (atWhere.ne (by decide)) assignments)) ?_)
  refine .bindLast (conditionAfter?_reads hsub condition (place.endsExpr (by decide))
    (place.ne (by decide))) ?_
  exact .spanned (by simp) (by simp)

theorem delete_reads {ts : List Token} {d : Delete} (h : IsDelete P ts d)
    (hrest : endsQuery (headKind rest)) : Reads (delete sub) ts d rest := by
  have place := atClause_of_endsQuery hrest
  obtain ⟨delete, source, table, label, condition⟩ := h
  have atWhere : AtClause 5 _ := atClause_behind condition (by decide) place (by decide)
  refine .bindToken (keyword_reads delete) (.bindToken (keyword_reads source) ?_)
  refine .bind (name_reads table ?_) (.bind (alias_reads label atWhere (by decide)) ?_)
  · have ends := endsExpr_of_alias label (atWhere.endsExpr (by decide))
    rw [List.append_assoc]
    intro dot
    rw [dot] at ends
    exact nomatch ends
  refine .bindLast (conditionAfter?_reads hsub condition (place.endsExpr (by decide))
    (place.ne (by decide))) ?_
  exact .spanned (by simp) (by simp)

/-! ## Changes of the schema -/

theorem columnOption?_reads {ts : List Token} {o : ColumnOption} (h : IsColumnOption P ts o)
    (hrest : Follows 0 rest) : Reads (columnOption? sub) ts (some o) rest := by
  refine .bindPeek fun t ht same => ?_
  cases h with
  | null words =>
    obtain _ | ⟨null, _ | _⟩ := words
    simp only [ht, List.cons_append, headKind_cons, null]
    exact .bindLast (next_reads (by simp [Token.isEnd, null])) .pure
  | notNull words =>
    obtain _ | ⟨not, _ | ⟨null, _ | _⟩⟩ := words
    simp only [ht, List.cons_append, headKind_cons, not]
    refine .bindToken (next_reads (by simp [Token.isEnd, not])) ?_
    exact .bindLast (keyword_reads null) .pure
  | primaryKey words =>
    obtain _ | ⟨primary, _ | ⟨key, _ | _⟩⟩ := words
    simp only [ht, List.cons_append, headKind_cons, primary]
    refine .bindToken (next_reads (by simp [Token.isEnd, primary])) ?_
    exact .bindLast (keyword_reads key) .pure
  | unique words =>
    obtain _ | ⟨unique, _ | _⟩ := words
    simp only [ht, List.cons_append, headKind_cons, unique]
    exact .bindLast (next_reads (by simp [Token.isEnd, unique])) .pure
  | default value =>
    obtain ⟨kind, value⟩ := value
    simp only [ht, List.cons_append, headKind_cons, kind]
    refine .bindToken (next_reads (by simp [Token.isEnd, kind])) ?_
    exact .bindLast (hsub.wholeExpr value hrest) .pure

omit hsub in
theorem columnOption?_absent (hrest : AtClause 3 rest) :
    ReadsAfter before (columnOption? sub) [] none rest := by
  refine .bindPeek fun t ht _ => ?_
  have absent : ∀ k, clauseRank k < 3 → t.kind ≠ k := fun k hk => ht ▸ hrest.ne hk
  cases kind : t.kind with
  | keyword k =>
    cases k with
    | NOT | NULL | PRIMARY | UNIQUE | DEFAULT => exact absurd kind (absent _ (by decide))
    | _ => exact .bindNil note_reads .pure
  | _ => exact .bindNil note_reads .pure

omit hsub in
/-- An option of a column starts with a keyword that ends the value before it:
a `NOT` goes on with `NULL` and not with a predicate. -/
theorem columnOption_start {ts : List Token} {o : ColumnOption} (h : IsColumnOption P ts o)
    (rest : List Token) :
    ∃ t us k, ts = t :: us ∧ t.kind = .keyword k ∧ Follows 0 (t :: us ++ rest) := by
  have start : ∀ {t : Token} {k : Keyword} (us : List Token), t.kind = .keyword k →
      endsExpr (.keyword k) → ∃ t' us' k', t :: us = t' :: us' ∧ t'.kind = .keyword k' ∧
        Follows 0 (t' :: us' ++ rest) := fun us kind ends =>
    ⟨_, us, _, rfl, kind, follows_of_endsExpr (endsExpr_head kind ends) 0⟩
  cases h with
  | null words =>
    obtain _ | ⟨null, _⟩ := words
    exact start _ null rfl
  | notNull words =>
    obtain _ | ⟨not, _ | ⟨null, _⟩⟩ := words
    refine ⟨_, _, _, rfl, not, by simp [not], by simp [not], fun op hop => ?_⟩
    simp [infixAhead, not, null, Predicate.ofKind?] at hop
  | primaryKey words =>
    obtain _ | ⟨primary, _⟩ := words
    exact start _ primary rfl
  | unique words =>
    obtain _ | ⟨unique, _⟩ := words
    exact start _ unique rfl
  | default value =>
    obtain ⟨kind, -⟩ := value
    exact start _ kind rfl

theorem columnDefinition_reads {ts : List Token} {c : ColumnDefinition}
    (h : IsColumnDefinition P ts c) (hrest : AtClause 3 rest) :
    Reads (columnDefinition sub) ts c rest := by
  obtain @⟨ns, ts, os, n, d, list, name, type, options⟩ := h
  have follows : FollowsType (os ++ rest) := by
    cases options with
    | nil => exact ⟨hrest.ne (by decide), hrest.ne (by decide)⟩
    | cons head =>
      obtain ⟨t, us, k, rfl, kind, -⟩ := columnOption_start head []
      simp [FollowsType, kind]
  refine .bind (identifier_reads name) (.bind (dataType_reads type follows) ?_)
  refine .bindLast (.after (collect_reads (F := Follows 0)
    (follows_of_endsExpr (hrest.endsExpr (by decide)) 0) ?_ ?_ ?_ options)) ?_
  · intro ts o us option
    obtain ⟨t, us', k, rfl, -, follows⟩ := columnOption_start option us
    exact ⟨nofun, follows⟩
  · exact fun options ts o us option hus => .bindLast (columnOption?_reads hsub option hus) .pure
  · exact fun options => .bindNil (columnOption?_absent hrest) .pure
  · rw [List.reverse_reverse]
    obtain ⟨_⟩ := name
    exact .spanned (by simp) (by simp)

theorem tableElement_reads {ts : List Token} {x : TableConstraint ⊕ ColumnDefinition}
    (h : IsTableElement P ts x) (hrest : AtClause 3 rest) :
    Reads (tableElement sub) ts x rest := by
  refine .bindPeek fun t _ same => ?_
  cases h with
  | constraint constraint =>
    cases constraint with
    | primaryKey primary key columns =>
      obtain rfl := same _ rfl
      refine .bindToken (keyword?_reads primary) (.bindToken (keyword_reads key) ?_)
      exact .bindLast (.after (columnList_reads columns)) (.spanned (by simp) (by simp))
    | unique unique columns =>
      obtain rfl := same _ rfl
      refine .bindNil (keyword?_absent (by simp [unique])) (.bindToken (keyword?_reads unique) ?_)
      exact .bindLast (.after (columnList_reads columns)) (.spanned (by simp) (by simp))
  | @column c column =>
    have read : Reads (columnDefinition sub) ts c rest := columnDefinition_reads hsub column hrest
    obtain ⟨name, -, -⟩ := column
    obtain ⟨kind⟩ := name
    exact .bindNil (keyword?_absent (by simp [kind]))
      (.bindNil (keyword?_absent (by simp [kind])) (.bindLast read .pure))

omit hsub in
theorem ifNotExists_reads {ts : List Token} {b : Bool} (h : IsGuard [.IF, .NOT, .EXISTS] ts b)
    (hrest : headKind rest ≠ .keyword .IF) : ReadsAfter before ifNotExists ts b rest := by
  cases h with
  | absent => exact .bindNil (keyword?_absent hrest) .pure
  | present words =>
    obtain _ | ⟨if_, _ | ⟨not, _ | ⟨exists_, _ | _⟩⟩⟩ := words
    exact .bindToken (keyword?_reads if_) (.bindToken (keyword_reads not)
      (.bindLast (keyword_reads exists_) .pure))

omit hsub in
theorem ifExists_reads {ts : List Token} {b : Bool} (h : IsGuard [.IF, .EXISTS] ts b)
    (hrest : headKind rest ≠ .keyword .IF) : ReadsAfter before ifExists ts b rest := by
  cases h with
  | absent => exact .bindNil (keyword?_absent hrest) .pure
  | present words =>
    obtain _ | ⟨if_, _ | ⟨exists_, _ | _⟩⟩ := words
    exact .bindToken (keyword?_reads if_) (.bindLast (keyword_reads exists_) .pure)

omit hsub in
theorem name_head_ne {ts : List Token} {n : QualifiedName} {k : Keyword} (h : IsName ts n) :
    headKind (ts ++ rest) ≠ .keyword k := by
  obtain ⟨t, us, style, rfl, kind⟩ := h.start
  simp [kind]

theorem create_reads_table {ts : List Token} {c : CreateTable} (h : IsCreateTable P ts c) :
    Reads (create sub) ts (.createTable c) rest := by
  obtain @⟨t, u, gs, ns, es, g, n, elements, create, table, guard, name, body⟩ := h
  have elements_read : ∀ b : List Token, ReadsAfter b
      (parenthesized (commaSeparated (tableElement sub))) es elements rest := fun _ => by
    refine .after (parenthesized_reads (fun _ _ _ _ items closing => ?_) body)
    exact commaSeparated_reads (F := AtClause 3)
      (fun _ _ _ element hus => tableElement_reads hsub element hus)
      (fun _ _ comma => atClause_head comma (Nat.le_refl 3)) (atClause_head closing (by decide))
      (by simp [closing]) items
  have clause : ReadsAfter [t, u] (createTable sub t.span) (gs ++ (ns ++ es))
      ⟨t.span.through (t :: u :: (gs ++ (ns ++ es))), g, n, elements.filterMap Sum.getRight?,
        elements.filterMap Sum.getLeft?⟩ rest := by
    refine .bind (ifNotExists_reads guard ?_) (.bind (name_reads name ?_)
      (.bindLast (elements_read _) (.spanned (by simp) (by simp))))
    · rw [List.append_assoc]
      exact name_head_ne name
    · obtain ⟨opening, -, -⟩ := body
      simp [opening]
  exact .bindToken (keyword_reads create) (.bindToken (keyword?_reads table)
    (.bindLast clause .pure))

omit hsub in
theorem create_reads_database {ts : List Token} {c : CreateDatabase} (h : IsCreateDatabase ts c) :
    Reads (create sub) ts (.createDatabase c) rest := by
  obtain @⟨t, u, ns, n, create, database, name⟩ := h
  have clause : ReadsAfter [t, u] (createDatabase t.span) ns
      ⟨t.span.through (t :: u :: ns), n⟩ rest :=
    .bindLast (identifier_reads name) (.spanned (by simp) (by simp))
  exact .bindToken (keyword_reads create) (.bindNil (keyword?_absent (by simp [database]))
    (.bindToken (keyword?_reads database) (.bindLast clause .pure)))

omit hsub in
theorem create_reads_index {ts : List Token} {c : CreateIndex} (h : IsCreateIndex ts c) :
    Reads (create sub) ts (.createIndex c) rest := by
  obtain @⟨t, u, fs, ns, _, cs, unique, n, m, is, create, mark, index, name, on, columns⟩ := h
  obtain @⟨v, ts, _, on, table⟩ := on
  have behind : ∀ (o : Option Span) (b : List Token) (span : Span), b ≠ [] → o.isSome = unique →
      t.span.through (b ++ (u :: (ns ++ (v :: ts ++ cs)))) = span → ReadsAfter b (do
        let _ ← keyword .INDEX
        let name ← identifier
        let _ ← keyword .ON
        let table ← qualifiedName
        let columns ← columnList
        return (⟨← spanFrom t.span, o.isSome, name, table, columns⟩ : CreateIndex))
      (u :: (ns ++ (v :: ts ++ cs))) ⟨span, unique, n, m, is⟩ rest := by
    rintro o b _ hb rfl rfl
    refine .bindToken (keyword_reads index) (.bind (identifier_reads name)
      (.bindToken (keyword_reads on) (.bind (name_reads table ?_)
        (.bindLast (.after (columnList_reads columns)) ?_))))
    · obtain ⟨opening, -, -⟩ := columns
      simp [opening]
    · exact .spanned (by simp) (by simp)
  have clause : ReadsAfter [t] (createIndex t.span) (fs ++ u :: (ns ++ (v :: ts ++ cs)))
      ⟨t.span.through (t :: (fs ++ u :: (ns ++ (v :: ts ++ cs)))), unique, n, m, is⟩ rest := by
    cases mark with
    | absent =>
      exact .bindNil (keyword?_absent (by simp [index])) (behind none _ _ (by simp) rfl (by simp))
    | @present w kind =>
      exact .bindToken (keyword?_reads kind) (behind (some w.span) _ _ (by simp) rfl (by simp))
  have head : ∀ k : Keyword, k ≠ .UNIQUE → k ≠ .INDEX →
      headKind (fs ++ u :: (ns ++ (v :: ts ++ cs)) ++ rest) ≠ .keyword k := by
    intro k hunique hindex
    cases mark with
    | absent => simpa [index] using hindex.symm
    | present kind => simpa [kind] using hunique.symm
  exact .bindToken (keyword_reads create) (.bindNil (keyword?_absent (head _ nofun nofun))
    (.bindNil (keyword?_absent (head _ nofun nofun)) (.bindLast clause .pure)))

omit hsub in
/-- A noise word before a name. -/
theorem noise_reads {k : Keyword} {α : Type} {f : Option Span → Parser α} {ns us : List Token}
    {a : α} (noise : Noise k ns) (head : headKind (us ++ rest) ≠ .keyword k)
    (h : ∀ (b : List Token) (o : Option Span), ReadsAfter b (f o) us a rest) :
    ReadsAfter before (keyword? k >>= f) (ns ++ us) a rest := by
  cases noise with
  | absent => exact .bindNil (keyword?_absent head) (h _ _)
  | present kind => exact .bindToken (keyword?_reads kind) (h _ _)

theorem alteration_reads {ts : List Token} {a : Alteration} (h : IsAlteration P ts a)
    (hrest : AtClause 3 rest) : ReadsAfter before (alteration sub) ts a rest := by
  refine .bindPeek fun t ht _ => ?_
  cases h with
  | addColumn add noise column =>
    simp only [ht, List.cons_append, headKind_cons, add]
    refine .bindToken (next_reads (by simp [Token.isEnd, add])) (noise_reads noise ?_ fun b o =>
      .bindLast (.after (columnDefinition_reads hsub column hrest)) .pure)
    obtain ⟨name, -, -⟩ := column
    obtain ⟨kind⟩ := name
    simp [kind]
  | dropColumn drop noise column =>
    simp only [ht, List.cons_append, headKind_cons, drop]
    refine .bindToken (next_reads (by simp [Token.isEnd, drop])) (noise_reads noise ?_ fun b o =>
      .bindLast (identifier_reads column) .pure)
    obtain ⟨kind⟩ := column
    simp [kind]
  | renameTable rename name =>
    obtain ⟨to_, name⟩ := name
    simp only [ht, List.cons_append, headKind_cons, rename]
    refine .bindToken (next_reads (by simp [Token.isEnd, rename])) ?_
    exact .bindToken (keyword?_reads to_) (.bindLast (identifier_reads name) .pure)
  | renameColumn rename noise old new =>
    obtain ⟨to_, new⟩ := new
    simp only [ht, List.cons_append, headKind_cons, rename]
    refine .bindToken (next_reads (by simp [Token.isEnd, rename])) (.bindNil (keyword?_absent ?_)
      (noise_reads noise ?_ fun b o => .bind (identifier_reads old)
        (.bindToken (keyword_reads to_) (.bindLast (identifier_reads new) .pure))))
    · obtain ⟨kind⟩ := old
      cases noise with
      | absent => simp [kind]
      | present column => simp [column]
    · obtain ⟨kind⟩ := old
      simp [kind]

theorem alterTable_reads {ts : List Token} {a : AlterTable} (h : IsAlterTable P ts a)
    (hrest : AtClause 3 rest) : Reads (alterTable sub) ts a rest := by
  obtain ⟨alter, table, name, alteration⟩ := h
  refine .bindToken (keyword_reads alter) (.bindToken (keyword_reads table)
    (.bind (name_reads name ?_) (.bindLast (alteration_reads hsub alteration hrest)
      (.spanned (by simp) (by simp)))))
  cases alteration with
  | addColumn kind | dropColumn kind | renameTable kind | renameColumn kind => simp [kind]

omit hsub in
theorem drop_reads {ts : List Token} {d : Drop} (h : IsDrop ts d)
    (hrest : headKind rest ≠ .punctuation .dot) : Reads drop ts d rest := by
  obtain @⟨t, u, gs, ns, kind, g, n, dropping, object, guard, name⟩ := h
  refine .bindToken (keyword_reads dropping) (.bindPeek fun v hv _ => ?_)
  have named : objectKind? v.kind = some kind := by
    rw [hv, List.cons_append, headKind_cons, object]
    cases kind <;> rfl
  simp only [named]
  refine .bindToken (next_reads (by simp [Token.isEnd, object])) ?_
  exact .bind (ifExists_reads guard (name_head_ne name))
    (.bindLast (name_reads name hrest) (.spanned (by simp) (by simp)))

end

/-! ## Statements -/

theorem statement_reads {comma : Prop} {max : Nat} {ts rest : List Token} {s : Statement}
    (h : IsStatement (phrases comma max) ts s) (hrest : endsQuery (headKind rest)) :
    Reads (statement max) ts s rest := by
  have hsub := nested_reads comma max max
  have place := atClause_of_endsQuery hrest
  refine .bindPeek fun t ht _ => ?_
  cases h with
  | query body =>
    obtain ⟨u, us, rfl, kind⟩ := hsub.proper.select body
    simp only [ht, List.cons_append, headKind_cons, kind]
    exact .bindLast (hsub.query body hrest) .pure
  | insert body =>
    have read := insert_reads hsub body hrest
    cases body with
    | plain kind | parenthesized kind =>
      simp only [ht, List.cons_append, headKind_cons, kind]
      exact .bindLast read .pure
  | update body =>
    have read := update_reads hsub body hrest
    obtain ⟨kind, -⟩ := body
    simp only [ht, List.cons_append, headKind_cons, kind]
    exact .bindLast read .pure
  | delete body =>
    have read := delete_reads hsub body hrest
    obtain ⟨kind, -⟩ := body
    simp only [ht, List.cons_append, headKind_cons, kind]
    exact .bindLast read .pure
  | createTable body =>
    have read : Reads (create (nested max max)) ts _ rest := create_reads_table hsub body
    obtain ⟨kind, -⟩ := body
    simp only [ht, List.cons_append, headKind_cons, kind]
    exact read
  | createIndex body =>
    have read : Reads (create (nested max max)) ts _ rest := create_reads_index body
    obtain ⟨kind, -⟩ := body
    simp only [ht, List.cons_append, headKind_cons, kind]
    exact read
  | createDatabase body =>
    have read : Reads (create (nested max max)) ts _ rest := create_reads_database body
    obtain ⟨kind, -⟩ := body
    simp only [ht, List.cons_append, headKind_cons, kind]
    exact read
  | alterTable body =>
    have read := alterTable_reads hsub body (place.mono (by decide))
    obtain ⟨kind, -⟩ := body
    simp only [ht, List.cons_append, headKind_cons, kind]
    exact .bindLast read .pure
  | drop body =>
    have read := drop_reads body (place.ne (k := .punctuation .dot) (by decide))
    obtain ⟨kind, -⟩ := body
    simp only [ht, List.cons_append, headKind_cons, kind]
    exact .bindLast read .pure

/-- A statement in front of the end of the input, perhaps with a semicolon in
between. -/
theorem wholeStatement_reads {comma : Prop} {max : Nat} {ts us : List Token} {t : Token}
    {s : Statement} (h : IsStatement (phrases comma max) ts s) (hus : IsClosing us) (ht : t.isEnd) :
    Reads (wholeStatement max) (ts ++ us) s [t] := by
  have kind := (Token.isEnd_iff t).1 ht
  have ends : ∀ b : List Token, ReadsAfter b (do endOfInput; return s) [] s [t] := fun _ => by
    refine .bindNil (a := ()) (.bindPeek fun u _ hu => ?_) .pure
    obtain rfl := hu t rfl
    rw [if_pos ht]
    exact .pure
  cases hus with
  | none =>
    refine .bind (statement_reads h (by simp [kind, endsQuery])) ?_
    exact .bindNil (punctuation?_absent (by simp [kind])) (ends _)
  | semicolon semicolon =>
    refine .bind (statement_reads h (by simp [semicolon, endsQuery])) ?_
    exact .bindToken (punctuation?_reads semicolon) (ends _)

end SqlSyntax.Parser
