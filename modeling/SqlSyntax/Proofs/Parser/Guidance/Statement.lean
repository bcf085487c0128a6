import SqlSyntax.Proofs.Parser.Guidance.Nesting
import SqlSyntax.Proofs.Parser.Soundness.Statement

/-!
# Guidance of the parsers of statements

## Main results

* `statement_guides` — the parser of statements notes and lists what some
  statement goes on with, at whatever depth.
-/

namespace SqlSyntax.Parser

open Grammar Expectation

variable {V : Beginnings} {P : Phrases} {sub : Nested} {before : List Token} {s : ParserState}

/-! ## Changes of the data -/

theorem atParenthesizedQuery_guides (ready : Ready V before s) :
    Guides V before atParenthesizedQuery s := by
  refine .bindPeek ready ?_
  split
  · exact .bindPeekAt ready (.pure ready)
  · exact .pure ready

theorem insertColumns_guides : GuidesTo V insertColumns IsInsertColumns := by
  intro before s h ready
  have listed : Fits V before IsColumnList := fun ts cs hcs => h (.listed hcs)
  obtain ⟨us, cs, some_⟩ := someColumnList
  refine .bindPeek ready ?_
  split
  · exact columnList_guides listed ready
  · have opens : V.holds (before ++ [(Expectation.punctuation .openParen).sample]) :=
      listed.part (.intro (kind_punctuation .openParen) (separated_one isIdentifier_sample)
        (kind_punctuation .closeParen)) (by simp)
    exact .bindNote ready (.cons trivial opens .nil) fun _ _ ready₁ => .pure ready₁

section

variable (hsub : GuidesNested V P sub)

include hsub

theorem row_guides :
    GuidesTo V (row sub) (Parenthesized (CommaSeparated P.wholeExpr)) := by
  obtain ⟨xs, x, some_⟩ := hsub.someExpr 0
  exact parenthesized_guides (commaSeparated_sound hsub.sound.wholeExpr)
    (commaSeparated_guides hsub.sound.wholeExpr hsub.wholeExpr) ⟨_, _, separated_one some_⟩

/-- A query starts with `SELECT`. -/
theorem selectStarts (h : Fits V before P.query) :
    ∃ t : Token, t.kind = .keyword .SELECT ∧ V.holds (before ++ [t]) := by
  obtain ⟨ts, q, hq⟩ := hsub.someQuery
  obtain ⟨t, ts, rfl, kind⟩ := hsub.sound.proper.select hq
  exact ⟨t, kind, h.part hq (by simp)⟩

theorem insertSource_guides : GuidesTo V (insertSource sub) (IsInsertSource P) := by
  intro before s h ready
  obtain ⟨xs, x, some_⟩ := hsub.someExpr 0
  have rows := separated_one (k := .punctuation .comma)
    (Parenthesized.intro (kind_punctuation .openParen)
      (separated_one (k := .punctuation .comma) some_) (kind_punctuation .closeParen))
  have values : ∀ {t : Token}, t.kind = .keyword .VALUES → V.holds (before ++ [t]) := fun kind =>
    h.part (.values (.intro kind rows)) (by simp)
  refine .keyword? ready (fun t => values) (fun t s₁ kind _ ready₁ => ?_) fun s₁ _ ready₁ => ?_
  · exact .map (commaSeparated_guides
      (parenthesized_sound (commaSeparated_sound hsub.sound.wholeExpr)) (row_guides hsub)
      (fun ts rows hrows => h.part (.values (.intro kind hrows)) (by simp)) ready₁)
  · refine queryOr_guides hsub (fun _ _ hq => ⟨_, .query hq⟩) (fun before s h ready => ?_) h ready₁
    obtain ⟨t, kind, selects⟩ := selectStarts hsub (fun ts q hq => h (.query hq))
    exact .noteUnexpected ready (.cons trivial (h.part (.values (.intro (kind_keyword .VALUES) rows))
      (by simp)) (.consToken kind selects .nil))

theorem insert_guides : GuidesTo V (insert sub) (IsInsert P) := by
  intro before s h ready
  obtain ⟨ns, n, someName⟩ := someName
  obtain ⟨qs, q, someQuery⟩ := hsub.someQuery
  have into := kind_keyword .INTO
  have source : IsInsertSource P qs _ := .query someQuery
  refine .keyword ready (fun t kind => h.part (.plain kind into someName .none source) (by simp))
    fun t s₁ kind _ ready₁ => ?_
  refine .keyword ready₁ (fun u into => h.part (.plain kind into someName .none source) (by simp))
    fun u s₂ into _ ready₂ => ?_
  refine .bindSound ready₂ qualifiedName_sound (qualifiedName_guides
    (fun ns n hn => h.part (.plain kind into hn .none source) (by simp)) ready₂)
    fun n s₃ ns _ ready₃ table => ?_
  refine .bindLook (Q := fun _ => True) ready₃ (atParenthesizedQuery_guides ready₃)
    (fun _ _ h => ⟨atParenthesizedQuery_eq_ok h, trivial⟩) fun b _ => ?_
  split
  · exact .bindSound ready₃ (parenthesized_sound hsub.sound.query)
      (parenthesized_guides hsub.sound.query hsub.query hsub.someQuery
        (fun ts q hq => h.part (.parenthesized kind into table hq) (by simp)) ready₃)
      fun _ _ _ _ ready₄ _ => .spanned ready₄
  · refine .bindSound ready₃ insertColumns_sound (insertColumns_guides
      (fun cs is hcs => h.part (.plain kind into table hcs source) (by simp)) ready₃)
      fun is s₄ cs _ ready₄ columns => ?_
    exact .bindSound ready₄ (insertSource_sound hsub.sound) (insertSource_guides hsub
      (fun ss source hs => h.part (.plain kind into table columns hs) (by simp)) ready₄)
      fun _ _ _ _ ready₅ _ => .spanned ready₅

theorem assignment_guides : GuidesTo V (assignment sub) (IsAssignment P) := by
  intro before s h ready
  obtain ⟨xs, x, some_⟩ := hsub.someExpr 0
  have equal := kind_operator .equal
  refine .bindSound ready identifier_sound (identifier_guides
    (fun cs c hc => h.part (.intro hc (.intro equal some_)) (by simp)) ready)
    fun c s₁ cs _ ready₁ column => ?_
  refine .operator ready₁ (fun t equal => h.part (.intro column (.intro equal some_)) (by simp))
    fun t s₂ equal _ ready₂ => ?_
  exact .bindSound ready₂ hsub.sound.wholeExpr (hsub.wholeExpr
    (fun vs v hv => h.part (.intro column (.intro equal hv)) (by simp)) ready₂)
    fun _ _ _ _ ready₃ _ => .spanned ready₃

theorem update_guides : GuidesTo V (update sub) (IsUpdate P) := by
  intro before s h ready
  obtain ⟨ns, n, someName⟩ := someName
  obtain ⟨xs, x, some_⟩ := hsub.someExpr 0
  have set := kind_keyword .SET
  have one : CommaSeparated (IsAssignment P) _ _ := separated_one
    (.intro isIdentifier_sample (.intro (kind_operator .equal) some_))
  refine .keyword ready
    (fun t kind => h.part (.intro kind someName .none (.intro set one) .none) (by simp))
    fun t s₁ kind _ ready₁ => ?_
  refine .bindSound ready₁ qualifiedName_sound (qualifiedName_guides
    (fun ns n hn => h.part (.intro kind hn .none (.intro set one) .none) (by simp)) ready₁)
    fun n s₂ ns _ ready₂ table => ?_
  refine .bindSound ready₂ alias?_sound (alias?_guides
    (fun ls label hl => h.part (.intro kind table hl (.intro set one) .none) (by simp)) ready₂)
    fun label s₃ ls _ ready₃ name => ?_
  refine .keyword ready₃
    (fun u set => h.part (.intro kind table name (.intro set one) .none) (by simp))
    fun u s₄ set _ ready₄ => ?_
  refine .bindSound ready₄ (commaSeparated_sound (assignment_sound hsub.sound))
    (commaSeparated_guides (assignment_sound hsub.sound) (assignment_guides hsub)
      (fun as list hl => h.part (.intro kind table name (.intro set hl) .none) (by simp)) ready₄)
    fun list s₅ as _ ready₅ body => ?_
  exact .bindSound ready₅ (conditionAfter?_sound hsub.sound .WHERE) (conditionAfter?_guides hsub
    .WHERE (fun ws w hw => h.part (.intro kind table name (.intro set body) hw) (by simp)) ready₅)
    fun _ _ _ _ ready₆ _ => .spanned ready₆

theorem delete_guides : GuidesTo V (delete sub) (IsDelete P) := by
  intro before s h ready
  obtain ⟨ns, n, someName⟩ := someName
  refine .keyword ready
    (fun t kind => h.part (.intro kind (kind_keyword .FROM) someName .none .none) (by simp))
    fun t s₁ kind _ ready₁ => ?_
  refine .keyword ready₁
    (fun u source => h.part (.intro kind source someName .none .none) (by simp))
    fun u s₂ source _ ready₂ => ?_
  refine .bindSound ready₂ qualifiedName_sound (qualifiedName_guides
    (fun ns n hn => h.part (.intro kind source hn .none .none) (by simp)) ready₂)
    fun n s₃ ns _ ready₃ table => ?_
  refine .bindSound ready₃ alias?_sound (alias?_guides
    (fun ls label hl => h.part (.intro kind source table hl .none) (by simp)) ready₃)
    fun label s₄ ls _ ready₄ name => ?_
  exact .bindSound ready₄ (conditionAfter?_sound hsub.sound .WHERE) (conditionAfter?_guides hsub
    .WHERE (fun ws w hw => h.part (.intro kind source table name hw) (by simp)) ready₄)
    fun _ _ _ _ ready₅ _ => .spanned ready₅

/-! ## Changes of the schema -/

theorem columnOption?_guides (h : Fits V before (IsColumnOption P)) (ready : Ready V before s) :
    Guides V before (columnOption? sub) s := by
  obtain ⟨xs, x, some_⟩ := hsub.someExpr 0
  have null := kind_keyword .NULL
  have key := kind_keyword .KEY
  have absent : Guides V before (do
      note [.keyword .NOT, .keyword .NULL, .keyword .PRIMARY, .keyword .UNIQUE, .keyword .DEFAULT]
      return (none : Option ColumnOption)) s := by
    refine .bindNote ready ?_ fun _ _ ready₁ => .pure ready₁
    refine .cons trivial
      (h.part (.notNull (.cons (kind_keyword .NOT) (.cons null .nil))) (by simp)) ?_
    refine .cons trivial (h.part (.null (.cons null .nil)) (by simp)) ?_
    refine .cons trivial
      (h.part (.primaryKey (.cons (kind_keyword .PRIMARY) (.cons key .nil))) (by simp)) ?_
    refine .cons trivial (h.part (.unique (.cons (kind_keyword .UNIQUE) .nil)) (by simp)) ?_
    exact .cons trivial (h.part (.default (.intro (kind_keyword .DEFAULT) some_)) (by simp)) .nil
  refine .bindPeek ready ?_
  cases word : (ahead s).kind with
  | keyword k =>
    have here : (ahead s).isEnd = false := by simp [Token.isEnd, word]
    cases k with
    | NOT =>
      exact .bindNext ready here fun _ _ ready₁ => .keyword ready₁
        (fun u null => h.part (.notNull (.cons word (.cons null .nil))) (by simp))
        fun _ _ _ _ ready₂ => .pure ready₂
    | PRIMARY =>
      exact .bindNext ready here fun _ _ ready₁ => .keyword ready₁
        (fun u key => h.part (.primaryKey (.cons word (.cons key .nil))) (by simp))
        fun _ _ _ _ ready₂ => .pure ready₂
    | NULL | UNIQUE => exact .bindNext ready here fun _ _ ready₁ => .pure ready₁
    | DEFAULT =>
      exact .bindNext ready here fun _ _ ready₁ => .map (hsub.wholeExpr
        (fun ts e he => h.part (.default (.intro word he)) (by simp)) ready₁)
    | _ => exact absent
  | _ => exact absent

theorem columnDefinition_guides : GuidesTo V (columnDefinition sub) (IsColumnDefinition P) := by
  intro before s h ready
  refine .bindSound ready identifier_sound (identifier_guides
    (fun ns n hn => h.part (.intro hn isDataType_sample .nil) (by simp)) ready)
    fun n s₁ ns _ ready₁ name => ?_
  refine .bindSound ready₁ dataType_sound (dataType_guides
    (fun ts d hd => h.part (.intro name hd .nil) (by simp)) ready₁) fun d s₂ ts _ ready₂ type => ?_
  refine .bindSound ready₂
    (fun _ _ _ => collect_sound (optionalStep_sound (columnOption?_sound hsub.sound)
      (by intros; rfl) (by intros; rfl)))
    (collect_guides (optionalStep_sound (columnOption?_sound hsub.sound) (by intros; rfl)
      (by intros; rfl)) (fun before as s h ready => ?_)
      (fun os list hl => h.part (.intro name type hl) (by simp)) ready₂)
    fun _ _ _ _ ready₃ _ => .spanned ready₃
  refine (columnOption?_guides hsub (fun ts o ho => h.part (.cons ho .nil) (by simp)) ready).bindPure
    fun o => ?_
  cases o <;> exact ⟨_, rfl⟩

omit hsub in
theorem someColumn (P : Phrases) : ∃ ts c, IsColumnDefinition P ts c :=
  ⟨_, _, .intro isIdentifier_sample isDataType_sample .nil⟩

theorem tableElement_guides : GuidesTo V (tableElement sub) (IsTableElement P) := by
  intro before s h ready
  obtain ⟨cs, columns, some_⟩ := someColumnList
  refine .bindPeek ready ?_
  refine .keyword? ready (fun t primary => h.part
    (.constraint (.primaryKey primary (kind_keyword .KEY) some_)) (by simp))
    (fun t s₁ primary _ ready₁ => ?_) fun s₁ _ ready₁ => ?_
  · refine .keyword ready₁
      (fun u key => h.part (.constraint (.primaryKey primary key some_)) (by simp))
      fun u s₂ key _ ready₂ => ?_
    exact .bindSound ready₂ columnList_sound (columnList_guides
      (fun ts cs hcs => h.part (.constraint (.primaryKey primary key hcs)) (by simp)) ready₂)
      fun _ _ _ _ ready₃ _ => .spanned ready₃
  · refine .keyword? ready₁
      (fun t unique => h.part (.constraint (.unique unique some_)) (by simp))
      (fun t s₂ unique _ ready₂ => ?_) fun s₂ _ ready₂ => ?_
    · exact .bindSound ready₂ columnList_sound (columnList_guides
        (fun ts cs hcs => h.part (.constraint (.unique unique hcs)) (by simp)) ready₂)
        fun _ _ _ _ ready₃ _ => .spanned ready₃
    · exact .map (columnDefinition_guides hsub (fun ts c hc => h (.column hc)) ready₂)

omit hsub in
theorem ifNotExists_guides : GuidesTo V ifNotExists (IsGuard [.IF, .NOT, .EXISTS]) := by
  intro before s h ready
  have not := kind_keyword .NOT
  have exists_ := kind_keyword .EXISTS
  refine .keyword? ready
    (fun t if_ => h.part (.present (.cons if_ (.cons not (.cons exists_ .nil)))) (by simp))
    (fun t s₁ if_ _ ready₁ => ?_) fun _ _ ready₁ => .pure ready₁
  refine .keyword ready₁
    (fun u not => h.part (.present (.cons if_ (.cons not (.cons exists_ .nil)))) (by simp))
    fun u s₂ not _ ready₂ => ?_
  exact .keyword ready₂
    (fun v exists_ => h.part (.present (.cons if_ (.cons not (.cons exists_ .nil)))) (by simp))
    fun _ _ _ _ ready₃ => .pure ready₃

omit hsub in
theorem ifExists_guides : GuidesTo V ifExists (IsGuard [.IF, .EXISTS]) := by
  intro before s h ready
  refine .keyword? ready
    (fun t if_ => h.part (.present (.cons if_ (.cons (kind_keyword .EXISTS) .nil))) (by simp))
    (fun t s₁ if_ _ ready₁ => ?_) fun _ _ ready₁ => .pure ready₁
  exact .keyword ready₁
    (fun u exists_ => h.part (.present (.cons if_ (.cons exists_ .nil))) (by simp))
    fun _ _ _ _ ready₂ => .pure ready₂

theorem createTable_guides {t u : Token} {start : Span} (create : t.kind = .keyword .CREATE)
    (table : u.kind = .keyword .TABLE) (h : Fits V before (IsCreateTable P))
    (ready : Ready V (before ++ [t] ++ [u]) s) :
    Guides V (before ++ [t] ++ [u]) (createTable sub start) s := by
  obtain ⟨ns, n, someName⟩ := someName
  obtain ⟨cs, c, someColumn⟩ := someColumn P
  have one : Parenthesized (CommaSeparated (IsTableElement P)) _ _ := .intro
    (kind_punctuation .openParen) (separated_one (.column someColumn)) (kind_punctuation .closeParen)
  refine .bindSound ready ifNotExists_sound (ifNotExists_guides
    (fun gs g hg => h.part (.intro create table hg someName one) (by simp)) ready)
    fun g s₁ gs _ ready₁ guard => ?_
  refine .bindSound ready₁ qualifiedName_sound (qualifiedName_guides
    (fun ns n hn => h.part (.intro create table guard hn one) (by simp)) ready₁)
    fun n s₂ ns _ ready₂ name => ?_
  exact .bindSound ready₂ (parenthesized_sound (commaSeparated_sound (tableElement_sound hsub.sound)))
    (parenthesized_guides (commaSeparated_sound (tableElement_sound hsub.sound))
      (commaSeparated_guides (tableElement_sound hsub.sound) (tableElement_guides hsub))
      ⟨_, _, separated_one (.column someColumn)⟩
      (fun es elements he => h.part (.intro create table guard name he) (by simp)) ready₂)
    fun _ _ _ _ ready₃ _ => .spanned ready₃

omit hsub in
theorem createDatabase_guides {t u : Token} {start : Span} (create : t.kind = .keyword .CREATE)
    (database : u.kind = .keyword .DATABASE) (h : Fits V before IsCreateDatabase)
    (ready : Ready V (before ++ [t] ++ [u]) s) :
    Guides V (before ++ [t] ++ [u]) (createDatabase start) s :=
  .bindSound ready identifier_sound (identifier_guides
    (fun ns n hn => h.part (.intro create database hn) (by simp)) ready)
    fun _ _ _ _ ready₁ _ => .spanned ready₁

omit hsub in
theorem createIndex_guides {t : Token} {start : Span} (create : t.kind = .keyword .CREATE)
    (h : Fits V before IsCreateIndex) (ready : Ready V (before ++ [t]) s) :
    Guides V (before ++ [t]) (createIndex start) s := by
  obtain ⟨ns, n, someName⟩ := someName
  obtain ⟨cs, columns, someColumns⟩ := someColumnList
  have index := kind_keyword .INDEX
  have on := kind_keyword .ON
  refine .flag ready (fun u unique => h.part (.intro create (.present unique) index
    isIdentifier_sample (.intro on someName) someColumns) (by simp)) fun o fs s₁ mark _ ready₁ => ?_
  refine .keyword ready₁ (fun u index => h.part (.intro create mark index isIdentifier_sample
    (.intro on someName) someColumns) (by simp)) fun u s₂ index _ ready₂ => ?_
  refine .bindSound ready₂ identifier_sound (identifier_guides (fun ns n hn =>
    h.part (.intro create mark index hn (.intro on someName) someColumns) (by simp)) ready₂)
    fun n s₃ ns _ ready₃ name => ?_
  refine .keyword ready₃ (fun v on => h.part (.intro create mark index name (.intro on someName)
    someColumns) (by simp)) fun v s₄ on _ ready₄ => ?_
  refine .bindSound ready₄ qualifiedName_sound (qualifiedName_guides (fun ts table ht =>
    h.part (.intro create mark index name (.intro on ht) someColumns) (by simp)) ready₄)
    fun table s₅ ts _ ready₅ table' => ?_
  exact .bindSound ready₅ columnList_sound (columnList_guides (fun cs is hcs =>
    h.part (.intro create mark index name (.intro on table') hcs) (by simp)) ready₅)
    fun _ _ _ _ ready₆ _ => .spanned ready₆

theorem create_guides (h : Fits V before (IsStatement P)) (ready : Ready V before s) :
    Guides V before (create sub) s := by
  obtain ⟨ns, n, someName⟩ := someName
  obtain ⟨cs, c, someColumn⟩ := someColumn P
  obtain ⟨us, columns, someColumns⟩ := someColumnList
  have one : Parenthesized (CommaSeparated (IsTableElement P)) _ _ := .intro
    (kind_punctuation .openParen) (separated_one (.column someColumn)) (kind_punctuation .closeParen)
  refine .keyword ready (fun t create => h.part (.createDatabase
    (.intro create (kind_keyword .DATABASE) isIdentifier_sample)) (by simp))
    fun t s₁ create _ ready₁ => ?_
  refine .keyword? ready₁ (fun u table => h.part (.createTable
    (.intro create table .absent someName one)) (by simp))
    (fun u s₂ table _ ready₂ => .map (createTable_guides hsub create table
      (fun ts x hx => h (.createTable hx)) ready₂)) fun s₂ _ ready₂ => ?_
  refine .keyword? ready₂ (fun u database => h.part (.createDatabase
    (.intro create database isIdentifier_sample)) (by simp))
    (fun u s₃ database _ ready₃ => .map (createDatabase_guides create database
      (fun ts x hx => h (.createDatabase hx)) ready₃)) fun s₃ _ ready₃ => ?_
  exact .map (createIndex_guides create (fun ts x hx => h (.createIndex hx)) ready₃)

omit hsub in
theorem renameTail_guides {t : Token} (rename : t.kind = .keyword .RENAME)
    (h : Fits V before (IsAlteration P)) (ready : Ready V (before ++ [t]) s) :
    Guides V (before ++ [t]) renameTail s := by
  have to_ := kind_keyword .TO
  have name := isIdentifier_sample
  refine .keyword? ready (fun u to_ => h.part (.renameTable rename (.intro to_ name)) (by simp))
    (fun u s₁ to_ _ ready₁ => ?_) fun s₁ _ ready₁ => ?_
  · exact .map (identifier_guides
      (fun ns n hn => h.part (.renameTable rename (.intro to_ hn)) (by simp)) ready₁)
  refine .noise ready₁ (fun u column => h.part
    (.renameColumn rename (.present column) name (.intro to_ name)) (by simp))
    fun _ ns s₂ noise _ ready₂ => ?_
  refine .bindSound ready₂ identifier_sound (identifier_guides (fun os i hi =>
    h.part (.renameColumn rename noise hi (.intro to_ name)) (by simp)) ready₂)
    fun i s₃ os _ ready₃ old => ?_
  refine .keyword ready₃ (fun u to_ => h.part (.renameColumn rename noise old (.intro to_ name))
    (by simp)) fun u s₄ to_ _ ready₄ => ?_
  exact .map (identifier_guides
    (fun us j hj => h.part (.renameColumn rename noise old (.intro to_ hj)) (by simp)) ready₄)

theorem alteration_guides : GuidesTo V (alteration sub) (IsAlteration P) := by
  intro before s h ready
  obtain ⟨cs, c, someColumn⟩ := someColumn P
  have name := isIdentifier_sample
  have absent : Guides V before (do
      note [.keyword .ADD, .keyword .DROP, .keyword .RENAME]
      unexpected : Parser Alteration) s := by
    refine .noteUnexpected ready (.cons trivial
      (h.part (.addColumn (kind_keyword .ADD) .absent someColumn) (by simp)) (.cons trivial
      (h.part (.dropColumn (kind_keyword .DROP) .absent name) (by simp)) (.cons trivial
      (h.part (.renameTable (kind_keyword .RENAME) (.intro (kind_keyword .TO) name)) (by simp))
      .nil)))
  refine .bindPeek ready ?_
  cases word : (ahead s).kind with
  | keyword k =>
    have here : (ahead s).isEnd = false := by simp [Token.isEnd, word]
    cases k with
    | ADD =>
      refine .bindNext ready here fun s₁ _ ready₁ => .noise ready₁ (fun u column =>
        h.part (.addColumn word (.present column) someColumn) (by simp))
        fun _ ns s₂ noise _ ready₂ => .map (columnDefinition_guides hsub (fun cs c hc => ?_) ready₂)
      exact h.part (.addColumn word noise hc) (by simp)
    | DROP =>
      refine .bindNext ready here fun s₁ _ ready₁ => .noise ready₁ (fun u column =>
        h.part (.dropColumn word (.present column) name) (by simp))
        fun _ ns s₂ noise _ ready₂ => .map (identifier_guides (fun cs c hc => ?_) ready₂)
      exact h.part (.dropColumn word noise hc) (by simp)
    | RENAME => exact .bindNext ready here fun s₁ _ ready₁ => renameTail_guides word h ready₁
    | _ => exact absent
  | _ => exact absent

theorem alterTable_guides : GuidesTo V (alterTable sub) (IsAlterTable P) := by
  intro before s h ready
  obtain ⟨ns, n, someName⟩ := someName
  have some_ : IsAlteration P _ _ :=
    .renameTable (kind_keyword .RENAME) (.intro (kind_keyword .TO) isIdentifier_sample)
  refine .keyword ready
    (fun t alter => h.part (.intro alter (kind_keyword .TABLE) someName some_) (by simp))
    fun t s₁ alter _ ready₁ => ?_
  refine .keyword ready₁ (fun u table => h.part (.intro alter table someName some_) (by simp))
    fun u s₂ table _ ready₂ => ?_
  refine .bindSound ready₂ qualifiedName_sound (qualifiedName_guides
    (fun ns n hn => h.part (.intro alter table hn some_) (by simp)) ready₂)
    fun n s₃ ns _ ready₃ name => ?_
  exact .bindSound ready₃ (alteration_sound hsub.sound) (alteration_guides hsub
    (fun as a ha => h.part (.intro alter table name ha) (by simp)) ready₃)
    fun _ _ _ _ ready₄ _ => .spanned ready₄

end

theorem drop_guides : GuidesTo V drop IsDrop := by
  intro before s h ready
  obtain ⟨ns, n, someName⟩ := someName
  refine .keyword ready (fun t dropping => h.part (.intro dropping
    (kind_keyword ObjectKind.table.keyword) .absent someName) (by simp))
    fun t s₁ dropping _ ready₁ => .bindPeek ready₁ ?_
  have objects : ∀ {u : Token} (kind : ObjectKind), u.kind = .keyword kind.keyword →
      V.holds (before ++ [t] ++ [u]) := fun kind object =>
    h.part (.intro dropping object .absent someName) (by simp)
  cases hkind : objectKind? (ahead s₁).kind with
  | none =>
    exact .noteUnexpected ready₁ (.cons trivial (objects .table rfl) (.cons trivial
      (objects .index rfl) (.cons trivial (objects .database rfl) .nil)))
  | some kind =>
    have object := objectKind?_eq_some hkind
    refine .bindNext ready₁ (by simp [Token.isEnd, object]) fun s₂ _ ready₂ => ?_
    refine .bindSound ready₂ ifExists_sound (ifExists_guides
      (fun gs g hg => h.part (.intro dropping object hg someName) (by simp)) ready₂)
      fun g s₃ gs _ ready₃ guard => ?_
    exact .bindSound ready₃ qualifiedName_sound (qualifiedName_guides
      (fun ns n hn => h.part (.intro dropping object guard hn) (by simp)) ready₃)
      fun _ _ _ _ ready₄ _ => .spanned ready₄

/-! ## Statements -/

/-- The first tokens of the statements. -/
theorem offers_statement (hsub : GuidesNested V P sub) (h : Fits V before (IsStatement P)) :
    Offers V before [.keyword .SELECT, .keyword .INSERT, .keyword .UPDATE, .keyword .DELETE,
      .keyword .CREATE, .keyword .ALTER, .keyword .DROP] := by
  obtain ⟨ns, n, someName⟩ := someName
  obtain ⟨xs, x, someExpr⟩ := hsub.someExpr 0
  obtain ⟨qs, q, someQuery⟩ := hsub.someQuery
  obtain ⟨t, select, selects⟩ := selectStarts hsub (fun ts q hq => h (.query hq))
  have name := isIdentifier_sample
  refine .consToken select selects ?_
  refine .cons trivial (h.part (.insert (.plain (kind_keyword .INSERT) (kind_keyword .INTO) someName
    .none (.query someQuery))) (by simp)) ?_
  refine .cons trivial (h.part (.update (.intro (kind_keyword .UPDATE) someName .none
    (.intro (kind_keyword .SET) (separated_one (.intro name (.intro (kind_operator .equal)
      someExpr)))) .none)) (by simp)) ?_
  refine .cons trivial (h.part (.delete (.intro (kind_keyword .DELETE) (kind_keyword .FROM) someName
    .none .none)) (by simp)) ?_
  refine .cons trivial (h.part (.createDatabase (.intro (kind_keyword .CREATE)
    (kind_keyword .DATABASE) name)) (by simp)) ?_
  refine .cons trivial (h.part (.alterTable (.intro (kind_keyword .ALTER) (kind_keyword .TABLE)
    someName (.renameTable (kind_keyword .RENAME) (.intro (kind_keyword .TO) name)))) (by simp)) ?_
  exact .cons trivial (h.part (.drop (.intro (kind_keyword .DROP)
    (kind_keyword ObjectKind.table.keyword) .absent someName)) (by simp)) .nil

theorem statement_guides (V : Beginnings) (max : Nat) :
    GuidesTo V (statement max) (IsStatement (phrases True (max + 1))) := by
  intro before s h ready
  have hsub := nested_guides V max max
  have absent : Guides V before (do
      note [.keyword .SELECT, .keyword .INSERT, .keyword .UPDATE, .keyword .DELETE,
        .keyword .CREATE, .keyword .ALTER, .keyword .DROP]
      unexpected : Parser Statement) s := .noteUnexpected ready (offers_statement hsub h)
  refine .bindPeek ready ?_
  cases (ahead s).kind with
  | keyword k =>
    cases k with
    | SELECT => exact .map (hsub.query (fun ts x hx => h (.query hx)) ready)
    | INSERT => exact .map (insert_guides hsub (fun ts x hx => h (.insert hx)) ready)
    | UPDATE => exact .map (update_guides hsub (fun ts x hx => h (.update hx)) ready)
    | DELETE => exact .map (delete_guides hsub (fun ts x hx => h (.delete hx)) ready)
    | CREATE => exact create_guides hsub h ready
    | ALTER => exact .map (alterTable_guides hsub (fun ts x hx => h (.alterTable hx)) ready)
    | DROP => exact .map (drop_guides (fun ts x hx => h (.drop hx)) ready)
    | _ => exact absent
  | _ => exact absent

end SqlSyntax.Parser
