import SqlSyntax.Proofs.Canonical.Clauses
import SqlSyntax.Proofs.Canonical.Lexing
import SqlSyntax.Proofs.Token.Digits
import SqlSyntax.Proofs.Tree.Levels

/-!
# Canonical forms are tidy

The canonical form of a phrase starts and ends with something else than a space,
and no piece of it runs on into the next. So phrases can be put next to each
other with a space in between, in parentheses or behind commas, and the whole
is tidy again.

## Main results

* `Node.tidy` — the canonical form of a well-formed tree is tidy.
* `Statement.ofString_canonical` — the canonical text of a well-formed statement
  is read back as the tokens of its canonical form.
-/

namespace SqlSyntax

/-- Whether pieces can be read back where they stand. -/
structure Tidy (ps : List Piece) : Prop where
  chain : ps.IsChain fun p q => p.before q
  lexical : ∀ p ∈ ps, p.Lexical
  first : ∃ p ∈ ps.head?, p ≠ .space
  last : ∃ p ∈ ps.getLast?, p ≠ .space

/-- Blanks, brackets and commas may stand behind everything but a space. -/
theorem Piece.before_closing {p q : Piece} (hp : p ≠ .space)
    (hq : q ∈ [.space, .punctuation .openParen, .punctuation .closeParen, .punctuation .comma]) :
    p.before q := by
  simp only [List.mem_cons, List.not_mem_nil, or_false] at hq
  rcases hq with rfl | rfl | rfl | rfl <;> cases p <;> first | exact absurd rfl hp | rfl

/-- Anything may stand behind an opening parenthesis. -/
theorem Piece.before_of_openParen {q : Piece} : before (.punctuation .openParen) q := by
  cases q with
  | punctuation p => cases p <;> rfl
  | _ => rfl

namespace Tidy

open Piece

variable {α : Type} {ps qs : List Piece}

theorem piece {p : Piece} (hp : p ≠ .space) (lexical : p.Lexical) : Tidy [p] :=
  ⟨.singleton _, by simpa using lexical, ⟨p, rfl, hp⟩, ⟨p, rfl, hp⟩⟩

theorem keyword (k : Keyword) : Tidy [.keyword k] := piece nofun trivial

theorem ne_nil (h : Tidy ps) : ps ≠ [] := by
  rintro rfl
  obtain ⟨p, hp, -⟩ := h.first
  exact nomatch hp

theorem append (h : Tidy ps) (h' : Tidy qs)
    (between : ∀ p ∈ ps.getLast?, p ≠ .space → ∀ q ∈ qs.head?, q ≠ .space → p.before q) :
    Tidy (ps ++ qs) := by
  obtain ⟨p, first, hp⟩ := h.first
  obtain ⟨p', last, hp'⟩ := h.last
  obtain ⟨q, first', hq⟩ := h'.first
  obtain ⟨q', last', hq'⟩ := h'.last
  refine ⟨List.isChain_append.2 ⟨h.chain, h'.chain, ?_⟩, ?_, ⟨p, ?_, hp⟩, ⟨q', ?_, hq'⟩⟩
  · intro x hx y hy
    obtain rfl := Option.mem_unique hx last
    obtain rfl := Option.mem_unique hy first'
    exact between x hx hp' y hy hq
  · exact List.forall_mem_append.2 ⟨h.lexical, h'.lexical⟩
  · rwa [List.head?_append_of_ne_nil _ h.ne_nil]
  · rwa [List.getLast?_append_of_ne_nil _ h'.ne_nil]

/-- A space may stand between any two tidy phrases. -/
theorem spaced (h : Tidy ps) (h' : Tidy qs) : Tidy (ps ++ .space :: qs) := by
  obtain ⟨p, first, hp⟩ := h.first
  obtain ⟨q, first', hq⟩ := h'.first
  obtain ⟨q', last', hq'⟩ := h'.last
  have chain : (Piece.space :: qs).IsChain fun p q => p.before q := by
    refine List.isChain_cons.2 ⟨fun y hy => ?_, h'.chain⟩
    obtain rfl := Option.mem_unique hy first'
    simpa [before] using hq
  refine ⟨List.isChain_append.2 ⟨h.chain, chain, ?_⟩, ?_, ⟨p, ?_, hp⟩, ⟨q', ?_, hq'⟩⟩
  · rintro x hx y ⟨⟩
    obtain ⟨p', last, hp'⟩ := h.last
    obtain rfl := Option.mem_unique hx last
    exact before_closing hp' (by simp)
  · exact List.forall_mem_append.2 ⟨h.lexical, List.forall_mem_cons.2 ⟨trivial, h'.lexical⟩⟩
  · rwa [List.head?_append_of_ne_nil _ h.ne_nil]
  · rw [List.getLast?_append_of_ne_nil _ (by simp), List.getLast?_cons]
    simp [Option.mem_def.1 last']

/-- A keyword may stand before a tidy phrase. -/
theorem behind (k : Keyword) (h : Tidy ps) : Tidy (.keyword k :: .space :: ps) :=
  spaced (keyword k) h

/-- So may a keyword that is written only sometimes. -/
theorem flagged (b : Bool) (k : Keyword) (h : Tidy ps) :
    Tidy ((if b then [.keyword k, .space] else []) ++ ps) := by
  cases b with
  | false => exact h
  | true => exact behind k h

theorem negation (b : Bool) (h : Tidy ps) : Tidy (negation b ++ ps) := flagged b .NOT h

theorem parenthesized (h : ps = [] ∨ Tidy ps) : Tidy (parenthesized ps) := by
  have closing : Tidy [.punctuation .closeParen] := piece nofun trivial
  have inner : Tidy (ps ++ [.punctuation .closeParen]) := by
    rcases h with rfl | h
    · exact closing
    · refine append h closing fun p _ hp q hq _ => ?_
      obtain rfl := Option.mem_some_iff.1 hq
      exact before_closing hp (by simp)
  have opening : Tidy [.punctuation .openParen] := piece nofun trivial
  show Tidy ([.punctuation .openParen] ++ (ps ++ [.punctuation .closeParen]))
  refine append opening inner fun p hp _ q _ hq => ?_
  obtain rfl := Option.mem_some_iff.1 hp
  exact before_of_openParen

/-- What is in parentheses may stand right behind a tidy phrase. -/
theorem call (h : Tidy ps) (h' : qs = [] ∨ Tidy qs) : Tidy (ps ++ Piece.parenthesized qs) := by
  refine append h (parenthesized h') fun p _ hp q hq _ => ?_
  obtain rfl := Option.mem_some_iff.1 hq
  exact before_closing hp (by simp)

/-! ### Lists -/

/-- What parts joined by a separator have, all of them have together. -/
theorem separated {T : List Piece → Prop} {separator : List Piece} {f : α → List Piece}
    {as : List α} (hne : as ≠ []) (items : ∀ a ∈ as, T (f a))
    (join : ∀ {ps qs}, T ps → T qs → T (ps ++ separator ++ qs)) :
    T (separated separator (as.map f)) := by
  induction as with
  | nil => exact absurd rfl hne
  | cons a as ih =>
    have first := items a (List.mem_cons_self ..)
    cases as with
    | nil => simpa [Piece.separated] using first
    | cons b as =>
      have others := ih (List.cons_ne_nil b as) fun a ha => items a (List.mem_cons_of_mem _ ha)
      have := join first others
      simpa [Piece.separated] using this

theorem commaSeparated {f : α → List Piece} {as : List α} (hne : as ≠ [])
    (items : ∀ a ∈ as, Tidy (f a)) : Tidy (commaSeparated (as.map f)) := by
  refine separated hne items fun {ps qs} h h' => ?_
  have comma : Tidy [.punctuation .comma] := piece nofun trivial
  have first : Tidy (ps ++ [.punctuation .comma]) := append h comma fun p _ hp q hq _ => by
    obtain rfl := Option.mem_some_iff.1 hq
    exact before_closing hp (by simp)
  simpa using spaced first h'

theorem spaceSeparated {f : α → List Piece} {as : List α} (hne : as ≠ [])
    (items : ∀ a ∈ as, Tidy (f a)) : Tidy (spaceSeparated (as.map f)) :=
  separated hne items fun h h' => by simpa using spaced h h'

theorem keywords (k : Keyword) (ks : List Keyword) : Tidy (keywords (k :: ks)) :=
  spaceSeparated nofun fun k _ => keyword k

/-- Phrases behind a space each. -/
theorem flatMap {f : α → List Piece} {as : List α} (h : Tidy ps) (items : ∀ a ∈ as, Tidy (f a)) :
    Tidy (ps ++ as.flatMap fun a => .space :: f a) := by
  induction as generalizing ps with
  | nil => simpa using h
  | cons a as ih =>
    have := ih (spaced h (items a (List.mem_cons_self ..)))
      fun a ha => items a (List.mem_cons_of_mem _ ha)
    simpa using this

theorem clause {f : α → List Piece} {o : Option α} (h : Tidy ps) (part : ∀ a ∈ o, Tidy (f a)) :
    Tidy (ps ++ clausePieces f o) := by
  cases o with
  | none => simpa using h
  | some a => exact spaced h (part a rfl)

end Tidy

/-! ## Leaves -/

section

open Tidy

theorem Identifier.tidy (i : Identifier) : Tidy i.pieces := Tidy.piece nofun trivial

/-- Pieces that start and end with an identifier. -/
structure Named (ps : List Piece) : Prop where
  tidy : Tidy ps
  first : ∃ value, ps.head? = some (.identifier value)
  last : ∃ value, ps.getLast? = some (.identifier value)

theorem Named.dot {ps qs : List Piece} (h : Named ps)
    (tidy : Tidy (.punctuation .dot :: qs)) : Tidy (ps ++ .punctuation .dot :: qs) := by
  obtain ⟨value, last⟩ := h.last
  refine append h.tidy tidy fun p hp _ q hq _ => ?_
  obtain rfl := Option.mem_unique hp last
  obtain rfl := Option.mem_some_iff.1 hq
  rfl

theorem QualifiedName.named (n : QualifiedName) : Named n.pieces := by
  refine Tidy.separated (T := Named) (by simp [parts]) (fun i _ => ?_) fun {ps qs} h h' => ?_
  · exact ⟨i.tidy, ⟨_, rfl⟩, ⟨_, rfl⟩⟩
  · obtain ⟨value, first⟩ := h.first
    obtain ⟨value', first'⟩ := h'.first
    obtain ⟨value'', last⟩ := h'.last
    have dot : Tidy [.punctuation .dot] := Tidy.piece (by simp) trivial
    have behind : Tidy (.punctuation .dot :: qs) := append dot h'.tidy fun p hp _ q hq _ => by
      obtain rfl := Option.mem_some_iff.1 hp
      obtain rfl := Option.mem_unique hq first'
      rfl
    have whole := h.dot behind
    refine ⟨by simpa using whole, ⟨value, ?_⟩, ⟨value'', ?_⟩⟩
    · rw [List.append_assoc, List.head?_append_of_ne_nil _ h.tidy.ne_nil, first]
    · rw [List.getLast?_append_of_ne_nil _ h'.tidy.ne_nil, last]

theorem tidy_columnPieces {columns : List Identifier} (hne : columns ≠ []) :
    Tidy (columnPieces columns) :=
  Tidy.parenthesized (.inr (Tidy.commaSeparated hne fun i _ => i.tidy))

theorem Tidy.label {ps : List Piece} (h : Tidy ps) (label : Option Identifier) :
    Tidy (ps ++ aliasPieces label) := by
  rw [aliasPieces_eq]
  exact clause h fun i _ => behind .AS i.tidy

theorem Literal.tidy {v : Literal} (h : v.WellFormed) : Tidy [v.piece] := by
  cases v with
  | number text => exact Tidy.piece nofun h
  | boolean b => cases b <;> exact Tidy.keyword _
  | null => exact Tidy.keyword _
  | string value => exact Tidy.piece nofun trivial

theorem tidy_number (n : Nat) : Tidy [.number (toString n)] :=
  Tidy.piece nofun (isNumber_toString n)

theorem tidy_word {text : String} (h : needsQuotes text = false) : Tidy [.word text] :=
  Tidy.piece nofun h

theorem DataType.tidy (d : DataType) : Tidy d.pieces := by
  have sized : ∀ {name : String} (length : Option Nat), needsQuotes name = false →
      Tidy (.word name :: lengthPieces length) := by
    intro name length h
    cases length with
    | none => exact tidy_word h
    | some n => exact call (tidy_word h) (.inr (tidy_number n))
  cases d with
  | char length => exact sized length (by decide +kernel)
  | varchar length => exact sized length (by decide +kernel)
  | decimalOf precision scale =>
    cases scale with
    | none => exact sized (some precision) (by decide +kernel)
    | some scale =>
      have lengths : Tidy (Piece.commaSeparated ([precision, scale].map fun n =>
          [.number (toString n)])) := Tidy.commaSeparated nofun fun n _ => tidy_number n
      have name : Tidy [.word "DECIMAL"] := tidy_word (by decide +kernel)
      exact call name (.inr lengths)
  | _ => exact tidy_word (by decide +kernel)

/-! ## Expressions -/

/-- No other expression than a signed one starts with a sign. -/
theorem Expr.head_pieces {e : Expr} (hlevel : e.level? = none) (hsign : e.isSigned = false) :
    ∀ p ∈ e.pieces.head?, p ≠ .operator .minus := by
  obtain ⟨_, form⟩ := e
  intro p hp
  cases form with
  | column n =>
    obtain ⟨value, first⟩ := n.named.first
    obtain rfl := Option.mem_unique (by simpa [Expr.pieces] using hp) first
    simp
  | call n =>
    obtain ⟨value, first⟩ := n.named.first
    rw [Expr.pieces, List.head?_append_of_ne_nil _ n.named.tidy.ne_nil] at hp
    obtain rfl := Option.mem_unique hp first
    simp
  | literal v =>
    obtain rfl := Option.mem_some_iff.1 (show p ∈ some v.piece by simpa [Expr.pieces] using hp)
    cases v with
    | boolean b => cases b <;> simp [Literal.piece]
    | _ => simp [Literal.piece]
  | unary op =>
    cases op with
    | not =>
      obtain rfl := Option.mem_some_iff.1 hp
      simp [UnaryOperator.piece]
    | minus | plus => cases hsign
  | case | cast | existsQuery | subquery | nested =>
    obtain rfl := Option.mem_some_iff.1 hp
    simp
  | _ => cases hlevel

theorem Expr.tidy_unary {s : Span} {op : UnaryOperator} {e : Expr}
    (h : Expr.WellFormed ⟨s, .unary op e⟩) (he : Tidy e.pieces) :
    Tidy (Expr.pieces ⟨s, .unary op e⟩) := by
  have signed : ∀ o : Operator, o = .minus ∨ o = .plus → e.level? = none →
      Tidy (.operator o :: (if e.isSigned then [.space] else []) ++ e.pieces) := by
    intro o ho hlevel
    have sign : Tidy [.operator o] := Tidy.piece nofun trivial
    cases hsign : e.isSigned with
    | true => exact spaced sign he
    | false =>
      refine append sign he fun p hp _ q hq _ => ?_
      obtain rfl := Option.mem_some_iff.1 hp
      have := e.head_pieces hlevel hsign q hq
      rcases ho with rfl | rfl <;>
      · unfold Piece.before
        split <;> simp_all
  cases op with
  | not => exact behind .NOT he
  | minus => exact signed .minus (.inl rfl) h.1
  | plus => exact signed .plus (.inr rfl) h.1

theorem Tidy.piecesBehind {e : Expr} (k : Keyword) (h : Tidy e.pieces) :
    Tidy (e.piecesBehind k) :=
  behind k h

theorem Expr.tidy_call {s : Span} {n : QualifiedName} {distinct : Bool} {arguments : Arguments}
    (h : Expr.WellFormed ⟨s, .call n distinct arguments⟩)
    (items : ∀ i ∈ arguments.items, Tidy i.pieces) :
    Tidy (Expr.pieces ⟨s, .call n distinct arguments⟩) := by
  rw [Expr.pieces]
  refine call n.named.tidy ?_
  cases arguments with
  | star => exact .inr (flagged distinct .DISTINCT (Tidy.piece (by simp) trivial))
  | list es =>
    rw [Arguments.pieces, Expr.piecesOfList_eq]
    by_cases hne : es = []
    · subst hne
      cases distinct with
      | false => exact .inl rfl
      | true => exact absurd rfl (h.2 rfl)
    · exact .inr (flagged distinct .DISTINCT (Tidy.commaSeparated hne items))

theorem Expr.tidy_case {s : Span} {operand otherwise : Option Expr} {branches : List WhenBranch}
    (first : ∀ e ∈ operand, Tidy e.pieces)
    (body : ∀ b ∈ branches, Tidy b.condition.pieces ∧ Tidy b.result.pieces)
    (last : ∀ e ∈ otherwise, Tidy e.pieces) :
    Tidy (Expr.pieces ⟨s, .case operand branches otherwise⟩) := by
  rw [Expr.pieces, Expr.piecesAfter_space, Expr.piecesAfter_keyword, WhenBranch.piecesOfList_eq]
  have opening : Tidy ([.keyword .CASE] ++ clausePieces Expr.pieces operand) :=
    clause (Tidy.keyword _) first
  have branch : ∀ b ∈ branches, Tidy b.pieces := fun b hb =>
    spaced ((body b hb).1.piecesBehind .WHEN) ((body b hb).2.piecesBehind .THEN)
  have whole := spaced (clause (flatMap opening branch) fun e he => (last e he).piecesBehind .ELSE)
    (Tidy.keyword .END)
  simpa using whole

/-! ## Queries -/

theorem QueryBody.tidy : ∀ {b : QueryBody}, (∀ s ∈ b.selects, Tidy s.2.pieces) → Tidy b.pieces
  | .select s, h => h (none, s) (List.mem_singleton_self _)
  | .setOperation _ left op all right, h => by
    rw [selects_setOperation, List.forall_mem_append] at h
    have before : Tidy left.pieces := QueryBody.tidy h.1
    have right : Tidy right.pieces := h.2 _ (List.mem_singleton_self _)
    rw [pieces]
    cases all with
    | false => simpa using spaced before (right.behind op.keyword)
    | true => simpa using spaced before ((right.behind .ALL).behind op.keyword)

theorem OrderItem.tidy {i : OrderItem} (h : Tidy i.expr.pieces) : Tidy i.pieces := by
  rw [OrderItem.pieces_eq]
  refine clause (spaced h (Tidy.keyword _)) fun n _ => ?_
  have nulls : Tidy [.word "NULLS"] := tidy_word (by decide +kernel)
  exact spaced nulls (tidy_word (by cases n <;> decide +kernel))

theorem Query.tidy {q : Query} (h : ∀ o ∈ q.orderBy, o.items ≠ [])
    (selects : ∀ s ∈ q.body.selects, Tidy s.2.pieces)
    (ordered : ∀ o ∈ q.orderBy, ∀ i ∈ o.items, Tidy i.expr.pieces)
    (limited : ∀ l ∈ q.limit, Tidy l.count.pieces ∧ ∀ e ∈ l.offset, Tidy e.pieces) :
    Tidy q.pieces := by
  rw [Query.pieces_eq]
  refine clause (clause (QueryBody.tidy selects) fun o ho => ?_) fun l hl => ?_
  · rw [OrderBy.pieces_eq]
    simpa using spaced (Tidy.keywords .ORDER [.BY])
      (Tidy.commaSeparated (h o ho) fun i hi => OrderItem.tidy (ordered o ho i hi))
  · rw [Limit.pieces_eq]
    exact clause ((limited l hl).1.behind .LIMIT) fun e he => ((limited l hl).2 e he).behind .OFFSET

theorem Select.tidy {s : Select} (h : (Node.select s).WellFormed)
    (items : ∀ i ∈ s.projection, Tidy i.pieces)
    (tables : ∀ f ∈ s.source, ∀ t ∈ f.tables,
      Tidy t.relation.pieces ∧ ∀ j ∈ t.joins, Tidy j.pieces)
    (condition : ∀ e ∈ s.condition, Tidy e.pieces)
    (keys : ∀ g ∈ s.groupBy, ∀ e ∈ g.keys, Tidy e.pieces)
    (having : ∀ e ∈ s.having, Tidy e.pieces) : Tidy s.pieces := by
  obtain ⟨projection, source, groupBy⟩ := h
  rw [Select.pieces_eq]
  have opening := (flagged s.distinct .DISTINCT (Tidy.commaSeparated projection items)).behind
    .SELECT
  refine clause (clause (clause (clause (by simpa using opening) fun f hf => ?_) fun e he =>
    (condition e he).behind .WHERE) fun g hg => ?_) fun e he => (having e he).behind .HAVING
  · exact (Tidy.commaSeparated (source f hf) fun t ht =>
      flatMap (tables f hf t ht).1 (tables f hf t ht).2).behind .FROM
  · rw [GroupBy.pieces_eq]
    simpa using spaced (Tidy.keywords .GROUP [.BY])
      (Tidy.commaSeparated (groupBy g hg) (keys g hg))

theorem Join.tidy {j : Join} (h : j.WellFormed) (relation : Tidy j.relation.pieces)
    (condition : ∀ e, j.condition = .on e → Tidy e.pieces) : Tidy j.pieces := by
  obtain ⟨_, kind, r, c⟩ := j
  rw [pieces]
  have words := spaced (Tidy.keywords kind.keyword [.JOIN]) relation
  cases c with
  | on e => simpa [JoinCondition.pieces] using spaced words ((condition e rfl).behind .ON)
  | shared columns =>
    have := (tidy_columnPieces (h.2 columns rfl)).behind .USING
    simpa [JoinCondition.pieces] using spaced words this
  | none => simpa [JoinCondition.pieces] using words

/-! ## Statements -/

theorem tidy_wherePieces {ps : List Piece} {o : Option Expr} (h : Tidy ps)
    (condition : ∀ e ∈ o, Tidy e.pieces) : Tidy (ps ++ wherePieces o) := by
  rw [wherePieces, Expr.piecesAfter_keyword]
  exact clause h fun e he => (condition e he).piecesBehind .WHERE

theorem ColumnOption.tidy {o : ColumnOption} (h : ∀ e, o = .default e → Tidy e.pieces) :
    Tidy o.pieces := by
  cases o with
  | null | unique => exact Tidy.keyword _
  | notNull | primaryKey => exact Tidy.keywords _ _
  | default e => exact (h e rfl).behind .DEFAULT

theorem ColumnDefinition.tidy {c : ColumnDefinition}
    (h : ∀ e, ColumnOption.default e ∈ c.options → Tidy e.pieces) : Tidy c.pieces := by
  have parts : ∀ ps ∈ c.name.pieces :: c.type.pieces :: c.options.map ColumnOption.pieces,
      Tidy ps := by
    simp only [List.forall_mem_cons, List.forall_mem_map]
    exact ⟨c.name.tidy, c.type.tidy, fun o ho => ColumnOption.tidy fun e he => h e (he ▸ ho)⟩
  have whole := Tidy.spaceSeparated (List.cons_ne_nil _ _) parts
  rwa [List.map_id'] at whole

theorem TableConstraint.tidy {c : TableConstraint} (h : c.columns ≠ []) : Tidy c.pieces := by
  cases c with
  | primaryKey _ columns =>
    have list : Tidy (columnPieces columns) := tidy_columnPieces h
    simpa [TableConstraint.pieces] using spaced (Tidy.keywords .PRIMARY [.KEY]) list
  | unique _ columns => exact (tidy_columnPieces h).behind .UNIQUE

theorem InsertSource.tidy {s : Insert} (h : (Statement.insert s).Complete)
    (below : ∀ c ∈ (Statement.insert s).children, Tidy c.pieces) : Tidy s.source.pieces := by
  obtain ⟨_, _, _, source⟩ := s
  cases source with
  | values rows =>
    simp only [Statement.children, List.forall_mem_map, List.forall_mem_flatten] at below
    exact (Tidy.commaSeparated h.1 fun row hrow => Tidy.parenthesized
      (.inr (Tidy.commaSeparated (h.2 row hrow) (below row hrow)))).behind .VALUES
  | query q => exact below (.query q) (List.mem_singleton_self _)

theorem CreateTable.tidy {s : CreateTable} (h : (Statement.createTable s).Complete)
    (columns : ∀ c ∈ s.columns, Tidy c.pieces) : Tidy s.pieces := by
  have elements : ∀ ps ∈ s.columns.map ColumnDefinition.pieces ++
      s.constraints.map TableConstraint.pieces, Tidy ps := by
    simp only [List.forall_mem_append, List.forall_mem_map]
    exact ⟨columns, fun c hc => TableConstraint.tidy (h.2 c hc)⟩
  have nonempty : s.columns.map ColumnDefinition.pieces ++
      s.constraints.map TableConstraint.pieces ≠ [] := by
    simpa using h.1
  have list := Tidy.commaSeparated nonempty elements
  rw [List.map_id'] at list
  have named := spaced s.name.named.tidy (Tidy.parenthesized (.inr list))
  rw [CreateTable.pieces]
  cases s.ifNotExists with
  | false => simpa using spaced (Tidy.keywords .CREATE [.TABLE]) named
  | true =>
    simpa using spaced (Tidy.keywords .CREATE [.TABLE])
      (spaced (Tidy.keywords .IF [.NOT, .EXISTS]) named)

theorem Alteration.tidy {a : Alteration} (h : ∀ c, a = .addColumn c → Tidy c.pieces) :
    Tidy a.pieces := by
  cases a with
  | addColumn c => simpa [pieces] using spaced (Tidy.keywords .ADD [.COLUMN]) (h c rfl)
  | dropColumn c => simpa [pieces] using spaced (Tidy.keywords .DROP [.COLUMN]) c.tidy
  | renameTable n => simpa [pieces] using spaced (Tidy.keywords .RENAME [.TO]) n.tidy
  | renameColumn old new =>
    simpa [pieces] using
      spaced (Tidy.keywords .RENAME [.COLUMN]) (spaced old.tidy (new.tidy.behind .TO))

theorem Statement.tidy {s : Statement} (h : s.Complete)
    (below : ∀ c ∈ s.children, Tidy c.pieces) : Tidy s.pieces := by
  match s, h, below with
  | .query q, h, below => exact below (.query q) (List.mem_singleton_self _)
  | .insert s, h, below =>
    have source := InsertSource.tidy h below
    rw [Statement.pieces, Insert.pieces]
    have opening := spaced (Tidy.keywords .INSERT [.INTO]) s.table.named.tidy
    cases columns : s.columns with
    | nil => simpa using spaced opening source
    | cons c cs =>
      have list : Tidy (columnPieces (c :: cs)) := tidy_columnPieces (by simp)
      simpa using spaced (spaced opening list) source
  | .update s, h, below =>
    simp only [Statement.children, List.forall_mem_append, List.forall_mem_map,
      Option.mem_toList] at below
    have set : ∀ a ∈ s.assignments, Tidy a.pieces := fun a ha => by
      have equal : Tidy [.operator .equal] := Tidy.piece (by simp) trivial
      have value : Tidy a.value.pieces := below.1 a ha
      simpa [Assignment.pieces] using spaced a.column.tidy (spaced equal value)
    have opening := (s.table.named.tidy.behind .UPDATE).label s.alias?
    have whole := tidy_wherePieces
      (spaced opening ((Tidy.commaSeparated h set).behind .SET)) below.2
    simpa [Statement.pieces, Update.pieces] using whole
  | .delete s, h, below =>
    simp only [Statement.children, List.forall_mem_map, Option.mem_toList] at below
    have opening := (spaced (Tidy.keywords .DELETE [.FROM]) s.table.named.tidy).label s.alias?
    simpa [Statement.pieces, Delete.pieces] using tidy_wherePieces opening below
  | .createTable s, h, below =>
    simp only [Statement.children, List.forall_mem_map] at below
    exact CreateTable.tidy h below
  | .createIndex s, h, _ =>
    have list : Tidy (columnPieces s.columns) := tidy_columnPieces h
    have named := (spaced s.name.tidy ((spaced s.table.named.tidy list).behind .ON)).behind .INDEX
    have whole := (Tidy.flagged s.unique .UNIQUE named).behind .CREATE
    simpa [Statement.pieces, CreateIndex.pieces] using whole
  | .createDatabase s, _, _ =>
    simpa [Statement.pieces, CreateDatabase.pieces] using
      spaced (Tidy.keywords .CREATE [.DATABASE]) s.name.tidy
  | .alterTable s, _, below =>
    have alteration : Tidy s.alteration.pieces := Alteration.tidy fun c hc =>
      below (.column c) (by simp [Statement.children, hc])
    have opening := spaced (Tidy.keywords .ALTER [.TABLE]) s.name.named.tidy
    simpa [Statement.pieces, AlterTable.pieces] using spaced opening alteration
  | .drop s, _, _ =>
    have named := s.name.named.tidy
    rw [Statement.pieces, Drop.pieces]
    cases s.ifExists with
    | false => simpa using spaced (Tidy.keywords .DROP [s.kind.keyword]) named
    | true =>
      simpa using spaced (Tidy.keywords .DROP [s.kind.keyword])
        (spaced (Tidy.keywords .IF [.EXISTS]) named)

theorem Node.tidy_of_children {n : Node} (below : ∀ c ∈ n.children, Tidy c.pieces) :
    n.WellFormed → Tidy n.pieces := by
  refine Node.formCases (P := fun n => Tidy n.pieces) (Q := fun n => n.WellFormed → Tidy n.pieces)
    ?column ?literal ?unary ?binary ?is ?inList ?inQuery ?between ?like ?call ?case ?cast
    ?existsQuery ?subquery ?nested ?query ?select ?wildcard ?qualifiedWildcard ?selected ?table
    ?derived ?join ?columnDefinition ?statement n below
  case column => exact fun s n _ => n.named.tidy
  case literal => exact fun s v h => Literal.tidy h.2
  case unary => exact fun s op e he h => Expr.tidy_unary h he
  case binary =>
    intro s op l r hl hr _
    have operator : Tidy [op.piece] := by
      cases op <;> exact Tidy.piece (by simp [BinaryOperator.piece]) trivial
    have whole := spaced hl (spaced operator hr)
    simpa [pieces, Expr.pieces] using whole
  case is =>
    intro s e negated test he _
    have whole := spaced he (spaced (Tidy.keyword .IS)
      (Tidy.negation negated (Tidy.keyword test.keyword)))
    simpa [pieces, Expr.pieces] using whole
  case inList =>
    intro s e negated items he ih h
    have list := Tidy.parenthesized (.inr (Tidy.commaSeparated h.2 ih))
    have whole := spaced he (Tidy.negation negated (list.behind .IN))
    simpa [pieces, Expr.pieces] using whole
  case inQuery =>
    intro s e negated q he hq _
    have whole := spaced he (Tidy.negation negated
      ((Tidy.parenthesized (.inr hq)).behind .IN))
    simpa [pieces, Expr.pieces] using whole
  case between =>
    intro s e negated low high he hlow hhigh _
    have whole := spaced he (Tidy.negation negated
      ((spaced hlow (hhigh.behind .AND)).behind .BETWEEN))
    simpa [pieces, Expr.pieces] using whole
  case like =>
    intro s e negated pattern he hpattern _
    have whole := spaced he (Tidy.negation negated (hpattern.behind .LIKE))
    simpa [pieces, Expr.pieces] using whole
  case call => exact fun s n distinct arguments ih h => Expr.tidy_call h ih
  case case => exact fun s o bs e first body last _ => Expr.tidy_case (s := s) first body last
  case cast =>
    intro s e type he _
    have inner := spaced he (type.tidy.behind .AS)
    have whole := call (Tidy.keyword .CAST) (.inr inner)
    simpa [pieces, Expr.pieces] using whole
  case existsQuery => exact fun s q hq _ => (Tidy.parenthesized (.inr hq)).behind .EXISTS
  case subquery => exact fun s q hq _ => Tidy.parenthesized (.inr hq)
  case nested => exact fun s e he _ => Tidy.parenthesized (.inr he)
  case query => exact fun q selects ordered limited h => Query.tidy h selects ordered limited
  case select =>
    intro s items tables condition keys having h
    exact Select.tidy h items tables condition keys having
  case wildcard => exact fun s _ => Tidy.piece (by simp) trivial
  case qualifiedWildcard =>
    intro s n _
    have dot : Tidy [.punctuation .dot] := Tidy.piece (by simp) trivial
    have star : Tidy [.operator .times] := Tidy.piece (by simp) trivial
    have behind : Tidy [.punctuation .dot, .operator .times] :=
      append dot star fun p hp _ q hq _ => by
        obtain rfl := Option.mem_some_iff.1 hp
        obtain rfl := Option.mem_some_iff.1 hq
        rfl
    exact n.named.dot behind
  case selected => exact fun s e label he _ => he.label label
  case table => exact fun s n label _ => n.named.tidy.label label
  case derived => exact fun s q label hq _ => (Tidy.parenthesized (.inr hq)).label label
  case join => exact fun s kind r c hr hc h => Join.tidy h hr hc
  case columnDefinition => exact fun c ih _ => ColumnDefinition.tidy ih
  case statement => exact fun s ih h => Statement.tidy h ih

/-- The canonical form of a well-formed tree is tidy. -/
theorem Node.tidy {n : Node} (h : ∀ x ∈ n.preorder, x.WellFormed) : Tidy n.pieces := by
  induction n using Node.induction with
  | step n ih =>
    rw [preorder_eq, List.forall_mem_cons] at h
    refine tidy_of_children (fun c hc => ih c hc fun x hx => h.2 x ?_) h.1
    exact List.mem_flatMap.2 ⟨c, hc, hx⟩

end

/-- The canonical text of a well-formed statement is read back as the tokens of
its canonical form. -/
theorem Statement.ofString_canonical {s : Statement} (h : s.WellFormed) :
    ∃ ts t, TokenStream.ofString s.canonical = ⟨ts ++ [t], none⟩ ∧ t.isEnd ∧
      Spelled s.pieces ts := by
  have tidy : Tidy s.pieces := Node.tidy (n := .statement s) h
  exact TokenStream.readFrom_render tidy.chain tidy.lexical .origin

end SqlSyntax
