import SqlSyntax.Proofs.Grammar.Coverage
import SqlSyntax.Proofs.Parser.Text

/-!
# Spans of parsed trees

The spans of a tree that is parsed point back into the text: each goes from the
start of a token to the end of one, children stand inside their parents and apart
from each other, and the piece of the text under an expression or a query is one
by itself.

## Main results

* `parseStatement_spans` — every part of a parsed tree has a sound span.
-/

namespace SqlSyntax

open Grammar

/-- A span that is moved from the offset `k` to the offset `n`, with what it is
part of. -/
def Span.shift (k n : Nat) (s : Span) : Span := s.map fun m => m - k + n

/-- The selection of one expression and nothing else. -/
def Statement.selecting (span : Span) (e : Expr) : Statement :=
  .query ⟨span, .select ⟨span, false, [.expr e.span e none], none, none, none, none⟩, none, none⟩

/-- Whether the span of a part is sound for a text. What an expression or a query
covers is one by itself under all limits that are large enough: a query as a
statement, an expression behind `SELECT`. The children of a part start where it
starts or behind, so no span is cut off when it is moved. -/
structure Part.SoundIn (sql : String) (p : Part) : Prop where
  start : ∃ t ∈ (TokenStream.ofString sql).tokens,
    t.isEnd = false ∧ p.span.start = t.span.start
  stop : ∃ t ∈ (TokenStream.ofString sql).tokens, t.isEnd = false ∧ p.span.stop = t.span.stop
  nonempty : p.span.start < p.span.stop
  contains : ∀ c ∈ p.children, p.span.contains c.span
  disjoint : p.children.Pairwise fun c d =>
    c.span.stop ≤ d.span.start ∨ d.span.stop ≤ c.span.start
  query : ∀ q, p = .query q → ∃ n, ∀ limits : Limits, n ≤ limits.maxInputBytes →
    n ≤ limits.maxDepth → parseStatement limits (q.span.slice sql) =
      .ok (.query (q.mapSpans (Span.shift q.span.start 0)))
  expr : ∀ e, p = .expr e → ∃ n, ∀ limits : Limits, n ≤ limits.maxInputBytes →
    n ≤ limits.maxDepth → parseStatement limits ("SELECT " ++ e.span.slice sql) =
      .ok (.selecting ⟨0, e.span.length + 7⟩ (e.mapSpans (Span.shift e.span.start 7)))

/-- The tokens of a piece of a text, once the piece stands at `p`. -/
def Relocation.ofPiece (k : Nat) (p : Position) (text : List Char) : Relocation where
  token := TokenStream.moved k p text
  start n := n - k + p.offset
  stop n := n - k + p.offset
  start_mono _ _ h := Nat.add_le_add_right (Nat.sub_le_sub_right h k) _
  stop_mono _ _ h := Nat.add_le_add_right (Nat.sub_le_sub_right h k) _
  kind_token _ := rfl
  map_token _ := rfl
  text_token _ _ _ := rfl

theorem Grammar.Covers.through_eq {ts : List Token} {s : Span} (h : Covers ts s) :
    s.through ts = s := by
  obtain ⟨t, u, -, last, rfl⟩ := h
  simp [Span.through, last]

theorem Span.through_through (s : Span) (ts : List Token) :
    (s.through ts).through ts = s.through ts := by
  cases h : ts.getLast? <;> simp [through, h]

/-- A token and what is behind it. -/
theorem Grammar.Covers.through_cons {ts : List Token} {s : Span} (h : Covers ts s) {t : Token}
    (hle : t.span.stop ≤ s.stop) : t.span.through (t :: ts) = ⟨t.span.start, s.stop⟩ := by
  obtain ⟨_, u, -, last, rfl⟩ := h
  have whole : (t :: ts).getLast? = some u := by rw [List.getLast?_cons, last, Option.getD_some]
  rw [Span.through, whole]
  simp only [Nat.max_eq_left hle]

theorem Grammar.Covers.map {ts : List Token} {s : Span} (h : Covers ts s) (f : Relocation) :
    Covers (ts.map f.token) (f.span s) := by
  obtain ⟨t, u, first, last, rfl⟩ := h
  refine ⟨f.token t, f.token u, by simp [first], by simp [last], ?_⟩
  rw [f.span_token, f.span_token]
  rfl

section

variable {sql : String} {ts us vs : List Token} {t : Token} {e : Option LexError} {s : Span}

/-- The piece of a text that a span covers has the tokens that the span covers. -/
theorem readFrom_piece (h : TokenStream.ofString sql = ⟨ts ++ (us ++ vs), e⟩)
    (inner : ∀ u ∈ ts ++ us, u.isEnd = false) (covers : Covers us s) :
    (∀ c ∈ (s.slice sql).toList.head?, Unicode.isWhiteSpace c = false) ∧
      ∀ p, ∃ end_, end_.isEnd ∧ TokenStream.readFrom p (s.slice sql).toList =
        ⟨us.map (Relocation.ofPiece s.start p (s.slice sql).toList).token ++ [end_], none⟩ := by
  obtain ⟨t, u, first, last, rfl⟩ := covers
  obtain ⟨us, rfl⟩ := List.head?_eq_some_iff.1 first
  obtain ⟨white, -, alone⟩ := TokenStream.ofString_slice h inner (s := ⟨t.span.start, u.span.stop⟩)
    rfl fun v hv => by rw [Option.some.inj (last.symm.trans hv)]
  exact ⟨white, fun p => ⟨_, rfl, alone p⟩⟩

/-- What a query covers is the query by itself. -/
theorem parseStatement_slice_query {q : Query} (h : TokenStream.ofString sql = ⟨ts ++ (us ++ vs), e⟩)
    (inner : ∀ u ∈ ts ++ us, u.isEnd = false) (laid : Laid us (.query q)) :
    ∃ n, ∀ limits : Limits, n ≤ limits.maxInputBytes → n ≤ limits.maxDepth →
      parseStatement limits (q.span.slice sql) =
        .ok (.query (q.mapSpans (Span.shift q.span.start 0))) := by
  obtain ⟨depth, reading⟩ := laid.reading
  obtain ⟨-, alone⟩ := readFrom_piece h inner laid.covers
  obtain ⟨last, isEnd, stream⟩ := alone .origin
  have moved := queries_relocate
    (.ofPiece q.span.start .origin (q.span.slice sql).toList) reading
  refine ⟨max depth (q.span.slice sql).utf8ByteSize, fun limits hbytes hdepth => ?_⟩
  have shape : TokenStream.ofString (q.span.slice sql) = ⟨us.map (Relocation.ofPiece q.span.start
      .origin (q.span.slice sql).toList).token ++ [] ++ [last], none⟩ := by
    rw [List.append_nil]
    exact stream
  have statement : IsStatement (phrases True limits.maxDepth) _ _ :=
    .query (queries_deepen moved (by omega))
  exact parseStatement_complete (by omega) shape isEnd statement .none

/-- An expression behind `SELECT` is a selection. -/
theorem queries_selecting {depth : Nat} {x : Expr} (kind : t.kind = .keyword .SELECT)
    (reading : exprs True depth 0 us x) (covers : Covers us x.span) :
    queries True (depth + 1) (t :: us) ⟨t.span.through (t :: us),
      .select ⟨t.span.through (t :: us), false, [.expr x.span x none], none, none, none, none⟩,
      none, none⟩ := by
  have item : IsSelectItem (phrases True depth) us (.expr x.span x none) := by
    have := IsSelectItem.expr (P := phrases True depth) reading .none
    rwa [List.append_nil, covers.through_eq] at this
  have items : CommaSeparated (IsSelectItem (phrases True depth)) us [.expr x.span x none] := by
    have := Separated.intro (k := .punctuation .comma) item .nil
    rwa [List.append_nil] at this
  have select := IsSelect.intro (P := phrases True depth) kind (.all .absent) items .none .none
    .none .none
  simp only [List.nil_append, List.append_nil] at select
  refine ⟨t :: us, [], _, (List.append_nil _).symm, select, combines_of_tail ?_⟩
  have tail := fun before body => @IsQueryTail.intro (phrases True depth) before body [] [] _ _
    .none .none
  simp only [List.append_nil] at tail
  have whole := tail (t :: us) (.select ⟨t.span.through (t :: us), false,
    [.expr x.span x none], none, none, none, none⟩)
  rwa [QueryBody.span, Span.through_through] at whole

/-- What an expression covers is the expression by itself. -/
theorem parseStatement_slice_expr {x : Expr} (h : TokenStream.ofString sql = ⟨ts ++ (us ++ vs), e⟩)
    (inner : ∀ u ∈ ts ++ us, u.isEnd = false) (laid : Laid us (.expr x)) :
    ∃ n, ∀ limits : Limits, n ≤ limits.maxInputBytes → n ≤ limits.maxDepth →
      parseStatement limits ("SELECT " ++ x.span.slice sql) =
        .ok (.selecting ⟨0, x.span.length + 7⟩ (x.mapSpans (Span.shift x.span.start 7))) := by
  obtain ⟨depth, reading⟩ := laid.reading
  have covers : Covers us x.span := laid.covers
  obtain ⟨white, alone⟩ := readFrom_piece h inner covers
  let p : Position := (Position.origin.advanceAll "SELECT".toList).advance ' '
  let f := Relocation.ofPiece x.span.start p (x.span.slice sql).toList
  let select := TokenStream.tokenAt .origin (.keyword .SELECT) "SELECT".toList
  obtain ⟨last, isEnd, piece⟩ := alone p
  have stream : TokenStream.ofString ("SELECT " ++ x.span.slice sql) =
      ⟨select :: us.map f.token ++ [] ++ [last], none⟩ := by
    have text : ("SELECT " ++ x.span.slice sql).toList =
        "SELECT".toList ++ ' ' :: (x.span.slice sql).toList := by simp
    have word : Lexeme.ReadsAs "SELECT".toList (.keyword .SELECT)
        (' ' :: (x.span.slice sql).toList) :=
      @Lexeme.readsAs_word "SELECT" _ (by decide) (by rintro _ ⟨⟩; decide)
    rw [TokenStream.ofString, text, TokenStream.readFrom_lexeme word,
      TokenStream.readFrom_space white, piece, List.append_nil]
    rfl
  have moved := exprs_relocate f reading
  have covers : Covers (us.map f.token) (x.mapSpans f.span).span := by
    rw [Expr.span_mapSpans]
    exact covers.map f
  have query := queries_selecting (t := select) rfl moved covers
  have span : select.span.through (select :: us.map f.token) = ⟨0, x.span.length + 7⟩ := by
    have place : p.offset = 7 := by decide +kernel
    have behind : (x.mapSpans f.span).span = ⟨x.span.start - x.span.start + p.offset,
        x.span.stop - x.span.start + p.offset⟩ := Expr.span_mapSpans ..
    have word : select.span = ⟨0, 6⟩ := by decide +kernel
    rw [covers.through_cons (by rw [word, behind, place]; simp only; omega), word, behind, place]
    rfl
  rw [span] at query
  refine ⟨max (depth + 1) ("SELECT " ++ x.span.slice sql).utf8ByteSize,
    fun limits hbytes hdepth => ?_⟩
  have statement : IsStatement (phrases True limits.maxDepth) _ _ :=
    .query (queries_deepen query (by omega))
  exact parseStatement_complete (by omega) stream isEnd statement .none

end

/-- In a tree that is parsed, every span starts and ends with a token and is not
empty, children stand inside their parent and apart from each other, and what an
expression or a query covers is parsed by itself to the same tree, moved. -/
theorem parseStatement_spans {limits : Limits} {sql : String} {s : Statement}
    (h : parseStatement limits sql = .ok s) (p : Part) (hp : p.Within s.part) : p.SoundIn sql := by
  obtain ⟨ts, us, last, stream, statement, -⟩ := parseStatement_sound h
  have inner : ∀ t ∈ ts, t.isEnd = false := fun t ht =>
    (TokenStream.isEnd_of_eq stream).1 t (List.mem_append_left _ ht)
  have ordered : Ordered ts := by
    rw [List.append_assoc] at stream
    obtain ⟨_, _, -, -, cut⟩ := TokenStream.readFrom_cut stream inner
    exact cut.ordered
  obtain ⟨vs, ⟨front, behind, rfl⟩, laid⟩ := (statement.laid (phrases_lay _) ordered).within hp
  have inside : Ordered vs := ordered.left.right
  have mem {t : Token} (ht : t ∈ vs) : t ∈ (TokenStream.ofString sql).tokens ∧ t.isEnd = false := by
    refine ⟨?_, inner t (by simp [ht])⟩
    rw [stream]
    simp [ht]
  have split : TokenStream.ofString sql = ⟨front ++ (vs ++ (behind ++ us ++ [last])), none⟩ := by
    rw [stream]
    simp
  have inner' : ∀ t ∈ front ++ vs, t.isEnd = false := fun t ht =>
    inner t (List.mem_append_left _ ht)
  obtain ⟨t, ht, start⟩ := laid.covers.start_mem
  obtain ⟨u, hu, stop⟩ := laid.covers.stop_mem
  exact {
    start := ⟨t, (mem ht).1, (mem ht).2, start⟩
    stop := ⟨u, (mem hu).1, (mem hu).2, stop⟩
    nonempty := laid.nonempty inside
    contains := fun c hc => laid.contains inside hc
    disjoint := laid.disjoint inside
    query := by
      rintro q rfl
      exact parseStatement_slice_query split inner' laid
    expr := by
      rintro x rfl
      exact parseStatement_slice_expr split inner' laid }

/-- A selection with a sum, which is sound in its own text. -/
theorem spans_of_selection :
    ∃ s, parseStatement ⟨100, 10⟩ "SELECT a, b + 1 FROM t" = .ok s ∧
      s.part.SoundIn "SELECT a, b + 1 FROM t" := by
  have parsed : (match parseStatement ⟨100, 10⟩ "SELECT a, b + 1 FROM t" with
      | .ok _ => true
      | .error _ => false) = true := by decide +kernel
  cases h : parseStatement ⟨100, 10⟩ "SELECT a, b + 1 FROM t" with
  | error => simp [h] at parsed
  | ok s => exact ⟨s, rfl, parseStatement_spans h s.part (.refl _)⟩

end SqlSyntax
