import SqlSyntax.Proofs.Analysis.Layout
import SqlSyntax.Proofs.Parser.Division
import SqlSyntax.Proofs.Parser.Ending

/-!
# Parsing a text is parsing its tokens

A parser pulls the tokens of a text one by one and ends with the first error it
meets, its own or the lexer's. Nothing of this shows in the outcome. A text that
can be read as a whole is parsed as its tokens are, and the end of the input
among them matters to the place of errors only. A text that cannot is refused
with the error of the lexer, unless the tokens before it are refused already.

## Main results

* `Tiles.position_lt` — all tokens stand before the error that stopped the lexer.
* `runOn_ended` — tokens are parsed in the same way without the end of the input.
* `runOn_failed` — tokens before an error of the lexer are refused by themselves,
  or the error is met.
* `parseStatement_tokens` — parsing a text is parsing its tokens.
-/

namespace SqlSyntax

/-! ## Tokens and what is behind them -/

/-- All tokens stand before the error that stopped the lexer. -/
theorem Tiles.position_lt {before text : List Char} {items : List (Except LexError Token)}
    (h : Tiles before text items) {e : LexError} (he : .error e ∈ items) :
    byteLength before ≤ e.position.offset ∧
      ∀ t, .ok t ∈ items → t.position.offset < e.position.offset := by
  induction h with
  | @lexeme before gap text rest t items isGap nonempty inner stands tail ih =>
    obtain ⟨behind, others⟩ := ih (by simpa using he)
    have pos := TokenStream.byteLength_pos nonempty
    rw [byteLength_append, byteLength_append] at behind
    have place : t.position.offset = byteLength before + byteLength gap := by
      rw [stands.position, ← byteLength_append]
      rfl
    refine ⟨by omega, fun u hu => ?_⟩
    rcases List.mem_cons.1 hu with same | hu
    · obtain rfl := Except.ok.inj same
      omega
    · exact others u hu
  | ended => simp at he
  | @failed before gap rest c e isGap position =>
    obtain rfl := Except.error.inj (List.mem_singleton.1 he)
    have place : e.position.offset = byteLength before + byteLength gap := by
      rw [position, ← byteLength_append]
      rfl
    exact ⟨by omega, fun t ht => by simp at ht⟩

/-- The end of the input is empty. -/
theorem Tiles.stands_of_isEnd {before text : List Char} {items : List (Except LexError Token)}
    (h : Tiles before text items) {t : Token} (ht : .ok t ∈ items) (isEnd : t.isEnd) :
    ∃ before', t.StandsBehind before' [] := by
  induction h with
  | lexeme isGap nonempty inner stands tail ih =>
    rcases List.mem_cons.1 ht with same | ht
    · obtain rfl := Except.ok.inj same
      simp [inner] at isEnd
    · exact ih ht
  | ended isGap isEnd stands =>
    obtain rfl := Except.ok.inj (List.mem_singleton.1 ht)
    exact ⟨_, stands⟩
  | failed => simp at ht

/-- The end of the input behind some tokens that are no such thing is empty, stands
behind all of them and not behind what else is there. -/
theorem Token.endOf_eq {ts : List Token} {e : Token} (inner : ∀ t ∈ ts, t.isEnd = false)
    (h : Ascending (ts ++ [e])) : ∃ n p, endOf ts = ⟨.endOfInput, "", ⟨n, n⟩, p⟩ ∧
      (∀ t ∈ ts, t.span.stop ≤ n) ∧ n ≤ e.span.stop := by
  rcases List.eq_nil_or_concat ts with rfl | ⟨us, t, rfl⟩
  · exact ⟨0, .origin, rfl, nofun, Nat.zero_le _⟩
  · rw [List.concat_eq_append] at inner h ⊢
    have ends : t.isEnd = false := inner t (by simp)
    obtain ⟨front, -, last⟩ := List.pairwise_append.1 h.stop
    refine ⟨t.span.stop, _, by simp [endOf, endAfter, ends]; rfl, fun u hu => ?_,
      last t (by simp) e (by simp)⟩
    rcases List.mem_append.1 hu with hu | hu
    · exact (List.pairwise_append.1 front).2.2 u hu t (by simp)
    · rw [List.mem_singleton.1 hu]

/-! ## Errors and places -/

/-- The same error at another place. -/
def Error.movedTo (p : Position) : Error → Error
  | .lex e => .lex { e with position := p }
  | .parse e => .parse { e with position := p }
  | .inputTooLarge size max => .inputTooLarge size max
  | .nestingTooDeep max _ => .nestingTooDeep max p

/-- Whether an error is one of the parser at a token. -/
inductive Error.IsAt (t : Token) : Error → Prop where
  | parse (fault : ParseFault) (expected : List String) :
    IsAt t (.parse ⟨fault, t.position, t.describe, expected⟩)
  | nestingTooDeep (max : Nat) : IsAt t (.nestingTooDeep max t.position)

/-- Whether an error is one of the parser and stands before a place. -/
inductive Error.StandsBefore (p : Position) : Error → Prop where
  | parse {e : ParseError} (before : e.position.offset < p.offset) : StandsBefore p (.parse e)
  | nestingTooDeep {max : Nat} {q : Position} (before : q.offset < p.offset) :
    StandsBefore p (.nestingTooDeep max q)

/-- Whether two outcomes are the same but for where an error stands that the first
one has at `p`. -/
inductive SameButAt (p : Position) {α : Type} : Except Error α → Except Error α → Prop where
  | same (outcome : Except Error α) : SameButAt p outcome outcome
  | moved (e : Error) (q : Position) (here : e.position? = some p) :
    SameButAt p (.error e) (.error (e.movedTo q))

namespace Relocation

/-- One token is put in the place of another one with the same meaning, and no
span is longer than what ends at `bound`. -/
def replace (e last : Token) (bound : Nat) (kind : last.kind = e.kind) (text : last.text = e.text)
    (span : last.span = ⟨min e.span.start bound, min e.span.stop bound⟩) : Relocation where
  token t :=
    if t = e then last
    else { t with span := ⟨min t.span.start bound, min t.span.stop bound⟩ }
  start n := min n bound
  stop n := min n bound
  start_mono _ _ h := by simp only; omega
  stop_mono _ _ h := by simp only; omega
  kind_token t := by split <;> simp_all
  map_token t := by split <;> simp_all
  text_token t _ _ := by split <;> simp_all

/-- Tokens that are not among the given ones are put on the next line. -/
def awayFrom (ts : List Token) : Relocation where
  token t :=
    if t ∈ ts then t else { t with position := { t.position with line := t.position.line + 1 } }
  start n := n
  stop n := n
  start_mono := monotone_id
  stop_mono := monotone_id
  kind_token t := by split <;> rfl
  map_token t := by split <;> rfl
  text_token t _ _ := by split <;> rfl

end Relocation

theorem Error.Mirrored.eq_of_none {failure : Option LexError} {e e' : Error}
    (h : e.Mirrored .none failure e') : e' = e := by
  cases h <;> rfl

/-- An error that does not move with the tokens that are not among `ts` is at one of
`ts`. -/
theorem Error.Mirrored.isAt {ts : List Token} {e e' : Error}
    (h : e.Mirrored (.awayFrom ts) none e') (same : e' = e) : ∃ t ∈ ts, e.IsAt t := by
  have among {t : Token} (stays : ((Relocation.awayFrom ts).token t).position = t.position) :
      t ∈ ts := by
    by_contra other
    have line := congrArg Position.line stays
    simp [Relocation.awayFrom, other] at line
  cases h with
  | parse fault t expected =>
    have error := Error.parse.inj same
    exact ⟨t, among (congrArg ParseError.position error), .parse fault expected⟩
  | nestingTooDeep max t =>
    exact ⟨t, among (Error.nestingTooDeep.inj same).2, .nestingTooDeep max⟩

/-- An error that does not move with the tokens that are not among `ts` stands at
one of `ts`. -/
theorem Error.Mirrored.standsBefore {ts : List Token} {e e' : Error} {p : Position}
    (h : e.Mirrored (.awayFrom ts) none e') (same : e' = e)
    (before : ∀ t ∈ ts, t.position.offset < p.offset) : e.StandsBefore p := by
  obtain ⟨t, ht, isAt⟩ := h.isAt same
  cases isAt with
  | parse => exact .parse (before t ht)
  | nestingTooDeep => exact .nestingTooDeep (before t ht)

theorem Relocation.describe_replace {e last : Token} {bound : Nat} {kind : last.kind = e.kind}
    {text : last.text = e.text}
    {span : last.span = ⟨min e.span.start bound, min e.span.stop bound⟩} (t : Token) :
    ((replace e last bound kind text span).token t).describe = t.describe := by
  have same : ((replace e last bound kind text span).token t).text = t.text := by
    simp only [replace]
    split <;> simp_all
  rw [Token.describe, Token.describe, kind_token, same]

/-- An error at a token is the same, or at the token that is replaced. -/
theorem Error.Mirrored.sameButAt {α : Type} {e last : Token} {bound : Nat}
    {kind : last.kind = e.kind} {text : last.text = e.text}
    {span : last.span = ⟨min e.span.start bound, min e.span.stop bound⟩} {err err' : Error}
    (h : err.Mirrored (.replace e last bound kind text span) none err') :
    SameButAt e.position (.error err : Except Error α) (.error err') := by
  have elsewhere (t : Token) (other : t ≠ e) :
      ((Relocation.replace e last bound kind text span).token t).position = t.position := by
    simp [Relocation.replace, other]
  cases h with
  | parse fault t expected =>
    rw [Relocation.describe_replace]
    by_cases here : t = e
    · exact .moved (.parse ⟨fault, t.position, t.describe, expected⟩) _ (by rw [here]; rfl)
    · rw [elsewhere t here]
      exact .same _
  | nestingTooDeep max t =>
    by_cases here : t = e
    · exact .moved (.nestingTooDeep max t.position) _ (by rw [here]; rfl)
    · rw [elsewhere t here]
      exact .same _

namespace Parser

variable {f : Relocation}

theorem ends_of_isEnd {ts : List Token} {e : Token} (tokens : ts.map f.token = ts)
    (last : Token.endOf ts = f.token e) (isEnd : e.isEnd) :
    Ends f none (.ofStream ⟨ts ++ [e], none⟩) (.ofStream ⟨ts, none⟩) := by
  have finish : Token.endOf (ts ++ [e]) = e := by simp [Token.endOf, Token.endAfter, isEnd]
  exact {
    tokens := ⟨ts, tokens.symm, by simp [ParserState.ofStream, finish]⟩
    failure := rfl
    failure' := rfl
    isEnd := Token.isEnd_endOf _
    isEnd' := Token.isEnd_endOf _
    finish := fun _ => by simp [ParserState.ofStream, finish, last]
    last := rfl
    expected := rfl }

theorem ends_of_failure {ts : List Token} (lex : LexError) (tokens : ts.map f.token = ts) :
    Ends f (some lex) (.ofStream ⟨ts, some lex⟩) (.ofStream ⟨ts, none⟩) where
  tokens := ⟨ts, tokens.symm, by simp [ParserState.ofStream]⟩
  failure := rfl
  failure' := rfl
  isEnd := Token.isEnd_endOf _
  isEnd' := Token.isEnd_endOf _
  finish := nofun
  last := rfl
  expected := rfl

/-- Tokens before an error of the lexer are no statement. -/
theorem wholeStatement_ne_ok_of_failure {max : Nat} {sql : String} {ts : List Token}
    {lex : LexError} {x : Statement} {r : ParserState}
    (stream : TokenStream.ofString sql = ⟨ts, some lex⟩) :
    wholeStatement max (.ofStream ⟨ts, some lex⟩) ≠ .ok x r := by
  intro run
  rw [← stream] at run
  obtain ⟨us, vs, hc, -, -, here, hnone⟩ := wholeStatement_sound (Token.isEnd_endOf _) run
  obtain ⟨t, ended⟩ := hc.stream_eq here hnone
  cases stream.symm.trans ended

/-- Tokens before an error of the lexer are refused by themselves, or the error is
met. -/
theorem runOn_failed (max : Nat) {sql : String} {ts : List Token} {lex : LexError}
    (stream : TokenStream.ofString sql = ⟨ts, some lex⟩) :
    (wholeStatement max).runOn ⟨ts, some lex⟩ = .error (.lex lex) ∨
      ∃ e, (wholeStatement max).runOn ⟨ts, some lex⟩ = .error e ∧ e.StandsBefore lex.position ∧
        (wholeStatement max).runOn ⟨ts, none⟩ = .error e := by
  have before : ∀ t ∈ ts, t.position.offset < lex.position.offset := by
    have tiles := TokenStream.ofString_tiles sql
    rw [stream] at tiles
    intro t ht
    exact (tiles.position_lt (by simp [TokenStream.items])).2 t (by simp [TokenStream.items, ht])
  have here := wholeStatement_agrees .none (some lex) max
    (ends_of_failure lex (Grammar.map_none ts))
  have away : ts.map (Relocation.awayFrom ts).token = ts :=
    (List.map_congr_left fun t ht => by simp [Relocation.awayFrom, ht]).trans (List.map_id ts)
  have there := wholeStatement_agrees _ (some lex) max (ends_of_failure lex away)
  cases run : wholeStatement max (.ofStream ⟨ts, some lex⟩) with
  | ok x r => exact absurd run (wholeStatement_ne_ok_of_failure stream)
  | error e r =>
    rw [runOn_eq_error run]
    rw [run] at here there
    rcases here.of_error with ⟨l, same, rfl⟩ | ⟨e', r', run', mirrored⟩
    · exact .inl (by rw [Option.some.inj same])
    · rcases there.of_error with ⟨l, same, rfl⟩ | ⟨e'', r'', run'', mirrored'⟩
      · exact .inl (by rw [Option.some.inj same])
      · obtain ⟨rfl, -⟩ := EStateM.Result.error.inj (run'.symm.trans run'')
        have same := mirrored.eq_of_none
        exact .inr ⟨e, rfl, mirrored'.standsBefore same before, by rw [runOn_eq_error run', same]⟩

/-- The end of the input that is made up for the tokens of a text takes the place
of the one that was read. -/
theorem exists_replace {sql : String} {ts : List Token} {e : Token}
    (stream : TokenStream.ofString sql = ⟨ts ++ [e], none⟩) :
    ∃ f : Relocation, Token.endOf ts = f.token e ∧ ts.map f.token = ts ∧
      ∀ {α : Type} {err err' : Error}, err.Mirrored f none err' →
        SameButAt e.position (.error err : Except Error α) (.error err') := by
  obtain ⟨inner, isEnd⟩ := TokenStream.isEnd_of_eq stream
  have tiles := TokenStream.ofString_tiles sql
  rw [stream, TokenStream.items, Option.toList_none, List.map_nil, List.append_nil] at tiles
  obtain ⟨before, stands⟩ := tiles.stands_of_isEnd (t := e) (by simp) isEnd
  obtain ⟨ascending, ordered⟩ := tiles.ascending
  obtain ⟨n, p, finish, within, beyond⟩ := Token.endOf_eq inner ascending
  have text : e.text = "" := String.toList_eq_nil_iff.1 stands.text
  have empty : e.span.start = e.span.stop := by rw [stands.span, List.append_nil]
  refine ⟨.replace e (Token.endOf ts) n ?_ ?_ ?_, ?_, ?_, fun h => h.sameButAt⟩
  · rw [finish, (Token.isEnd_iff e).1 isEnd]
  · rw [finish, text]
  · rw [finish, empty, Nat.min_eq_right beyond]
  · simp [Relocation.replace]
  · refine (List.map_congr_left fun t ht => ?_).trans (List.map_id ts)
    have other : t ≠ e := fun same => by simp [← same, inner t ht] at isEnd
    have stop := within t ht
    have start := (ordered t (List.mem_append_left _ ht)).2
    have span : (⟨min t.span.start n, min t.span.stop n⟩ : Span) = t.span := by
      rw [Nat.min_eq_left stop, Nat.min_eq_left (Nat.le_trans start stop)]
    simp [Relocation.replace, other, span]

/-- A statement stays where it is when the tokens that it is parsed from do. -/
theorem mapSpans_of_tokens {f : Relocation} {max : Nat} {sql : String} {ts : List Token}
    {e : Token} {x : Statement} {r : ParserState}
    (stream : TokenStream.ofString sql = ⟨ts ++ [e], none⟩) (tokens : ts.map f.token = ts)
    (run : wholeStatement max (.ofStream ⟨ts ++ [e], none⟩) = .ok x r) :
    x.mapSpans f.span = x := by
  rw [← stream] at run
  obtain ⟨us, vs, hc, statement, -, here, hnone⟩ := wholeStatement_sound (Token.isEnd_endOf _) run
  obtain ⟨t, stream'⟩ := hc.stream_eq here hnone
  have same : ts ++ [e] = us ++ vs ++ [t] := (TokenStream.mk.inj (stream.symm.trans stream')).1
  rw [(List.append_inj' same rfl).1, List.map_append] at tokens
  have moved := Grammar.statement_relocate f statement
  rw [(List.append_inj tokens (by simp)).1] at moved
  exact moved.unique statement

/-- Tokens are parsed in the same way without the end of the input. -/
theorem runOn_ended (max : Nat) {sql : String} {ts : List Token} {e : Token}
    (stream : TokenStream.ofString sql = ⟨ts ++ [e], none⟩) :
    SameButAt e.position ((wholeStatement max).runOn ⟨ts ++ [e], none⟩)
      ((wholeStatement max).runOn ⟨ts, none⟩) := by
  obtain ⟨f, replaced, tokens, mirrored⟩ := exists_replace stream
  have agrees := wholeStatement_agrees f none max
    (ends_of_isEnd tokens replaced (TokenStream.isEnd_of_eq stream).2)
  cases run : wholeStatement max (.ofStream ⟨ts ++ [e], none⟩) with
  | ok x r =>
    rw [run] at agrees
    obtain ⟨r', run'⟩ := agrees.of_ok
    rw [runOn_eq_ok run, runOn_eq_ok run', mapSpans_of_tokens stream tokens run]
    exact .same _
  | error err r =>
    rw [run] at agrees
    rcases agrees.of_error with ⟨l, absent, -⟩ | ⟨err', r', run', h⟩
    · cases absent
    · rw [runOn_eq_error run, runOn_eq_error run']
      exact mirrored h

end Parser

/-- Parsing a text is parsing its tokens. -/
theorem parseStatement_tokens {limits : Limits} {sql : String}
    (small : sql.utf8ByteSize ≤ limits.maxInputBytes) :
    (∃ ts e, tokenize sql = .ok (ts ++ [e]) ∧ e.isEnd ∧
      parseStatement limits sql = parseTokens limits (ts ++ [e]) ∧
      SameButAt e.position (parseTokens limits (ts ++ [e])) (parseTokens limits ts)) ∨
    ∃ ts lex, TokenStream.ofString sql = ⟨ts, some lex⟩ ∧ tokenize sql = .error (.lex lex) ∧
      (parseStatement limits sql = .error (.lex lex) ∨
        ∃ e, parseStatement limits sql = .error e ∧ e.StandsBefore lex.position ∧
          parseTokens limits ts = .error e) := by
  have parsed : parseStatement limits sql =
      (Parser.wholeStatement limits.maxDepth).runOn (.ofString sql) := by
    rw [parseStatement, Limits.checkInput_eq_ok_iff.2 small]
    rfl
  rw [parsed, tokenize, TokenStream.toExcept]
  obtain ⟨ts, -, ⟨lex, stream⟩ | ⟨e, isEnd, stream⟩⟩ :=
    TokenStream.readFrom_shape .origin sql.toList
  · change TokenStream.ofString sql = _ at stream
    rw [stream]
    exact .inr ⟨ts, lex, rfl, rfl, Parser.runOn_failed limits.maxDepth stream⟩
  · change TokenStream.ofString sql = _ at stream
    rw [stream]
    exact .inl ⟨ts, e, rfl, isEnd, rfl, Parser.runOn_ended limits.maxDepth stream⟩

/-- A selection without items is refused before its string, which is not closed, is
met. -/
theorem refused_before_unclosed : ∃ ts lex e,
    TokenStream.ofString "SELECT FROM 'x" = ⟨ts, some lex⟩ ∧
    parseStatement {} "SELECT FROM 'x" = .error e ∧ e.StandsBefore lex.position ∧
    parseTokens {} ts = .error e := by
  have small : "SELECT FROM 'x".utf8ByteSize ≤ ({} : Limits).maxInputBytes := by decide +kernel
  rcases parseStatement_tokens small with
    ⟨ts, e, read, -⟩ | ⟨ts, lex, stream, -, met | ⟨e, refused, before, alone⟩⟩
  · have unread : (tokenize "SELECT FROM 'x").isOk = false := by decide +kernel
    rw [read] at unread
    cases unread
  · have sooner : (match parseStatement {} "SELECT FROM 'x" with
        | .ok _ => ""
        | .error e => e.kind) = "ParseError" := by decide +kernel
    rw [met] at sooner
    simp [Error.kind] at sooner
  · exact ⟨ts, lex, e, stream, refused, before, alone⟩

end SqlSyntax
