import SqlSyntax.Proofs.Parser.Completeness.Statement
import SqlSyntax.Proofs.Parser.Guidance.Statement
import SqlSyntax.Proofs.Parser.Text

/-!
# The alternatives of a syntax error

What a failed parse lists as expected could have stood at the token it failed
at: with some such token there, the tokens before it go on to a statement.

## Main results

* `parseTokens_of_isStatement` — tokens that read as a statement are parsed.
* `wholeStatement_guides` — the parser of whole statements guides through the
  beginnings of what is parsed.
* `parseTokens_expected` — every alternative of a syntax error is possible.
-/

namespace SqlSyntax

open Grammar

/-- The tokens that some list of tokens starts with that is parsed when enough
levels of nesting are allowed. -/
def beginnings : Beginnings where
  holds ts := ∃ rest depth s, parseTokens { maxDepth := depth } (ts ++ rest) = .ok s
  closed := by
    rintro ts us ⟨rest, depth, s, h⟩
    exact ⟨us ++ rest, depth, s, by rwa [← List.append_assoc]⟩

theorem parseTokens_eq_error_iff {limits : Limits} {tokens : List Token} {e : Error} :
    parseTokens limits tokens = .error e ↔
      ∃ s, Parser.wholeStatement limits.maxDepth (.ofStream ⟨tokens, none⟩) = .error e s := by
  show Parser.runOn _ _ = _ ↔ _
  unfold Parser.runOn EStateM.run
  cases Parser.wholeStatement limits.maxDepth (.ofStream ⟨tokens, none⟩) with
  | ok a s => simp
  | error e' s => simp

/-- A statement, perhaps with a semicolon behind it, in front of the end of the
input. -/
theorem parseTokens_of_isStatement {comma : Prop} {limits : Limits} {ts us : List Token}
    {t : Token} {s : Statement} (statement : IsStatement (phrases comma limits.maxDepth) ts s)
    (closing : IsClosing us) (ht : t.isEnd) : parseTokens limits (ts ++ us ++ [t]) = .ok s := by
  obtain ⟨s', hs', -⟩ := Parser.wholeStatement_reads statement closing ht
    (show (ParserState.ofStream ⟨ts ++ us ++ [t], none⟩).tokens = _ from rfl) rfl
    (Token.isEnd_endOf _) nofun
  show Parser.runOn _ _ = _
  unfold Parser.runOn EStateM.run
  rw [hs']

theorem beginnings_of_isStatement {comma : Prop} {depth : Nat} {ts us : List Token}
    {s : Statement} (statement : IsStatement (phrases comma depth) ts s) (closing : IsClosing us)
    {t : Token} (ht : t.isEnd) : beginnings.holds (ts ++ us ++ [t]) :=
  ⟨[], depth, s, by rw [List.append_nil]; exact parseTokens_of_isStatement statement closing ht⟩

namespace Parser

open Expectation

variable {before : List Token} {s : ParserState}

theorem endOfInput_guides {V : Beginnings} (ends : ∀ t : Token, t.isEnd → V.holds (before ++ [t]))
    (ready : Ready V before s) : Guides V before endOfInput s := by
  refine .bindPeek ready ?_
  split
  · exact .pure ready
  · exact .noteFailAt ready (.cons trivial (ends _ rfl) .nil)

theorem wholeStatement_guides (max : Nat) (ready : Ready beginnings [] s) :
    Guides beginnings [] (wholeStatement max) s := by
  have end_ : Expectation.endOfInput.sample.isEnd := rfl
  refine .bindSound ready (statement_sound max) (statement_guides beginnings max
    (fun ts x hx => beginnings.of_prefix (beginnings_of_isStatement hx .none end_) (by simp)) ready)
    fun x s₁ ts _ ready₁ statement => ?_
  have ends : ∀ {us r}, IsClosing us → Ready beginnings ([] ++ ts ++ us) r →
      Guides beginnings ([] ++ ts ++ us) (do endOfInput; return x) r := fun closing ready₂ =>
    .map (endOfInput_guides (fun t ht => beginnings_of_isStatement statement closing ht) ready₂)
  refine .punctuation? ready₁ (fun t kind =>
    beginnings.of_prefix (beginnings_of_isStatement statement (.semicolon kind) end_) (by simp))
    (fun t s₂ kind _ ready₂ => ends (.semicolon kind) ready₂) fun s₂ _ ready₂ => ?_
  have none_ := ends (r := s₂) .none
  rw [List.append_nil] at none_
  exact none_ ready₂

end Parser

/-- A syntax error is raised at the first token that is not consumed, number
`i`. For each alternative that it lists there is a token that the alternative
describes and a continuation, such that the tokens before number `i`, that
token and the continuation are parsed when enough levels of nesting are
allowed. -/
theorem parseTokens_expected {limits : Limits} {tokens : List Token} {e : ParseError}
    (h : parseTokens limits tokens = .error (.parse e)) :
    ∃ (i : Nat) (s : ParserState),
      Parser.wholeStatement limits.maxDepth (.ofStream ⟨tokens, none⟩) = .error (.parse e) s ∧
      s.tokens = tokens.drop i ∧ i ≤ tokens.length ∧
      e.position = (Parser.ahead s).position ∧ e.found = (Parser.ahead s).describe ∧
      ∀ text ∈ e.expected, ∃ (x : Token) (continuation : List Token) (depth : Nat)
        (statement : Statement), Describes text x ∧
          parseTokens { limits with maxDepth := depth } (tokens.take i ++ x :: continuation) =
            .ok statement := by
  obtain ⟨s, hs⟩ := parseTokens_eq_error_iff.1 h
  have guides := Parser.wholeStatement_guides limits.maxDepth
    (s := .ofStream ⟨tokens, none⟩) ⟨Token.isEnd_endOf _, .nil⟩
  unfold Parser.Guides at guides
  rw [hs] at guides
  obtain ⟨ts, consumed, lists⟩ := guides
  have consumed : tokens = ts ++ s.tokens := consumed
  refine ⟨ts.length, s, hs, by rw [consumed]; simp, by rw [consumed]; simp, lists.position,
    lists.found, fun text htext => ?_⟩
  obtain ⟨x, describes, rest, depth, statement, parsed⟩ := lists.expected text htext
  refine ⟨x, rest, depth, statement, describes, ?_⟩
  rw [show tokens.take ts.length = ts by rw [consumed]; simp]
  rw [List.append_assoc] at parsed
  exact parsed

/-- Behind `DELETE` only `FROM` is expected, and `DELETE FROM` goes on to a
statement. -/
theorem expected_of_deletion :
    ∃ e, parseTokens ⟨100, 5⟩ [.sample (.keyword .DELETE) "DELETE"] = .error (.parse e) ∧
      e.expected = ["FROM"] ∧
      ∃ i, ∀ text ∈ e.expected, ∃ x continuation depth statement, Describes text x ∧
        parseTokens ⟨100, depth⟩
          (List.take i [.sample (.keyword .DELETE) "DELETE"] ++ x :: continuation) =
            .ok statement := by
  have refused : (match parseTokens ⟨100, 5⟩ [.sample (.keyword .DELETE) "DELETE"] with
      | .ok _ => []
      | .error e => e.expected) = ["FROM"] := by decide +kernel
  cases h : parseTokens ⟨100, 5⟩ [.sample (.keyword .DELETE) "DELETE"] with
  | ok => simp [h] at refused
  | error e =>
    cases e with
    | parse e =>
      simp only [h, Error.expected] at refused
      obtain ⟨i, -, -, -, -, -, -, alternatives⟩ := parseTokens_expected h
      exact ⟨e, rfl, refused, i, alternatives⟩
    | _ => simp [h, Error.expected] at refused

end SqlSyntax
