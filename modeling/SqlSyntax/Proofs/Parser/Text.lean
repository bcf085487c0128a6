import SqlSyntax.Proofs.Parser.Completeness.Statement
import SqlSyntax.Proofs.Parser.Soundness.Statement
import SqlSyntax.Proofs.Token.Stream

/-!
# Parsing texts

A text is parsed when it is small enough and its tokens are those of a
statement, with a semicolon behind them or not.

## Main results

* `parseStatement_sound` — what a text that is parsed is made of.
* `parseStatement_complete` — a text that is made so is parsed.
-/

namespace SqlSyntax

theorem Parser.runOn_eq_ok {α : Type} {p : Parser α} {s : TokenStream} {a : α} {r : ParserState}
    (h : p (.ofStream s) = .ok a r) : p.runOn s = .ok a := by
  rw [runOn, EStateM.run, h]

theorem Parser.runOn_eq_error {α : Type} {p : Parser α} {s : TokenStream} {e : Error}
    {r : ParserState} (h : p (.ofStream s) = .error e r) : p.runOn s = .error e := by
  rw [runOn, EStateM.run, h]

theorem Parser.runOn_eq_ok_iff {α : Type} {p : Parser α} {s : TokenStream} {a : α} :
    p.runOn s = .ok a ↔ ∃ r, p (.ofStream s) = .ok a r := by
  refine ⟨fun h => ?_, fun ⟨r, h⟩ => runOn_eq_ok h⟩
  cases run : p (.ofStream s) with
  | ok b r =>
    rw [runOn_eq_ok run] at h
    exact ⟨r, by rw [Except.ok.inj h]⟩
  | error e r =>
    rw [runOn_eq_error run] at h
    exact nomatch h

/-- What is parsed is small enough and a success of the parser. -/
theorem Limits.parse_eq_ok_iff {α : Type} {limits : Limits} {sql : String} {p : Parser α} {a : α} :
    (do limits.checkInput sql; p.runOn (.ofString sql)) = .ok a ↔
      sql.utf8ByteSize ≤ limits.maxInputBytes ∧ ∃ r, p (.ofStream (.ofString sql)) = .ok a r := by
  rw [← checkInput_eq_ok_iff, ← Parser.runOn_eq_ok_iff]
  cases limits.checkInput sql with
  | error e => exact ⟨nofun, nofun⟩
  | ok u => exact ⟨fun h => ⟨rfl, h⟩, fun h => h.2⟩

theorem parseStatement_eq_ok_iff {limits : Limits} {sql : String} {s : Statement} :
    parseStatement limits sql = .ok s ↔ sql.utf8ByteSize ≤ limits.maxInputBytes ∧
      ∃ s', Parser.wholeStatement limits.maxDepth (.ofStream (.ofString sql)) = .ok s s' :=
  Limits.parse_eq_ok_iff

/-- A parser that stops before the end of the input has consumed all other tokens
of a text, and no error is behind them. -/
theorem Parser.Consumes.stream_eq {sql : String} {ts : List Token} {s : ParserState}
    (hc : Parser.Consumes (.ofStream (.ofString sql)) ts s) (here : (Parser.ahead s).isEnd)
    (hnone : s.tokens = [] → s.failure = none) :
    ∃ t, TokenStream.ofString sql = ⟨ts ++ [t], none⟩ := by
  have tokens : (TokenStream.ofString sql).tokens = ts ++ s.tokens := hc.tokens
  have failure : s.failure = (TokenStream.ofString sql).failure := hc.failure
  obtain ⟨vs, inner, ⟨e, shape⟩ | ⟨t, ht, shape⟩⟩ :=
    TokenStream.readFrom_shape .origin sql.toList
  · -- Nothing before the error is the end of the input, so the error is raised.
    change TokenStream.ofString sql = _ at shape
    rw [shape] at tokens failure
    unfold Parser.ahead at here
    cases hrest : s.tokens with
    | nil => simp [hnone hrest] at failure
    | cons u rest =>
      simp only [hrest, List.head?_cons, Option.getD_some] at here
      have : u ∈ vs := by
        have tokens : vs = _ := tokens
        rw [tokens, hrest]
        simp
      simp [inner u this] at here
  · change TokenStream.ofString sql = _ at shape
    rw [shape] at tokens
    have tokens : vs ++ [t] = ts ++ s.tokens := tokens
    -- The end of the input is not consumed, and no token before the last is it.
    obtain ⟨u, hu⟩ : ∃ u, s.tokens = [u] := by
      rcases List.eq_nil_or_concat s.tokens with hnil | ⟨rest, u, hrest⟩
      · rw [hnil, List.append_nil] at tokens
        have : t.isEnd = false := hc.inner t (by rw [← tokens]; simp)
        simp [this] at ht
      · rw [List.concat_eq_append] at hrest
        rw [hrest, ← List.append_assoc] at tokens
        obtain ⟨rfl, -⟩ := List.append_inj' tokens rfl
        rcases rest with _ | ⟨v, rest⟩
        · exact ⟨u, hrest⟩
        · have : v.isEnd = false := inner v (by simp)
          simp [Parser.ahead, hrest, this] at here
    rw [hu] at tokens
    exact ⟨t, by rw [shape, (List.append_inj' tokens rfl).1]⟩

/-- A text that is parsed holds the tokens of its statement, perhaps a
semicolon, and the end of the input. -/
theorem parseStatement_sound {limits : Limits} {sql : String} {s : Statement}
    (h : parseStatement limits sql = .ok s) :
    ∃ ts us t, TokenStream.ofString sql = ⟨ts ++ us ++ [t], none⟩ ∧
      Grammar.IsStatement (Grammar.phrases True limits.maxDepth) ts s ∧ Grammar.IsClosing us := by
  obtain ⟨-, s', hs'⟩ := parseStatement_eq_ok_iff.1 h
  obtain ⟨ts, us, hc, statement, closing, here, hnone⟩ :=
    Parser.wholeStatement_sound (Token.isEnd_endOf _) hs'
  obtain ⟨t, stream⟩ := hc.stream_eq here hnone
  exact ⟨ts, us, t, stream, statement, closing⟩

theorem parseStatement_complete {comma : Prop} {limits : Limits} {sql : String} {s : Statement}
    {ts us : List Token} {t : Token} (hsize : sql.utf8ByteSize ≤ limits.maxInputBytes)
    (stream : TokenStream.ofString sql = ⟨ts ++ us ++ [t], none⟩) (ht : t.isEnd)
    (statement : Grammar.IsStatement (Grammar.phrases comma limits.maxDepth) ts s)
    (closing : Grammar.IsClosing us) : parseStatement limits sql = .ok s := by
  have tokens : (ParserState.ofStream (.ofString sql)).tokens = ts ++ us ++ [t] := by
    rw [stream]
    rfl
  have failure : (ParserState.ofStream (.ofString sql)).failure = none := by
    rw [stream]
    rfl
  obtain ⟨s', hs', -⟩ := Parser.wholeStatement_reads statement closing ht tokens failure
    (Token.isEnd_endOf _) nofun
  exact parseStatement_eq_ok_iff.2 ⟨hsize, s', hs'⟩

end SqlSyntax
