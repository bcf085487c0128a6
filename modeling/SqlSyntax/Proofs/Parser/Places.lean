import SqlSyntax.Proofs.Parser.Tokens

/-!
# Where the end of the input is put

Tokens that do not end with the end of the input get one from the parser, which puts it
behind the last of them. It counts the characters of that token from where the token
starts, all on one line, so that a line feed in a string or a quoted identifier is counted
like any other character. The offset is right in any case.

## Main results

* `exists_isAt` — every error of the parser is at one of its tokens or at the end of them.
* `position_endAfter_eq_iff` — the end is put in the right place exactly when the last token
  has no line feed.
* `parseTokens_error_behind` — the same for errors that are reported there.
* `misplaced_end` — so behind a string over two lines an error has the wrong place.
-/

namespace SqlSyntax

/-! ## Places behind a token -/

theorem Position.line_advanceAll (p : Position) (cs : List Char) :
    (p.advanceAll cs).line = p.line + cs.count '\n' := by
  induction cs generalizing p with
  | nil => rfl
  | cons c cs ih =>
    rw [advanceAll_cons, ih, List.count_cons]
    by_cases h : c = '\n'
    · simp [advance, h]
      omega
    · simp [advance, h]

/-- What is read stays on its line exactly when it has no line feed. -/
theorem Position.advanceAll_eq_iff (p : Position) (cs : List Char) :
    p.advanceAll cs = ⟨p.line, p.column + cs.length, p.offset + byteLength cs⟩ ↔ '\n' ∉ cs := by
  constructor
  · intro same
    have line := congrArg Position.line same
    rw [line_advanceAll] at line
    exact List.count_eq_zero.1 (Nat.add_left_cancel line)
  · intro absent
    induction cs generalizing p with
    | nil => rfl
    | cons c cs ih =>
      simp only [List.mem_cons, not_or] at absent
      have head : p.advance c = ⟨p.line, p.column + 1, p.offset + c.utf8Size⟩ := by
        rw [advance, if_neg fun h => absent.1 h.symm]
      rw [advanceAll_cons, ih _ absent.2, head]
      simp only [List.length_cons, byteLength, Position.mk.injEq, true_and]
      omega

section

variable {t : Token} {front : List Char}

theorem Token.position_endAfter (inner : t.isEnd = false) : t.endAfter.position =
    ⟨t.position.line, t.position.column + t.text.length, t.span.stop⟩ := by
  simp [endAfter, inner]

/-- The end of the input behind a token has the right offset, and a line and a column from
where the token starts. -/
theorem position_endAfter_of_stands (inner : t.isEnd = false)
    (h : t.StandsBehind front t.text.toList) : t.endAfter.position =
      ⟨t.position.line, t.position.column + t.text.length,
        (Position.behind (front ++ t.text.toList)).offset⟩ := by
  rw [Token.position_endAfter inner, h.span]
  rfl

/-- The end of the input behind a token is in the right place exactly when the token has no
line feed. -/
theorem position_endAfter_eq_iff (inner : t.isEnd = false)
    (h : t.StandsBehind front t.text.toList) :
    t.endAfter.position = .behind (front ++ t.text.toList) ↔ '\n' ∉ t.text.toList := by
  have stop : t.span.stop = t.position.offset + byteLength t.text.toList := by
    rw [h.span, h.position, byteLength_append]
    rfl
  rw [Token.position_endAfter inner, ← Position.advanceAll_behind, ← h.position, stop,
    ← String.length_toList, eq_comm]
  exact t.position.advanceAll_eq_iff t.text.toList

end

/-- Where the tokens of a text stand in it. -/
theorem Tiles.stands {before text : List Char} {items : List (Except LexError Token)}
    (h : Tiles before text items) {t : Token} (ht : .ok t ∈ items) :
    ∃ front rest, before ++ text = front ++ (t.text.toList ++ rest) ∧
      t.StandsBehind front t.text.toList ∧ (t.isEnd = false → t.text.toList ≠ []) := by
  induction h with
  | @lexeme before gap text rest u items isGap nonempty inner stands tail ih =>
    rcases List.mem_cons.1 ht with same | ht
    · obtain rfl := Except.ok.inj same
      rw [stands.text]
      exact ⟨before ++ gap, rest, by rw [List.append_assoc], stands, fun _ => nonempty⟩
    · obtain ⟨front, rest', whole, stands'⟩ := ih ht
      exact ⟨front, rest', by rw [← whole]; simp, stands'⟩
  | @ended before gap u isGap isEnd stands =>
    obtain rfl := Except.ok.inj (List.mem_singleton.1 ht)
    rw [stands.text]
    exact ⟨before ++ gap, [], by simp, stands, fun inner => by simp [inner] at isEnd⟩
  | failed => simp at ht

/-- The tokens before the last one of a text stand before where it ends. -/
theorem position_lt_stop {sql : String} {ts : List Token} {last eof : Token}
    (stream : TokenStream.ofString sql = ⟨ts ++ [last, eof], none⟩) :
    ∀ t ∈ ts ++ [last], t.position.offset < last.span.stop := by
  have tiles := TokenStream.ofString_tiles sql
  rw [stream, TokenStream.items, Option.toList_none, List.map_nil, List.append_nil] at tiles
  have whole : ts ++ [last, eof] = (ts ++ [last]) ++ [eof] := by simp
  have inner := (TokenStream.isEnd_of_eq (stream.trans (by rw [whole]))).1
  have pos {t : Token} (ht : t ∈ ts ++ [last]) : t.position.offset < t.span.stop := by
    obtain ⟨front, -, -, stands, nonempty⟩ :=
      tiles.stands (List.mem_map_of_mem (whole ▸ List.mem_append_left _ ht))
    have text := TokenStream.byteLength_pos (nonempty (inner t ht))
    rw [stands.span, stands.position, byteLength_append]
    exact Nat.lt_add_of_pos_right text
  have stops := (List.pairwise_append.1 (whole ▸ tiles.ascending.1.stop)).1
  intro t ht
  rcases List.mem_append.1 ht with before | here
  · exact Nat.lt_of_lt_of_le (pos ht) ((List.pairwise_append.1 stops).2.2 t before last (by simp))
  · rw [List.mem_singleton.1 here] at ht ⊢
    exact pos ht

/-! ## Errors behind the last token -/

namespace Parser

/-- Every error of the parser is at one of its tokens or at the end of them. -/
theorem exists_isAt {max : Nat} {s s' : ParserState} {e : Error} (read : s.failure = none)
    (run : wholeStatement max s = .error e s') : ∃ t ∈ s.tokens ++ [s.finish], e.IsAt t := by
  let f : Relocation := .awayFrom (s.tokens ++ [s.finish])
  have fixed : f.state s = s := by
    have stays {t : Token} (ht : t ∈ s.tokens ++ [s.finish]) : f.token t = t := if_pos ht
    have tokens : s.tokens.map f.token = s.tokens :=
      (List.map_congr_left fun t ht => stays (by simp [ht])).trans (List.map_id _)
    have last : s.last.map f.span = s.last := Option.map_id' ..
    rw [Relocation.state, tokens, stays (by simp), last]
  obtain ⟨e', run', mirrored⟩ := (wholeStatement_mirrors f max).error run
  rw [fixed, run] at run'
  rw [read] at mirrored
  exact mirrored.isAt (EStateM.Result.error.inj run').1.symm

end Parser

theorem Error.IsAt.position? {t : Token} {e : Error} (h : e.IsAt t) :
    e.position? = some t.position := by
  cases h <;> rfl

/-- An error behind the last token of a text is at the end of the input that is put there. Its
offset is right, and its line and column are exactly when the last token has no line feed. -/
theorem parseTokens_error_behind {limits : Limits} {sql : String} {ts : List Token}
    {last eof : Token} {e : Error} {p : Position} (read : tokenize sql = .ok (ts ++ [last, eof]))
    (failed : parseTokens limits (ts ++ [last]) = .error e) (place : e.position? = some p)
    (behind : last.span.stop ≤ p.offset) :
    ∃ front rest, sql.toList = front ++ (last.text.toList ++ rest) ∧
      last.position = Position.origin.advanceAll front ∧
      (∀ found, e = .parse found → found.found = "end of input") ∧
      p = ⟨last.position.line, last.position.column + last.text.length,
        (Position.origin.advanceAll (front ++ last.text.toList)).offset⟩ ∧
      (p = Position.origin.advanceAll (front ++ last.text.toList) ↔ '\n' ∉ last.text.toList) := by
  have stream := TokenStream.ofString_of_tokenize read
  have whole : ts ++ [last, eof] = (ts ++ [last]) ++ [eof] := by simp
  have inner := (TokenStream.isEnd_of_eq (stream.trans (by rw [whole]))).1 last (by simp)
  have tiles := TokenStream.ofString_tiles sql
  rw [stream, TokenStream.items, Option.toList_none, List.map_nil, List.append_nil] at tiles
  obtain ⟨front, rest, text, stands, -⟩ := tiles.stands (t := last) (by simp)
  -- No token but the one that is put behind the others stands there.
  have finish : Token.endOf (ts ++ [last]) = last.endAfter := by simp [Token.endOf]
  have isAt : e.IsAt last.endAfter := by
    cases run : Parser.wholeStatement limits.maxDepth (.ofStream ⟨ts ++ [last], none⟩) with
    | ok x r =>
      rw [parseTokens, Parser.runOn_eq_ok run] at failed
      cases failed
    | error e' r =>
      rw [parseTokens, Parser.runOn_eq_error run] at failed
      obtain rfl := Except.error.inj failed
      obtain ⟨t, ht, isAt⟩ := Parser.exists_isAt rfl run
      rcases List.mem_append.1 ht with among | here
      · have before := position_lt_stop stream t among
        rw [isAt.position?, Option.some.injEq] at place
        rw [place] at before
        omega
      · rw [List.mem_singleton.1 here] at isAt
        rwa [← finish]
  obtain rfl : last.endAfter.position = p := Option.some.inj (isAt.position?.symm.trans place)
  refine ⟨front, rest, text, ?_, fun found h => ?_, ?_, ?_⟩
  · rw [stands.position, Position.advanceAll_origin]
  · subst h
    cases isAt with
    | parse =>
      have kind := (Token.isEnd_iff _).1 (finish ▸ Token.isEnd_endOf (ts ++ [last]))
      simp [Token.describe, kind]
  · rw [Position.advanceAll_origin]
    exact position_endAfter_of_stands inner stands
  · rw [Position.advanceAll_origin]
    exact position_endAfter_eq_iff inner stands

/-- Behind a lone `SELECT` the end of the input is in the right place. -/
theorem end_behind_keyword : ∃ last eof e, tokenize "SELECT" = .ok [last, eof] ∧
    parseTokens {} [last] = .error e ∧
    e.position? = some (Position.origin.advanceAll "SELECT".toList) := by
  let last : Token := ⟨.keyword .SELECT, "SELECT", ⟨0, 6⟩, .origin⟩
  let eof : Token := ⟨.endOfInput, "", ⟨6, 6⟩, ⟨1, 7, 6⟩⟩
  have read : tokenize "SELECT" = .ok ([] ++ [last, eof]) := by decide +kernel
  have refused : (match parseTokens {} ([] ++ [last]) with
      | .ok _ => none
      | .error e => e.position?) = some ⟨1, 7, 6⟩ := by decide +kernel
  cases failed : parseTokens {} ([] ++ [last]) with
  | ok s =>
    rw [failed] at refused
    cases refused
  | error e =>
    rw [failed] at refused
    obtain ⟨front, rest, text, -, -, -, same⟩ :=
      parseTokens_error_behind read failed refused (Nat.le_refl 6)
    refine ⟨last, eof, e, read, failed, refused.trans (congrArg some ?_)⟩
    have front : front = [] := by
      have length := congrArg List.length text
      rw [List.length_append, List.length_append] at length
      exact List.length_eq_zero_iff.1 (by simp [last] at length; omega)
    rw [same.2 (by decide), front, List.nil_append]

/-- A string over two lines is the last token before the end of the input: the line and the
column that the end is given are not those of what follows the string. -/
theorem misplaced_end : ∃ ts last eof e,
    tokenize "INSERT INTO t VALUES ('a\nb'" = .ok (ts ++ [last, eof]) ∧
    last.span.stop = "INSERT INTO t VALUES ('a\nb'".utf8ByteSize ∧
    parseTokens {} (ts ++ [last]) = .error e ∧
    e.position? = some ⟨1, 28, 27⟩ ∧
    Position.origin.advanceAll "INSERT INTO t VALUES ('a\nb'".toList = ⟨2, 3, 27⟩ := by
  let token (kind : TokenKind) (text : String) (start : Nat) : Token :=
    ⟨kind, text, ⟨start, start + text.length⟩, ⟨1, start + 1, start⟩⟩
  let ts : List Token := [token (.keyword .INSERT) "INSERT" 0, token (.keyword .INTO) "INTO" 7,
    token (.identifier .bare) "t" 12, token (.keyword .VALUES) "VALUES" 14,
    token (.punctuation .openParen) "(" 21]
  let last : Token := token .string "'a\nb'" 22
  have refused : (match parseTokens {} (ts ++ [last]) with
      | .ok _ => none
      | .error e => e.position?) = some ⟨1, 28, 27⟩ := by decide +kernel
  cases failed : parseTokens {} (ts ++ [last]) with
  | ok s =>
    rw [failed] at refused
    cases refused
  | error e =>
    rw [failed] at refused
    exact ⟨ts, last, ⟨.endOfInput, "", ⟨27, 27⟩, ⟨2, 3, 27⟩⟩, e, by decide +kernel,
      by decide +kernel, failed, refused, by decide +kernel⟩

end SqlSyntax
