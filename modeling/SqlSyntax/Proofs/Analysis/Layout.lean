import Mathlib.Data.List.Forall2
import Mathlib.Data.List.GetD
import Mathlib.Order.Monotone.Basic
import SqlSyntax.Analysis
import SqlSyntax.Proofs.Parser.Mirror
import SqlSyntax.Proofs.Token.Pieces
import SqlSyntax.Proofs.Validation.Spans

/-!
# Layout

Texts whose tokens have the same meanings differ in white space, comments, the
case of keywords and the spelling of operators. None of this shows in an
analysis but for the places of nodes and warnings, and in an error but for the
place and the spelling of its token.

The tokens of all these texts are those of one list, in which each token stands
at its own number, moved to where they stand in each text. So the parser does
the same on them, token by token. Tokens stand in the order of their numbers, and
so the warnings come in the same order.

## Main results

* `Tiles.ascending` — the tokens of a text stand in their order.
* `state_onto` — the tokens of a text are numbered tokens elsewhere.
* `analyze_layout` — analyses of texts whose tokens have the same meanings.
-/

namespace SqlSyntax

/-! ## Tokens with the same meaning -/

/-- Whether the kind of a token is all its meaning, so that its text is one of
several spellings. -/
def Token.hasSpellings (t : Token) : Bool :=
  match t.kind with
  | .keyword _ | .operator _ => true
  | _ => false

/-- Whether two tokens have the same kind and, where that is not all, the same
text. -/
structure Token.SameMeaning (t u : Token) : Prop where
  kind : u.kind = t.kind
  text : t.hasSpellings = false → u.text = t.text

theorem Token.hasSpellings_eq_false {t : Token} (hk : ∀ k, t.kind ≠ .keyword k)
    (ho : ∀ o, t.kind ≠ .operator o) : t.hasSpellings = false := by
  unfold hasSpellings
  split
  · exact absurd ‹_› (hk _)
  · exact absurd ‹_› (ho _)
  · rfl

theorem Token.SameMeaning.refl (t : Token) : t.SameMeaning t := ⟨rfl, fun _ => rfl⟩

instance (t u : Token) : Decidable (t.SameMeaning u) :=
  decidable_of_iff (u.kind = t.kind ∧ (t.hasSpellings = false → u.text = t.text))
    ⟨fun h => ⟨h.1, h.2⟩, fun h => ⟨h.kind, h.text⟩⟩

/-! ## Tokens in order -/

/-- Whether tokens start one behind the other and end in the same order. -/
structure Ascending (ts : List Token) : Prop where
  start : ts.Pairwise fun t u => t.span.start < u.span.start
  stop : ts.Pairwise fun t u => t.span.stop ≤ u.span.stop

/-- The tokens of a text stand in their order. -/
theorem Tiles.ascending {before text : List Char} {ts : List Token}
    (h : Tiles before text (ts.map .ok)) : Ascending ts ∧
      ∀ t ∈ ts, byteLength before ≤ t.span.start ∧ t.span.start ≤ t.span.stop := by
  generalize items : ts.map Except.ok = is at h
  induction h generalizing ts with
  | @lexeme before gap text rest t is isGap nonempty inner stands tail ih =>
    obtain ⟨u, ts, rfl, first, rest⟩ := List.map_eq_cons_iff.1 items
    obtain rfl := Except.ok.inj first
    obtain ⟨ascending, behind⟩ := ih rest
    have pos := TokenStream.byteLength_pos nonempty
    have bytes : byteLength (before ++ gap ++ text) =
        byteLength before + byteLength gap + byteLength text := by
      rw [byteLength_append, byteLength_append]
    have start : u.span.start = byteLength before + byteLength gap := by
      rw [stands.span, ← byteLength_append]
    have stop : u.span.stop = byteLength before + byteLength gap + byteLength text := by
      rw [stands.span, ← bytes]
    rw [bytes] at behind
    refine ⟨⟨List.pairwise_cons.2 ⟨fun v hv => ?_, ascending.start⟩,
      List.pairwise_cons.2 ⟨fun v hv => ?_, ascending.stop⟩⟩, List.forall_mem_cons.2 ⟨?_, ?_⟩⟩
    · have := behind v hv
      omega
    · have := behind v hv
      omega
    · omega
    · intro v hv
      have := behind v hv
      omega
  | @ended before gap t isGap isEnd stands =>
    obtain ⟨u, ts, rfl, first, rest⟩ := List.map_eq_cons_iff.1 items
    obtain rfl := Except.ok.inj first
    obtain rfl := List.map_eq_nil_iff.1 rest
    refine ⟨⟨List.pairwise_singleton .., List.pairwise_singleton ..⟩, fun v hv => ?_⟩
    obtain rfl := List.mem_singleton.1 hv
    rw [stands.span, List.append_nil, byteLength_append]
    simp only
    omega
  | failed =>
    obtain ⟨_, _, rfl, first, -⟩ := List.map_eq_cons_iff.1 items
    cases first

theorem TokenStream.ascending_ofString {sql : String} {ts : List Token}
    (h : ofString sql = ⟨ts, none⟩) : Ascending ts := by
  have tiles : Tiles [] sql.toList (ofString sql).items := readFrom_tiles [] sql.toList
  rw [h, items, Option.toList_none, List.map_nil, List.append_nil] at tiles
  exact tiles.ascending.1

/-! ## Numbered tokens -/

/-- The token that stands at its own number. -/
def Token.numbered (i : Nat) (t : Token) : Token := ⟨t.kind, t.text, ⟨i, i⟩, ⟨i, i, i⟩⟩

namespace Relocation

/-- The token with a given number, of `ts` and `last` behind them, stays `last`
from there on. -/
def startOf (ts : List Token) (last : Token) (i : Nat) : Nat :=
  (ts.getD i last).span.start + (i - ts.length)

theorem getD_eq_getElem_append {ts : List Token} {last : Token} {i : Nat}
    (hi : i < (ts ++ [last]).length) : ts.getD i last = (ts ++ [last])[i] := by
  rw [List.getElem_append]
  split
  · exact List.getD_eq_getElem _ _ ‹_›
  · rw [List.getD_eq_default _ _ (by omega)]
    simp

theorem getElem?_min (ts : List Token) (last : Token) (i : Nat) :
    (ts ++ [last])[min i ts.length]? = some (ts.getD i last) := by
  rcases Nat.lt_or_ge i ts.length with hi | hi
  · rw [Nat.min_eq_left (Nat.le_of_lt hi), List.getElem?_append_left hi,
      List.getElem?_eq_getElem hi, List.getD_eq_getElem _ _ hi]
  · rw [Nat.min_eq_right hi, List.getD_eq_default _ _ hi]
    simp

section

variable {ts : List Token} {last : Token} (h : Ascending (ts ++ [last]))

include h

/-- A number and the next are those of two tokens, or only `last` is left. -/
theorem getD_next (i : Nat) :
    ((ts.getD i last).span.start < (ts.getD (i + 1) last).span.start ∧ i < ts.length ∨
      ts.getD i last = ts.getD (i + 1) last ∧ ts.length ≤ i) ∧
    (ts.getD i last).span.stop ≤ (ts.getD (i + 1) last).span.stop := by
  by_cases hi : i < ts.length
  · have hi' : i < (ts ++ [last]).length := by simp; omega
    have hnext : i + 1 < (ts ++ [last]).length := by simp; omega
    rw [getD_eq_getElem_append hi', getD_eq_getElem_append hnext]
    exact ⟨.inl ⟨List.pairwise_iff_getElem.1 h.start i (i + 1) hi' hnext (Nat.lt_succ_self i), hi⟩,
      List.pairwise_iff_getElem.1 h.stop i (i + 1) hi' hnext (Nat.lt_succ_self i)⟩
  · rw [List.getD_eq_default _ _ (by omega), List.getD_eq_default _ _ (by omega)]
    exact ⟨.inr ⟨rfl, by omega⟩, Nat.le_refl _⟩

theorem startOf_strictMono : StrictMono (startOf ts last) := by
  refine strictMono_nat_of_lt_succ fun i => ?_
  unfold startOf
  rcases (getD_next h i).1 with ⟨behind, hi⟩ | ⟨same, hi⟩
  · omega
  · rw [same]
    omega

theorem stop_getD_mono : Monotone fun i => (ts.getD i last).span.stop :=
  monotone_nat_of_le_succ fun i => (getD_next h i).2

end

/-- Numbered tokens, moved to the tokens of a text. -/
def onto (ts : List Token) (last : Token) (h : Ascending (ts ++ [last])) : Relocation where
  token t :=
    let u := ts.getD t.position.offset last
    ⟨t.kind, if t.hasSpellings then u.text else t.text,
      ⟨startOf ts last t.span.start, (ts.getD t.span.stop last).span.stop⟩, u.position⟩
  start := startOf ts last
  stop i := (ts.getD i last).span.stop
  start_mono := (startOf_strictMono h).monotone
  stop_mono := stop_getD_mono h
  kind_token _ := rfl
  map_token _ := rfl
  text_token _ hk ho := by simp [Token.hasSpellings_eq_false hk ho]

/-- The starts of spans keep their order, even if they are not those of tokens. -/
theorem start_onto_le_iff {ts : List Token} {last : Token} (h : Ascending (ts ++ [last]))
    (a b : Span) : a.start ≤ b.start ↔
      ((onto ts last h).span a).start ≤ ((onto ts last h).span b).start :=
  (startOf_strictMono h).le_iff_le.symm

theorem token_onto {ts : List Token} {last t : Token} (h : Ascending (ts ++ [last])) {i : Nat}
    (hi : i ≤ ts.length) (same : t.SameMeaning (ts.getD i last)) :
    (onto ts last h).token (t.numbered i) = ts.getD i last := by
  have text : (if t.hasSpellings then (ts.getD i last).text else t.text) =
      (ts.getD i last).text := by
    split
    · rfl
    · exact (same.text (Bool.eq_false_iff.2 ‹_›)).symm
  have start : startOf ts last i = (ts.getD i last).span.start := by
    rw [startOf, Nat.sub_eq_zero_of_le hi, Nat.add_zero]
  show Token.mk t.kind _ ⟨startOf ts last i, _⟩ _ = _
  rw [← same.kind, start]
  exact congrArg (fun text => Token.mk _ text _ _) text

end Relocation

theorem Token.endOf_append {ts : List Token} {t : Token} (isEnd : t.isEnd) :
    endOf (ts ++ [t]) = t := by
  have last : (ts ++ [t]).getLast? = some t := by simp
  rw [endOf, last]
  simp [endAfter, isEnd]

/-- The tokens of a stream, numbered, and no error behind them. -/
def ParserState.numbered (ts : List Token) (last : Token) : ParserState :=
  ⟨(ts ++ [last]).mapIdx Token.numbered, none, last.numbered ts.length, none, []⟩

/-- The tokens of a text are the numbered tokens of any with the same meanings. -/
theorem state_onto {ts us : List Token} {t u : Token}
    (same : List.Forall₂ Token.SameMeaning (ts ++ [t]) (us ++ [u])) (h : Ascending (us ++ [u]))
    (isEnd : u.isEnd) : (Relocation.onto us u h).state (.numbered ts t) =
      .ofStream ⟨us ++ [u], none⟩ := by
  obtain ⟨length, each⟩ := List.forall₂_iff_get.1 same
  have hlength : ts.length = us.length := by simpa using length
  have token (i : Nat) (hi : i < (ts ++ [t]).length) (hi' : i < (us ++ [u]).length) :
      (Relocation.onto us u h).token (((ts ++ [t])[i]).numbered i) = (us ++ [u])[i] := by
    have meaning : ((ts ++ [t])[i]).SameMeaning ((us ++ [u])[i]) := each i hi hi'
    rw [← Relocation.getD_eq_getElem_append hi'] at meaning ⊢
    exact Relocation.token_onto h (by simp at hi'; omega) meaning
  have tokens : ((ts ++ [t]).mapIdx Token.numbered).map (Relocation.onto us u h).token =
      us ++ [u] := by
    refine List.ext_getElem (by simp [hlength]) fun i hi hi' => ?_
    rw [List.getElem_map, List.getElem_mapIdx]
    exact token i (by simpa using hi) hi'
  have finish : (Relocation.onto us u h).token (t.numbered ts.length) =
      Token.endOf (us ++ [u]) := by
    have last := token ts.length (by simp) (by simp [hlength])
    rw [Token.endOf_append isEnd]
    simpa [hlength] using last
  simp only [Relocation.state, ParserState.numbered, ParserState.ofStream, tokens, finish,
    Option.map_none]

/-! ## Trees up to spans -/

/-- Forgets places, and spellings. -/
def Relocation.erasing : Relocation where
  token t := ⟨t.kind, if t.hasSpellings then "" else t.text, ⟨0, 0⟩, .origin⟩
  start _ := 0
  stop _ := 0
  start_mono := monotone_const
  stop_mono := monotone_const
  kind_token _ := rfl
  map_token _ := rfl
  text_token _ hk ho := by simp [Token.hasSpellings_eq_false hk ho]

theorem Token.SameMeaning.token_erasing {t u : Token} (h : t.SameMeaning u) :
    Relocation.erasing.token u = Relocation.erasing.token t := by
  have spellings : u.hasSpellings = t.hasSpellings := by
    unfold hasSpellings
    rw [h.kind]
  have text : (if t.hasSpellings then "" else u.text) = if t.hasSpellings then "" else t.text := by
    split
    · rfl
    · exact h.text (Bool.eq_false_iff.2 ‹_›)
  show Token.mk u.kind (if u.hasSpellings then "" else u.text) _ _ = _
  rw [h.kind, spellings, text]
  rfl

/-- Tokens with the same meanings give trees that are equal up to spans. -/
theorem unplaced_eq_of_sameMeaning {max : Nat} {ts us : List Token} {t u : Token} {a b : Statement}
    {s s' : ParserState} (same : List.Forall₂ Token.SameMeaning (ts ++ [t]) (us ++ [u]))
    (isEnd : t.isEnd) (isEnd' : u.isEnd)
    (ha : Parser.wholeStatement max (.ofStream ⟨ts ++ [t], none⟩) = .ok a s)
    (hb : Parser.wholeStatement max (.ofStream ⟨us ++ [u], none⟩) = .ok b s') :
    a.unplaced = b.unplaced := by
  have tokens : (us ++ [u]).map Relocation.erasing.token =
      (ts ++ [t]).map Relocation.erasing.token := by
    generalize ts ++ [t] = vs at same
    generalize us ++ [u] = ws at same
    induction same with
    | nil => rfl
    | cons h _ ih => rw [List.map_cons, List.map_cons, h.token_erasing, ih]
  have last : Relocation.erasing.token u = Relocation.erasing.token t := by
    rw [List.map_append, List.map_append] at tokens
    exact List.singleton_inj.1 (List.append_inj' tokens rfl).2
  have state : Relocation.erasing.state (.ofStream ⟨us ++ [u], none⟩) =
      Relocation.erasing.state (.ofStream ⟨ts ++ [t], none⟩) := by
    simp only [Relocation.state, ParserState.ofStream, tokens, Token.endOf_append isEnd,
      Token.endOf_append isEnd', last]
  have run := (Parser.wholeStatement_mirrors .erasing max).ok ha
  have run' := (Parser.wholeStatement_mirrors .erasing max).ok hb
  rw [state, run] at run'
  exact (EStateM.Result.ok.inj run').1

/-! ## Analyses -/

/-- Whether two analyses are the same but for places. -/
structure Analysis.SameButPlaced (a b : Analysis) : Prop where
  statement : a.statement.unplaced = b.statement.unplaced
  canonical : a.canonical = b.canonical
  document : a.statement.document false = b.statement.document false
  warnings : a.warnings.map (fun w => (w.code, w.message)) =
    b.warnings.map fun w => (w.code, w.message)

/-- Whether two errors are the same, each at the token with the same number in
its list, but for the place and the spelling of this token. -/
inductive Error.SameAtToken (ts us : List Token) : Error → Error → Prop where
  | parse (fault : ParseFault) (found found' : String) (expected : List String) {i : Nat}
      {t u : Token} (ht : ts[i]? = some t) (hu : us[i]? = some u) :
    SameAtToken ts us (.parse ⟨fault, t.position, found, expected⟩)
      (.parse ⟨fault, u.position, found', expected⟩)
  | nestingTooDeep (max : Nat) {i : Nat} {t u : Token} (ht : ts[i]? = some t)
      (hu : us[i]? = some u) :
    SameAtToken ts us (.nestingTooDeep max t.position) (.nestingTooDeep max u.position)

section

variable {ts us : List Token} {t u : Token}

/-- Errors that mirror one on numbered tokens are at tokens with the same number. -/
theorem Error.sameAtToken_of_mirrored {d e e' : Error} (h : Ascending (ts ++ [t]))
    (h' : Ascending (us ++ [u])) (length : us.length = ts.length)
    (first : d.Mirrored (.onto ts t h) none e) (second : d.Mirrored (.onto us u h') none e') :
    e.SameAtToken (ts ++ [t]) (us ++ [u]) e' := by
  have place (v : Token) : ((Relocation.onto ts t h).token v).position =
      (ts.getD v.position.offset t).position := rfl
  have place' (v : Token) : ((Relocation.onto us u h').token v).position =
      (us.getD v.position.offset u).position := rfl
  have number (i : Nat) := Relocation.getElem?_min ts t i
  have number' (i : Nat) := length ▸ Relocation.getElem?_min us u i
  cases first with
  | parse fault v expected =>
    rw [place]
    generalize v.position = p, v.describe = found at second ⊢
    cases second with
    | parse _ w _ =>
      rw [place']
      exact .parse fault _ _ expected (number _) (number' _)
  | nestingTooDeep max v =>
    rw [place]
    generalize v.position = p at second ⊢
    cases second with
    | nestingTooDeep _ w =>
      rw [place']
      exact .nestingTooDeep max (number _) (number' _)

/-- A statement on numbered tokens is parsed where they stand in a text, or fails
there. -/
theorem runOn_onto (max : Nat) (same : List.Forall₂ Token.SameMeaning (ts ++ [t]) (us ++ [u]))
    (h : Ascending (us ++ [u])) (isEnd : u.isEnd) :
    (∀ s r, Parser.wholeStatement max (.numbered ts t) = .ok s r →
      ∃ r', Parser.wholeStatement max (.ofStream ⟨us ++ [u], none⟩) =
        .ok (s.mapSpans (Relocation.onto us u h).span) r') ∧
    ∀ e r, Parser.wholeStatement max (.numbered ts t) = .error e r →
      ∃ e' r', Parser.wholeStatement max (.ofStream ⟨us ++ [u], none⟩) = .error e' r' ∧
        e.Mirrored (.onto us u h) none e' := by
  have mirrors := Parser.wholeStatement_mirrors (.onto us u h) max
  have state := state_onto same h isEnd
  refine ⟨fun s r hs => ?_, fun e r he => ?_⟩
  · have run := mirrors.ok hs
    rw [state] at run
    exact ⟨_, run⟩
  · obtain ⟨e', run, mirrored⟩ := mirrors.error he
    rw [state] at run
    exact ⟨e', _, run, mirrored⟩

/-- The warnings of a statement on numbered tokens are those where they stand in a
text. -/
theorem Analysis.warnings_onto (o : AnalysisOptions) (h : Ascending (us ++ [u])) (s : Statement) :
    (Analysis.ofStatement o (s.mapSpans (Relocation.onto us u h).span)).warnings.map
      (fun w => (w.code, w.message)) =
    (Analysis.ofStatement o s).warnings.map fun w => (w.code, w.message) := by
  rw [Analysis.ofStatement_mapSpans (Relocation.onto us u h).span_union
    (Relocation.start_onto_le_iff h), Analysis.mapSpans, List.map_map]
  simp [Function.comp_def]

end

theorem analyze_eq {o : AnalysisOptions} {sql : String} {ts : List Token}
    (small : sql.utf8ByteSize ≤ o.limits.maxInputBytes)
    (stream : TokenStream.ofString sql = ⟨ts, none⟩) : analyze o sql =
      ((Parser.wholeStatement o.limits.maxDepth).runOn ⟨ts, none⟩).map (.ofStatement o) := by
  have parsed := parseStatement_eq o.limits.maxInputBytes o.limits.maxDepth sql
  rw [if_neg (by omega), stream] at parsed
  rw [analyze, ← parsed]

/-- Layout does not influence an analysis. Texts whose tokens have the same
meanings are both accepted, with analyses that are the same but for places, or
both refused, with the same error at the same token. -/
theorem analyze_layout {o : AnalysisOptions} {sql sql' : String} {ts us : List Token}
    (small : sql.utf8ByteSize ≤ o.limits.maxInputBytes)
    (small' : sql'.utf8ByteSize ≤ o.limits.maxInputBytes)
    (tokens : tokenize sql = .ok ts) (tokens' : tokenize sql' = .ok us)
    (same : List.Forall₂ Token.SameMeaning ts us) :
    (∃ a b, analyze o sql = .ok a ∧ analyze o sql' = .ok b ∧ a.SameButPlaced b) ∨
      ∃ d e, analyze o sql = .error d ∧ analyze o sql' = .error e ∧ d.SameAtToken ts us e := by
  have stream := TokenStream.ofString_of_tokenize tokens
  have stream' := TokenStream.ofString_of_tokenize tokens'
  rw [analyze_eq small stream, analyze_eq small' stream']
  have ascending := TokenStream.ascending_ofString stream
  have ascending' := TokenStream.ascending_ofString stream'
  obtain ⟨ts, t, rfl, isEnd⟩ := TokenStream.exists_last stream
  obtain ⟨us, u, rfl, isEnd'⟩ := TokenStream.exists_last stream'
  have self : List.Forall₂ Token.SameMeaning (ts ++ [t]) (ts ++ [t]) :=
    List.forall₂_same.2 fun v _ => .refl v
  obtain ⟨ok, error⟩ := runOn_onto o.limits.maxDepth self ascending isEnd
  obtain ⟨ok', error'⟩ := runOn_onto o.limits.maxDepth same ascending' isEnd'
  cases run : Parser.wholeStatement o.limits.maxDepth (.numbered ts t) with
  | ok s r =>
    obtain ⟨r₁, parsed⟩ := ok s r run
    obtain ⟨r₂, parsed'⟩ := ok' s r run
    refine .inl ⟨_, _, by rw [Parser.runOn_eq_ok parsed]; rfl,
      by rw [Parser.runOn_eq_ok parsed']; rfl, ?_⟩
    have unplaced := unplaced_eq_of_sameMeaning same isEnd isEnd' parsed parsed'
    exact {
      statement := unplaced
      canonical := Statement.canonical_eq_of_unplaced_eq unplaced
      document := (Node.statement s).document_mapSpans _ |>.trans
        ((Node.statement s).document_mapSpans _).symm
      warnings := by
        rw [Analysis.warnings_onto, Analysis.warnings_onto] }
  | error e r =>
    obtain ⟨d, r₁, refused, mirrored⟩ := error e r run
    obtain ⟨d', r₂, refused', mirrored'⟩ := error' e r run
    refine .inr ⟨d, d', by rw [Parser.runOn_eq_error refused]; rfl,
      by rw [Parser.runOn_eq_error refused']; rfl, ?_⟩
    exact Error.sameAtToken_of_mirrored ascending ascending' (by simpa using same.length_eq.symm)
      mirrored mirrored'

/-- A selection that is written in two ways. -/
theorem layout_of_selection : ∃ a b,
    analyze {} "select *, x.b from t, t where sum(a) != 1 group by c" = .ok a ∧
    analyze {} "SELECT * /* all */,x.b FROM t,\n t WHERE sum(a)<>1 --\n GROUP BY c" = .ok b ∧
    a.SameButPlaced b := by
  have same : ((tokenize "select *, x.b from t, t where sum(a) != 1 group by c").toOption.any
      fun ts => (tokenize
        "SELECT * /* all */,x.b FROM t,\n t WHERE sum(a)<>1 --\n GROUP BY c").toOption.any
      fun us => List.Forall₂ Token.SameMeaning ts us) = true := by decide +kernel
  have parsed : (parseStatement {}
      "select *, x.b from t, t where sum(a) != 1 group by c").isOk := by decide +kernel
  cases tokens : tokenize "select *, x.b from t, t where sum(a) != 1 group by c" with
  | error => simp [tokens, Except.toOption] at same
  | ok ts =>
    cases tokens' : tokenize
        "SELECT * /* all */,x.b FROM t,\n t WHERE sum(a)<>1 --\n GROUP BY c" with
    | error => simp [tokens, tokens', Except.toOption] at same
    | ok us =>
      simp only [tokens, tokens', Except.toOption, Option.any_some] at same
      rcases analyze_layout (o := {}) (by decide +kernel) (by decide +kernel) tokens tokens'
        (of_decide_eq_true same) with ⟨a, b, ha, hb, alike⟩ | ⟨d, e, hd, -⟩
      · exact ⟨a, b, ha, hb, alike⟩
      · unfold analyze at hd
        cases h : parseStatement {} "select *, x.b from t, t where sum(a) != 1 group by c" with
        | ok => simp [h, Except.map] at hd
        | error => simp [h, Except.toBool] at parsed

end SqlSyntax
