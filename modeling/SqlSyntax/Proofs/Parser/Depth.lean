import SqlSyntax.Proofs.Parser.Basic
import SqlSyntax.Proofs.Parser.Parallel.Statement
import SqlSyntax.Proofs.Parser.Text

/-!
# The depth limit

The levels of nesting are no more than a bound. With more of them a parser does
the same, unless it fails for want of levels; and each level that is in use
stands for a token that is consumed, so the levels last as long as the tokens.

Both facts are one relation between two runs, `Outlasts n`: the first run does
what the second does, or it fails for want of levels with at least `n` tokens
left. A token that is consumed lowers both sides of the bound, so what runs
behind it may be given one level less.

## Main results

* `Outlasts.comparison` — parsers outlast each other when their parts do.
* `nested_outlasts` — nested parsers with `n` levels outlast `n` tokens.
* `parseStatement_depth` — what a higher limit changes about a text.
-/

namespace SqlSyntax

/-- Whether an error is that levels of nesting are used up. -/
def Error.IsNesting (e : Error) : Prop := ∃ max p, e = .nestingTooDeep max p

namespace Parser

variable {α β : Type}

/-- Number of tokens that are left, not counting the end of the input. -/
def pending (s : ParserState) : Nat := s.tokens.countP (! ·.isEnd)

theorem Consumes.pending_eq {s s' : ParserState} {ts : List Token} (h : Consumes s ts s') :
    pending s = ts.length + pending s' := by
  have all : ts.countP (! ·.isEnd) = ts.length :=
    List.countP_eq_length.2 fun t ht => by simp [h.inner t ht]
  rw [pending, h.tokens, List.countP_append, all, pending]

theorem bind_eq_error {p : Parser α} {F : α → Parser β} {s s' : ParserState} {e : Error} :
    (p >>= F) s = .error e s' ↔
      p s = .error e s' ∨ ∃ a s₁, p s = .ok a s₁ ∧ F a s₁ = .error e s' := by
  show EStateM.bind p F s = .error e s' ↔ _
  unfold EStateM.bind
  cases p s with
  | ok a s₁ => simp
  | error => simp

/-! ## One state -/

/-- Whether from a state a parser does what another does, unless it fails for
want of levels and at least `n` tokens are left. -/
structure OutlastsAt (n : Nat) (v : α → α) (p q : Parser α) (s : ParserState) : Prop where
  ok : ∀ {a s'}, p s = .ok a s' → q s = .ok (v a) s' ∧ ∃ ts, Consumes s ts s'
  error : ∀ {e s'}, p s = .error e s' →
    q s = .error e s' ∧ ¬ e.IsNesting ∨ e.IsNesting ∧ n ≤ pending s

namespace OutlastsAt

variable {n k : Nat} {v : α → α} {w : β → β} {p q : Parser α} {F G : α → Parser β}
  {s : ParserState}

theorem mono (h : OutlastsAt n v p q s) (hle : k ≤ n) : OutlastsAt k v p q s where
  ok := h.ok
  error he := (h.error he).imp id fun deep => ⟨deep.1, Nat.le_trans hle deep.2⟩

/-- What runs behind consumed tokens may outlast that much less. -/
theorem bind (h : OutlastsAt n v p q s)
    (hF : ∀ {a s' ts}, p s = .ok a s' → Consumes s ts s' →
      ∃ k, n ≤ k + ts.length ∧ OutlastsAt k w (F a) (G (v a)) s') :
    OutlastsAt n w (p >>= F) (q >>= G) s where
  ok hb := by
    obtain ⟨a, s₁, ha, hb⟩ := bind_eq_ok.1 hb
    obtain ⟨hq, ts, hc⟩ := h.ok ha
    obtain ⟨k, -, rest⟩ := hF ha hc
    obtain ⟨hG, us, hc'⟩ := rest.ok hb
    exact ⟨bind_eq_ok.2 ⟨_, _, hq, hG⟩, _, hc.trans hc'⟩
  error he := by
    rcases bind_eq_error.1 he with he | ⟨a, s₁, ha, he⟩
    · exact (h.error he).imp (fun same => ⟨bind_eq_error.2 (.inl same.1), same.2⟩) id
    · obtain ⟨hq, ts, hc⟩ := h.ok ha
      obtain ⟨k, hk, rest⟩ := hF ha hc
      refine (rest.error he).imp
        (fun same => ⟨bind_eq_error.2 (.inr ⟨_, _, hq, same.1⟩), same.2⟩) fun deep => ?_
      rw [hc.pending_eq]
      exact ⟨deep.1, by omega⟩

theorem refl {p : Parser α} (ok : ∀ {a s'}, p s = .ok a s' → ∃ ts, Consumes s ts s')
    (error : ∀ {e s'}, p s = .error e s' → ¬ e.IsNesting) (hv : ∀ a, v a = a) :
    OutlastsAt n v p p s where
  ok ha := ⟨by rw [hv]; exact ha, ok ha⟩
  error he := .inl ⟨he, error he⟩

end OutlastsAt

/-! ## All states -/

/-- Whether a parser does what another does, unless it fails for want of levels
and at least `n` tokens are left. -/
def Outlasts (n : Nat) (v : α → α) (p q : Parser α) : Prop :=
  ∀ ⦃s⦄, s.finish.isEnd → OutlastsAt n v p q s

/-- As long as no token is consumed, one more token is left. -/
def outlasting (n : Nat) : ParserRelation := fun m _ v p q =>
  match m with
  | .start => Outlasts (n + 1) v p q
  | .inner => ∀ ⦃s⦄, s.finish.isEnd → (ahead s).isEnd = false → OutlastsAt (n + 1) v p q s
  | .free => Outlasts n v p q

theorem peekAt_eq_error {n : Nat} {s s' : ParserState} {e : Error}
    (h : peekAt n s = .error e s') : ¬ e.IsNesting := by
  unfold peekAt at h
  split at h
  · exact nomatch h
  · split at h
    · obtain ⟨rfl, -⟩ := EStateM.Result.error.inj h
      exact fun ⟨_, _, h⟩ => nomatch h
    · exact nomatch h

/-- Looking changes nothing, and a look that fails does so for no want of
levels. -/
theorem peekAt_outlasts {n k : Nat} {w : β → β} {F G : Token → Parser β} {s : ParserState}
    (hend : s.finish.isEnd) (h : ∀ t, peekAt k s = .ok t s → OutlastsAt n w (F t) (G t) s) :
    OutlastsAt n w (peekAt k >>= F) (peekAt k >>= G) s := by
  refine (OutlastsAt.refl (v := id) (fun ha => ?_) peekAt_eq_error fun _ => rfl).bind
    fun ha hc => ?_
  · obtain ⟨rfl, -⟩ := peekAt_eq_ok ha
    exact ⟨[], .refl hend⟩
  · obtain ⟨rfl, -⟩ := peekAt_eq_ok ha
    exact ⟨n, by omega, h _ ha⟩

theorem next_eq_error {s s' : ParserState} {e : Error} (h : next s = .error e s') :
    ¬ e.IsNesting := by
  rcases bind_eq_error.1 h with h | ⟨t, s₁, -, h⟩
  · exact peekAt_eq_error h
  · split at h
    · exact nomatch h
    · exact nomatch h

theorem next_consumes {s s' : ParserState} {t : Token} (hend : s.finish.isEnd)
    (h : next s = .ok t s') : ∃ ts, Consumes s ts s' := by
  cases ht : (ahead s).isEnd with
  | false => exact ⟨_, (next_eq_ok hend h ht).2⟩
  | true =>
    obtain ⟨u, s₁, hp, h⟩ := bind_eq_ok.1 h
    obtain ⟨rfl, rfl⟩ := peek_eq_ok hp
    rw [if_pos ht] at h
    obtain ⟨-, rfl⟩ := pure_eq_ok.1 h
    exact ⟨[], .refl hend⟩

theorem Outlasts.pure {n : Nat} {v : α → α} {a b : α} (hab : v a = b) :
    Outlasts n v (pure a) (pure b) := fun s hend =>
  { ok := fun ha => by
      obtain ⟨rfl, rfl⟩ := pure_eq_ok.1 ha
      exact ⟨by rw [hab]; rfl, [], .refl hend⟩
    error := nofun }

theorem Outlasts.bind {n : Nat} {v : α → α} {w : β → β} {p q : Parser α} {F G : α → Parser β}
    (h : Outlasts n v p q) (hF : ∀ a, Outlasts n w (F a) (G (v a))) :
    Outlasts n w (p >>= F) (q >>= G) :=
  fun _ hend => (h hend).bind fun {a _ _} _ hc => ⟨n, by omega, hF a hc.isEnd⟩

theorem iterateWithin_outlasts {n : Nat} {v : α → α} {step step' : α → Parser (Option α)}
    (hstep : ∀ a, Outlasts n (Option.map v) (step a) (step' (v a))) (budget : List Token)
    (a : α) : Outlasts n v (iterateWithin step budget a) (iterateWithin step' budget (v a)) := by
  induction budget generalizing a with
  | nil => exact (hstep a).bind fun o => by cases o <;> exact .pure rfl
  | cons t budget ih =>
    refine (hstep a).bind fun o => ?_
    cases o with
    | none => exact .pure rfl
    | some b => exact ih b

theorem iterate_outlasts {n : Nat} {v : α → α} {step step' : α → Parser (Option α)} {a b : α}
    (hstep : ∀ a, Outlasts n (Option.map v) (step a) (step' (v a))) (hab : v a = b) :
    Outlasts n v (iterate step a) (iterate step' b) := by
  subst hab
  intro s hend
  have loop := iterateWithin_outlasts hstep s.tokens a hend
  exact ⟨loop.ok, loop.error⟩

theorem spanFrom_consumes {s s' : ParserState} {start span : Span} (hend : s.finish.isEnd)
    (h : spanFrom start s = .ok span s') : Consumes s [] s' := by
  unfold spanFrom at h
  split at h <;>
  · obtain ⟨-, rfl⟩ := EStateM.Result.ok.inj h
    exact .refl hend

theorem spanFrom_ne_error {s s' : ParserState} {start : Span} {e : Error} :
    spanFrom start s ≠ .error e s' := by
  unfold spanFrom
  split <;> nofun

theorem raiseFailure_eq_error {s s' : ParserState} {e : Error}
    (h : raiseFailure s = .error e s') : ¬ e.IsNesting := by
  unfold raiseFailure at h
  split at h
  · obtain ⟨rfl, -⟩ := EStateM.Result.error.inj h
    exact fun ⟨_, _, h⟩ => nomatch h
  · exact nomatch h

theorem atQualifiedWildcard_outlasts (n : Nat) :
    Outlasts n id atQualifiedWildcard atQualifiedWildcard := by
  refine fun s hend => .refl (fun {b s'} hb => ?_) (fun {e s'} he => ?_) fun _ => rfl
  · obtain rfl := atQualifiedWildcard_eq_ok hb
    exact ⟨[], .refl hend⟩
  · rcases bind_eq_error.1 he with he | ⟨t, s₁, -, he⟩
    · exact nomatch he
    · cases answer : startsQualifiedWildcard? t.tokens with
      | some answer' =>
        simp only [answer] at he
        exact nomatch he
      | none =>
        simp only [answer] at he
        rcases bind_eq_error.1 he with he | ⟨_, _, -, he⟩
        · exact raiseFailure_eq_error he
        · exact nomatch he

/-- Parsers outlast each other when their parts do. -/
theorem outlasting_comparison (n : Nat) : Comparison .none (outlasting n) where
  weaken m h := by
    cases m with
    | start => exact h
    | inner => exact fun s hend _ => h hend
    | free => exact fun s hend => (h hend).mono (Nat.le_succ n)
  pure hab := Outlasts.pure hab
  bind {_ _ m} _ _ _ _ _ _ hm h hF := by
    cases m with
    | inner => exact absurd rfl hm
    | start | free => exact Outlasts.bind h hF
  look {_ m} _ _ _ k hF := by
    cases m with
    | inner => exact fun s hend here => peekAt_outlasts hend fun t _ => hF t hend here
    | start | free => exact fun s hend => peekAt_outlasts hend fun t _ => hF t hend
  peek_bind hF := fun s hend => peekAt_outlasts hend fun t ht => by
    rcases hF t with h | ⟨inner, h⟩
    · exact h hend
    · exact h hend (by rw [(peek_eq_ok ht).2]; exact inner)
  next := fun s hend => .refl (next_consumes hend) next_eq_error fun _ => rfl
  next_bind hF := fun s hend here =>
    (OutlastsAt.refl (v := id) (next_consumes hend) next_eq_error fun _ => rfl).bind
      fun {t _ _} ht hc => by
        have one := (next_eq_ok hend ht here).2.pending_eq
        have all := hc.pending_eq
        rw [List.length_singleton] at one
        exact ⟨n, by omega, hF t hc.isEnd⟩
  note es := fun s hend => .refl (fun hu => ⟨[], note_eq_ok hend hu⟩) nofun fun _ => rfl
  failAt fault t := fun s hend =>
    { ok := nofun
      error := fun he => .inl ⟨he, by
        obtain ⟨rfl, -⟩ := EStateM.Result.error.inj he
        exact fun ⟨_, _, h⟩ => nomatch h⟩ }
  spanFrom hs := fun s hend => by
    subst hs
    exact .refl (fun ha => ⟨[], spanFrom_consumes hend ha⟩) (fun he => absurd he spanFrom_ne_error)
      fun _ => rfl
  atQualifiedWildcard := atQualifiedWildcard_outlasts (n + 1)
  iterate {_ m} _ _ _ _ _ hm hstep _ hab := by
    cases m with
    | inner => exact absurd rfl hm
    | start | free => exact iterate_outlasts hstep hab

/-! ## Nesting -/

/-- Whether a parser looks at the next token before anything else. -/
def Looks (p : Parser α) : Prop := ∃ F : Token → Parser α, p = peek >>= F

theorem Looks.bind {p : Parser α} (h : Looks p) (F : α → Parser β) : Looks (p >>= F) := by
  obtain ⟨G, rfl⟩ := h
  exact ⟨_, bind_assoc ..⟩

theorem looks_tooDeep (max : Nat) : Looks (tooDeep max : Parser α) := ⟨_, rfl⟩

theorem looks_next : Looks next := ⟨_, rfl⟩

theorem looks_foldInfix (sub : Nested) (left : Expr) (op : InfixOperator) :
    Looks (foldInfix sub left op) := looks_next.bind _

theorem looks_setOperand (sub : Nested) (left : QueryBody) (op : SetOperator) :
    Looks (setOperand sub left op) := looks_next.bind _

theorem looks_select (sub : Nested) : Looks (select sub) := by
  have probe : Looks (keyword? .SELECT) := ⟨_, rfl⟩
  have start : Looks (keyword .SELECT) := probe.bind _
  exact start.bind _

theorem looks_expr (max depth level : Nat) : Looks (expr max depth level) := by
  cases depth with
  | zero => exact looks_tooDeep max
  | succ depth =>
    have operand : Looks (operand (nested max depth)) := ⟨_, rfl⟩
    exact operand.bind _

theorem looks_query (max depth : Nat) : Looks (query max depth) := by
  cases depth with
  | zero => exact looks_tooDeep max
  | succ depth => exact (looks_select _).bind _

/-- Without levels a parser fails where another one looks. -/
theorem tooDeep_outlasts (max : Nat) {v : α → α} {q : Parser α} (hq : Looks q) :
    Outlasts 0 v (tooDeep max) q := by
  obtain ⟨F, rfl⟩ := hq
  refine fun s _ => ⟨fun ha => absurd ha tooDeep_ne_ok, fun {e s'} he => ?_⟩
  rcases bind_eq_error.1 he with he | ⟨t, s₁, -, he⟩
  · exact .inl ⟨bind_eq_error.2 (.inl he), peekAt_eq_error he⟩
  · obtain ⟨rfl, -⟩ := EStateM.Result.error.inj he
    exact .inr ⟨⟨_, _, rfl⟩, Nat.zero_le _⟩

/-- Parsers for what is nested, with fewer levels and with more. -/
structure LevelsOutlast (n max d max' d' : Nat) : Prop where
  expr : ∀ level, Outlasts n (Expr.mapSpans Relocation.none.span) (expr max d level)
    (expr max' d' level)
  query : Outlasts n (Query.mapSpans Relocation.none.span) (query max d) (query max' d')
  fold : ∀ level e, Outlasts n (Expr.mapSpans Relocation.none.span) (foldAbove max d level e)
    (foldAbove max' d' level (e.mapSpans Relocation.none.span))
  combine : ∀ b, Outlasts n (Query.mapSpans Relocation.none.span) (combine max d b)
    (combine max' d' (b.mapSpans Relocation.none.span))

theorem LevelsOutlast.nested {n max d max' d' : Nat} (h : LevelsOutlast n max d max' d') :
    NestedParallel .none (outlasting n) (nested max d) (nested max' d') :=
  ⟨h.expr, h.query, _, nested_sound max' d'⟩

theorem levels_outlast_zero (max max' d' : Nat) : LevelsOutlast 0 max 0 max' d' := by
  have h := outlasting_comparison 0
  have expr (level) := tooDeep_outlasts max (v := Expr.mapSpans Relocation.none.span)
    (looks_expr max' d' level)
  have query := tooDeep_outlasts max (v := Query.mapSpans Relocation.none.span)
    (looks_query max' d')
  have nested : NestedParallel .none (outlasting 0) (nested max 0) (nested max' d') :=
    ⟨expr, query, _, nested_sound max' d'⟩
  refine ⟨expr, query, fun level e => ?_, fun b => ?_⟩
  · cases d' with
    | zero => exact foldStep_parallel (m := .free) h nofun fun op =>
        tooDeep_outlasts max (looks_tooDeep max')
    | succ d' => exact foldStep_parallel (m := .free) h nofun fun op =>
        tooDeep_outlasts max ((looks_foldInfix _ _ op).bind _)
  · rw [combine_eq, combine_eq]
    refine combineStep_parallel (m := .free) h nofun (queryTail_parallel h nested b) fun op => ?_
    cases d' with
    | zero => exact tooDeep_outlasts max (looks_tooDeep max')
    | succ d' => exact tooDeep_outlasts max ((looks_setOperand _ _ op).bind _)

/-- Nested parsers with `d` levels outlast `d` tokens, whatever levels they are
compared with beyond those. -/
theorem levels_outlast (max max' : Nat) {d d' : Nat} (hle : d ≤ d') :
    LevelsOutlast d max d max' d' := by
  induction d generalizing d' with
  | zero => exact levels_outlast_zero max max' d'
  | succ d ih =>
    cases d' with
    | zero => omega
    | succ d' =>
      have deeper := ih (Nat.le_of_succ_le_succ hle)
      have h := outlasting_comparison d
      have expr (level) := exprOf_parallel h deeper.nested (deeper.fold level)
      have query := queryOf_parallel h deeper.nested deeper.combine
      have fold (level e) : outlasting d .start (Expr.mapSpans Relocation.none.span)
          (foldAbove max (d + 1) level e)
          (foldAbove max' (d' + 1) level (e.mapSpans Relocation.none.span)) :=
        foldStep_parallel h nofun fun op =>
          foldInfix_leads h deeper.nested (m := .inner) e op nofun (deeper.fold level)
      have combine (b) : outlasting d .start (Query.mapSpans Relocation.none.span)
          (combine max (d + 1) b)
          (combine max' (d' + 1) (b.mapSpans Relocation.none.span)) := by
        rw [combine_eq, combine_eq]
        refine combineStep_parallel h nofun ?_ fun op =>
          setOperand_leads h deeper.nested (m := .inner) b op nofun deeper.combine
        -- The clauses at the end have the levels of the query.
        have nested : NestedParallel .none (outlasting (d + 1)) (nested max (d + 1))
          (nested max' (d' + 1)) := ⟨expr, query, _, nested_sound max' (d' + 1)⟩
        exact queryTail_parallel (outlasting_comparison (d + 1)) nested b
      exact ⟨expr, query, fold, combine⟩

theorem wholeStatement_outlasts {max max' : Nat} (hle : max ≤ max') :
    Outlasts max (Statement.mapSpans Relocation.none.span) (wholeStatement max)
      (wholeStatement max') :=
  have levels := levels_outlast max max' hle
  wholeStatement_parallel (outlasting_comparison max) (m := .free) nofun levels.nested levels.query

end Parser

/-! ## Texts -/

/-- Number of tokens that are read from a text, not counting the end of the
input. -/
def TokenStream.lexemeCount (s : TokenStream) : Nat := s.tokens.countP (! ·.isEnd)

/-- A parser that outlasts does so on a stream of tokens. -/
theorem Parser.Outlasts.runOn {α : Type} {n : Nat} {v : α → α} {p q : Parser α}
    (h : Outlasts n v p q) (hv : ∀ a, v a = a) (s : TokenStream) :
    (∀ e, p.runOn s = .error e → e.IsNesting → n ≤ s.lexemeCount) ∧
      ((∀ e, p.runOn s = .error e → ¬ e.IsNesting) → q.runOn s = p.runOn s) := by
  have run := h (s := .ofStream s) (Token.isEnd_endOf _)
  unfold Parser.runOn EStateM.run
  cases outcome : p (.ofStream s) with
  | ok a s' =>
    rw [(run.ok outcome).1, hv]
    exact ⟨nofun, fun _ => rfl⟩
  | error e s' =>
    rcases run.error outcome with ⟨same, shallow⟩ | ⟨deep, left⟩
    · rw [same]
      refine ⟨fun e he deep => absurd deep ?_, fun _ => rfl⟩
      exact Except.error.inj he ▸ shallow
    · exact ⟨fun _ _ _ => left, fun shallow => absurd deep (shallow e rfl)⟩

theorem parseStatement_eq (bytes depth : Nat) (sql : String) :
    parseStatement ⟨bytes, depth⟩ sql =
      if bytes < sql.utf8ByteSize then .error (.inputTooLarge sql.utf8ByteSize bytes)
      else (Parser.wholeStatement depth).runOn (.ofString sql) := by
  unfold parseStatement Limits.checkInput
  split <;> rfl

/-- A text is parsed with more levels as it is with fewer, unless those do not
suffice; and they do when there are more of them than tokens. -/
theorem parseStatement_outlasts (bytes : Nat) {d d' : Nat} (hle : d ≤ d') (sql : String) :
    (∀ e, parseStatement ⟨bytes, d⟩ sql = .error e → e.IsNesting →
      d ≤ (TokenStream.ofString sql).lexemeCount) ∧
    ((∀ e, parseStatement ⟨bytes, d⟩ sql = .error e → ¬ e.IsNesting) →
      parseStatement ⟨bytes, d'⟩ sql = parseStatement ⟨bytes, d⟩ sql) := by
  have moved : Relocation.none.span = id := rfl
  have same (s : Statement) : s.mapSpans Relocation.none.span = s := by
    rw [moved]
    exact Node.statement.inj (Node.mapSpans_id (.statement s))
  have run := (Parser.wholeStatement_outlasts hle).runOn same (TokenStream.ofString sql)
  rw [parseStatement_eq, parseStatement_eq]
  split
  · refine ⟨fun e he deep => absurd deep ?_, fun _ => rfl⟩
    obtain rfl := Except.error.inj he
    exact fun ⟨_, _, h⟩ => nomatch h
  · exact run

/-- The depth limit only rejects, and the less the higher it is: a text that is
parsed, or refused for any token, is so under every higher limit too, and a limit
above the number of tokens rejects nothing. -/
theorem parseStatement_depth (bytes : Nat) {d d' : Nat} (hle : d ≤ d') (sql : String) :
    (∀ s, parseStatement ⟨bytes, d⟩ sql = .ok s → parseStatement ⟨bytes, d'⟩ sql = .ok s) ∧
    (∀ e, parseStatement ⟨bytes, d⟩ sql = .error (.lex e) →
      parseStatement ⟨bytes, d'⟩ sql = .error (.lex e)) ∧
    (∀ e, parseStatement ⟨bytes, d⟩ sql = .error (.parse e) →
      parseStatement ⟨bytes, d'⟩ sql = .error (.parse e)) ∧
    ((TokenStream.ofString sql).lexemeCount < d →
      ∀ max p, parseStatement ⟨bytes, d⟩ sql ≠ .error (.nestingTooDeep max p)) := by
  obtain ⟨deep, same⟩ := parseStatement_outlasts bytes hle sql
  refine ⟨fun s h => ?_, fun e h => ?_, fun e h => ?_, fun few max p h => ?_⟩
  · rw [same (by simp [h]), h]
  · rw [same (by simp [h, Error.IsNesting]), h]
  · rw [same (by simp [h, Error.IsNesting]), h]
  · have := deep _ h ⟨max, p, rfl⟩
    omega

/-- A sum has four tokens, so five levels are enough for it, and more change
nothing, with its right operand or without it. -/
theorem depth_of_sum :
    (∃ s, parseStatement ⟨100, 5⟩ "SELECT 1+2" = .ok s ∧
      parseStatement ⟨100, 64⟩ "SELECT 1+2" = .ok s) ∧
    (∃ e, parseStatement ⟨100, 5⟩ "SELECT 1+" = .error (.parse e) ∧
      parseStatement ⟨100, 64⟩ "SELECT 1+" = .error (.parse e)) ∧
    ∀ max p, parseStatement ⟨100, 5⟩ "SELECT 1+2" ≠ .error (.nestingTooDeep max p) := by
  have parsed : (match parseStatement ⟨100, 5⟩ "SELECT 1+2" with
      | .ok _ => true
      | .error _ => false) = true := by decide +kernel
  have refused : (match parseStatement ⟨100, 5⟩ "SELECT 1+" with
      | .ok _ => ""
      | .error e => e.kind) = "ParseError" := by decide +kernel
  have few : (TokenStream.ofString "SELECT 1+2").lexemeCount < 5 := by decide +kernel
  obtain ⟨ok, -, -, enough⟩ := parseStatement_depth 100 (show 5 ≤ 64 by decide) "SELECT 1+2"
  obtain ⟨-, -, fault, -⟩ := parseStatement_depth 100 (show 5 ≤ 64 by decide) "SELECT 1+"
  refine ⟨?_, ?_, enough few⟩
  · cases h : parseStatement ⟨100, 5⟩ "SELECT 1+2" with
    | error => simp [h] at parsed
    | ok s => exact ⟨s, rfl, ok s h⟩
  · cases h : parseStatement ⟨100, 5⟩ "SELECT 1+" with
    | ok => simp [h] at refused
    | error e =>
      cases e with
      | parse e => exact ⟨e, rfl, fault e h⟩
      | _ =>
        simp only [h, Error.kind] at refused
        exact absurd refused (by decide)

end SqlSyntax
