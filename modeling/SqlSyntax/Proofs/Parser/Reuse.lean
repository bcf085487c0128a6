import SqlSyntax.Proofs.Parser.Basic
import SqlSyntax.Proofs.Parser.Parallel.Statement

/-!
# Using a parser again

A parser may be called again after a success or a failure, and goes on with the
tokens that are left. What it keeps from earlier calls besides those tokens are
the token that was consumed last and the notes on what was expected. Neither
changes an outcome: a span is taken only when the call has consumed a token
itself, and the notes show in the list of an error only.

The proof runs a used parser in parallel with a fresh one. Their states are
`Alike`: the same tokens are left, and the used one has noted what the fresh
one has and perhaps more. Once a call has consumed a token, the token consumed
last is the same too.

## Main results

* `reusing_comparison` — parsers on states that are alike have alike outcomes.
* `outcome_afterCalls` — every call, after any others, has the outcome that it
  has on a fresh parser for the tokens that are left.
-/

namespace SqlSyntax

/-- An error without what it says would have been accepted. -/
def Error.withoutExpected : Error → Error
  | .parse e => .parse { e with expected := [] }
  | e => e

/-- Whether two errors say the same, and the first lists what the second does
and perhaps more. -/
structure Error.ListsMore (e e' : Error) : Prop where
  same : e.withoutExpected = e'.withoutExpected
  subset : e'.expected ⊆ e.expected

theorem Error.ListsMore.refl (e : Error) : e.ListsMore e := ⟨rfl, fun _ h => h⟩

namespace Parser

variable {α β : Type}

/-! ## Calls -/

/-- The outcome of a parser and the state in which it stops, whether it fails
or not. -/
def outcome (p : Parser α) (s : ParserState) : Except Error α × ParserState :=
  match p.run s with
  | .ok a s' => (.ok a, s')
  | .error e s' => (.error e, s')

/-- A call on a parser. -/
inductive Call where
  /-- A statement, perhaps a semicolon, and nothing more. -/
  | statement
  /-- Statements to the end of the input. -/
  | script
deriving DecidableEq, Repr

/-- What a call returns. -/
inductive Parsed where
  | statement (statement : Statement)
  | script (statements : List Statement)

def Call.parser (max : Nat) : Call → Parser Parsed
  | .statement => do return .statement (← wholeStatement max)
  | .script => do return .script (← Parser.script max)

/-- The state of a parser after calls on it, one after the other. -/
def afterCalls (max : Nat) : List Call → ParserState → ParserState
  | [], s => s
  | call :: calls, s => afterCalls max calls (outcome (call.parser max) s).2

/-- Whether an outcome on a used parser is the one on a fresh parser, except
that an error may list more. -/
inductive SameOutcome : Except Error α → Except Error α → Prop
  | ok (a : α) : SameOutcome (.ok a) (.ok a)
  | error {e e' : Error} (lists : e.ListsMore e') : SameOutcome (.error e) (.error e')

/-! ## States that are alike -/

/-- Whether a used parser and a fresh one stand at the same place in some
tokens that the end of the input closes. -/
structure Alike (tokens : List Token) (s t : ParserState) : Prop where
  tokens_eq : s.tokens = t.tokens
  finish_eq : s.finish = t.finish
  failure : s.failure = none ∧ t.failure = none
  finish : t.tokens.getLast? = some t.finish
  isEnd : t.finish.isEnd
  left : t.tokens <:+ tokens
  expected : t.expected ⊆ s.expected

/-- Whether two runs end alike; the token consumed last is the same if `known`
holds. -/
inductive EndAlike (tokens : List Token) (known : Prop) (v : α → α) :
    EStateM.Result Error ParserState α → EStateM.Result Error ParserState α → Prop
  | ok {a : α} {s t : ParserState} (alike : Alike tokens s t) (last : known → s.last = t.last) :
    EndAlike tokens known v (.ok a s) (.ok (v a) t)
  | error {e e' : Error} {s t : ParserState} (alike : Alike tokens s t) (lists : e.ListsMore e') :
    EndAlike tokens known v (.error e s) (.error e' t)

/-- Parsers that end alike on states that are alike. From the consumption of a
token on, the states agree about the token consumed last. -/
def reusing (tokens : List Token) : ParserRelation := fun m _ v p q =>
  ∀ ⦃s t⦄, Alike tokens s t → (m = .inner → (ahead t).isEnd = false) →
    (m = .free → s.last = t.last) → EndAlike tokens (s.last = t.last) v (p s) (q t)

section

variable {tokens : List Token} {known : Prop} {v : α → α} {w : β → β} {s t : ParserState}

/-- The states at the start of a call on a used parser and on a fresh one. -/
theorem Alike.fresh (alike : Alike tokens s t) :
    Alike tokens s (.ofStream ⟨s.tokens, none⟩) where
  tokens_eq := rfl
  finish_eq := by
    show s.finish = Token.endOf s.tokens
    rw [Token.endOf, alike.tokens_eq, alike.finish]
    show _ = t.finish.endAfter
    rw [Token.endAfter, if_pos alike.isEnd, alike.finish_eq]
  failure := ⟨alike.failure.1, rfl⟩
  finish := by
    show s.tokens.getLast? = some (Token.endOf s.tokens)
    rw [Token.endOf, alike.tokens_eq, alike.finish]
    show _ = some t.finish.endAfter
    rw [Token.endAfter, if_pos alike.isEnd]
  isEnd := Token.isEnd_endOf _
  left := by
    show s.tokens <:+ tokens
    rw [alike.tokens_eq]
    exact alike.left
  expected := List.nil_subset _

theorem EndAlike.mono {known' : Prop} {r r' : EStateM.Result Error ParserState α}
    (h : EndAlike tokens known v r r') (imp : known' → known) : EndAlike tokens known' v r r' := by
  cases h with
  | ok alike last => exact .ok alike fun hknown => last (imp hknown)
  | error alike lists => exact .error alike lists

theorem EndAlike.bind {p q : Parser α} {F G : α → Parser β}
    (h : EndAlike tokens known v (p s) (q t))
    (hF : ∀ a s' t', Alike tokens s' t' → (known → s'.last = t'.last) →
      EndAlike tokens known w (F a s') (G (v a) t')) :
    EndAlike tokens known w ((p >>= F) s) ((q >>= G) t) := by
  show EndAlike tokens known w (EStateM.bind p F s) (EStateM.bind q G t)
  unfold EStateM.bind
  cases hp : p s <;> cases hq : q t <;> rw [hp, hq] at h
  · cases h with | ok alike last => exact hF _ _ _ alike last
  · cases h
  · cases h
  · cases h with | error alike lists => exact .error alike lists

/-- Looking shows the same token on states that are alike. -/
theorem peekAt_alike (alike : Alike tokens s t) (n : Nat) :
    ∃ u, peekAt n s = .ok u s ∧ peekAt n t = .ok u t := by
  unfold peekAt
  rw [alike.tokens_eq, alike.failure.1, alike.failure.2, alike.finish_eq]
  cases t.tokens[n]? with
  | some u => exact ⟨u, rfl, rfl⟩
  | none => exact ⟨t.finish, rfl, rfl⟩

theorem peekAt_bind_alike {F G : Token → Parser β} (alike : Alike tokens s t) (n : Nat)
    (h : ∀ u, peekAt n t = .ok u t → EndAlike tokens known w (F u s) (G u t)) :
    EndAlike tokens known w ((peekAt n >>= F) s) ((peekAt n >>= G) t) := by
  obtain ⟨u, hs, ht⟩ := peekAt_alike alike n
  show EndAlike tokens known w (EStateM.bind (peekAt n) F s) (EStateM.bind (peekAt n) G t)
  unfold EStateM.bind
  rw [hs, ht]
  exact h u ht

/-- Consuming a token leaves states that are alike, and agree about the token
consumed last. -/
theorem next_alike (alike : Alike tokens s t) (inner : (ahead t).isEnd = false) :
    ∃ u s' t', next s = .ok u s' ∧ next t = .ok u t' ∧ Alike tokens s' t' ∧ s'.last = t'.last := by
  obtain ⟨u, hs, ht⟩ := peekAt_alike alike 0
  obtain rfl : ahead t = u := (peek_eq_ok ht).2
  have run (r : ParserState) (hr : peekAt 0 r = .ok (ahead t) r) : next r = .ok (ahead t)
      { r with tokens := r.tokens.tail, last := some (ahead t).span, expected := [] } := by
    show EStateM.bind (peekAt 0) _ r = _
    unfold EStateM.bind
    rw [hr]
    dsimp only
    rw [if_neg (by simp [inner])]
    rfl
  refine ⟨ahead t, _, _, run s hs, run t ht, ?_, rfl⟩
  refine ⟨congrArg List.tail alike.tokens_eq, alike.finish_eq, alike.failure, ?_, alike.isEnd,
    (List.tail_suffix _).trans alike.left, List.Subset.refl _⟩
  -- The last token is the end of the input, so it is not the one consumed.
  show t.tokens.tail.getLast? = some t.finish
  have finish := alike.finish
  have isEnd := alike.isEnd
  unfold ahead at inner
  cases htokens : t.tokens with
  | nil => simp [htokens] at finish
  | cons x rest =>
    rw [htokens] at finish inner
    cases rest with
    | nil =>
      obtain rfl : x = t.finish := by simpa using finish
      exact absurd isEnd (by simpa using inner)
    | cons y rest => simpa using finish

end

/-! ## The comparison -/

section

variable {tokens : List Token}

theorem reusing_pure {m : Stage} {v : α → α} {a b : α} (hab : v a = b) :
    reusing tokens m v (pure a) (pure b) := by
  subst hab
  exact fun s t alike _ _ => .ok alike id

theorem reusing_bind {m : Stage} {v : α → α} {w : β → β} {p q : Parser α} {F G : α → Parser β}
    (hm : m ≠ .inner) (h : reusing tokens m v p q)
    (hF : ∀ a, reusing tokens m w (F a) (G (v a))) :
    reusing tokens m w (p >>= F) (q >>= G) := by
  intro s t alike inner free
  refine (h alike inner free).bind fun a s' t' alike' last => ?_
  exact (hF a alike' (absurd · hm) fun hfree => last (free hfree)).mono last

theorem reusing_next : reusing tokens .start id next next := by
  intro s t alike _ _
  cases inner : (ahead t).isEnd with
  | false =>
    obtain ⟨u, s', t', hs, ht, alike', last⟩ := next_alike alike inner
    rw [hs, ht]
    exact .ok alike' fun _ => last
  | true =>
    refine peekAt_bind_alike alike 0 fun u hu => ?_
    obtain rfl : ahead t = u := (peek_eq_ok hu).2
    rw [if_pos inner]
    exact .ok alike id

theorem reusing_next_bind {w : β → β} {F G : Token → Parser β}
    (hF : ∀ u, reusing tokens .free w (F u) (G u)) :
    reusing tokens .inner w (next >>= F) (next >>= G) := by
  intro s t alike inner _
  obtain ⟨u, s', t', hs, ht, alike', last⟩ := next_alike alike (inner rfl)
  show EndAlike tokens _ w (EStateM.bind next F s) (EStateM.bind next G t)
  unfold EStateM.bind
  rw [hs, ht]
  exact (hF u alike' nofun fun _ => last).mono fun _ => last

theorem reusing_note (es : List Expectation) :
    reusing tokens .start id (note es) (note es) := fun s t alike _ _ => by
  have expected : es.reverse ++ t.expected ⊆ es.reverse ++ s.expected :=
    List.append_subset.2 ⟨List.subset_append_left ..,
      List.Subset.trans alike.expected (List.subset_append_right ..)⟩
  exact .ok { alike with expected := expected } id

theorem reusing_failAt {v : α → α} (fault : ParseFault) (u : Token) :
    reusing tokens .start v (failAt fault u) (failAt fault u) := fun s t alike _ _ => by
  refine .error { alike with expected := List.Subset.refl _ } ⟨rfl, fun x hx => ?_⟩
  have noted := ParseError.mem_expected_of.1 hx
  refine ParseError.mem_expected_of.2 ?_
  simp only [List.mem_map, List.mem_reverse] at noted ⊢
  obtain ⟨e, he, rfl⟩ := noted
  exact ⟨e, alike.expected he, rfl⟩

theorem reusing_spanFrom (start : Span) :
    reusing tokens .free id (spanFrom start) (spanFrom start) := fun s t alike _ free => by
  unfold spanFrom
  rw [free rfl]
  cases t.last <;> exact .ok alike fun _ => free rfl

theorem reusing_atQualifiedWildcard :
    reusing tokens .start id atQualifiedWildcard atQualifiedWildcard := fun s t alike _ _ => by
  have answer (r : ParserState) (failure : r.failure = none) : atQualifiedWildcard r =
      .ok ((startsQualifiedWildcard? r.tokens).getD false) r := by
    cases found : startsQualifiedWildcard? r.tokens with
    | some b => exact bind_eq_ok.2 ⟨r, r, rfl, by rw [found]; rfl⟩
    | none =>
      have raised : raiseFailure r = .ok () r := by rw [raiseFailure, failure]
      exact bind_eq_ok.2 ⟨r, r, rfl, by rw [found]; exact bind_eq_ok.2 ⟨(), r, raised, rfl⟩⟩
  rw [answer s alike.failure.1, answer t alike.failure.2, alike.tokens_eq]
  exact .ok alike id

theorem reusing_iterate {m : Stage} {v : α → α} {step step' : α → Parser (Option α)} {a b : α}
    (hm : m ≠ .inner) (hstep : ∀ a, reusing tokens m (Option.map v) (step a) (step' (v a)))
    (hab : v a = b) : reusing tokens m v (iterate step a) (iterate step' b) := by
  subst hab
  have loop (budget : List Token) (a : α) :
      reusing tokens m v (iterateWithin step budget a) (iterateWithin step' budget (v a)) := by
    induction budget generalizing a with
    | nil =>
      refine reusing_bind hm (hstep a) fun o => ?_
      cases o <;> exact reusing_pure rfl
    | cons u budget ih =>
      refine reusing_bind hm (hstep a) fun o => ?_
      cases o with
      | none => exact reusing_pure rfl
      | some b => exact ih b
  intro s t alike inner free
  unfold iterate
  rw [alike.tokens_eq]
  exact loop t.tokens a alike inner free

/-- What a parser keeps from earlier calls is no concern of a later one. -/
theorem reusing_comparison (tokens : List Token) : Comparison .none (reusing tokens) where
  weaken m h := fun s t alike _ _ => h alike nofun nofun
  pure hab := reusing_pure hab
  bind hm h hF := reusing_bind hm h hF
  look n hF := fun s t alike inner free =>
    peekAt_bind_alike alike n fun u _ => hF u alike inner free
  peek_bind hF := fun s t alike _ _ => peekAt_bind_alike alike 0 fun u hu => by
    rcases hF u with h | ⟨inner, h⟩
    · exact h alike nofun nofun
    · exact h alike (fun _ => by rw [(peek_eq_ok hu).2]; exact inner) nofun
  next := reusing_next
  next_bind hF := reusing_next_bind hF
  note es := reusing_note es
  failAt fault u := reusing_failAt fault u
  spanFrom hs := hs ▸ reusing_spanFrom _
  atQualifiedWildcard := reusing_atQualifiedWildcard
  iterate hm hstep _ hab := reusing_iterate hm hstep hab

theorem reusing_tooDeep (max : Nat) {v : α → α} :
    reusing tokens .start v (tooDeep max) (tooDeep max) := fun _ _ alike _ _ =>
  peekAt_bind_alike alike 0 fun _ _ => .error alike (.refl _)

/-! ## Calls on one parser -/

/-- A call ends alike on states that are alike. -/
theorem call_reusing (max : Nat) (call : Call) :
    reusing tokens .start id (call.parser max) (call.parser max) := by
  have h := reusing_comparison tokens
  have levels := levels_parallel h max max fun {_ _} => reusing_tooDeep max
  have same (s : Statement) : s.mapSpans Relocation.none.span = s :=
    Node.statement.inj (Node.mapSpans_id (.statement s))
  cases call with
  | statement =>
    refine h.bind nofun (wholeStatement_of_levels h levels) fun s => h.pure ?_
    rw [same]
    rfl
  | script =>
    refine h.bind nofun (script_of_levels h levels) fun ss => h.pure ?_
    rw [List.map_congr_left fun s _ => same s, List.map_id']
    rfl

variable {s t : ParserState}

theorem outcome_alike {p : Parser α} (h : EndAlike tokens (s.last = t.last) id (p s) (p t)) :
    SameOutcome (outcome p s).1 (outcome p t).1 ∧ Alike tokens (outcome p s).2 (outcome p t).2 := by
  unfold outcome EStateM.run
  cases hs : p s <;> cases ht : p t <;> rw [hs, ht] at h
  · cases h with | ok alike last => exact ⟨.ok _, alike⟩
  · cases h
  · cases h
  · cases h with | error alike lists => exact ⟨.error lists, alike⟩

/-- Calls leave a parser at some place in its tokens. -/
theorem afterCalls_alike (max : Nat) (calls : List Call) (alike : Alike tokens s s) :
    Alike tokens (afterCalls max calls s) (afterCalls max calls s) := by
  induction calls generalizing s with
  | nil => exact alike
  | cons call calls ih =>
    exact ih (outcome_alike (call_reusing max call alike nofun nofun)).2

end

theorem runOn_eq_outcome (p : Parser α) (stream : TokenStream) :
    p.runOn stream = (outcome p (.ofStream stream)).1 := by
  unfold runOn outcome
  cases p.run (.ofStream stream) <;> rfl

/-- Calls on one parser do not see each other. Whatever the earlier ones
returned, a call has the outcome that it has on a fresh parser for the tokens
that are left, except that an error may list more as expected. -/
theorem outcome_afterCalls (max : Nat) (inner : List Token) {finish : Token}
    (isEnd : finish.isEnd) (calls : List Call) (call : Call) :
    let used := afterCalls max calls (.ofStream ⟨inner ++ [finish], none⟩)
    used.tokens <:+ inner ++ [finish] ∧
      SameOutcome (outcome (call.parser max) used).1
        ((call.parser max).runOn ⟨used.tokens, none⟩) := by
  intro used
  have start : Alike (inner ++ [finish]) (.ofStream ⟨inner ++ [finish], none⟩)
      (.ofStream ⟨inner ++ [finish], none⟩) := by
    have endOf : Token.endOf (inner ++ [finish]) = finish := by
      simp [Token.endOf, Token.endAfter, isEnd]
    refine ⟨rfl, rfl, ⟨rfl, rfl⟩, ?_, Token.isEnd_endOf _, List.suffix_refl _,
      List.Subset.refl _⟩
    show (inner ++ [finish]).getLast? = some (Token.endOf (inner ++ [finish]))
    rw [endOf, List.getLast?_concat]
  have alike := afterCalls_alike max calls start
  refine ⟨alike.left, ?_⟩
  rw [runOn_eq_outcome]
  exact (outcome_alike (call_reusing max call alike.fresh nofun nofun)).1

/-- Behind a statement that nests too deeply, a script is parsed as from the
start. -/
theorem outcome_after_nesting :
    let tokens := (TokenStream.ofString "SELECT ((; SELECT 2").tokens
    let used := afterCalls 3 [.statement] (.ofStream ⟨tokens, none⟩)
    (∃ max p, (outcome (Call.statement.parser 3) (.ofStream ⟨tokens, none⟩)).1 =
      .error (.nestingTooDeep max p)) ∧
    ∃ ss, (outcome (Call.script.parser 3) used).1 = .ok (.script ss) ∧
      (Call.script.parser 3).runOn ⟨used.tokens, none⟩ = .ok (.script ss) := by
  intro tokens used
  have refused : (match (outcome (Call.statement.parser 3) (.ofStream ⟨tokens, none⟩)).1 with
      | .error (.nestingTooDeep ..) => true
      | _ => false) = true := by decide +kernel
  have parsed : (match (outcome (Call.script.parser 3) used).1 with
      | .ok (.script _) => true
      | _ => false) = true := by decide +kernel
  have shape : tokens = tokens.dropLast ++ [Token.endOf tokens] := by decide +kernel
  constructor
  · split at refused
    · exact ⟨_, _, ‹_›⟩
    · exact nomatch refused
  · have same := (outcome_afterCalls 3 tokens.dropLast (Token.isEnd_endOf tokens) [.statement]
      .script).2
    rw [← shape] at same
    change SameOutcome (outcome _ used).1 _ at same
    generalize (Call.script.parser 3).runOn _ = fresh at same ⊢
    split at parsed
    · rename_i ss h
      rw [h] at same ⊢
      cases same
      exact ⟨ss, rfl, rfl⟩
    · exact nomatch parsed

end Parser

end SqlSyntax
