import SqlSyntax.Proofs.Parser.Relocation

/-!
# Failures do not depend on the place

A parser fails on tokens elsewhere just as it does on the tokens themselves, for
the same reason and at the same token. Only where this token stands, and how it
is spelled if it is a keyword or an operator, shows in the error.

## Main results

* `mirrored_comparison` — the parsers do the same elsewhere, whether they succeed
  or fail.
* `wholeStatement_mirrors` — the same for a statement in any number of levels.
-/

namespace SqlSyntax

/-- Whether two errors are the same but for the token they are at, which is
elsewhere for the second. The error of the lexer can only be the one that is
behind the tokens. -/
inductive Error.Mirrored (f : Relocation) : Option LexError → Error → Error → Prop where
  | lex (e : LexError) : Mirrored f (some e) (.lex e) (.lex e)
  | parse {failure : Option LexError} (fault : ParseFault) (t : Token) (expected : List String) :
    Mirrored f failure (.parse ⟨fault, t.position, t.describe, expected⟩)
      (.parse ⟨fault, (f.token t).position, (f.token t).describe, expected⟩)
  | nestingTooDeep {failure : Option LexError} (max : Nat) (t : Token) :
    Mirrored f failure (.nestingTooDeep max t.position)
      (.nestingTooDeep max (f.token t).position)

namespace Parser

variable {α β : Type} {f : Relocation}

/-- Whether one parser does on relocated tokens what another does on the tokens
themselves, with the result that `v` gives or with the same error. -/
structure Mirrors (f : Relocation) (v : α → α) (p q : Parser α) : Prop where
  ok : Relocates f v p q
  failure_eq : ∀ ⦃s a s'⦄, p s = .ok a s' → s'.failure = s.failure
  error : ∀ ⦃s e s'⦄, p s = .error e s' →
    ∃ e', q (f.state s) = .error e' (f.state s') ∧ e.Mirrored f s.failure e'

theorem Mirrors.bind {v : α → α} {w : β → β} {p q : Parser α} {F G : α → Parser β}
    (h : Mirrors f v p q) (hF : ∀ a, Mirrors f w (F a) (G (v a))) :
    Mirrors f w (p >>= F) (q >>= G) where
  ok := h.ok.bind fun a => (hF a).ok
  failure_eq s b s' hb := by
    obtain ⟨a, s₁, ha, hb⟩ := bind_eq_ok.1 hb
    exact ((hF a).failure_eq hb).trans (h.failure_eq ha)
  error s e s' he := by
    rcases bind_eq_error.1 he with he | ⟨a, s₁, ha, he⟩
    · obtain ⟨e', he', mirrored⟩ := h.error he
      exact ⟨e', bind_eq_error.2 (.inl he'), mirrored⟩
    · obtain ⟨e', he', mirrored⟩ := (hF a).error he
      refine ⟨e', bind_eq_error.2 (.inr ⟨v a, _, h.ok ha, he'⟩), ?_⟩
      rwa [h.failure_eq ha] at mirrored

theorem Mirrors.of_ok {v : α → α} {p q : Parser α} (ok : Relocates f v p q)
    (failure_eq : ∀ ⦃s a s'⦄, p s = .ok a s' → s'.failure = s.failure)
    (never : ∀ {s e s'}, p s ≠ .error e s') : Mirrors f v p q :=
  ⟨ok, failure_eq, fun _ _ _ he => absurd he never⟩

theorem mirrors_pure {v : α → α} {a b : α} (hab : v a = b) : Mirrors f v (pure a) (pure b) := by
  refine .of_ok (relocates_pure hab) (fun s c s' hc => ?_) nofun
  rw [(pure_eq_ok.1 hc).2]

theorem mirrors_note (es : List Expectation) : Mirrors f id (note es) (note es) := by
  refine .of_ok (relocates_note es) (fun s u s' hu => ?_) nofun
  obtain ⟨-, rfl⟩ := EStateM.Result.ok.inj hu
  rfl

theorem mirrors_spanFrom {start start' : Span} (h : f.span start = start') :
    Mirrors f f.span (spanFrom start) (spanFrom start') := by
  refine .of_ok (relocates_spanFrom h) (fun s span s' hs => ?_) spanFrom_ne_error
  unfold spanFrom at hs
  split at hs <;>
  · obtain ⟨-, rfl⟩ := EStateM.Result.ok.inj hs
    rfl

theorem mirrors_peekAt (n : Nat) : Mirrors f f.token (peekAt n) (peekAt n) where
  ok := relocates_peekAt n
  failure_eq s t s' ht := by
    unfold peekAt at ht
    split at ht
    · obtain ⟨-, rfl⟩ := EStateM.Result.ok.inj ht
      rfl
    · split at ht
      · exact nomatch ht
      · obtain ⟨-, rfl⟩ := EStateM.Result.ok.inj ht
        rfl
  error s e s' he := by
    unfold peekAt at he ⊢
    have image : (f.state s).tokens[n]? = s.tokens[n]?.map f.token := List.getElem?_map
    rw [image]
    cases here : s.tokens[n]? with
    | some t =>
      rw [here] at he
      exact nomatch he
    | none =>
      rw [here] at he
      cases failure : s.failure with
      | none =>
        simp only [failure] at he
        exact nomatch he
      | some lexError =>
        simp only [failure] at he
        obtain ⟨rfl, rfl⟩ := EStateM.Result.error.inj he
        exact ⟨_, by simp [Relocation.state, failure], .lex lexError⟩

theorem mirrors_next : Mirrors f f.token next next where
  ok := relocates_next
  failure_eq s t s' ht := by
    obtain ⟨u, s₁, hu, ht⟩ := bind_eq_ok.1 ht
    rw [← (mirrors_peekAt (f := f) 0).failure_eq hu]
    split at ht <;>
    · obtain ⟨-, rfl⟩ := EStateM.Result.ok.inj ht
      rfl
  error s e s' he := by
    rcases bind_eq_error.1 he with he | ⟨t, s₁, -, he⟩
    · obtain ⟨e', he', mirrored⟩ := (mirrors_peekAt 0).error he
      exact ⟨e', bind_eq_error.2 (.inl he'), mirrored⟩
    · split at he <;> exact nomatch he

theorem mirrors_failAt {v : α → α} (fault : ParseFault) (t : Token) :
    Mirrors f v (failAt fault t) (failAt fault (f.token t)) where
  ok _ _ _ h := absurd h nofun
  failure_eq _ _ _ h := absurd h nofun
  error s e s' he := by
    obtain ⟨rfl, rfl⟩ := EStateM.Result.error.inj he
    exact ⟨_, rfl, .parse fault t _⟩

theorem mirrors_atQualifiedWildcard : Mirrors f id atQualifiedWildcard atQualifiedWildcard where
  ok := relocates_atQualifiedWildcard
  failure_eq s b s' hb := by
    obtain ⟨_, _, hs, hb⟩ := bind_eq_ok.1 hb
    obtain ⟨rfl, rfl⟩ := EStateM.Result.ok.inj hs
    cases answer : startsQualifiedWildcard? s.tokens with
    | some b =>
      simp only [answer] at hb
      rw [(pure_eq_ok.1 hb).2]
    | none =>
      simp only [answer] at hb
      obtain ⟨_, s₁, raised, hb⟩ := bind_eq_ok.1 hb
      unfold raiseFailure at raised
      split at raised
      · cases raised
      · obtain ⟨-, rfl⟩ := EStateM.Result.ok.inj raised
        rw [(pure_eq_ok.1 hb).2]
  error s e s' he := by
    rcases bind_eq_error.1 he with he | ⟨_, _, hs, he⟩
    · cases he
    · obtain ⟨rfl, rfl⟩ := EStateM.Result.ok.inj hs
      -- Only the error that stopped the lexer is raised here.
      cases answer : startsQualifiedWildcard? s.tokens with
      | some b =>
        simp only [answer] at he
        cases he
      | none =>
        simp only [answer] at he
        rcases bind_eq_error.1 he with he | ⟨_, _, -, he⟩
        · unfold raiseFailure at he
          split at he
          · rename_i lexError failure
            obtain ⟨rfl, rfl⟩ := EStateM.Result.error.inj he
            rw [failure]
            refine ⟨_, bind_eq_error.2 (.inr ⟨f.state s, f.state s, rfl, ?_⟩), .lex lexError⟩
            rw [show (f.state s).tokens = s.tokens.map f.token from rfl,
              startsQualifiedWildcard?_map, answer]
            refine bind_eq_error.2 (.inl ?_)
            simp [raiseFailure, Relocation.state, failure]
          · cases he
        · cases he

theorem mirrors_iterate {v : α → α} {step step' : α → Parser (Option α)} {a b : α}
    (hstep : ∀ a, Mirrors f (Option.map v) (step a) (step' (v a))) (hab : v a = b) :
    Mirrors f v (iterate step a) (iterate step' b) := by
  subst hab
  have loop (budget : List Token) (a : α) : Mirrors f v (iterateWithin step budget a)
      (iterateWithin step' (budget.map f.token) (v a)) := by
    induction budget generalizing a with
    | nil => exact (hstep a).bind fun o => by cases o <;> exact mirrors_pure rfl
    | cons t budget ih =>
      refine (hstep a).bind fun o => ?_
      cases o with
      | none => exact mirrors_pure rfl
      | some b => exact ih b
  exact ⟨fun s _ _ h => (loop s.tokens a).ok h, fun s _ _ h => (loop s.tokens a).failure_eq h,
    fun s _ _ h => (loop s.tokens a).error h⟩

/-- Doing the same elsewhere, at every stage. -/
def mirroring (f : Relocation) : ParserRelation := fun _ _ v p q => Mirrors f v p q

/-- The parsers do the same on tokens elsewhere. -/
theorem mirrored_comparison (f : Relocation) : Comparison f (mirroring f) where
  weaken _ h := h
  pure hab := mirrors_pure hab
  bind _ h hF := Mirrors.bind h hF
  look n hF := Mirrors.bind (mirrors_peekAt n) hF
  peek_bind hF := Mirrors.bind (mirrors_peekAt 0) fun t => (hF t).elim id And.right
  next := mirrors_next
  next_bind hF := Mirrors.bind mirrors_next hF
  note es := mirrors_note es
  failAt fault t := mirrors_failAt fault t
  spanFrom h := mirrors_spanFrom h
  atQualifiedWildcard := mirrors_atQualifiedWildcard
  iterate _ hstep _ hab := mirrors_iterate hstep hab

theorem mirrors_tooDeep (max : Nat) {v : α → α} : Mirrors f v (tooDeep max) (tooDeep max) :=
  (mirrors_peekAt 0).bind fun t =>
    ⟨fun _ _ _ h => absurd h nofun, fun _ _ _ h => absurd h nofun, fun s e s' he => by
      obtain ⟨rfl, rfl⟩ := EStateM.Result.error.inj he
      exact ⟨_, rfl, .nestingTooDeep max t⟩⟩

/-- What is nested is parsed elsewhere as it is where it stands, or fails in the
same way. -/
theorem levels_mirror (f : Relocation) (max depth : Nat) :
    LevelsParallel f (mirroring f) max depth :=
  levels_parallel (mirrored_comparison f) max depth (mirrors_tooDeep max)

theorem wholeStatement_mirrors (f : Relocation) (max : Nat) :
    Mirrors f (Statement.mapSpans f.span) (wholeStatement max) (wholeStatement max) :=
  wholeStatement_of_levels (mirrored_comparison f) (levels_mirror f max max)

end Parser

end SqlSyntax
