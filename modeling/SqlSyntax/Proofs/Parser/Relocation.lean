import SqlSyntax.Proofs.Parser.Completeness.Nesting
import SqlSyntax.Proofs.Parser.Depth

/-!
# Readings do not depend on the place

A parser that succeeds on some tokens does so on the same tokens elsewhere, with
all spans of the result moved as those of the tokens are. With soundness and
completeness this is a fact about readings, and the depth limit gives another:
what can be read in some levels can be read in more.

## Main results

* `relocated_comparison` — the parsers respect every relocation.
* `exprs_relocate`, `queries_relocate`, `statement_relocate` — readings of tokens
  elsewhere.
* `exprs_deepen`, `queries_deepen` — readings in more levels.
-/

namespace SqlSyntax

namespace Relocation

variable (f : Relocation)

/-- A state with its tokens elsewhere. -/
def state (s : ParserState) : ParserState :=
  ⟨s.tokens.map f.token, s.failure, f.token s.finish, s.last.map f.span, s.expected⟩

end Relocation

namespace Parser

variable {α β : Type} {f : Relocation}

/-- Whether one parser succeeds on relocated tokens whenever another does on
the tokens themselves, with the result that `v` gives. -/
def Relocates (f : Relocation) (v : α → α) (p q : Parser α) : Prop :=
  ∀ ⦃s a s'⦄, p s = .ok a s' → q (f.state s) = .ok (v a) (f.state s')

theorem Relocates.bind {v : α → α} {w : β → β} {p q : Parser α} {F G : α → Parser β}
    (h : Relocates f v p q) (hF : ∀ a, Relocates f w (F a) (G (v a))) :
    Relocates f w (p >>= F) (q >>= G) := by
  intro s b s' hb
  obtain ⟨a, s₁, ha, hb⟩ := bind_eq_ok.1 hb
  exact bind_eq_ok.2 ⟨v a, _, h ha, hF a hb⟩

theorem relocates_pure {v : α → α} {a b : α} (hab : v a = b) :
    Relocates f v (pure a) (pure b) := by
  intro s c s' hc
  obtain ⟨rfl, rfl⟩ := pure_eq_ok.1 hc
  rw [← hab]
  rfl

theorem relocates_peekAt (n : Nat) : Relocates f f.token (peekAt n) (peekAt n) := by
  intro s t s' ht
  unfold peekAt at ht ⊢
  have image : (f.state s).tokens[n]? = s.tokens[n]?.map f.token := List.getElem?_map
  rw [image]
  cases here : s.tokens[n]? with
  | some u =>
    rw [here] at ht
    obtain ⟨rfl, rfl⟩ := EStateM.Result.ok.inj ht
    rfl
  | none =>
    rw [here] at ht
    cases failure : s.failure with
    | some e =>
      simp only [failure] at ht
      exact nomatch ht
    | none =>
      simp only [failure] at ht
      obtain ⟨rfl, rfl⟩ := EStateM.Result.ok.inj ht
      simp [Relocation.state, failure]

theorem relocates_next : Relocates f f.token next next := by
  refine (relocates_peekAt 0).bind fun t => ?_
  rw [f.isEnd_token]
  split
  · exact relocates_pure rfl
  · refine Relocates.bind (v := id) (fun s u s' hu => ?_) fun _ => relocates_pure rfl
    obtain ⟨rfl, rfl⟩ := EStateM.Result.ok.inj hu
    show EStateM.Result.ok _ _ = _
    simp [Relocation.state, f.span_token]

theorem relocates_spanFrom {start start' : Span} (h : f.span start = start') :
    Relocates f f.span (spanFrom start) (spanFrom start') := by
  subst h
  intro s span s' hs
  unfold spanFrom at hs ⊢
  cases last : s.last with
  | none =>
    simp only [last] at hs
    obtain ⟨rfl, rfl⟩ := EStateM.Result.ok.inj hs
    simp [Relocation.state, last]
  | some l =>
    simp only [last] at hs
    obtain ⟨rfl, rfl⟩ := EStateM.Result.ok.inj hs
    simp [Relocation.state, last, Relocation.span, f.stop_max]

theorem startsQualifiedWildcard?_map (ts : List Token) :
    startsQualifiedWildcard? (ts.map f.token) = startsQualifiedWildcard? ts := by
  fun_induction startsQualifiedWildcard? ts with
  | case1 => rfl
  | case2 t h => simp [startsQualifiedWildcard?, h]
  | case3 t h => simp [startsQualifiedWildcard?, h]
  | case4 t dot h => simp_all [startsQualifiedWildcard?, f.kind_token]
  | case5 t dot h => simp_all [startsQualifiedWildcard?, f.kind_token]
  | case6 t dot u rest h star => simp_all [startsQualifiedWildcard?, f.kind_token]
  | case7 t dot u rest h star ih => simp_all [startsQualifiedWildcard?, f.kind_token]
  | case8 t dot u rest h => simp_all [startsQualifiedWildcard?, f.kind_token]

theorem relocates_atQualifiedWildcard :
    Relocates f id atQualifiedWildcard atQualifiedWildcard := by
  have look : Relocates f f.state (get : Parser ParserState) get := by
    intro s t s' ht
    obtain ⟨rfl, rfl⟩ := EStateM.Result.ok.inj ht
    rfl
  have raised : Relocates f id raiseFailure raiseFailure := by
    intro s u s' hu
    unfold raiseFailure at hu ⊢
    split at hu
    · exact nomatch hu
    · rename_i failure
      obtain ⟨rfl, rfl⟩ := EStateM.Result.ok.inj hu
      simp [Relocation.state, failure]
  refine look.bind fun s => ?_
  rw [show (f.state s).tokens = s.tokens.map f.token from rfl, startsQualifiedWildcard?_map]
  split
  · exact relocates_pure rfl
  · exact raised.bind fun _ => relocates_pure rfl

theorem relocates_iterate {v : α → α} {step step' : α → Parser (Option α)} {a b : α}
    (hstep : ∀ a, Relocates f (Option.map v) (step a) (step' (v a))) (hab : v a = b) :
    Relocates f v (iterate step a) (iterate step' b) := by
  subst hab
  have loop (budget : List Token) (a : α) : Relocates f v (iterateWithin step budget a)
      (iterateWithin step' (budget.map f.token) (v a)) := by
    induction budget generalizing a with
    | nil => exact (hstep a).bind fun o => by cases o <;> exact relocates_pure rfl
    | cons t budget ih =>
      refine (hstep a).bind fun o => ?_
      cases o with
      | none => exact relocates_pure rfl
      | some b => exact ih b
  intro s b s' h
  unfold iterate at h ⊢
  exact loop s.tokens a h

theorem relocates_note (es : List Expectation) : Relocates f id (note es) (note es) := by
  intro s u s' hu
  obtain ⟨rfl, rfl⟩ := EStateM.Result.ok.inj hu
  rfl

theorem relocates_none (p : Parser α) : Relocates .none id p p := by
  intro s a s' h
  have same (s : ParserState) : Relocation.none.state s = s := by
    rw [Relocation.state, show Relocation.none.span = id from rfl,
      show Relocation.none.token = id from rfl, List.map_id, Option.map_id]
    rfl
  rw [same, same]
  exact h

/-- Success elsewhere, at every stage. -/
def relocating (f : Relocation) : ParserRelation := fun _ _ v p q => Relocates f v p q

/-- The parsers respect every relocation. -/
theorem relocated_comparison (f : Relocation) : Comparison f (relocating f) where
  weaken _ h := h
  pure hab := relocates_pure hab
  bind _ h hF := Relocates.bind h hF
  look n hF := Relocates.bind (relocates_peekAt n) hF
  peek_bind hF := Relocates.bind (relocates_peekAt 0) fun t => (hF t).elim id And.right
  next := relocates_next
  next_bind hF := Relocates.bind relocates_next hF
  note es := relocates_note es
  failAt _ _ _ _ _ h := absurd h nofun
  spanFrom h := relocates_spanFrom h
  atQualifiedWildcard := relocates_atQualifiedWildcard
  iterate _ hstep _ hab := relocates_iterate hstep hab

/-! ## Nesting -/

/-- What is nested is parsed elsewhere as it is where it stands. -/
theorem levels_relocate (f : Relocation) (max depth : Nat) :
    LevelsParallel f (relocating f) max depth :=
  levels_parallel (relocated_comparison f) max depth fun h => absurd h tooDeep_ne_ok

end Parser

/-! ## Readings -/

namespace Grammar

open SqlSyntax.Parser

/-- Whether what is read is read elsewhere too. -/
structure Phrases.Carries (P Q : Phrases) (f : Relocation) : Prop where
  expr : ∀ {level ts e}, P.expr level ts e → Q.expr level (ts.map f.token) (e.mapSpans f.span)
  query : ∀ {ts q}, P.query ts q → Q.query (ts.map f.token) (q.mapSpans f.span)

/-- The tokens by themselves, with nothing read so far. -/
abbrev alone (ts : List Token) : ParserState := ⟨ts, none, Token.endOf [], none, []⟩

/-- What a parser has read from some tokens by themselves is read elsewhere, if it
respects relocations. -/
theorem reading_elsewhere {α : Type} {R : List Token → α → Prop} {f : Relocation} {w : α → α}
    {p : Parser α} {ts : List Token} {a : α} {s' : ParserState} (run : p (alone ts) = .ok a s')
    (consumed : Consumes (alone ts) ts s') (elsewhere : Relocates f w p p)
    (sound : ∀ ⦃s b s'⦄, s.tokens = ts.map f.token → s.finish.isEnd → p s = .ok b s' →
      ∃ us, Consumes s us s' ∧ R us b) : R (ts.map f.token) (w a) := by
  have isEnd : (f.token (Token.endOf [])).isEnd := by rw [f.isEnd_token, Token.isEnd_endOf]
  obtain ⟨us, hc, reading⟩ := sound rfl isEnd (elsewhere run)
  have left : s'.tokens = [] := consumed.tokens_eq (List.append_nil ts).symm
  have tokens : ts.map f.token = us ++ s'.tokens.map f.token := hc.tokens
  rw [left, List.map_nil, List.append_nil] at tokens
  rw [tokens]
  exact reading

/-- A parser that reads some tokens as a whole reads them elsewhere, and with
more levels, if it respects relocations and levels. -/
theorem carries_of_reads {α : Type} {R : List Token → α → Prop} {f : Relocation} {n : Nat}
    {v w : α → α} {p q : Parser α} {ts : List Token} {a : α} (reads : Reads p ts a [])
    (deeper : ∀ ⦃s⦄, s.tokens = ts → s.finish.isEnd → OutlastsAt n v p q s)
    (elsewhere : Relocates f w q q)
    (sound : ∀ ⦃s b s'⦄, s.tokens = ts.map f.token → s.finish.isEnd → q s = .ok b s' →
      ∃ us, Consumes s us s' ∧ R us b)
    (same : v a = a) : R (ts.map f.token) (w a) := by
  obtain ⟨s', hs', hc⟩ := reads (s := alone ts) (List.append_nil ts).symm rfl
    (Token.isEnd_endOf []) nofun
  have run := ((deeper rfl (Token.isEnd_endOf [])).ok hs').1
  rw [same] at run
  exact reading_elsewhere run hc elsewhere sound

/-- What is read in some levels is read elsewhere and in more of them. -/
theorem phrases_carry (f : Relocation) (comma : Prop) {depth depth' : Nat} (hle : depth ≤ depth') :
    (phrases comma depth).Carries (phrases True depth') f := by
  have reads := nested_reads comma depth depth
  have levels := levels_outlast depth depth' hle
  have elsewhere := levels_relocate f depth' depth'
  have sound := nested_sound depth' depth'
  refine ⟨fun {level ts e} h => ?_, fun {ts q} h => ?_⟩
  · refine carries_of_reads (reads.expr h (follows_of_endsExpr rfl _))
      (fun _ _ hend => levels.expr level hend) (elsewhere.expr level)
      (fun s e s' _ hend hs => ?_) (Node.expr.inj (Node.mapSpans_id (.expr e)))
    obtain ⟨ts, hc, reading, -⟩ := sound.expr level hend hs
    exact ⟨ts, hc, reading⟩
  · exact carries_of_reads (reads.query h rfl) (fun _ _ hend => levels.query hend)
      elsewhere.query (fun _ _ _ _ hend hs => sound.query hend hs)
      (Node.query.inj (Node.mapSpans_id (.query q)))

section

variable {comma : Prop} {depth depth' level : Nat} {ts : List Token} {left e : Expr} {q : Query}

theorem exprs_relocate (f : Relocation) (h : exprs comma depth level ts e) :
    exprs True depth level (ts.map f.token) (e.mapSpans f.span) :=
  (phrases_carry f comma (Nat.le_refl depth)).expr h

theorem queries_relocate (f : Relocation) (h : queries comma depth ts q) :
    queries True depth (ts.map f.token) (q.mapSpans f.span) :=
  (phrases_carry f comma (Nat.le_refl depth)).query h

theorem map_none (ts : List Token) : ts.map Relocation.none.token = ts := List.map_id ts

theorem Expr.mapSpans_none (e : Expr) : e.mapSpans Relocation.none.span = e :=
  Node.expr.inj (Node.mapSpans_id (.expr e))

theorem exprs_deepen (h : exprs comma depth level ts e) (hle : depth ≤ depth') :
    exprs True depth' level ts e := by
  have carried := (phrases_carry .none comma hle).expr h
  rw [map_none, Expr.mapSpans_none] at carried
  exact carried

theorem queries_deepen (h : queries comma depth ts q) (hle : depth ≤ depth') :
    queries True depth' ts q := by
  have carried := (phrases_carry .none comma hle).query h
  have same : q.mapSpans Relocation.none.span = q := Node.query.inj (Node.mapSpans_id (.query q))
  rw [map_none, same] at carried
  exact carried

theorem operand_deepen (h : IsOperand (phrases comma depth) ts e) (hle : depth ≤ depth') :
    IsOperand (phrases True depth') ts e := by
  have levels := (levels_outlast depth depth' hle).nested
  have deeper := (operand_leads (outlasting_comparison depth) levels).parallel
    (outlasting_comparison depth) (m := .free)
  have carried := carries_of_reads (R := IsOperand (phrases True depth'))
    (operand_reads (nested_reads comma depth depth) h (follows_of_endsExpr rfl _))
    (fun _ _ hend => deeper hend) (relocates_none _)
    (fun s e s' _ hend hs => by
      obtain ⟨ts, hc, reading, -⟩ := operand_sound (nested_sound depth' depth') hend hs
      exact ⟨ts, hc, reading⟩) (Expr.mapSpans_none e)
  rw [map_none] at carried
  exact carried

theorem fold_deepen {op : InfixOperator} (h : IsFold (phrases comma depth) left op ts e)
    (hle : depth ≤ depth') : IsFold (phrases True depth') left op ts e := by
  have levels := (levels_outlast depth depth' hle).nested
  have ahead : infixAhead (ts ++ []) = some op := infixAhead_of_isFold h
  rw [List.append_nil] at ahead
  have outlasts := outlasting_comparison depth
  have deeper := (foldInfix_leads outlasts levels (m := .inner) left op nofun).whole outlasts
  rw [Expr.mapSpans_none] at deeper
  have carried := carries_of_reads (R := IsFold (phrases True depth') left op)
    (foldInfix_reads (nested_reads comma depth depth) h (follows_of_endsExpr rfl _))
    (fun s htokens hend => deeper hend (isEnd_ahead_of_infixAhead hend (htokens ▸ ahead)))
    (relocates_none _)
    (fun s e s' htokens hend hs => by
      rw [map_none] at htokens
      obtain ⟨ts, hc, reading, -⟩ :=
        foldInfix_sound (nested_sound depth' depth') hend (htokens ▸ ahead) hs
      exact ⟨ts, hc, reading⟩) (Expr.mapSpans_none e)
  rw [map_none] at carried
  exact carried

end

theorem statement_relocate (f : Relocation) {comma : Prop} {depth : Nat} {ts : List Token}
    {s : Statement} (h : IsStatement (phrases comma depth) ts s) :
    IsStatement (phrases True depth) (ts.map f.token) (s.mapSpans f.span) := by
  have reads : Reads (statement depth) ts s [] := statement_reads h rfl
  obtain ⟨s', hs', hc⟩ := reads (s := alone ts) (List.append_nil ts).symm rfl
    (Token.isEnd_endOf []) nofun
  have elsewhere : Relocates f (Statement.mapSpans f.span) (statement depth) (statement depth) :=
    statement_of_levels (relocated_comparison f) (levels_relocate f depth depth)
  exact reading_elsewhere hs' hc elsewhere fun _ _ _ _ hend hs => statement_sound depth hend hs

end Grammar

end SqlSyntax
