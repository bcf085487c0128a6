import SqlSyntax.Parser.Nesting
import SqlSyntax.Proofs.Parser.Soundness.Query

/-!
# Soundness of the nesting parsers

With a number of levels left, the parsers of expressions and queries are sound
for the readings that take as many. The induction is on that number; inside it,
the loops that fold infix operators and combine selections use a level for each
round, so they are inductions on the same number.

## Main results

* `nested_sound` — the parsers with some levels left are sound for the readings
  of that depth.
-/

namespace SqlSyntax.Parser

open Grammar

theorem tooDeep_ne_ok {α : Type} {max : Nat} {a : α} {s s' : ParserState} :
    (tooDeep max : Parser α) s ≠ .ok a s' := by
  intro h
  obtain ⟨t, s₁, -, h⟩ := bind_eq_ok.1 h
  exact nomatch h

/-! ## Folding -/

/-- A round of folding ends the expression or folds the operator that comes
next, which binds above the level. -/
theorem foldStep_eq_ok {max level : Nat} {left e : Expr}
    {deeper : Option (InfixOperator → Parser Expr)} {s s' : ParserState} (hend : s.finish.isEnd)
    (h : foldStep max level left deeper s = .ok e s') :
    (e = left ∧ s = s' ∧ StopsAt level s.tokens) ∨
      ∃ op go, deeper = some go ∧ infixAhead s.tokens = some op ∧ level < op.level ∧
        go op s = .ok e s' := by
  obtain ⟨o, s₁, hop, h⟩ := bind_eq_ok.1 h
  obtain ⟨rfl, rfl⟩ := infixOperator?_eq_ok hend hop
  cases hop : infixAhead s.tokens with
  | none =>
    simp only [hop] at h
    obtain ⟨rfl, rfl⟩ := pure_eq_ok.1 h
    exact .inl ⟨rfl, rfl, fun op hop' => by simp [hop] at hop'⟩
  | some op =>
    simp only [hop] at h
    split at h
    · rename_i hle
      obtain ⟨rfl, rfl⟩ := pure_eq_ok.1 h
      refine .inl ⟨rfl, rfl, fun op' hop' => ?_⟩
      rw [hop] at hop'
      exact Option.some.inj hop' ▸ hle
    · rename_i hlt
      cases deeper with
      | none => exact absurd h tooDeep_ne_ok
      | some go => exact .inr ⟨op, go, rfl, rfl, Nat.lt_of_not_le hlt, h⟩

/-- Folding keeps the operators behind an expression out of it: none of them
would be drawn into `left`, and in the end none into the whole. -/
theorem foldAbove_sound {max depth level : Nat}
    (hsub : ∀ d < depth, SoundNested (phrases True d) (nested max d)) {left e : Expr}
    {s s' : ParserState} (hend : s.finish.isEnd) (hleft : StopsAt left.openLevel s.tokens)
    (h : foldAbove max depth level left s = .ok e s') :
    ∃ ts, Consumes s ts s' ∧ folds True depth level left ts e ∧
      StopsAt (min level e.openLevel) s'.tokens := by
  induction depth generalizing left s with
  | zero =>
    rcases foldStep_eq_ok hend h with ⟨rfl, rfl, hstops⟩ | ⟨op, go, hgo, -⟩
    · exact ⟨[], .refl hend, folds_nil .., hstops.min hleft⟩
    · exact nomatch hgo
  | succ depth ih =>
    rcases foldStep_eq_ok hend h with ⟨rfl, rfl, hstops⟩ | ⟨op, go, hgo, hop, hlevel, h⟩
    · exact ⟨[], .refl hend, folds_nil .., hstops.min hleft⟩
    · obtain rfl := Option.some.inj hgo
      obtain ⟨m, s₁, hfold, h⟩ := bind_eq_ok.1 h
      obtain ⟨us, hc₁, fold, hm⟩ :=
        foldInfix_sound (hsub depth (Nat.lt_succ_self _)) hend hop hfold
      obtain ⟨vs, hc₂, others, hstops⟩ :=
        ih (fun d hd => hsub d (Nat.lt_succ_of_lt hd)) hc₁.isEnd hm h
      exact ⟨us ++ vs, hc₁.trans hc₂,
        .inr ⟨op, us, vs, m, rfl, hlevel, hleft op hop, fold, others⟩, hstops⟩

/-! ## Combining -/

theorem combine_sound {max depth : Nat}
    (hsub : ∀ d ≤ depth, SoundNested (phrases True d) (nested max d)) {before : List Token}
    (hbefore : before ≠ []) {left : QueryBody} {q : Query} {s₀ s s' : ParserState}
    (hc₀ : Consumes s₀ before s) (h : combine max depth left s = .ok q s') :
    ∃ ts, Consumes s ts s' ∧ combines True depth before left ts q := by
  induction depth generalizing before left s with
  | zero =>
    rw [combine_eq] at h
    obtain ⟨o, s₁, hop, h⟩ := bind_eq_ok.1 h
    rcases setOperator?_eq_ok hc₀.isEnd hop with ⟨rfl, hc₁⟩ | ⟨op, rfl, rfl, kind⟩
    · have hc := hc₀.trans hc₁
      rw [List.append_nil] at hc
      obtain ⟨ts, hc₂, tail⟩ := queryTail_sound (hsub 0 (Nat.le_refl _)) hc hbefore h
      exact ⟨ts, hc₁.trans hc₂, tail⟩
    · exact absurd h tooDeep_ne_ok
  | succ depth ih =>
    rw [combine_eq] at h
    obtain ⟨o, s₁, hop, h⟩ := bind_eq_ok.1 h
    rcases setOperator?_eq_ok hc₀.isEnd hop with ⟨rfl, hc₁⟩ | ⟨op, rfl, rfl, kind⟩
    · have hc := hc₀.trans hc₁
      rw [List.append_nil] at hc
      obtain ⟨ts, hc₂, tail⟩ := queryTail_sound (hsub _ (Nat.le_refl _)) hc hbefore h
      exact ⟨ts, hc₁.trans hc₂, .inl tail⟩
    · obtain ⟨b, s₂, hoperand, h⟩ := bind_eq_ok.1 h
      obtain ⟨us, hc₁, operand⟩ :=
        setOperand_sound (hsub depth (Nat.le_succ _)) hc₀.isEnd kind hoperand
      obtain ⟨vs, hc₂, others⟩ := ih (fun d hd => hsub d (Nat.le_succ_of_le hd))
        (by simp [hbefore]) (hc₀.trans hc₁) h
      exact ⟨us ++ vs, hc₁.trans hc₂, .inr ⟨op, us, vs, b, rfl, operand, others⟩⟩

/-! ## Every depth -/

/-- The parsers with `depth` levels left are sound for the readings of that
depth. -/
theorem nested_sound (max depth : Nat) : SoundNested (phrases True depth) (nested max depth) := by
  induction depth using Nat.strongRecOn with
  | ind depth ih =>
    cases depth with
    | zero =>
      exact ⟨fun _ _ _ _ _ h => absurd h tooDeep_ne_ok, fun _ _ _ _ h => absurd h tooDeep_ne_ok,
        phrases_proper .., trivial⟩
    | succ depth =>
      have hsub := ih depth (Nat.lt_succ_self _)
      refine ⟨fun level s e s' hend h => ?_, fun s q s' hend h => ?_, phrases_proper .., trivial⟩
      · obtain ⟨o, s₁, hoperand, h⟩ := bind_eq_ok.1 h
        obtain ⟨us, hc₁, operand, hstops⟩ := operand_sound hsub hend hoperand
        obtain ⟨vs, hc₂, fold, hstops⟩ :=
          foldAbove_sound (fun d hd => ih d (Nat.lt_succ_of_lt hd)) hc₁.isEnd hstops h
        exact ⟨us ++ vs, hc₁.trans hc₂, ⟨us, vs, o, rfl, operand, fold⟩, hstops⟩
      · obtain ⟨x, s₁, hselect, h⟩ := bind_eq_ok.1 h
        obtain ⟨us, hc₁, select⟩ := select_sound hsub hend hselect
        have hne : us ≠ [] := by
          obtain ⟨_⟩ := select
          simp
        obtain ⟨vs, hc₂, others⟩ :=
          combine_sound (fun d hd => ih d (Nat.lt_succ_of_le hd)) hne hc₁ h
        exact ⟨us ++ vs, hc₁.trans hc₂, us, vs, x, rfl, select, others⟩

end SqlSyntax.Parser
