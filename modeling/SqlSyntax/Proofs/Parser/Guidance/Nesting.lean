import SqlSyntax.Proofs.Parser.Guidance.Query
import SqlSyntax.Proofs.Parser.Relocation
import SqlSyntax.Proofs.Parser.Soundness.Nesting

/-!
# Guidance of the nesting parsers

What is noted where no level is left may take a level to go on, so the parsers
with some levels left guide to the readings that take one more. A failure for
want of levels is no syntax error and lists nothing.

## Main results

* `nested_guides` — the parsers with some levels left guide to the readings of
  the depth above.
-/

namespace SqlSyntax.Parser

open Grammar Expectation

variable {V : Beginnings} {before : List Token} {s : ParserState} {max depth level : Nat}

theorem tooDeep_guides {α : Type} (ready : Ready V before s) :
    Guides V before (tooDeep max : Parser α) s :=
  .bindPeek ready trivial

/-- The parsers with some levels left are sound for the readings of the depth
above. -/
theorem nested_sound_deeper (max depth : Nat) :
    SoundNested (phrases True (depth + 1)) (nested max depth) where
  expr level _ _ _ hend h := by
    obtain ⟨ts, hc, he, hstops⟩ := (nested_sound max depth).expr level hend h
    exact ⟨ts, hc, exprs_deepen he (Nat.le_succ depth), hstops⟩
  query _ _ _ hend h := by
    obtain ⟨ts, hc, hq⟩ := (nested_sound max depth).query hend h
    exact ⟨ts, hc, queries_deepen hq (Nat.le_succ depth)⟩
  proper := phrases_proper ..
  comma := trivial

/-! ## Phrases of every depth -/

theorem someExpr_succ (depth level : Nat) : ∃ ts e, exprs True (depth + 1) level ts e := by
  obtain ⟨ts, n, hn⟩ := someName
  exact ⟨_, _, _, [], _, rfl, .column hn, folds_nil ..⟩

theorem combines_nil (depth : Nat) (before : List Token) (left : QueryBody) :
    ∃ q, combines True depth before left [] q := by
  have tail : IsQueryTail (phrases True depth) before left ([] ++ []) _ := .intro .none .none
  exact ⟨_, combines_of_tail tail⟩

theorem someQuery_succ (depth : Nat) : ∃ ts q, queries True (depth + 1) ts q := by
  obtain ⟨ts, s, hs⟩ := someSelect (phrases True depth)
  obtain ⟨q, hq⟩ := combines_nil depth ts (.select s)
  exact ⟨_, q, ts, [], s, rfl, hs, hq⟩

/-! ## Folding -/

theorem foldStep_guides {left : Expr} {deeper : Option (InfixOperator → Parser Expr)}
    (ready : Ready V before s)
    (hgo : ∀ op go, deeper = some go → infixAhead s.tokens = some op → level < op.level →
      Guides V before (go op) s) : Guides V before (foldStep max level left deeper) s := by
  refine .bindLook ready (infixOperator?_guides ready)
    (fun _ _ h => infixOperator?_eq_ok ready.isEnd h) fun o hop => ?_
  cases o with
  | none => exact .pure ready
  | some op =>
    show Guides V before (if op.level ≤ level then pure left else _) s
    split
    · exact .pure ready
    · rename_i hlt
      cases deeper with
      | none => exact tooDeep_guides ready
      | some go => exact hgo op go rfl hop (Nat.lt_of_not_le hlt)

/-- Behind an expression that is folded so far, others can be folded on. -/
theorem foldAbove_guides
    (hsub : ∀ d < depth, GuidesNested V (phrases True (d + 1)) (nested max d)) {left : Expr}
    (hleft : StopsAt left.openLevel s.tokens) (h : Fits V before (folds True (depth + 1) level left))
    (ready : Ready V before s) : Guides V before (foldAbove max depth level left) s := by
  induction depth generalizing before left s with
  | zero => exact foldStep_guides ready nofun
  | succ depth ih =>
    refine foldStep_guides ready fun op go hgo hop hlevel => ?_
    obtain rfl := Option.some.inj hgo
    have nested := hsub depth (Nat.lt_succ_self _)
    have onward : ∀ {us vs m e}, IsFold (phrases True (depth + 1)) left op us m →
        folds True (depth + 1) level m vs e → V.holds (before ++ (us ++ vs)) :=
      fun fold others => h (.inr ⟨op, _, _, _, rfl, hlevel, hleft op hop, fold, others⟩)
    refine .bind (foldInfix_guides nested hop
      (fun us m fold => V.of_prefix (onward fold (folds_nil ..)) (by simp)) ready)
      (fun _ _ hfold => foldInfix_sound nested.sound ready.isEnd hop hfold)
      fun m s₁ us _ ready₁ fold => ?_
    refine ih (fun d hd => hsub d (Nat.lt_succ_of_lt hd)) fold.2 (fun vs e others => ?_) ready₁
    exact V.of_prefix (onward fold.1 others) (by simp)

/-! ## Combining -/

theorem offers_setOperator {from_ : List Token} {left : QueryBody}
    (h : Fits V before (combines True (depth + 1) from_ left)) (op : SetOperator) (t : Token)
    (kind : t.kind = .keyword op.keyword) : V.holds (before ++ [t]) := by
  obtain ⟨ts, x, select⟩ := someSelect (phrases True depth)
  obtain ⟨q, tail⟩ := combines_nil depth (from_ ++ t :: ([] ++ ts))
    (.setOperation (left.span.union x.span) left op false x)
  exact h.part (.inr ⟨op, _, _, _, rfl, .intro kind .absent select, tail⟩) (by simp)

theorem combineStep_guides {P : Phrases} {sub : Nested} {from_ : List Token} {left : QueryBody}
    {deeper : Option (SetOperator → Parser Query)} (hsub : GuidesNested V P sub)
    (offers : ∀ (op : SetOperator) (t : Token), t.kind = .keyword op.keyword →
      V.holds (before ++ [t]))
    (tail : Fits V before (IsQueryTail P from_ left)) (ready : Ready V before s)
    (hgo : ∀ op go, deeper = some go → (ahead s).kind = .keyword op.keyword →
      Guides V before (go op) s) : Guides V before (combineStep max sub left deeper) s := by
  refine (setOperator?_guides offers ready).bind
    (Q := fun ts o s' => ts = [] ∧
      (o = none ∨ ∃ op, o = some op ∧ s = s' ∧ (ahead s).kind = .keyword op.keyword))
    (fun o s' hop => ?_) ?_
  · rcases setOperator?_eq_ok ready.isEnd hop with ⟨rfl, hc⟩ | ⟨op, rfl, rfl, kind⟩
    · exact ⟨[], hc, rfl, .inl rfl⟩
    · exact ⟨[], .refl ready.isEnd, rfl, .inr ⟨op, rfl, rfl, kind⟩⟩
  · rintro o s' ts - ready' ⟨rfl, rfl | ⟨op, rfl, rfl, kind⟩⟩
    all_goals rw [List.append_nil] at ready' ⊢
    · exact queryTail_guides hsub tail ready'
    · cases deeper with
      | none => exact tooDeep_guides ready
      | some go => exact hgo op go rfl kind

/-- Behind a query that is combined so far, others can be combined with it. -/
theorem combine_guides
    (hsub : ∀ d ≤ depth, GuidesNested V (phrases True (d + 1)) (nested max d))
    {from_ : List Token} {left : QueryBody}
    (h : Fits V before (combines True (depth + 1) from_ left)) (ready : Ready V before s) :
    Guides V before (combine max depth left) s := by
  induction depth generalizing before from_ left s with
  | zero =>
    rw [combine_eq]
    exact combineStep_guides (hsub 0 (Nat.le_refl _)) (offers_setOperator h)
      (fun ts q tail => h (.inl tail)) ready nofun
  | succ depth ih =>
    rw [combine_eq]
    refine combineStep_guides (hsub _ (Nat.le_refl _)) (offers_setOperator h)
      (fun ts q tail => h (.inl tail)) ready fun op go hgo kind => ?_
    obtain rfl := Option.some.inj hgo
    have nested := hsub depth (Nat.le_succ _)
    have onward : ∀ {us vs b q}, IsSetOperand (phrases True (depth + 1)) left op us b →
        combines True (depth + 1) (from_ ++ us) b vs q → V.holds (before ++ (us ++ vs)) :=
      fun operand others => h (.inr ⟨op, _, _, _, rfl, operand, others⟩)
    refine .bind (setOperand_guides nested kind (fun us b operand => ?_) ready)
      (fun _ _ ho => setOperand_sound nested.sound ready.isEnd kind ho)
      fun b s₁ us _ ready₁ operand => ?_
    · obtain ⟨q, hq⟩ := combines_nil (depth + 1) (from_ ++ us) b
      exact V.of_prefix (onward operand hq) (by simp)
    · exact ih (fun d hd => hsub d (Nat.le_succ_of_le hd))
        (fun vs q others => V.of_prefix (onward operand others) (by simp)) ready₁

/-! ## Every depth -/

theorem nested_guides (V : Beginnings) (max depth : Nat) :
    GuidesNested V (phrases True (depth + 1)) (nested max depth) := by
  induction depth using Nat.strongRecOn with
  | ind depth ih =>
    refine ⟨nested_sound_deeper max depth, fun level => ?_, ?_, someExpr_succ depth,
      someQuery_succ depth⟩
    all_goals intro before s h ready
    all_goals cases depth with
    | zero => exact tooDeep_guides ready
    | succ depth => ?_
    all_goals have hsub := ih depth (Nat.lt_succ_self _)
    · have onward : ∀ {os fs o e}, IsOperand (phrases True (depth + 1)) os o →
          folds True (depth + 1) level o fs e → V.holds (before ++ (os ++ fs)) :=
        fun operand others => h ⟨_, _, _, rfl, operand, others⟩
      refine .bind (operand_guides hsub
        (fun os o operand => V.of_prefix (onward operand (folds_nil ..)) (by simp)) ready)
        (fun _ _ ho => operand_sound hsub.sound ready.isEnd ho)
        fun o s₁ os _ ready₁ operand => ?_
      exact foldAbove_guides (fun d hd => ih d (Nat.lt_succ_of_lt hd)) operand.2
        (fun fs e others => V.of_prefix (onward operand.1 others) (by simp)) ready₁
    · have onward : ∀ {ss cs x q}, IsSelect (phrases True (depth + 1)) ss x →
          combines True (depth + 1) ss (.select x) cs q → V.holds (before ++ (ss ++ cs)) :=
        fun select others => h ⟨_, _, _, rfl, select, others⟩
      refine .bindSound ready (select_sound hsub.sound) (select_guides hsub (fun ss x hx => ?_)
        ready) fun x s₁ ss _ ready₁ select => ?_
      · obtain ⟨q, hq⟩ := combines_nil (depth + 1) ss (.select x)
        exact V.of_prefix (onward hx hq) (by simp)
      · exact combine_guides (fun d hd => ih d (Nat.lt_succ_of_le hd))
          (fun cs q others => V.of_prefix (onward select others) (by simp)) ready₁

end SqlSyntax.Parser
