import SqlSyntax.Parser.Nesting
import SqlSyntax.Proofs.Parser.Completeness.Query

/-!
# Completeness of the nesting parsers

With a number of levels left, the parsers of expressions and queries read what
takes as many. The induction is on that number, as it is for soundness.

## Main results

* `nested_reads` — the parsers with some levels left read the readings of that
  depth.
-/

namespace SqlSyntax.Parser

open Grammar

/-! ## Folding -/

theorem foldStep_reads_nothing {max level : Nat} {left : Expr}
    {deeper : Option (InfixOperator → Parser Expr)} {before rest : List Token}
    (hrest : StopsAt level rest) : ReadsAfter before (foldStep max level left deeper) [] left rest := by
  refine infixOperator?_bind ?_
  cases hop : infixAhead ([] ++ rest) with
  | none => exact .pure
  | some op =>
    show ReadsAfter before (if op.level ≤ level then _ else _) _ _ _
    rw [if_pos (hrest op hop)]
    exact .pure

/-- What follows an operand is open to the operand alone: it is the next operator
of the expression, or it ends the expression. -/
theorem follows_of_folds {comma : Prop} {depth level : Nat} {left e : Expr} {ts rest : List Token}
    (h : folds comma depth level left ts e) (hrest : Follows (min level e.openLevel) rest) :
    Follows left.openLevel (ts ++ rest) := by
  cases depth with
  | zero =>
    obtain ⟨rfl, rfl⟩ := (folds_zero ..).1 h
    exact hrest.mono (Nat.min_le_right _ _)
  | succ depth =>
    rcases (folds_succ ..).1 h with ⟨rfl, rfl⟩ | ⟨op, us, vs, m, rfl, hlevel, hopen, fold, -⟩
    · exact hrest.mono (Nat.min_le_right _ _)
    · rw [List.append_assoc]
      exact follows_of_isFold fold hopen

theorem foldAbove_reads {comma : Prop} {max depth level : Nat}
    (hsub : ∀ d < depth, ReadsNested (phrases comma d) (nested max d)) {left e : Expr}
    {ts rest : List Token} (h : folds comma depth level left ts e)
    (hrest : Follows (min level e.openLevel) rest) :
    Reads (foldAbove max depth level left) ts e rest := by
  have stops : StopsAt level rest := hrest.stops.mono (Nat.min_le_left _ _)
  induction depth generalizing left ts with
  | zero =>
    obtain ⟨rfl, rfl⟩ := (folds_zero ..).1 h
    exact foldStep_reads_nothing stops
  | succ depth ih =>
    rcases (folds_succ ..).1 h with ⟨rfl, rfl⟩ | ⟨op, us, vs, m, rfl, hlevel, -, fold, others⟩
    · exact foldStep_reads_nothing stops
    · have next : infixAhead (us ++ vs ++ rest) = some op := by
        rw [List.append_assoc]
        exact infixAhead_of_isFold fold
      refine infixOperator?_bind ?_
      rw [next]
      show ReadsAfter [] (if op.level ≤ level then _ else _) _ _ _
      rw [if_neg (Nat.not_le.2 hlevel)]
      exact .bind (foldInfix_reads (hsub depth (Nat.lt_succ_self _)) fold (follows_of_folds others hrest))
        (.after (ih (fun d hd => hsub d (Nat.lt_succ_of_lt hd)) others))

/-! ## Combining -/

/-- Behind a selection comes a set operator or the end of the query. -/
theorem combines_place {comma : Prop} {depth : Nat} {before : List Token} {left : QueryBody}
    {q : Query} {ts rest : List Token} (h : combines comma depth before left ts q) (hrest : AtClause 11 rest) :
    AtClause 8 (ts ++ rest) := by
  cases depth with
  | zero => exact (queryTail_place h hrest).mono (by decide)
  | succ depth =>
    rcases (combines_succ ..).1 h with tail | ⟨op, us, vs, b, rfl, operand, -⟩
    · exact (queryTail_place tail hrest).mono (by decide)
    · obtain ⟨kind, -, -⟩ := operand
      exact atClause_head kind (by cases op <;> exact Nat.le_refl 8)

theorem combine_reads {comma : Prop} {max depth : Nat}
    (hsub : ∀ d ≤ depth, ReadsNested (phrases comma d) (nested max d)) {before : List Token}
    (hbefore : before ≠ []) {left : QueryBody} {q : Query} {ts rest : List Token}
    (h : combines comma depth before left ts q) (hrest : AtClause 11 rest) :
    ReadsAfter before (combine max depth left) ts q rest := by
  have finish : ∀ d ≤ depth, ∀ {deeper : Option (SetOperator → Parser Query)} {b : List Token}
      {body : QueryBody} {us : List Token}, b ≠ [] → IsQueryTail (phrases comma d) b body us q →
      ReadsAfter b (combineStep max (nested max d) body deeper) us q rest := by
    intro d hd deeper b body us hb tail
    refine .bindNil (setOperator?_absent ?_) (queryTail_reads (hsub d hd) tail hb hrest)
    exact queryTail_place tail hrest
  induction depth generalizing before left ts with
  | zero =>
    rw [combine_eq]
    exact finish 0 (Nat.le_refl _) hbefore h
  | succ depth ih =>
    rw [combine_eq]
    rcases (combines_succ ..).1 h with tail | ⟨op, us, vs, b, rfl, operand, others⟩
    · exact finish _ (Nat.le_refl _) hbefore tail
    · have head : headKind (us ++ vs ++ rest) = .keyword op.keyword := by
        obtain ⟨kind, -, -⟩ := operand
        exact kind
      refine .bindNil (setOperator?_reads head) ?_
      exact .bind (.after (setOperand_reads (hsub depth (Nat.le_succ _)) operand
          (combines_place others hrest)))
        (ih (fun d hd => hsub d (Nat.le_succ_of_le hd)) (by simp [hbefore]) others
          fun d hd => finish d (Nat.le_succ_of_le hd))

/-! ## Every depth -/

/-- The parsers with `depth` levels left read the readings of that depth. -/
theorem nested_reads (comma : Prop) (max depth : Nat) :
    ReadsNested (phrases comma depth) (nested max depth) := by
  induction depth using Nat.strongRecOn with
  | ind depth ih =>
    cases depth with
    | zero => exact ⟨fun h _ => h.elim, fun h _ => h.elim, phrases_proper ..⟩
    | succ depth =>
      have hsub := ih depth (Nat.lt_succ_self _)
      refine ⟨fun h hrest => ?_, fun {_ _ rest} h hrest => ?_, phrases_proper ..⟩
      · obtain ⟨us, vs, o, rfl, operand, fold⟩ := h
        exact .bind (operand_reads hsub operand (follows_of_folds fold hrest))
          (.after (foldAbove_reads (fun d hd => ih d (Nat.lt_succ_of_lt hd)) fold hrest))
      · obtain ⟨us, vs, x, rfl, select, others⟩ := h
        have place := atClause_of_endsQuery hrest
        have read : Reads (Parser.select (nested max depth)) us x (vs ++ rest) :=
          select_reads hsub select (combines_place others place)
        have hne : us ≠ [] := by
          obtain ⟨_⟩ := select
          simp
        exact .bind read (combine_reads (fun d hd => ih d (Nat.lt_succ_of_le hd)) hne others place)

end SqlSyntax.Parser
