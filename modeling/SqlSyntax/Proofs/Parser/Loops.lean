import SqlSyntax.Proofs.Parser.Progress

/-!
# Folding and combining as loops

Operators are folded onto an operand, and selections are combined, by recursion on the levels
of nesting that are left. Both are loops as well: a round goes on with one level less, and it
consumes a token like the rounds of all other loops.

## Main results

* `foldAbove_eq`, `combine_eq_iterate` — folding and combining are loops.
* `LoopStep.progressive` — all loops of a parser have steps that consume tokens.
* `statement_consumes`, `script_length_le` — so does a statement, and a script has no more
  statements than tokens.
-/

namespace SqlSyntax

namespace Grammar

theorem IsFold.ne_nil {P : Phrases} {left e : Expr} {op : InfixOperator} {ts : List Token}
    (h : IsFold P left op ts e) : ts ≠ [] := by
  cases h <;> simp

theorem IsSetOperand.ne_nil {P : Phrases} {left b : QueryBody} {op : SetOperator}
    {ts : List Token} (h : IsSetOperand P left op ts b) : ts ≠ [] := by
  cases h
  exact List.cons_ne_nil _ _

/-- A script has a token for each of its statements. -/
theorem IsScript.length_le {P : Phrases} (hP : P.Proper) {ts : List Token} {ss : List Statement}
    (h : IsScript P ts ss) : ss.length ≤ ts.length := by
  induction h with
  | done => exact Nat.zero_le _
  | last _ statement =>
    obtain ⟨t, us, _, rfl, -⟩ := statement.starts hP
    simp only [List.length_append, List.length_cons, List.length_nil]
    omega
  | statement _ statement _ _ ih =>
    simp only [List.length_append, List.length_cons]
    omega

end Grammar

namespace Parser

open Grammar

variable {α β : Type}

/-! ## Folding -/

theorem bind_congr_first {p q : Parser α} {f : α → Parser β} {s : ParserState} (h : p s = q s) :
    (p >>= f) s = (q >>= f) s := by
  show EStateM.bind p f s = EStateM.bind q f s
  rw [EStateM.bind, EStateM.bind, h]

theorem tooDeep_bind (max : Nat) (f : α → Parser β) : (tooDeep max >>= f) = tooDeep max := by
  unfold tooDeep
  rw [bind_assoc]
  rfl

/-- Folds the next infix operator onto an operand, if it binds above `level`. What is left of
the levels of nesting stands before the operand. -/
def foldingStep (max level : Nat) (p : Nat × Expr) : Parser (Option (Nat × Expr)) := do
  match ← infixOperator? with
  | none => return none
  | some op =>
    if op.level ≤ level then return none
    else
      match p.1 with
      | 0 => tooDeep max
      | depth + 1 => return some (depth, ← foldInfix (nested max depth) p.2 op)

theorem foldingStep_progressive (max level : Nat) : Progressive (foldingStep max level) := by
  rintro ⟨depth, left⟩ p s s' isEnd h
  obtain ⟨o, s₁, found, h⟩ := bind_eq_ok.1 h
  obtain ⟨rfl, ahead⟩ := infixOperator?_eq_ok isEnd found
  cases o with
  | none => cases (pure_eq_ok.1 h).1
  | some op =>
    dsimp only at h
    split at h
    · cases (pure_eq_ok.1 h).1
    · cases depth with
      | zero => exact absurd h tooDeep_ne_ok
      | succ depth =>
        obtain ⟨e, s₂, fold, h⟩ := bind_eq_ok.1 h
        obtain ⟨-, rfl⟩ := pure_eq_ok.1 h
        obtain ⟨ts, consumes, isFold, -⟩ :=
          foldInfix_sound (nested_sound max depth) isEnd ahead fold
        exact ⟨ts, isFold.ne_nil, consumes⟩

/-- Folding is a loop. -/
theorem foldAbove_eq (max depth level : Nat) (left : Expr) {s : ParserState}
    (isEnd : s.finish.isEnd) : foldAbove max depth level left s = (do
      return (← iterate (foldingStep max level) (depth, left)).2 : Parser Expr) s := by
  have advances := (foldingStep_progressive max level).advances
  induction depth generalizing left s with
  | zero =>
    rw [bind_congr_first (iterate_eq advances _ isEnd), bind_assoc, foldingStep, bind_assoc]
    apply bind_congr_of_ok
    intro o s' _
    cases o with
    | none => rfl
    | some op =>
      dsimp only
      split
      · rfl
      · rw [tooDeep_bind]
  | succ depth ih =>
    rw [bind_congr_first (iterate_eq advances _ isEnd), bind_assoc, foldingStep, bind_assoc]
    apply bind_congr_of_ok
    intro o s' found
    cases o with
    | none => rfl
    | some op =>
      dsimp only
      split
      · rfl
      · obtain ⟨rfl, ahead⟩ := infixOperator?_eq_ok isEnd found
        rw [bind_assoc]
        apply bind_congr_of_ok
        intro e s₂ fold
        obtain ⟨ts, consumes, -⟩ := foldInfix_sound (nested_sound max depth) isEnd ahead fold
        exact ih e consumes.isEnd

/-! ## Combining -/

/-- Combines the next selection with those before it. What is left of the levels of nesting
stands before them. -/
def combiningStep (max : Nat) (p : Nat × QueryBody) : Parser (Option (Nat × QueryBody)) := do
  match ← setOperator? with
  | none => return none
  | some op =>
    match p.1 with
    | 0 => tooDeep max
    | depth + 1 => return some (depth, ← setOperand (nested max depth) p.2 op)

theorem combiningStep_progressive (max : Nat) : Progressive (combiningStep max) := by
  rintro ⟨depth, left⟩ p s s' isEnd h
  obtain ⟨o, s₁, found, h⟩ := bind_eq_ok.1 h
  rcases setOperator?_eq_ok isEnd found with ⟨rfl, -⟩ | ⟨op, rfl, rfl, kind⟩
  · cases (pure_eq_ok.1 h).1
  · cases depth with
    | zero => exact absurd h tooDeep_ne_ok
    | succ depth =>
      obtain ⟨b, s₂, operand, h⟩ := bind_eq_ok.1 h
      obtain ⟨-, rfl⟩ := pure_eq_ok.1 h
      obtain ⟨ts, consumes, isOperand⟩ :=
        setOperand_sound (nested_sound max depth) isEnd kind operand
      exact ⟨ts, isOperand.ne_nil, consumes⟩

/-- Combining is a loop, with the clauses at the end of the query behind it. -/
theorem combine_eq_iterate (max depth : Nat) (left : QueryBody) {s : ParserState}
    (isEnd : s.finish.isEnd) : combine max depth left s = (do
      let (depth, body) ← iterate (combiningStep max) (depth, left)
      queryTail (nested max depth) body : Parser Query) s := by
  have advances := (combiningStep_progressive max).advances
  induction depth generalizing left s with
  | zero =>
    rw [combine_eq, bind_congr_first (iterate_eq advances _ isEnd), bind_assoc, combiningStep,
      bind_assoc]
    apply bind_congr_of_ok
    intro o s' _
    cases o with
    | none => rfl
    | some op =>
      dsimp only
      rw [tooDeep_bind]
  | succ depth ih =>
    rw [combine_eq, bind_congr_first (iterate_eq advances _ isEnd), bind_assoc, combiningStep,
      bind_assoc]
    apply bind_congr_of_ok
    intro o s' found
    rcases setOperator?_eq_ok isEnd found with ⟨rfl, -⟩ | ⟨op, rfl, rfl, kind⟩
    · rfl
    · dsimp only
      rw [bind_assoc]
      apply bind_congr_of_ok
      intro b s₂ operand
      obtain ⟨ts, consumes, -⟩ := setOperand_sound (nested_sound max depth) isEnd kind operand
      exact ih b consumes.isEnd

/-! ## The loops -/

/-- The loops of a parser with `max` levels of nesting, each by its step. -/
inductive LoopStep (max : Nat) : ∀ {α : Type}, (α → Parser (Option α)) → Prop
  /-- `.name` in a dotted name. -/
  | dottedName : LoopStep max pairedStep
  | columns : LoopStep max (commaStep identifier)
  | exprs (depth : Nat) : LoopStep max (commaStep (nested max depth).wholeExpr)
  | whenBranches (depth : Nat) : LoopStep max (branchStep (nested max depth))
  /-- Operators that bind above a level. -/
  | operators (level : Nat) : LoopStep max (foldingStep max level)
  | joins (depth : Nat) : LoopStep max (joinStep (nested max depth))
  | tables (depth : Nat) : LoopStep max (commaStep (joinedTable (nested max depth)))
  | projection (depth : Nat) : LoopStep max (commaStep (selectItem (nested max depth)))
  | order (depth : Nat) : LoopStep max (commaStep (orderItem (nested max depth)))
  | setOperators : LoopStep max (combiningStep max)
  | rows (depth : Nat) : LoopStep max (commaStep (row (nested max depth)))
  | assignments (depth : Nat) : LoopStep max (commaStep (assignment (nested max depth)))
  | columnOptions (depth : Nat) : LoopStep max (optionStep (nested max depth))
  | tableElements (depth : Nat) : LoopStep max (commaStep (tableElement (nested max depth)))
  | semicolons : LoopStep max semicolonStep
  | statements : LoopStep max (scriptStep max)

theorem LoopStep.progressive {max : Nat} {step : α → Parser (Option α)}
    (h : LoopStep max step) : Progressive step := by
  cases h with
  | dottedName => exact pairedStep_progressive
  | columns => exact commaStep_progressive identifier_sound
  | exprs depth => exact commaStep_progressive (nested_sound max depth).wholeExpr
  | whenBranches depth => exact branchStep_progressive (nested_sound max depth)
  | operators level => exact foldingStep_progressive max level
  | joins depth => exact joinStep_progressive (nested_sound max depth)
  | tables depth => exact commaStep_progressive (joinedTable_sound (nested_sound max depth))
  | projection depth => exact commaStep_progressive (selectItem_sound (nested_sound max depth))
  | order depth => exact commaStep_progressive (orderItem_sound (nested_sound max depth))
  | setOperators => exact combiningStep_progressive max
  | rows depth =>
    have row := parenthesized_sound (commaSeparated_sound (nested_sound max depth).wholeExpr)
    exact commaStep_progressive row
  | assignments depth => exact commaStep_progressive (assignment_sound (nested_sound max depth))
  | columnOptions depth => exact optionStep_progressive (nested_sound max depth)
  | tableElements depth =>
    exact commaStep_progressive (tableElement_sound (nested_sound max depth))
  | semicolons => exact semicolonStep_progressive
  | statements => exact scriptStep_progressive max

/-! ## Statements -/

/-- A statement consumes tokens. -/
theorem statement_consumes {max : Nat} {s s' : ParserState} {x : Statement}
    (isEnd : s.finish.isEnd) (h : statement max s = .ok x s') :
    ∃ ts, ts ≠ [] ∧ Consumes s ts s' := by
  obtain ⟨ts, consumes, isStatement⟩ := statement_sound max isEnd h
  obtain ⟨t, us, _, rfl, -⟩ := isStatement.starts (phrases_proper True max)
  exact ⟨_, List.cons_ne_nil _ _, consumes⟩

/-- A script consumes a token for each of its statements. -/
theorem script_length_le {max : Nat} {s s' : ParserState} {ss : List Statement}
    (isEnd : s.finish.isEnd) (h : script max s = .ok ss s') :
    ∃ ts, ss.length ≤ ts.length ∧ Consumes s ts s' := by
  obtain ⟨ts, consumes, isScript, -⟩ := script_sound isEnd h
  exact ⟨ts, isScript.length_le (phrases_proper True max), consumes⟩

end Parser

end SqlSyntax
