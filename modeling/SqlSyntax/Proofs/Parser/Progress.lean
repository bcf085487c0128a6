import SqlSyntax.Proofs.Parser.Fallbacks
import SqlSyntax.Proofs.Parser.Script

/-!
# Loops consume tokens

A loop is given a budget, the tokens at hand when it starts. The budget is never
what ends it: each step that is followed by another one has consumed a token, so
a loop that starts on some tokens takes no more steps than there are of them.

The steps of the loops have names here, and each loop is shown to be the one with
this step.

## Main results

* `iterate_eq` — a loop whose steps leave fewer tokens is a step and the loop from there on.
* `SoundStep.progressive` — a step that is sound for readings of one token or more
  consumes a token.
* `commaStep_progressive`, `pairedStep_progressive`, `branchStep_progressive`,
  `joinStep_progressive`, `optionStep_progressive`, `semicolonStep_progressive`,
  `scriptStep_progressive` — the steps of all loops do.
-/

namespace SqlSyntax

namespace Grammar

theorem Behind.ne_nil {α : Type} {k : TokenKind} {R : List Token → α → Prop} {ts : List Token}
    {a : α} (h : Behind k R ts a) : ts ≠ [] := by
  cases h
  exact List.cons_ne_nil _ _

theorem IsColumnOption.ne_nil {P : Phrases} {ts : List Token} {o : ColumnOption}
    (h : IsColumnOption P ts o) : ts ≠ [] := by
  cases h with
  | null words | notNull words | primaryKey words | unique words =>
    cases words
    exact List.cons_ne_nil _ _
  | default value => exact value.ne_nil

end Grammar

namespace Parser

open Grammar

variable {α : Type}

/-- Whether a step leaves fewer tokens whenever another one is to follow. -/
def Advances (step : α → Parser (Option α)) : Prop :=
  ∀ ⦃a b s s'⦄, s.finish.isEnd → step a s = .ok (some b) s' →
    s'.finish.isEnd ∧ s'.tokens.length < s.tokens.length

theorem Consumes.length_lt {s s' : ParserState} {ts : List Token} (h : Consumes s ts s')
    (hne : ts ≠ []) : s'.tokens.length < s.tokens.length := by
  have tokens := congrArg List.length h.tokens
  have := List.length_pos_iff.2 hne
  rw [List.length_append] at tokens
  omega

/-- Whether a step consumes tokens whenever another one is to follow. -/
def Progressive (step : α → Parser (Option α)) : Prop :=
  ∀ ⦃a b s s'⦄, s.finish.isEnd → step a s = .ok (some b) s' → ∃ ts, ts ≠ [] ∧ Consumes s ts s'

theorem Progressive.advances {step : α → Parser (Option α)} (h : Progressive step) :
    Advances step := by
  intro a b s s' hend run
  obtain ⟨ts, nonempty, consumes⟩ := h hend run
  exact ⟨consumes.isEnd, consumes.length_lt nonempty⟩

theorem SoundStep.progressive {step : α → Parser (Option α)} {R : α → List Token → α → Prop}
    (sound : SoundStep step R) (hne : ∀ {a ts b}, R a ts b → ts ≠ []) : Progressive step := by
  intro a b s s' hend h
  rcases sound hend h with ⟨absent, -⟩ | ⟨_, ts, -, hc, hr⟩
  · cases absent
  · exact ⟨ts, hne hr, hc⟩

/-! ## A loop and its first step -/

section

variable {step : α → Parser (Option α)} (advances : Advances step)

include advances

/-- A loop has the same outcome under all budgets that hold as many tokens as there are. -/
theorem iterateWithin_congr {budget budget' : List Token} (a : α) {s : ParserState}
    (isEnd : s.finish.isEnd) (enough : s.tokens.length ≤ budget.length)
    (enough' : s.tokens.length ≤ budget'.length) :
    iterateWithin step budget a s = iterateWithin step budget' a s := by
  induction budget generalizing budget' a s with
  | nil =>
    -- There are no tokens, so there is no step that another one follows.
    have last (b : α) (s' : ParserState) : step a s ≠ .ok (some b) s' := by
      intro run
      have fewer := (advances isEnd run).2
      rw [List.length_nil] at enough
      omega
    cases budget' with
    | nil => rfl
    | cons t budget' =>
      apply bind_congr_of_ok
      intro o s' run
      cases o with
      | none => rfl
      | some b => exact absurd run (last b s')
  | cons t budget ih =>
    cases budget' with
    | nil =>
      apply bind_congr_of_ok
      intro o s' run
      cases o with
      | none => rfl
      | some b =>
        have fewer := (advances isEnd run).2
        rw [List.length_nil] at enough'
        omega
    | cons t' budget' =>
      apply bind_congr_of_ok
      intro o s' run
      cases o with
      | none => rfl
      | some b =>
        obtain ⟨isEnd', fewer⟩ := advances isEnd run
        rw [List.length_cons] at enough enough'
        exact ih b isEnd' (by omega) (by omega)

/-- A loop is a step and, if the step has a result, the loop from there on. -/
theorem iterate_eq (a : α) {s : ParserState} (isEnd : s.finish.isEnd) :
    iterate step a s = (do
      match ← step a with
      | none => return a
      | some b => iterate step b : Parser α) s := by
  have more : iterate step a s = iterateWithin step (s.finish :: s.tokens) a s :=
    iterateWithin_congr advances a isEnd (Nat.le_refl _) (Nat.le_succ _)
  rw [more]
  apply bind_congr_of_ok
  intro o s' run
  cases o with
  | none => rfl
  | some b =>
    obtain ⟨isEnd', fewer⟩ := advances isEnd run
    exact iterateWithin_congr advances b isEnd' (Nat.le_of_lt fewer) (Nat.le_refl _)

end

/-! ## The loops -/

/-- A comma and an item. -/
def commaStep (item : Parser α) (items : List α) : Parser (Option (List α)) := do
  match ← punctuation? .comma with
  | some _ => return some ((← item) :: items)
  | none => return none

theorem commaSeparated_eq (item : Parser α) : commaSeparated item = (do
    let first ← item
    let others ← iterate (commaStep item) []
    return first :: others.reverse) := rfl

theorem commaStep_progressive {item : Parser α} {R : List Token → α → Prop}
    (hitem : Sound item R) : Progressive (commaStep item) :=
  (commaStep_sound hitem).progressive fun ⟨_, _, h⟩ => h.ne_nil

theorem qualifiedName_eq : qualifiedName = (do
    let first ← identifier
    let (before, base) ← iterate pairedStep ([], first)
    return ⟨first.span.union base.span, before.reverse, base⟩) := rfl

theorem pairedStep_progressive : Progressive pairedStep :=
  nameStep_sound.progressive fun h => h.2.ne_nil

/-- A semicolon. -/
def semicolonStep (_ : Unit) : Parser (Option Unit) := do
  match ← punctuation? .semicolon with
  | some _ => return some ()
  | none => return none

theorem skipSemicolons_eq : skipSemicolons = iterate semicolonStep () := rfl

theorem semicolonStep_progressive : Progressive semicolonStep := by
  intro _ _ s s' hend h
  obtain ⟨o, s₁, hs, h⟩ := bind_eq_ok.1 h
  rcases punctuation?_eq_ok hend hs with ⟨rfl, -⟩ | ⟨t, -, rfl, hc⟩
  · cases (pure_eq_ok.1 h).1
  · obtain ⟨-, rfl⟩ := pure_eq_ok.1 h
    exact ⟨[t], by simp, hc⟩

theorem scriptStep_progressive (max : Nat) : Progressive (scriptStep max) := by
  intro ss ss' s s' hend h
  rcases scriptStep_sound hend h with ⟨absent, -⟩ | ⟨us, ts, vs, x, -, hc, -, statement, -⟩
  · cases absent
  · obtain ⟨t, ts, -, rfl, -⟩ := statement.starts (phrases_proper True max)
    exact ⟨_, by simp, hc⟩

section

variable {P : Phrases} {sub : Nested} (hsub : SoundNested P sub)

/-- `WHEN` and what follows it. -/
def branchStep (sub : Nested) (branches : List WhenBranch) :
    Parser (Option (List WhenBranch)) := do
  match ← keyword? .WHEN with
  | some span => return some ((← whenBranch sub span) :: branches)
  | none => return none

theorem caseExpr_eq (sub : Nested) : caseExpr sub = (do
    let start ← keyword .CASE
    let operand ← do
      if (← peek).kind == .keyword .WHEN then pure none
      else pure (some (← sub.wholeExpr))
    let first ← whenBranch sub (← keyword .WHEN)
    let others ← iterate (branchStep sub) []
    let otherwise ← do
      match ← keyword? .ELSE with
      | some _ => pure (some (← sub.wholeExpr))
      | none => pure none
    let _ ← keyword .END
    return ⟨← spanFrom start, .case operand (first :: others.reverse) otherwise⟩) := rfl

/-- A join. -/
def joinStep (sub : Nested) (joins : List Join) : Parser (Option (List Join)) := do
  match ← join? sub with
  | some j => return some (j :: joins)
  | none => return none

theorem joinedTable_eq (sub : Nested) : joinedTable sub = (do
    let relation ← relation sub
    let joins ← iterate (joinStep sub) []
    return ⟨← spanFrom relation.span, relation, joins.reverse⟩) := rfl

/-- An option of a column. -/
def optionStep (sub : Nested) (options : List ColumnOption) :
    Parser (Option (List ColumnOption)) := do
  match ← columnOption? sub with
  | some o => return some (o :: options)
  | none => return none

theorem columnDefinition_eq (sub : Nested) : columnDefinition sub = (do
    let name ← identifier
    let type ← dataType
    let options ← iterate (optionStep sub) []
    return ⟨← spanFrom name.span, name, type, options.reverse⟩) := rfl

include hsub

theorem branchStep_progressive : Progressive (branchStep sub) := by
  refine (branchStep_sound hsub).progressive fun ⟨_, _, h⟩ => ?_
  cases h
  exact List.cons_ne_nil _ _

theorem joinStep_progressive : Progressive (joinStep sub) := by
  refine SoundStep.progressive
    (optionalStep_sound (join?_sound hsub) (by intros; rfl) (by intros; rfl)) fun ⟨_, _, h⟩ => ?_
  cases h
  exact List.cons_ne_nil _ _

theorem optionStep_progressive : Progressive (optionStep sub) := by
  exact SoundStep.progressive
    (optionalStep_sound (columnOption?_sound hsub) (by intros; rfl) (by intros; rfl))
    fun ⟨_, _, h⟩ => h.ne_nil

end

end Parser

end SqlSyntax
