import Mathlib.Order.MinMax
import SqlSyntax.Parser.Expr
import SqlSyntax.Proofs.Tree.Spans
import SqlSyntax.Tree.Expressions

/-!
# Precedence in syntax trees

Which trees operator precedence allows, said about trees alone. Two edges of an
expression matter. Its *left edge* meets the operators around it from the left:
`leftLevels` lists the levels of the infix operators down that edge, and the
expression can be a right operand above a level only if all of them bind above
it. Its *right edge* meets what follows: `openLevel` is the highest level at
which an operator behind the expression is not drawn into it, so an infix
operator can take the expression as its left operand only up to that level.

An `IS` or `IN` predicate ends with a token of its own, its test or its closing
parenthesis. Nothing behind it can be drawn into it, and any operator can take
it as its left operand.

## Main results

* `Expr.fitsLeft_of_le_openLevel`, `Expr.le_openLevel_of_fitsLeft` — an
  expression is open up to a level exactly when it can be the left operand of
  an operator of that level.
* `Expr.RespectsLevels.operandsFit` — where left edges ascend, it is enough to
  compare an operator with those of its operands.
-/

namespace SqlSyntax

namespace Expr

/-! ## Edges -/

/-- Level of the operator of an infix expression. -/
def level? : Expr → Option Nat
  | ⟨_, .binary op _ _⟩ => some op.level
  | ⟨_, .is ..⟩ | ⟨_, .inList ..⟩ | ⟨_, .inQuery ..⟩ | ⟨_, .between ..⟩ | ⟨_, .like ..⟩ =>
    some predicateLevel
  | _ => none

/-- Levels of the infix operators down the left edge, outermost first. -/
def leftLevels : Expr → List Nat
  | ⟨_, .binary op l _⟩ => op.level :: l.leftLevels
  | ⟨_, .is l _ _⟩ | ⟨_, .inList l _ _⟩ | ⟨_, .inQuery l _ _⟩ | ⟨_, .between l _ _ _⟩
  | ⟨_, .like l _ _⟩ => predicateLevel :: l.leftLevels
  | _ => []

/-- Whether an infix expression ends with a token of its own: the test of `IS`
or the closing parenthesis of `IN`. -/
def isClosed : Expr → Bool
  | ⟨_, .is ..⟩ | ⟨_, .inList ..⟩ | ⟨_, .inQuery ..⟩ => true
  | _ => false

/-- Whether the right edge, through right operands, upper bounds, patterns and
operands of prefix operators, comes to a `NOT`. -/
def endsInNot : Expr → Bool
  | ⟨_, .unary .not _⟩ => true
  | ⟨_, .unary _ e⟩ => e.endsInNot
  | ⟨_, .binary _ _ r⟩ => r.endsInNot
  | ⟨_, .between _ _ _ high⟩ => high.endsInNot
  | ⟨_, .like _ _ pattern⟩ => pattern.endsInNot
  | _ => false

/-- The highest level at which an infix operator behind the expression is left
alone by the operators on its right edge. -/
def openLevel : Expr → Nat
  | ⟨_, .unary .not e⟩ => min notLevel e.openLevel
  | ⟨_, .unary _ e⟩ => min signLevel e.openLevel
  | ⟨_, .binary op _ r⟩ => min op.level r.openLevel
  | ⟨_, .between _ _ _ high⟩ => min predicateLevel high.openLevel
  | ⟨_, .like _ _ pattern⟩ => min predicateLevel pattern.openLevel
  | _ => signLevel

/-- Whether all infix operators down the left edge bind above `level`. -/
def Above (level : Nat) (e : Expr) : Prop := ∀ k ∈ e.leftLevels, level < k

instance (level : Nat) (e : Expr) : Decidable (e.Above level) :=
  inferInstanceAs (Decidable (∀ k ∈ e.leftLevels, level < k))

/-! ## Operands -/

/-- Whether an expression can be the left operand of an infix operator of a
level: it is no infix expression of a lower level, unless that is closed, and
above the level of `NOT` it does not end in a `NOT`. -/
def FitsLeft (level : Nat) (l : Expr) : Prop :=
  (∀ k ∈ l.level?, level ≤ k ∨ l.isClosed) ∧ (notLevel < level → l.endsInNot = false)

/-- The conditions of precedence on the operands of one expression; `above`
says when a right operand binds above a level. -/
def OperandsFit (above : Nat → Expr → Prop) : Expr → Prop
  | ⟨_, .unary .not e⟩ => above notLevel e
  | ⟨_, .unary _ e⟩ => e.level? = none
  | ⟨_, .binary op l r⟩ => l.FitsLeft op.level ∧ above op.level r
  | ⟨_, .is l _ _⟩ | ⟨_, .inList l _ _⟩ | ⟨_, .inQuery l _ _⟩ => l.FitsLeft predicateLevel
  | ⟨_, .between l _ low high⟩ =>
    l.FitsLeft predicateLevel ∧ above predicateLevel low ∧ above predicateLevel high
  | ⟨_, .like l _ pattern⟩ => l.FitsLeft predicateLevel ∧ above predicateLevel pattern
  | _ => True

/-- An expression whose operands are placed by the levels of their operators:
a right operand that is infix is of a level above that of its operator. -/
def RespectsLevels (e : Expr) : Prop := e.OperandsFit fun level r => ∀ k ∈ r.level?, level < k

/-! ## Relations between the edges -/

theorem leftLevels_head? (e : Expr) : e.leftLevels.head? = e.level? := by
  obtain ⟨_, form⟩ := e
  cases form <;> rfl

theorem leftLevels_eq_nil_iff (e : Expr) : e.leftLevels = [] ↔ e.level? = none := by
  rw [← leftLevels_head?, List.head?_eq_none_iff]

theorem Above.lt_level {level : Nat} {e : Expr} (h : e.Above level) :
    ∀ k ∈ e.level?, level < k := by
  intro k hk
  rw [← leftLevels_head?] at hk
  exact h k (List.mem_of_mem_head? hk)

theorem above_of_level?_eq_none {e : Expr} (h : e.level? = none) (level : Nat) :
    e.Above level := by
  intro k hk
  rw [(leftLevels_eq_nil_iff e).2 h] at hk
  exact absurd hk List.not_mem_nil

theorem leftLevels_lt_signLevel : ∀ e : Expr, ∀ k ∈ e.leftLevels, k < signLevel
  | ⟨_, .binary op l _⟩ =>
    List.forall_mem_cons.2 ⟨by cases op <;> decide, leftLevels_lt_signLevel l⟩
  | ⟨_, .is l _ _⟩ | ⟨_, .inList l _ _⟩ | ⟨_, .inQuery l _ _⟩ | ⟨_, .between l _ _ _⟩
  | ⟨_, .like l _ _⟩ => List.forall_mem_cons.2 ⟨by decide, leftLevels_lt_signLevel l⟩
  | ⟨_, .column _⟩ | ⟨_, .literal _⟩ | ⟨_, .unary ..⟩ | ⟨_, .call ..⟩ | ⟨_, .case ..⟩
  | ⟨_, .cast ..⟩ | ⟨_, .existsQuery _⟩ | ⟨_, .subquery _⟩ | ⟨_, .nested _⟩ => nofun

theorem above_zero : ∀ e : Expr, e.Above 0
  | ⟨_, .binary op l _⟩ => List.forall_mem_cons.2 ⟨by cases op <;> decide, above_zero l⟩
  | ⟨_, .is l _ _⟩ | ⟨_, .inList l _ _⟩ | ⟨_, .inQuery l _ _⟩ | ⟨_, .between l _ _ _⟩
  | ⟨_, .like l _ _⟩ => List.forall_mem_cons.2 ⟨by decide, above_zero l⟩
  | ⟨_, .column _⟩ | ⟨_, .literal _⟩ | ⟨_, .unary ..⟩ | ⟨_, .call ..⟩ | ⟨_, .case ..⟩
  | ⟨_, .cast ..⟩ | ⟨_, .existsQuery _⟩ | ⟨_, .subquery _⟩ | ⟨_, .nested _⟩ => nofun

/-- No infix expression binds above a sign. -/
theorem level?_eq_none_of_above {e : Expr} (h : e.Above signLevel) : e.level? = none := by
  rw [← leftLevels_eq_nil_iff, List.eq_nil_iff_forall_not_mem]
  intro k hk
  exact Nat.lt_asymm (h k hk) (leftLevels_lt_signLevel e k hk)

theorem OperandsFit.imp {above above' : Nat → Expr → Prop}
    (h : ∀ level e, above level e → above' level e) {e : Expr} (he : e.OperandsFit above) :
    e.OperandsFit above' := by
  obtain ⟨_, form⟩ := e
  cases form with
  | unary op e => cases op <;> first | exact he | exact h _ _ he
  | binary op l r => exact ⟨he.1, h _ _ he.2⟩
  | between => exact ⟨he.1, h _ _ he.2.1, h _ _ he.2.2⟩
  | like => exact ⟨he.1, h _ _ he.2⟩
  | _ => exact he

theorem openLevel_le_notLevel : ∀ {e : Expr}, e.endsInNot → e.openLevel ≤ notLevel
  | ⟨_, .unary .not _⟩, _ => Nat.min_le_left ..
  | ⟨_, .unary .minus e⟩, h | ⟨_, .unary .plus e⟩, h | ⟨_, .binary _ _ e⟩, h
  | ⟨_, .between _ _ _ e⟩, h | ⟨_, .like _ _ e⟩, h =>
    Nat.le_trans (Nat.min_le_right ..) (openLevel_le_notLevel (e := e) h)

theorem openLevel_le_level {e : Expr} {k : Nat} (hk : k ∈ e.level?) (h : e.isClosed = false) :
    e.openLevel ≤ k := by
  obtain ⟨_, form⟩ := e
  cases form <;> simp_all [level?, isClosed, openLevel]

/-- What is open up to a level can be a left operand at that level. -/
theorem fitsLeft_of_le_openLevel {level : Nat} {e : Expr} (h : level ≤ e.openLevel) :
    e.FitsLeft level := by
  refine ⟨fun k hk => ?_, fun hlevel => ?_⟩
  · by_cases hc : e.isClosed
    · exact .inr hc
    · exact .inl (Nat.le_trans h (openLevel_le_level hk (by simpa using hc)))
  · cases hn : e.endsInNot with
    | false => rfl
    | true =>
      have := openLevel_le_notLevel hn
      omega

/-- A right operand is as open as the operator before it allows. -/
theorem fitsLeft_of_level_le {level k : Nat} {r : Expr} (hle : level ≤ k)
    (above : ∀ j ∈ r.level?, k < j) (hnot : notLevel < level → r.endsInNot = false) :
    r.FitsLeft level :=
  ⟨fun j hj => .inl (Nat.le_trans hle (Nat.le_of_lt (above j hj))), hnot⟩

/-- Where precedence is respected, what can be a left operand at a level is
open up to that level. -/
theorem le_openLevel_of_fitsLeft {level : Nat} (hlevel : level ≤ signLevel) : ∀ {e : Expr},
    (∀ x ∈ e.expressions, x.RespectsLevels) → e.FitsLeft level → level ≤ e.openLevel
  | ⟨s, .unary op e⟩, h, hfits => by
    have below : ∀ x ∈ e.expressions, x.RespectsLevels := fun x hx =>
      h x (List.mem_cons_of_mem _ hx)
    have here := h _ (List.mem_cons_self ..)
    cases op with
    | not =>
      have hle : level ≤ notLevel := by
        by_contra hlt
        exact absurd (hfits.2 (by omega)) (by simp [endsInNot])
      have inner := fitsLeft_of_level_le hle here fun hlt => absurd hle (Nat.not_le.2 hlt)
      exact Nat.le_min.2 ⟨hle, le_openLevel_of_fitsLeft hlevel below inner⟩
    | minus | plus =>
      have none : e.level? = none := here
      have inner : e.FitsLeft level := ⟨fun k hk => by simp [none] at hk, hfits.2⟩
      exact Nat.le_min.2 ⟨hlevel, le_openLevel_of_fitsLeft hlevel below inner⟩
  | ⟨s, .binary op l r⟩, h, hfits => by
    have below : ∀ x ∈ r.expressions, x.RespectsLevels := fun x hx =>
      h x (List.mem_cons_of_mem _ (List.mem_append_right _ hx))
    have hle : level ≤ op.level := (hfits.1 _ rfl).resolve_right nofun
    have inner := fitsLeft_of_level_le hle (h _ (List.mem_cons_self ..)).2 hfits.2
    exact Nat.le_min.2 ⟨hle, le_openLevel_of_fitsLeft hlevel below inner⟩
  | ⟨s, .between l negated low high⟩, h, hfits => by
    have below : ∀ x ∈ high.expressions, x.RespectsLevels := fun x hx =>
      h x (List.mem_cons_of_mem _ (List.mem_append_right _ hx))
    have hle : level ≤ predicateLevel := (hfits.1 _ rfl).resolve_right nofun
    have inner := fitsLeft_of_level_le hle (h _ (List.mem_cons_self ..)).2.2 hfits.2
    exact Nat.le_min.2 ⟨hle, le_openLevel_of_fitsLeft hlevel below inner⟩
  | ⟨s, .like l negated pattern⟩, h, hfits => by
    have below : ∀ x ∈ pattern.expressions, x.RespectsLevels := fun x hx =>
      h x (List.mem_cons_of_mem _ (List.mem_append_right _ hx))
    have hle : level ≤ predicateLevel := (hfits.1 _ rfl).resolve_right nofun
    have inner := fitsLeft_of_level_le hle (h _ (List.mem_cons_self ..)).2 hfits.2
    exact Nat.le_min.2 ⟨hle, le_openLevel_of_fitsLeft hlevel below inner⟩
  | ⟨_, .column _⟩, _, _ | ⟨_, .literal _⟩, _, _ | ⟨_, .is ..⟩, _, _ | ⟨_, .inList ..⟩, _, _
  | ⟨_, .inQuery ..⟩, _, _ | ⟨_, .call ..⟩, _, _ | ⟨_, .case ..⟩, _, _ | ⟨_, .cast ..⟩, _, _
  | ⟨_, .existsQuery _⟩, _, _ | ⟨_, .subquery _⟩, _, _ | ⟨_, .nested _⟩, _, _ => hlevel

/-! ## Ascending left edges -/

/-- Where each operator down the left edge binds at least as tightly as the one
above it, the first one tells how the whole edge binds. -/
theorem above_of_isChain {level : Nat} {e : Expr} (ascending : e.leftLevels.IsChain (· ≤ ·))
    (h : ∀ k ∈ e.level?, level < k) : e.Above level := by
  rw [← leftLevels_head?] at h
  unfold Above
  cases edge : e.leftLevels with
  | nil => nofun
  | cons k ks =>
    rw [edge] at ascending h
    have first : level < k := h k rfl
    have others := (List.pairwise_cons.1 (List.isChain_iff_pairwise.1 ascending)).1
    exact List.forall_mem_cons.2 ⟨first, fun j hj => Nat.lt_of_lt_of_le first (others j hj)⟩

/-- Where no operator takes a looser one as its left operand, not even a closed
one, operands that are placed by their levels bind above them as a whole. -/
theorem RespectsLevels.operandsFit {e : Expr} (h : e.RespectsLevels)
    (ascending : ∀ x ∈ e.operands, x.leftLevels.IsChain (· ≤ ·)) : e.OperandsFit Above := by
  obtain ⟨_, form⟩ := e
  have above : ∀ x ∈ operands ⟨_, form⟩, ∀ level, (∀ k ∈ x.level?, level < k) → x.Above level :=
    fun x hx _ => above_of_isChain (ascending x hx)
  cases form with
  | unary op e =>
    cases op with
    | not => exact above e (by simp [operands]) _ h
    | minus | plus => exact h
  | binary op l r => exact ⟨h.1, above r (by simp [operands]) _ h.2⟩
  | between e negated low high =>
    exact ⟨h.1, above low (by simp [operands]) _ h.2.1, above high (by simp [operands]) _ h.2.2⟩
  | like e negated pattern => exact ⟨h.1, above pattern (by simp [operands]) _ h.2⟩
  | _ => exact h

/-! ## Spans -/

section Spans

variable (f : Span → Span)

@[simp] theorem openLevel_mapSpans : ∀ e : Expr, (e.mapSpans f).openLevel = e.openLevel
  | ⟨_, .unary .not e⟩ => congrArg (min notLevel) (openLevel_mapSpans e)
  | ⟨_, .unary .minus e⟩ | ⟨_, .unary .plus e⟩ =>
    congrArg (min signLevel) (openLevel_mapSpans e)
  | ⟨_, .binary op _ r⟩ => congrArg (min op.level) (openLevel_mapSpans r)
  | ⟨_, .between _ _ _ e⟩ | ⟨_, .like _ _ e⟩ =>
    congrArg (min predicateLevel) (openLevel_mapSpans e)
  | ⟨_, .column _⟩ | ⟨_, .literal _⟩ | ⟨_, .is ..⟩ | ⟨_, .inList ..⟩ | ⟨_, .inQuery ..⟩
  | ⟨_, .call ..⟩ | ⟨_, .case ..⟩ | ⟨_, .cast ..⟩ | ⟨_, .existsQuery _⟩ | ⟨_, .subquery _⟩
  | ⟨_, .nested _⟩ => rfl

end Spans

end Expr

end SqlSyntax
