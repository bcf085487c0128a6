import SqlSyntax.Parser.Nesting
import SqlSyntax.Proofs.Parser.Basic

/-!
# Parsing with fallbacks

Some parsers look at a token, decide, consume the token and decide once more by what it is.
The second decision then has a case that is never met, for which there is a fallback. Here
are these parsers with their second decision, and with anything at all as a fallback: it
makes no difference what that is.

* An infix operator is looked for with the level at which it binds, and is taken apart when
  it is folded onto its left operand. There is one fallback for a token that is no infix
  operator, and one for a token that is no predicate behind a `NOT`.
* The parts of a name are collected in a list, whose first and last element are looked up.
  The fallback is for a list without any.

## Main results

* `foldAbove_eq_foldRound` — a round of the loop over infix operators.
* `qualifiedName_eq_listed` — a name from the list of its parts.
-/

namespace SqlSyntax.Parser

variable {α β : Type}

/-! ## Infix operators -/

/-- What is done about a token that cannot come up. -/
structure Fallbacks where
  /-- It is folded onto an operand, but is no infix operator. -/
  operator : Token → Parser Expr
  /-- It stands where the keyword of a predicate is taken apart, but is none. -/
  predicate : Token → Parser Expr

/-- The level at which the next token continues an expression, and zero if it does not. -/
def nextLevel : Parser Nat := do
  match (← peek).kind with
  | .keyword .OR => return 5
  | .keyword .AND => return 10
  | .keyword .NOT =>
    match (← peekAt 1).kind with
    | .keyword .IN | .keyword .BETWEEN | .keyword .LIKE => return 20
    | _ => return 0
  | .keyword .IS | .keyword .IN | .keyword .BETWEEN | .keyword .LIKE => return 20
  | .operator o =>
    match o with
    | .equal | .notEqual | .less | .lessEqual | .greater | .greaterEqual => return 20
    | .plus | .minus | .concat => return 30
    | .times | .divide | .modulo => return 40
  | _ => return 0

/-- What follows the keyword of a predicate, which is consumed. -/
def predicateOr (F : Fallbacks) (sub : Nested) (left : Expr) (negated : Bool) (keyword : Token) :
    Parser Expr := do
  let finish (p : Predicate) : Parser Expr := do
    let form ← predicateTail sub left negated p
    return ⟨← spanFrom left.span, form⟩
  match keyword.kind with
  | .keyword .IN => finish .isIn
  | .keyword .BETWEEN => finish .between
  | .keyword .LIKE => finish .like
  | _ => F.predicate keyword

/-- Consumes an infix operator that binds at `level` and what belongs to it on the right. -/
def foldOr (F : Fallbacks) (sub : Nested) (left : Expr) (level : Nat) : Parser Expr := do
  let t ← next
  let finish (op : BinaryOperator) : Parser Expr := do
    let right ← sub.expr level
    return ⟨left.span.union right.span, .binary op left right⟩
  match t.kind with
  | .keyword .OR => finish .or
  | .keyword .AND => finish .and
  | .keyword .IS => truthTest left
  | .keyword .NOT => predicateOr F sub left true (← next)
  | .keyword .IN | .keyword .BETWEEN | .keyword .LIKE => predicateOr F sub left false t
  | .operator o => finish (.ofOperator o)
  | _ => F.operator t

/-- A round of the loop that folds infix operators onto an operand: folds the next one if it
binds above `level`, and goes on. Without any levels left there is nothing that goes on. -/
def foldRound (F : Fallbacks) (max level : Nat) (left : Expr)
    (deeper : Option (Nested × (Expr → Parser Expr))) : Parser Expr := do
  let found ← nextLevel
  if found ≤ level then return left
  else
    match deeper with
    | none => tooDeep max
    | some (sub, loop) => loop (← foldOr F sub left found)

/-- The level of an infix operator, and zero for none. -/
def levelOf (op : Option InfixOperator) : Nat := op.elim 0 InfixOperator.level

theorem levelOf_predicate (kind : TokenKind) (negated : Bool) :
    levelOf ((Predicate.ofKind? kind).map (.predicate negated)) =
      if (Predicate.ofKind? kind).isSome then 20 else 0 := by
  cases Predicate.ofKind? kind <;> rfl

/-- A level stands for the infix operator that comes next. -/
theorem nextLevel_eq : nextLevel = (do return levelOf (← infixOperator?)) := by
  rw [nextLevel, infixOperator?, bind_assoc]
  refine bind_congr fun t => ?_
  by_cases not : t.kind = .keyword .NOT
  · rw [if_pos (beq_iff_eq.2 not), not, bind_assoc]
    refine bind_congr fun u => ?_
    rw [pure_bind, levelOf_predicate]
    unfold Predicate.ofKind?
    split <;> simp_all
  · rw [if_neg (mt beq_iff_eq.1 not), pure_bind]
    split
    case h_8 kind =>
      rw [kind]
      split <;> rfl
    case h_9 => simp [InfixOperator.ofKind?, Predicate.ofKind?, levelOf, *]
    all_goals
      rename_i kind
      first | exact absurd kind not | (rw [kind]; rfl)

/-- The state once the next token, `t`, is consumed. -/
def past (s : ParserState) (t : Token) : ParserState :=
  { s with tokens := s.tokens.tail, last := some t.span, expected := [] }

/-- A token that is seen and is not the end of the input is the one that is consumed. -/
theorem next_of_peek {s : ParserState} {t : Token} (seen : peek s = .ok t s)
    (inner : t.isEnd = false) : next s = .ok t (past s t) := by
  rw [next, bind_of_ok seen, if_neg (by simp [inner])]
  rfl

/-- The token behind the next one is seen once this is consumed. -/
theorem peek_past {s : ParserState} {t u : Token} (seen : peekAt 1 s = .ok u s) :
    peek (past s t) = .ok u (past s t) := by
  have same : (past s t).tokens[0]? = s.tokens[1]? := by
    show s.tokens.tail[0]? = s.tokens[1]?
    cases s.tokens <;> rfl
  have failure : (past s t).failure = s.failure := rfl
  unfold peekAt at seen
  rw [peek, peekAt, same, failure]
  cases here : s.tokens[1]? with
  | some v =>
    simp only [here] at seen ⊢
    rw [(EStateM.Result.ok.inj seen).1]
  | none =>
    simp only [here] at seen ⊢
    cases stopped : s.failure with
    | some e =>
      simp only [stopped] at seen
      cases seen
    | none =>
      simp only [stopped] at seen ⊢
      rw [← (EStateM.Result.ok.inj seen).1]
      rfl

theorem isEnd_of_predicate {t : Token} {p : Predicate} (h : Predicate.ofKind? t.kind = some p) :
    t.isEnd = false := by
  cases isEnd : t.isEnd with
  | false => rfl
  | true =>
    rw [t.isEnd_iff.1 isEnd] at h
    cases h

theorem isEnd_of_operator {t : Token} {op : InfixOperator}
    (h : InfixOperator.ofKind? t.kind = some op) : t.isEnd = false := by
  cases isEnd : t.isEnd with
  | false => rfl
  | true =>
    rw [t.isEnd_iff.1 isEnd] at h
    cases h

/-- A predicate is taken apart without its fallback. -/
theorem predicateOr_eq (F : Fallbacks) (sub : Nested) (left : Expr) (negated : Bool)
    {keyword : Token} {p : Predicate} (kind : Predicate.ofKind? keyword.kind = some p) :
    predicateOr F sub left negated keyword = (do
      let form ← predicateTail sub left negated p
      return ⟨← spanFrom left.span, form⟩) := by
  rw [predicateOr]
  unfold Predicate.ofKind? at kind
  split at kind
  all_goals
    cases kind
    try simp only [*]

/-- An infix operator that comes next is folded without any fallback. -/
theorem foldOr_eq (F : Fallbacks) (sub : Nested) (left : Expr) {op : InfixOperator}
    {s s' : ParserState} (h : infixOperator? s = .ok (some op) s') :
    foldOr F sub left (levelOf (some op)) s' = foldInfix sub left op s' := by
  obtain ⟨t, s₁, seen, h⟩ := bind_eq_ok.1 h
  obtain ⟨rfl, -⟩ := peek_eq_ok seen
  by_cases not : t.kind = .keyword .NOT
  · rw [if_pos (beq_iff_eq.2 not)] at h
    obtain ⟨u, s₂, behind, h⟩ := bind_eq_ok.1 h
    obtain ⟨rfl, -⟩ := peekAt_eq_ok behind
    obtain ⟨found, rfl⟩ := pure_eq_ok.1 h
    obtain ⟨p, kind, rfl⟩ := Option.map_eq_some_iff.1 found
    have consumed := next_of_peek seen (by simp [Token.isEnd, not])
    have consumed' := next_of_peek (peek_past (t := t) behind) (isEnd_of_predicate kind)
    rw [foldOr, bind_of_ok consumed]
    simp only [not]
    rw [bind_of_ok consumed', predicateOr_eq F sub left true kind, foldInfix, bind_of_ok consumed,
      if_pos rfl, bind_of_ok consumed']
  · rw [if_neg (mt beq_iff_eq.1 not)] at h
    obtain ⟨found, rfl⟩ := pure_eq_ok.1 h
    have consumed := next_of_peek seen (isEnd_of_operator found)
    rw [foldOr, foldInfix.eq_def, bind_of_ok consumed, bind_of_ok consumed]
    unfold InfixOperator.ofKind? at found
    split at found
    case h_1 kind | h_2 kind | h_4 kind =>
      cases found
      simp only [kind]
      rfl
    case h_3 kind =>
      cases found
      simp only [kind]
    case h_5 =>
      obtain ⟨p, kind, rfl⟩ := Option.map_eq_some_iff.1 found
      have finished := predicateOr_eq F sub left false kind
      have keyword : t.kind = .keyword .IN ∨ t.kind = .keyword .BETWEEN ∨
          t.kind = .keyword .LIKE := by
        unfold Predicate.ofKind? at kind
        split at kind <;> simp_all
      rcases keyword with keyword | keyword | keyword <;>
      · simp only [keyword]
        exact congrFun finished _

/-- What a round of the loop goes on with. -/
def deeper (max depth level : Nat) : Option (Nested × (Expr → Parser Expr)) :=
  match depth with
  | 0 => none
  | depth + 1 => some (nested max depth, foldAbove max depth level)

/-- The loop that folds infix operators goes round without any fallback. -/
theorem foldAbove_eq_foldRound (F : Fallbacks) (max depth level : Nat) (left : Expr) :
    foldAbove max depth level left = foldRound F max level left (deeper max depth level) := by
  have step : foldAbove max depth level left = foldStep max level left
      ((deeper max depth level).map fun (sub, loop) op => do
        loop (← foldInfix sub left op)) := by
    cases depth <;> rfl
  rw [step, foldRound, foldStep, nextLevel_eq, bind_assoc]
  funext s
  refine bind_congr_of_ok fun o s' looked => ?_
  rw [pure_bind]
  cases o with
  | none => rfl
  | some op =>
    show ite (op.level ≤ level) (_ : Parser Expr) _ s' =
      ite (op.level ≤ level) (_ : Parser Expr) _ s'
    by_cases loose : op.level ≤ level
    · rw [if_pos loose, if_pos loose]
    · rw [if_neg loose, if_neg loose]
      cases deeper max depth level with
      | none => rfl
      | some go =>
        have folded := foldOr_eq F go.1 left looked
        show EStateM.bind _ go.2 s' = EStateM.bind _ go.2 s'
        rw [EStateM.bind, EStateM.bind, folded]

/-! ## Names -/

/-- The parts of a name in a list, `parts` being those in front. -/
def listedStep (parts : List Identifier) : Parser (Option (List Identifier)) := do
  if ← atNameDot then
    let _ ← next
    return some (parts ++ [← identifier])
  else
    return none

/-- A name from the list of its parts. The span is from the first part to the last one, for
which there is a fallback if the list has none. -/
def listedName (fallback : Parser QualifiedName) : Parser QualifiedName := do
  let parts ← iterate listedStep [← identifier]
  match parts[0]?, parts[parts.length - 1]? with
  | some first, some last => return ⟨first.span.union last.span, parts.dropLast, last⟩
  | _, _ => fallback

/-- A loop on the images of the values that another loop is on. -/
theorem iterate_map {g : α → β} {step : α → Parser (Option α)} {step' : β → Parser (Option β)}
    (h : ∀ a, step' (g a) = (do return (← step a).map g)) (a : α) :
    iterate step' (g a) = (do return g (← iterate step a)) := by
  have loop (budget : List Token) (a : α) : iterateWithin step' budget (g a) =
      (do return g (← iterateWithin step budget a)) := by
    induction budget generalizing a with
    | nil =>
      rw [iterateWithin, iterateWithin, h, bind_assoc, bind_assoc]
      refine bind_congr fun o => ?_
      cases o <;> rfl
    | cons t budget ih =>
      rw [iterateWithin, iterateWithin, h, bind_assoc, bind_assoc]
      refine bind_congr fun o => ?_
      cases o with
      | none => rfl
      | some b =>
        rw [pure_bind]
        exact ih b
  funext s
  exact congrFun (loop s.tokens a) s

/-- What every step of a loop preserves holds of its result. -/
theorem iterate_preserves {P : α → Prop} {step : α → Parser (Option α)}
    (hstep : ∀ a s b s', P a → step a s = .ok (some b) s' → P b) {a b : α} {s s' : ParserState}
    (ha : P a) (h : iterate step a s = .ok b s') : P b := by
  have loop (budget : List Token) {a : α} {s : ParserState} (ha : P a)
      (h : iterateWithin step budget a s = .ok b s') : P b := by
    induction budget generalizing a s with
    | nil =>
      obtain ⟨o, s₁, run, h⟩ := bind_eq_ok.1 h
      cases o with
      | none => exact (pure_eq_ok.1 h).1 ▸ ha
      | some c => exact (pure_eq_ok.1 h).1 ▸ hstep a s c s₁ ha run
    | cons t budget ih =>
      obtain ⟨o, s₁, run, h⟩ := bind_eq_ok.1 h
      cases o with
      | none => exact (pure_eq_ok.1 h).1 ▸ ha
      | some c => exact ih (hstep a s c s₁ ha run) h
  exact loop s.tokens ha h

/-- The list of parts from those before the last, held backwards, and the last. -/
def listedParts (p : List Identifier × Identifier) : List Identifier := p.1.reverse ++ [p.2]

theorem listedParts_cons (p : List Identifier × Identifier) (part : Identifier) :
    listedParts (p.2 :: p.1, part) = listedParts p ++ [part] := by
  simp [listedParts]

theorem getElem?_listedParts_last (p : List Identifier × Identifier) :
    (listedParts p)[(listedParts p).length - 1]? = some p.2 := by
  simp [listedParts]

/-- A step of the loop of `qualifiedName`. -/
def pairedStep (p : List Identifier × Identifier) :
    Parser (Option (List Identifier × Identifier)) := do
  if ← atNameDot then
    let _ ← next
    return some (p.2 :: p.1, ← identifier)
  else
    return none

theorem listedStep_listedParts (p : List Identifier × Identifier) :
    listedStep (listedParts p) = (do return (← pairedStep p).map listedParts) := by
  rw [listedStep, pairedStep, bind_assoc]
  refine bind_congr fun dot => ?_
  cases dot with
  | false => rfl
  | true =>
    rw [if_pos rfl, if_pos rfl, bind_assoc]
    refine bind_congr fun _ => ?_
    rw [bind_assoc]
    refine bind_congr fun part => ?_
    rw [pure_bind, Option.map_some, listedParts_cons]

/-- A step puts a part behind the others. -/
theorem pairedStep_eq_ok {p q : List Identifier × Identifier} {s s' : ParserState}
    (run : pairedStep p s = .ok (some q) s') : ∃ part, listedParts q = listedParts p ++ [part] := by
  obtain ⟨dot, s₁, -, run⟩ := bind_eq_ok.1 run
  cases dot with
  | false => cases (pure_eq_ok.1 run).1
  | true =>
    rw [if_pos rfl] at run
    obtain ⟨_, s₂, -, run⟩ := bind_eq_ok.1 run
    obtain ⟨part, s₃, -, run⟩ := bind_eq_ok.1 run
    obtain rfl := Option.some.inj (pure_eq_ok.1 run).1
    exact ⟨part, listedParts_cons p part⟩

/-- A name has a first part and a last one. -/
theorem qualifiedName_eq_listed (fallback : Parser QualifiedName) :
    qualifiedName = listedName fallback := by
  rw [qualifiedName, listedName]
  refine bind_congr fun first => ?_
  have same : iterate listedStep [first] =
      (do return listedParts (← iterate pairedStep ([], first))) :=
    iterate_map listedStep_listedParts ([], first)
  rw [same, bind_assoc]
  funext s
  refine bind_congr_of_ok (p := iterate pairedStep ([], first)) fun p s' run => ?_
  have head : (listedParts p)[0]? = some first := by
    refine iterate_preserves (P := fun p => (listedParts p)[0]? = some first)
      (fun p s q s' hp stepped => ?_) rfl run
    obtain ⟨part, longer⟩ := pairedStep_eq_ok stepped
    rw [longer, List.getElem?_append_left (by simp [listedParts]), hp]
  rw [pure_bind, head, getElem?_listedParts_last]
  simp only [listedParts]
  rw [List.dropLast_concat]

end SqlSyntax.Parser
