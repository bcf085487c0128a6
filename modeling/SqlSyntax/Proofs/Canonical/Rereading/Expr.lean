import SqlSyntax.Proofs.Canonical.Rereading.Basic
import SqlSyntax.Proofs.Grammar.Expr

/-!
# Reading canonical expressions again

An operand, and an infix operator with what belongs to it, are read again when
what is nested in them is.
-/

namespace SqlSyntax

open Grammar

section

variable (P : Phrases)

/-- Whether an expression is read again where operators bind above `level`. -/
abbrev Grammar.Phrases.RereadsExpr (level : Nat) (e : Expr) : Prop :=
  Rereads (P.expr level) (Expr.mapSpans .erase) e.pieces e

/-- Whether a query is read again. -/
abbrev Grammar.Phrases.RereadsQuery (q : Query) : Prop :=
  Rereads P.query (Query.mapSpans .erase) q.pieces q

end

variable {P : Phrases} {s : Span}

theorem rereads_piecesBehind {e : Expr} (k : Keyword) (h : P.RereadsExpr 0 e) :
    Rereads (Behind (.keyword k) P.wholeExpr) (Expr.mapSpans .erase) (e.piecesBehind k) e :=
  Rereads.behind k h

theorem rereads_optionalBehind {o : Option Expr} (k : Keyword) (h : ∀ e ∈ o, P.RereadsExpr 0 e) :
    Rereads (Optional (Behind (.keyword k) P.wholeExpr)) (Option.map (Expr.mapSpans .erase))
      (clausePieces (Expr.piecesBehind k) o) o :=
  Rereads.optional fun e he => rereads_piecesBehind k (h e he)

/-! ## Operands -/

namespace Expr

theorem rereads_column (n : QualifiedName) :
    Rereads (IsOperand P) (mapSpans .erase) (pieces ⟨s, .column n⟩) ⟨s, .column n⟩ := by
  intro ts spelled
  rw [pieces] at spelled
  obtain ⟨n', name, same⟩ := n.rereads spelled
  exact ⟨_, .column name, by simp [mapSpans, ExprForm.mapSpans, same]⟩

theorem rereads_literal {v : Literal} :
    Rereads (IsOperand P) (mapSpans .erase) (pieces ⟨s, .literal v⟩) ⟨s, .literal v⟩ := by
  intro ts spelled
  have single : v.piece ≠ .space := by
    cases v with
    | boolean b => cases b <;> nofun
    | _ => nofun
  rw [pieces] at spelled
  obtain ⟨t, us, rfl, writes, spelled⟩ := (Spelled.cons_iff single).1 spelled
  obtain rfl := Spelled.nil_iff.1 spelled
  have value : Literal.ofToken? t = some v := by
    cases v with
    | number text | string value =>
      obtain ⟨kind, same⟩ := writes
      rw [Literal.ofToken?, kind]
      exact congrArg (some <| ·) (by rw [same])
    | boolean b =>
      cases b <;>
      · have kind : t.kind = .keyword _ := writes
        rw [Literal.ofToken?, kind]
    | null =>
      have kind : t.kind = .keyword _ := writes
      rw [Literal.ofToken?, kind]
  exact ⟨_, .literal value, by simp [mapSpans, ExprForm.mapSpans]⟩

theorem rereads_unary {op : UnaryOperator} {e : Expr} (he : P.RereadsExpr op.operandLevel e) :
    Rereads (IsOperand P) (mapSpans .erase) (pieces ⟨s, .unary op e⟩) ⟨s, .unary op e⟩ := by
  intro ts spelled
  have single : op.piece ≠ .space := by cases op <;> nofun
  rw [pieces, List.cons_append] at spelled
  obtain ⟨t, us, rfl, writes, spelled⟩ := (Spelled.cons_iff single).1 spelled
  have kind : t.kind = op.kind := by cases op <;> exact writes
  have operand : Spelled e.pieces us := by
    cases op with
    | not => exact Spelled.space_iff.1 spelled
    | minus | plus => cases signed : e.isSigned <;> simpa [UnaryOperator.gap, signed] using spelled
  obtain ⟨e', reading, same⟩ := he operand
  exact ⟨_, .unary kind reading, by simp [mapSpans, ExprForm.mapSpans, same]⟩

theorem rereads_call {n : QualifiedName} {distinct : Bool} {arguments : Arguments}
    (h : distinct → arguments.items ≠ []) (items : ∀ i ∈ arguments.items, P.RereadsExpr 0 i) :
    Rereads (IsOperand P) (mapSpans .erase) (pieces ⟨s, .call n distinct arguments⟩)
      ⟨s, .call n distinct arguments⟩ := by
  intro ts spelled
  rw [pieces] at spelled
  obtain ⟨us, vs, rfl, named, spelled⟩ := Spelled.append_iff.1 spelled
  obtain ⟨n', name, same⟩ := n.rereads named
  obtain ⟨o, ws, c, rfl, opening, spelled, closing⟩ := Spelled.parenthesized_iff.1 spelled
  obtain ⟨ds, xs, rfl, mark, spelled⟩ := Spelled.flag_iff.1 spelled
  obtain ⟨a', reading, same'⟩ : ∃ a', IsArguments P (ds ++ xs) (distinct, a') ∧
      Arguments.mapSpans .erase a' = Arguments.mapSpans .erase arguments := by
    cases arguments with
    | star =>
      obtain rfl : distinct = false := by simpa [Arguments.items] using h
      cases mark with
      | absent =>
        obtain ⟨t, ys, rfl, kind, spelled⟩ := Spelled.operator_iff.1 spelled
        obtain rfl := Spelled.nil_iff.1 spelled
        exact ⟨.star, .star kind, rfl⟩
    | list es =>
      rw [Arguments.pieces, piecesOfList_eq] at spelled
      by_cases hne : es = []
      · subst hne
        obtain rfl : distinct = false := by simpa [Arguments.items] using h
        cases mark with
        | absent =>
          obtain rfl := Spelled.nil_iff.1 spelled
          exact ⟨.list [], .none, rfl⟩
      · obtain ⟨es', list, same⟩ := Rereads.commaSeparated hne items spelled
        exact ⟨.list es', .list mark list, by simpa [Arguments.mapSpans] using same⟩
  exact ⟨_, .call name (.intro opening reading closing), by
    simp [mapSpans, ExprForm.mapSpans, same, same']⟩

end Expr

theorem WhenBranch.rereads {b : WhenBranch} (hc : P.RereadsExpr 0 b.condition)
    (hr : P.RereadsExpr 0 b.result) :
    Rereads (IsBranch P) (WhenBranch.mapSpans .erase) b.pieces b := by
  intro ts spelled
  obtain ⟨us, vs, rfl, condition, result⟩ := Spelled.append_iff.1 spelled
  obtain ⟨c, ⟨kind, condition⟩, same⟩ := rereads_piecesBehind .WHEN hc condition
  obtain ⟨r, result, same'⟩ := rereads_piecesBehind .THEN hr (Spelled.space_iff.1 result)
  exact ⟨_, .intro kind condition result, by simp [WhenBranch.mapSpans, same, same']⟩

namespace Expr

theorem rereads_case {operand otherwise : Option Expr} {branches : List WhenBranch}
    (hne : branches ≠ []) (first : ∀ e ∈ operand, P.RereadsExpr 0 e)
    (body : ∀ b ∈ branches, P.RereadsExpr 0 b.condition ∧ P.RereadsExpr 0 b.result)
    (last : ∀ e ∈ otherwise, P.RereadsExpr 0 e) :
    Rereads (IsOperand P) (mapSpans .erase) (pieces ⟨s, .case operand branches otherwise⟩)
      ⟨s, .case operand branches otherwise⟩ := by
  intro ts spelled
  rw [pieces, piecesAfter_space, piecesAfter_keyword, WhenBranch.piecesOfList_eq] at spelled
  simp only [List.cons_append, List.append_assoc] at spelled
  obtain ⟨t, us, rfl, kind, spelled⟩ := Spelled.keyword_iff.1 spelled
  obtain ⟨os, vs, rfl, operands, spelled⟩ := Spelled.append_iff.1 spelled
  obtain ⟨bs, ws, rfl, middle, spelled⟩ := Spelled.append_iff.1 spelled
  obtain ⟨es, xs, rfl, otherwises, spelled⟩ := Spelled.append_iff.1 spelled
  obtain ⟨c, ys, rfl, closing, spelled⟩ := Spelled.keyword_iff.1 (Spelled.space_iff.1 spelled)
  obtain rfl := Spelled.nil_iff.1 spelled
  obtain ⟨o', reading, same⟩ := Rereads.optional first operands
  obtain ⟨bs', readings, sames⟩ :=
    Rereads.many (fun b hb => WhenBranch.rereads (body b hb).1 (body b hb).2) middle
  obtain ⟨e', reading', same'⟩ := rereads_optionalBehind .ELSE last otherwises
  have nonempty : bs' ≠ [] := by
    rintro rfl
    exact hne (List.map_eq_nil_iff.1 sames.symm)
  exact ⟨_, .case kind reading nonempty readings reading' closing, by
    simp [mapSpans, ExprForm.mapSpans, same, sames, same']⟩

theorem rereads_cast {e : Expr} {type : DataType} (he : P.RereadsExpr 0 e)
    (htype : type.WellFormed) :
    Rereads (IsOperand P) (mapSpans .erase) (pieces ⟨s, .cast e type⟩) ⟨s, .cast e type⟩ := by
  intro ts spelled
  rw [pieces, List.append_assoc] at spelled
  obtain ⟨t, us, rfl, kind, spelled⟩ := Spelled.keyword_iff.1 spelled
  obtain ⟨o, vs, c, rfl, opening, spelled, closing⟩ := Spelled.parenthesized_iff.1 spelled
  obtain ⟨es, ws, rfl, operand, named⟩ := Spelled.append_iff.1 spelled
  obtain ⟨e', reading, same⟩ := he operand
  obtain ⟨_, reading', rfl⟩ := (DataType.rereads htype).behind .AS (Spelled.space_iff.1 named)
  exact ⟨_, .cast kind (.intro opening (.intro reading reading') closing), by
    simp [mapSpans, ExprForm.mapSpans, same]⟩

theorem rereads_existsQuery {q : Query} (hq : P.RereadsQuery q) :
    Rereads (IsOperand P) (mapSpans .erase) (pieces ⟨s, .existsQuery q⟩) ⟨s, .existsQuery q⟩ := by
  intro ts spelled
  rw [pieces] at spelled
  obtain ⟨t, us, rfl, kind, spelled⟩ := Spelled.keyword_iff.1 spelled
  obtain ⟨q', reading, same⟩ := hq.parenthesized (Spelled.space_iff.1 spelled)
  exact ⟨_, .existsQuery kind reading, by simp [mapSpans, ExprForm.mapSpans, same]⟩

theorem rereads_subquery {q : Query} (hq : P.RereadsQuery q) :
    Rereads (IsOperand P) (mapSpans .erase) (pieces ⟨s, .subquery q⟩) ⟨s, .subquery q⟩ := by
  intro ts spelled
  rw [pieces] at spelled
  obtain ⟨q', ⟨opening, reading, closing⟩, same⟩ := hq.parenthesized spelled
  exact ⟨_, .subquery opening reading closing, by simp [mapSpans, ExprForm.mapSpans, same]⟩

theorem rereads_nested {e : Expr} (he : P.RereadsExpr 0 e) :
    Rereads (IsOperand P) (mapSpans .erase) (pieces ⟨s, .nested e⟩) ⟨s, .nested e⟩ := by
  intro ts spelled
  rw [pieces] at spelled
  obtain ⟨e', ⟨opening, reading, closing⟩, same⟩ := Rereads.parenthesized he spelled
  exact ⟨_, .nested opening reading closing, by simp [mapSpans, ExprForm.mapSpans, same]⟩

/-! ## Infix operators

The left operand has been read before; what is left are the pieces behind it. -/

/-- A predicate is read again from its keyword and what follows it. -/
theorem rereads_predicate {left : Expr} {negated : Bool} {p : Predicate} {k : Keyword}
    {ps : List Piece} {form : ExprForm} (kind : Predicate.ofKind? (.keyword k) = some p)
    (tail : Rereads (IsPredicateTail P left negated p) (ExprForm.mapSpans .erase) ps form) :
    Rereads (IsFold P left (.predicate negated p)) (mapSpans .erase)
      (negation negated ++ .keyword k :: .space :: ps) ⟨s, form⟩ := by
  intro ts spelled
  obtain ⟨ns, us, rfl, mark, spelled⟩ := Spelled.negation_iff.1 spelled
  obtain ⟨t, vs, rfl, keyword, spelled⟩ := Spelled.keyword_iff.1 spelled
  obtain ⟨form', reading, same'⟩ := tail (Spelled.space_iff.1 spelled)
  exact ⟨_, .predicate mark (by rw [keyword, kind]) reading, by simp [mapSpans, same']⟩

section

variable {l l' : Expr} (same : mapSpans .erase l' = mapSpans .erase l)

include same

theorem rereads_binary {op : BinaryOperator} {r : Expr} (hr : P.RereadsExpr op.level r) :
    Rereads (IsFold P l' (.binary op)) (mapSpans .erase) (op.piece :: .space :: r.pieces)
      ⟨s, .binary op l r⟩ := by
  intro ts spelled
  have single : op.piece ≠ .space := by cases op <;> nofun
  obtain ⟨t, us, rfl, writes, spelled⟩ := (Spelled.cons_iff single).1 spelled
  have kind : InfixOperator.ofKind? t.kind = some (.binary op) := by
    cases op <;>
    · have kind : t.kind = _ := writes
      rw [kind]
      rfl
  obtain ⟨r', reading, same'⟩ := hr (Spelled.space_iff.1 spelled)
  exact ⟨_, .binary kind reading, by simp [mapSpans, ExprForm.mapSpans, same, same']⟩

theorem rereads_is {negated : Bool} {test : TruthTest} :
    Rereads (IsFold P l' .is) (mapSpans .erase)
      (.keyword .IS :: .space :: (negation negated ++ [.keyword test.keyword]))
      ⟨s, .is l negated test⟩ := by
  intro ts spelled
  obtain ⟨t, us, rfl, kind, spelled⟩ := Spelled.keyword_iff.1 spelled
  obtain ⟨ns, vs, rfl, mark, spelled⟩ := Spelled.negation_iff.1 (Spelled.space_iff.1 spelled)
  obtain ⟨u, ws, rfl, tested, spelled⟩ := Spelled.keyword_iff.1 spelled
  obtain rfl := Spelled.nil_iff.1 spelled
  exact ⟨_, .is kind mark tested, by simp [mapSpans, ExprForm.mapSpans, same]⟩

theorem rereads_inList {negated : Bool} {items : List Expr} (hne : items ≠ [])
    (h : ∀ i ∈ items, P.RereadsExpr 0 i) :
    Rereads (IsPredicateTail P l' negated .isIn) (ExprForm.mapSpans .erase)
      (Piece.parenthesized (Piece.commaSeparated (items.map pieces))) (.inList l negated items) := by
  intro ts spelled
  obtain ⟨items', reading, sames⟩ := (Rereads.commaSeparated hne h).parenthesized spelled
  exact ⟨_, .inList reading, by simp [ExprForm.mapSpans, same, sames]⟩

theorem rereads_inQuery {negated : Bool} {q : Query} (hq : P.RereadsQuery q) :
    Rereads (IsPredicateTail P l' negated .isIn) (ExprForm.mapSpans .erase)
      (Piece.parenthesized q.pieces) (.inQuery l negated q) := by
  intro ts spelled
  obtain ⟨q', reading, same'⟩ := hq.parenthesized spelled
  exact ⟨_, .inQuery reading, by simp [ExprForm.mapSpans, same, same']⟩

theorem rereads_between {negated : Bool} {low high : Expr}
    (hlow : P.RereadsExpr predicateLevel low) (hhigh : P.RereadsExpr predicateLevel high) :
    Rereads (IsPredicateTail P l' negated .between) (ExprForm.mapSpans .erase)
      (low.pieces ++ .space :: high.piecesBehind .AND) (.between l negated low high) := by
  intro ts spelled
  obtain ⟨ls, hs, rfl, lows, highs⟩ := Spelled.append_iff.1 spelled
  obtain ⟨low', reading, same'⟩ := hlow lows
  obtain ⟨high', reading', same''⟩ := Rereads.behind .AND hhigh (Spelled.space_iff.1 highs)
  exact ⟨_, .between reading reading', by simp [ExprForm.mapSpans, same, same', same'']⟩

theorem rereads_like {negated : Bool} {pattern : Expr}
    (h : P.RereadsExpr predicateLevel pattern) :
    Rereads (IsPredicateTail P l' negated .like) (ExprForm.mapSpans .erase) pattern.pieces
      (.like l negated pattern) := by
  intro ts spelled
  obtain ⟨pattern', reading, same'⟩ := h spelled
  exact ⟨_, .like reading, by simp [ExprForm.mapSpans, same, same']⟩

end

end Expr

end SqlSyntax
