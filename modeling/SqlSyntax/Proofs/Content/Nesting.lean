import SqlSyntax.Proofs.Content.Query
import SqlSyntax.Proofs.Grammar.Nesting

/-!
# Content of what nests

Expressions and queries of every depth yield the content of their trees. The
induction is on the depth; inside it, what is folded onto an operand and what is
combined with a selection adds to the content of what stands before.

## Main results

* `phrases_yielding` — the readings of every depth yield the content of their
  trees.
-/

namespace SqlSyntax.Grammar

open Content

variable {comma : Prop} {R : Bool → Prop} {f : Frame} {o : List Frame} {ts : List Token}

theorem folds_yields {depth : Nat} (hP : ∀ d < depth, (phrases comma d).Yielding)
    (hR : comma → R true) (hf : f ≠ .table) {level : Nat} {left e : Expr}
    (h : folds comma depth level left ts e) :
    ∃ c, e.content = left.content ++ c ∧ Yields (Calm R f o Done) (Calm R f o Done) ts c := by
  induction depth generalizing left ts with
  | zero =>
    obtain ⟨rfl, rfl⟩ := h
    exact ⟨[], (List.append_nil _).symm, yields_nil fun _ => id⟩
  | succ depth ih =>
    rcases (folds_succ ..).1 h with ⟨rfl, rfl⟩ | ⟨op, us, vs, m, rfl, -, -, fold, go⟩
    · exact ⟨[], (List.append_nil _).symm, yields_nil fun _ => id⟩
    · obtain ⟨c, content, folded⟩ := fold.yields (hP depth (Nat.lt_succ_self _)) hR (o := o) hf
      obtain ⟨d, content', rest⟩ := ih (fun d hd => hP d (Nat.lt_succ_of_lt hd)) go
      exact ⟨c ++ d, by rw [content', content, List.append_assoc], folded.append rest⟩

theorem combines_yields {depth : Nat} (hP : ∀ d ≤ depth, (phrases comma d).Yielding)
    (hR : comma → R true) {before : List Token} {left : QueryBody} {q : Query}
    (h : combines comma depth before left ts q) :
    ∃ c, q.content = left.content ++ c ∧ Yields (Calm R .plain o Anything) (Ends R o) ts c := by
  induction depth generalizing before left ts with
  | zero => exact IsQueryTail.yields (hP 0 (Nat.le_refl _)) hR h
  | succ depth ih =>
    rcases (combines_succ ..).1 h with tail | ⟨op, us, vs, b, rfl, operand, go⟩
    · exact tail.yields (hP _ (Nat.le_refl _)) hR
    · obtain ⟨c, content, combined⟩ := operand.yields (hP depth (Nat.le_succ _)) hR (o := o)
      obtain ⟨d, content', rest⟩ := ih (fun d hd => hP d (Nat.le_succ_of_le hd)) go
      exact ⟨c ++ d, by rw [content', content, List.append_assoc], combined.append rest⟩

/-- The readings of every depth yield the content of their trees. -/
theorem phrases_yielding (comma : Prop) (depth : Nat) : (phrases comma depth).Yielding := by
  induction depth using Nat.strongRecOn with
  | ind depth ih =>
    cases depth with
    | zero => exact ⟨fun _ _ _ => nofun, fun _ => nofun⟩
    | succ depth =>
      have hP := ih depth (Nat.lt_succ_self _)
      constructor
      · rintro R f o K level ts e hR hf hK ⟨us, vs, b, rfl, operand, fold⟩
        obtain ⟨c, content, folded⟩ := folds_yields (o := o)
          (fun d hd => ih d (Nat.lt_succ_of_lt hd)) hR hf fold
        rw [content]
        exact (operand.yields hP hR hf hK).append folded
      · rintro R o K ts q hR ⟨us, vs, s, rfl, select, combine⟩
        obtain ⟨c, content, combined⟩ := combines_yields (o := o)
          (fun d hd => ih d (Nat.lt_succ_of_le hd)) hR combine
        rw [content]
        exact (select.yields hP hR).append combined

end SqlSyntax.Grammar
