import Mathlib.Data.List.TakeWhile
import SqlSyntax.Proofs.Token.Number
import SqlSyntax.Text.Digits

/-!
# Natural numbers that are written out

The decimal digits of a natural number are a number for the lexer, and their
value is the number again.

## Main results

* `isNumber_toString`, `Digits.valueUpTo_toString`
-/

namespace SqlSyntax

theorem isDigit_of_mem_toString {n : Nat} : ∀ c ∈ (toString n).toList, c.isDigit := by
  intro c hc
  rw [Nat.toString_eq_repr, Nat.toList_repr] at hc
  exact Nat.isDigit_of_mem_toDigits (by decide) (by decide) hc

theorem isNumber_toString (n : Nat) : IsNumber (toString n) := by
  have digits := @isDigit_of_mem_toString n
  unfold IsNumber
  cases shape : (toString n).toList with
  | nil => simp [Nat.toList_repr, Nat.toDigits_ne_nil] at shape
  | cons c r =>
    rw [shape] at digits
    have starts : Lexeme.startsNumber c r := by
      simp [Lexeme.startsNumber, digits c (List.mem_cons_self ..)]
    have run : Lexeme.digitsLength (c :: r) = (c :: r).length := by
      rw [Lexeme.digitsLength, List.takeWhile_eq_self_iff.2 digits]
    have whole : Lexeme.numberLength (c :: r) = (c :: r).length := by
      simp [Lexeme.numberLength, run, Lexeme.fractionLength, Lexeme.exponentLength]
    simp only [Lexeme.scan_of_startsNumber starts, Lexeme.scanNumber, whole, List.drop_length]
    rfl

namespace Digits

theorem valueFrom_eq {bound a : Nat} {cs : List Char} (digits : ∀ c ∈ cs, c.isDigit)
    (h : Nat.ofDigitChars 10 cs a ≤ bound) :
    valueFrom bound a cs = some (Nat.ofDigitChars 10 cs a) := by
  induction cs generalizing a with
  | nil => simp [valueFrom]
  | cons c r ih =>
    rw [Nat.ofDigitChars_cons] at h ⊢
    have here : 10 * a + digitValue c ≤ bound := by
      rw [Nat.ofDigitChars_eq_ofDigitChars_zero] at h
      have grown := Nat.le_mul_of_pos_left (10 * a + digitValue c) (Nat.pow_pos (n := r.length)
        (show 0 < 10 by decide))
      exact Nat.le_trans (Nat.le_trans grown (Nat.le_add_right ..)) h
    have := ih (fun d hd => digits d (List.mem_cons_of_mem _ hd)) h
    rw [valueFrom, if_pos ⟨digits c (List.mem_cons_self ..), here⟩]
    exact this

theorem valueUpTo_toString {bound n : Nat} (h : n ≤ bound) :
    valueUpTo bound (toString n) = some n := by
  have value : Nat.ofDigitChars 10 (toString n).toList 0 = n := by
    rw [Nat.toString_eq_repr, Nat.toList_repr, Nat.ofDigitChars_ten_toDigits]
  rw [valueUpTo, if_neg (by simp), valueFrom_eq isDigit_of_mem_toString (by rwa [value]), value]

end Digits

end SqlSyntax
