/-!
# Digits

Reading a run of decimal digits as a number, up to a bound. Leading zeros are
allowed. Reading stops as soon as the bound is passed, so a long run of digits
costs no more than its length.

## Main results

* `valueUpTo_le` — a value that is read respects the bound.
-/

namespace SqlSyntax.Digits

/-- Value of an ASCII digit. -/
def digitValue (c : Char) : Nat := c.toNat - '0'.toNat

/-- Value of the digits `cs` behind digits of value `a`, if there is nothing
but digits and the value is at most `bound`. -/
def valueFrom (bound a : Nat) : List Char → Option Nat
  | [] => some a
  | c :: r =>
    let b := 10 * a + digitValue c
    if c.isDigit ∧ b ≤ bound then valueFrom bound b r else none

/-- Value of a text of digits, if it is at most `bound`. -/
def valueUpTo (bound : Nat) (text : String) : Option Nat :=
  if text.isEmpty then none else valueFrom bound 0 text.toList

theorem valueFrom_le {bound a n : Nat} {cs : List Char} (ha : a ≤ bound)
    (h : valueFrom bound a cs = some n) : n ≤ bound := by
  induction cs generalizing a with
  | nil => simp only [valueFrom, Option.some.injEq] at h; omega
  | cons c r ih =>
    simp only [valueFrom] at h
    split at h
    · rename_i hb
      exact ih hb.2 h
    · simp at h

theorem valueUpTo_le {bound n : Nat} {text : String} (h : valueUpTo bound text = some n) :
    n ≤ bound := by
  unfold valueUpTo at h
  split at h
  · simp at h
  · exact valueFrom_le (Nat.zero_le _) h

end SqlSyntax.Digits
