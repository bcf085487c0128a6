/-!
# Powers

The powers of the two bases that numbers are written in.
-/

namespace SqlSyntax

/-- The power of two with exponent `n`. -/
def twoPow (n : Nat) : Nat := Nat.pow 2 n

/-- The power of ten with exponent `n`. -/
def tenPow (n : Nat) : Nat := Nat.pow 10 n

theorem twoPow_succ (n : Nat) : twoPow (n + 1) = twoPow n * 2 := rfl

theorem tenPow_succ (n : Nat) : tenPow (n + 1) = tenPow n * 10 := rfl

theorem twoPow_pos (n : Nat) : 0 < twoPow n := by
  induction n with
  | zero => decide
  | succ n ih =>
    rw [twoPow_succ]
    omega

theorem tenPow_pos (n : Nat) : 0 < tenPow n := by
  induction n with
  | zero => decide
  | succ n ih =>
    rw [tenPow_succ]
    omega

end SqlSyntax
