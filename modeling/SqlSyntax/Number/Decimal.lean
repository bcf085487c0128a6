import SqlSyntax.Number.Power
import SqlSyntax.Text.Digits

/-!
# Decimals

An unsigned decimal number with an exponent, exactly as it is written:
`digits · 10 ^ exponent`.

The digits of an exponent are read until its value is at least 65536; those
after that do not count. Without a mantissa of tens of thousands of digits such
an exponent is far beyond all numbers anyway.

## Main results

* `digitsValue_eq` — halving a run of digits does not change its value.
* `exponentFrom_of_le` — from the bound on an exponent does not grow.
-/

namespace SqlSyntax

/-- The number `digits · 10 ^ exponent`. -/
structure Decimal where
  digits : Nat
  exponent : Int
deriving DecidableEq, Repr

namespace Decimal

/-- Value of a run of digits behind digits of value `a`. -/
def digitsFrom (a : Nat) (cs : List Char) : Nat :=
  cs.foldl (fun a c => 10 * a + Digits.digitValue c) a

theorem digitsFrom_eq (a : Nat) (cs : List Char) :
    digitsFrom a cs = a * tenPow cs.length + digitsFrom 0 cs := by
  induction cs generalizing a with
  | nil => simp [digitsFrom, tenPow]
  | cons c r ih =>
    have step (n : Nat) :
        digitsFrom n (c :: r) = digitsFrom (10 * n + Digits.digitValue c) r := rfl
    have scaled : 10 * a * tenPow r.length = a * (tenPow r.length * 10) := by
      rw [Nat.mul_comm 10 a, Nat.mul_assoc, Nat.mul_comm 10]
    rw [step a, step 0, ih, ih (10 * 0 + _), List.length_cons, tenPow_succ, Nat.add_mul,
      Nat.mul_zero, Nat.zero_add, scaled, Nat.add_assoc]

theorem digitsFrom_append (cs ds : List Char) :
    digitsFrom 0 (cs ++ ds) = digitsFrom 0 cs * tenPow ds.length + digitsFrom 0 ds := by
  rw [← digitsFrom_eq, digitsFrom, List.foldl_append]
  rfl

/-- Value of a run of digits that is halved the given number of times. The
halves of a long run are multiplied as large numbers, which is far less work
than to append its digits one by one. -/
def digitsValue : Nat → List Char → Nat
  | 0, cs => digitsFrom 0 cs
  | halvings + 1, cs =>
    let rest := cs.drop (cs.length / 2)
    digitsValue halvings (cs.take (cs.length / 2)) * tenPow rest.length
      + digitsValue halvings rest

theorem digitsValue_eq (halvings : Nat) (cs : List Char) :
    digitsValue halvings cs = digitsFrom 0 cs := by
  induction halvings generalizing cs with
  | zero => rfl
  | succ n ih => rw [digitsValue, ih, ih, ← digitsFrom_append, List.take_append_drop]

/-- The value at which no more digits of an exponent are read. -/
def exponentBound : Nat := 65536

/-- Value of the digits of an exponent behind digits of value `a`. -/
def exponentFrom (a : Nat) (cs : List Char) : Nat :=
  cs.foldl (fun a c => if a < exponentBound then 10 * a + Digits.digitValue c else a) a

theorem exponentFrom_of_le {a : Nat} (h : exponentBound ≤ a) (cs : List Char) :
    exponentFrom a cs = a := by
  induction cs with
  | nil => rfl
  | cons c r ih =>
    rw [exponentFrom, List.foldl_cons, if_neg (by omega)]
    exact ih

/-- Value of an exponent: digits behind a sign. -/
def readExponent : List Char → Int
  | '-' :: r => -(exponentFrom 0 r : Int)
  | '+' :: r => exponentFrom 0 r
  | r => exponentFrom 0 r

/-- The decimal that a number token spells: digits with an optional point, and
an exponent behind `e` or `E`. -/
def read (text : String) : Decimal :=
  let isMark (c : Char) : Bool := c == 'e' || c == 'E'
  let cs := text.toList
  let mantissa := cs.takeWhile fun c => !isMark c
  let whole := mantissa.takeWhile (· != '.')
  let fraction := (mantissa.dropWhile (· != '.')).drop 1
  let exponent := readExponent ((cs.dropWhile fun c => !isMark c).drop 1)
  let digits := whole ++ fraction
  ⟨digitsValue (digits.length.log2 - 4) digits, exponent - fraction.length⟩

example : read "1.50e3" = ⟨150, 1⟩ ∧ read ".5" = ⟨5, -1⟩ ∧ read "7." = ⟨7, 0⟩
    ∧ read "2E-3" = ⟨2, -3⟩ := by decide

example : read "1e655359" = ⟨1, 655359⟩ ∧ read "1e655360" = ⟨1, 65536⟩ := by decide

end Decimal

/-- Number of decimal digits, none for zero. -/
def digitCount (n : Nat) : Nat := if n = 0 then 0 else (Nat.repr n).length

end SqlSyntax
