import SqlSyntax.Number.Decimal
import SqlSyntax.Number.Power

/-!
# Binary floating point numbers of 64 bits

A finite number that is not negative, as `significand · 2 ^ exponent` with a
significand of at most 53 bits. The form is unique: the significand has 53
bits unless the exponent is the least there is. So two numbers are equal
exactly when they are equal as structures.

All arithmetic is on natural numbers and exact. `Binary64.ofDecimal?` rounds a
decimal to the nearest number, and to the one with an even significand when
two are equally near.
-/

namespace SqlSyntax

/-- The number `significand · 2 ^ exponent`. -/
structure Binary64 where
  significand : Nat
  exponent : Int
deriving DecidableEq, Repr

/-- A quotient rounded to the nearest number; a half goes to the even one. -/
def roundHalfEven (numerator denominator : Nat) : Nat :=
  let q := numerator / denominator
  let r := numerator % denominator
  if 2 * r < denominator then q
  else if denominator < 2 * r then q + 1
  else if q % 2 = 0 then q
  else q + 1

namespace Binary64

/-- Least exponent. -/
def minExponent : Int := -1074

/-- Greatest exponent. -/
def maxExponent : Int := 971

def zero : Binary64 := ⟨0, minExponent⟩

/-- The number nearest to `numerator / denominator`, both positive, or nothing
if it would be infinite. -/
def ofQuotient? (numerator denominator : Nat) : Option Binary64 :=
  let scaled (e : Int) : Nat × Nat :=
    if 0 ≤ e then (numerator, denominator * twoPow e.toNat)
    else (numerator * twoPow (-e).toNat, denominator)
  let guess : Int := (numerator.log2 : Int) - denominator.log2 - 52
  let fits (e : Int) : Bool := let (n, d) := scaled e; d * twoPow 52 ≤ n
  let e := max minExponent (if fits guess then guess else guess - 1)
  let (n, d) := scaled e
  let m := roundHalfEven n d
  let rounded : Binary64 := if m = twoPow 53 then ⟨twoPow 52, e + 1⟩ else ⟨m, e⟩
  if rounded.exponent ≤ maxExponent then some rounded else none

/-- The number nearest to a decimal, or nothing if it would be infinite. A
factor of ten counts for at least three bits, so decimals far beyond all numbers
are settled without writing them out. -/
def ofDecimal? (d : Decimal) : Option Binary64 :=
  let bits : Int := d.digits.log2 + 3 * d.exponent
  if d.digits = 0 ∨ bits < minExponent - 8 then some zero
  else if 0 ≤ d.exponent then
    if 1024 < bits then none else ofQuotient? (d.digits * tenPow d.exponent.toNat) 1
  else ofQuotient? d.digits (tenPow (-d.exponent).toNat)

example : ofDecimal? ⟨1, -1⟩ = some ⟨0x1999999999999a, -56⟩ := by decide +kernel
example : ofDecimal? ⟨9007199254740993, 0⟩ = some ⟨0x10000000000000, 1⟩ := by decide +kernel
example : ofDecimal? ⟨5, -324⟩ = some ⟨1, -1074⟩ := by decide +kernel
example : ofDecimal? ⟨179769313486231581, 291⟩ = none := by decide +kernel

end Binary64

end SqlSyntax
