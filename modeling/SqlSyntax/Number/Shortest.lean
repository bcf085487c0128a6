import SqlSyntax.Number.Binary64

/-!
# Shortest decimals

The decimal with the fewest digits that reads back as a given binary number,
of several the one nearest to it, and of two equally near the one whose last
digit is even.

The decimals that read back are those between the midpoints to the two
neighbours of the number; the midpoints themselves belong to it exactly when
its significand is even. Below a power of two the neighbour is only half as
far away. For one digit, two digits and so on the two decimals of that many
digits that enclose the number are tried; if any decimal of that length reads
back, one of these does.
-/

namespace SqlSyntax.Binary64

/-- `a · 2 ^ p ≤ b · 10 ^ q` -/
def scaledLe (a : Nat) (p : Int) (b : Nat) (q : Int) : Bool :=
  a * twoPow p.toNat * tenPow (-q).toNat ≤ b * tenPow q.toNat * twoPow (-p).toNat

/-- `b · 10 ^ q ≤ a · 2 ^ p` -/
def scaledGe (a : Nat) (p : Int) (b : Nat) (q : Int) : Bool :=
  b * tenPow q.toNat * twoPow (-p).toNat ≤ a * twoPow p.toNat * tenPow (-q).toNat

/-- Whether a decimal reads back as the number. The bounds are quarters of the
last place of the significand. -/
def readsBack (b : Binary64) (d : Decimal) : Bool :=
  let below := if b.significand = twoPow 52 ∧ minExponent < b.exponent then 1 else 2
  let low := 4 * b.significand - below
  let high := 4 * b.significand + 2
  let unit := b.exponent - 2
  if b.significand % 2 = 0 then
    scaledLe low unit d.digits d.exponent && scaledGe high unit d.digits d.exponent
  else
    !scaledGe low unit d.digits d.exponent && !scaledLe high unit d.digits d.exponent

/-- The whole part of `number / 10 ^ q`. -/
def wholePart (b : Binary64) (q : Int) : Nat :=
  (b.significand * twoPow b.exponent.toNat * tenPow (-q).toNat)
    / (tenPow q.toNat * twoPow (-b.exponent).toNat)

/-- The decimal exponent of the first digit of a positive number. -/
def order (b : Binary64) : Int :=
  let numerator := b.significand * twoPow b.exponent.toNat
  let denominator := twoPow (-b.exponent).toNat
  if denominator ≤ numerator then (digitCount (numerator / denominator) : Int) - 1
  else -(digitCount ((denominator - 1) / numerator) : Int)

/-- Whether the number is nearer to `(c + 1) · 10 ^ q` than to `c · 10 ^ q`,
between which it lies; halfway between them, the even one counts as nearer. -/
def roundsUp (b : Binary64) (c : Nat) (q : Int) : Bool :=
  if scaledLe (2 * b.significand) b.exponent (2 * c + 1) q then
    scaledGe (2 * b.significand) b.exponent (2 * c + 1) q && c % 2 == 1
  else true

/-- Of the two decimals with `n` digits that enclose the number, the one that
reads back, and the nearer if both do. -/
def nearest? (b : Binary64) (n : Nat) : Option Decimal :=
  let q := b.order - n + 1
  let c := b.wholePart q
  let low : Decimal := ⟨c, q⟩
  let high : Decimal := ⟨c + 1, q⟩
  if b.readsBack low then
    if b.readsBack high && b.roundsUp c q then some high else some low
  else if b.readsBack high then some high
  else none

/-- Decimals of `n` digits, then of more, at most `fuel` lengths. -/
def shortestFrom (b : Binary64) : Nat → Nat → Option Decimal
  | _, 0 => none
  | n, fuel + 1 =>
    match b.nearest? n with
    | some d => some d
    | none => shortestFrom b (n + 1) fuel

/-- The shortest decimal that reads back as the number. Seventeen digits are
always enough. -/
def shortest (b : Binary64) : Decimal :=
  if b.significand = 0 then ⟨0, 0⟩
  else (b.shortestFrom 1 17).getD ⟨0, 0⟩

example : (ofDecimal? ⟨1, -1⟩).map shortest = some ⟨1, -1⟩ := by decide +kernel
example : shortest ⟨twoPow 52, 11⟩ = ⟨9223372036854776, 3⟩ := by decide +kernel

end SqlSyntax.Binary64
