import SqlSyntax.Unicode.RangeTable

/-!
# White space

The property White_Space of the Unicode character database. It is small
enough to be searched from the front, and the characters that matter most
come first.
-/

namespace SqlSyntax.Unicode

/-- Code points with the property White_Space. -/
def whiteSpaceRanges : List (Nat × Nat) :=
  [(0x9, 0xD), (0x20, 0x20), (0x85, 0x85), (0xA0, 0xA0), (0x1680, 0x1680), (0x2000, 0x200A),
    (0x2028, 0x2029), (0x202F, 0x202F), (0x205F, 0x205F), (0x3000, 0x3000)]

/-- Whether a character has the property White_Space. -/
def isWhiteSpace (c : Char) : Bool :=
  whiteSpaceRanges.any fun (first, last) => first ≤ c.toNat && c.toNat ≤ last

/-- Drops white space at both ends of a text. -/
def trim (cs : List Char) : List Char :=
  ((cs.dropWhile isWhiteSpace).reverse.dropWhile isWhiteSpace).reverse

/-- Core's blanks are white space. -/
theorem isWhiteSpace_of_isWhitespace {c : Char} (h : c.isWhitespace) : isWhiteSpace c := by
  simp only [Char.isWhitespace, Bool.or_eq_true, decide_eq_true_eq] at h
  rcases h with ((rfl | rfl) | rfl) | rfl <;> decide

example : isWhiteSpace '\u00a0' ∧ isWhiteSpace '\u3000' ∧ !isWhiteSpace '\u200b' := by decide

end SqlSyntax.Unicode
