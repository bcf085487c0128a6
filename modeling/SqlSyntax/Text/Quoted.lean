/-!
# Quoted text

Two kinds of token wrap a text in quotes.

* A *string literal* stands between single quotes. Inside it a single quote is
  written twice, and a backslash takes the character after it: `\n`, `\t`,
  `\r` and `\0` are the control characters, any other character stands for
  itself.
* A *quoted identifier* stands between double quotes or between backquotes.
  Inside it the quote is written twice and nothing else is special.

For each kind there is a function that writes the body and one that reads it.

## Main results

* `unescape_escape` and `undouble_double` — reading undoes writing.
-/

namespace SqlSyntax.Quoted

/-! ## String literals -/

/-- Body of a string literal: quotes and backslashes are written twice. -/
def escape (s : List Char) : List Char :=
  s.flatMap fun c => if c = '\'' ∨ c = '\\' then [c, c] else [c]

/-- The character that a backslash and `c` stand for. -/
def escapedChar (c : Char) : Char :=
  if c = 'n' then '\n'
  else if c = 't' then '\t'
  else if c = 'r' then '\r'
  else if c = '0' then Char.ofNat 0
  else c

/-- Text of the body of a string literal, put behind `out`, which is held
backwards. A quote stands for itself and the character after it is its
double. -/
def unescapeOnto (out : List Char) : List Char → List Char
  | [] => out.reverse
  | '\'' :: r => unescapeOnto ('\'' :: out) (r.drop 1)
  | '\\' :: c :: r => unescapeOnto (escapedChar c :: out) r
  | c :: r => unescapeOnto (c :: out) r
termination_by body => body.length

/-- Text of the body of a string literal. -/
def unescape (body : List Char) : List Char := unescapeOnto [] body

theorem unescapeOnto_escape (out s : List Char) :
    unescapeOnto out (escape s) = out.reverse ++ s := by
  induction s generalizing out with
  | nil => simp [escape, unescapeOnto]
  | cons c r ih =>
    have cons_eq : escape (c :: r) =
        (if c = '\'' ∨ c = '\\' then [c, c] else [c]) ++ escape r := List.flatMap_cons
    rw [cons_eq]
    split
    · rename_i h
      rcases h with rfl | rfl
      · simp [unescapeOnto, ih]
      · simp [unescapeOnto, ih, escapedChar]
    · rename_i h
      simp only [not_or] at h
      rw [List.singleton_append, unescapeOnto]
      · simp [ih]
      · exact h.1
      · rintro c' r' rfl
        exact absurd rfl h.2

theorem unescape_escape (s : List Char) : unescape (escape s) = s := by
  simp [unescape, unescapeOnto_escape]

/-! ## Quoted identifiers -/

/-- Body of an identifier in quotes `q`. -/
def double (q : Char) (s : List Char) : List Char :=
  s.flatMap fun c => if c = q then [c, c] else [c]

/-- Text of the body of an identifier in quotes `q`, put behind `out`, which
is held backwards: each pair of quotes, from the left, is one. -/
def undoubleOnto (q : Char) (out : List Char) : List Char → List Char
  | [] => out.reverse
  | [c] => (c :: out).reverse
  | c :: d :: r =>
    if c = q ∧ d = q then undoubleOnto q (q :: out) r
    else undoubleOnto q (c :: out) (d :: r)

/-- Text of the body of an identifier in quotes `q`. -/
def undouble (q : Char) (body : List Char) : List Char := undoubleOnto q [] body

theorem undoubleOnto_double (q : Char) (out s : List Char) :
    undoubleOnto q out (double q s) = out.reverse ++ s := by
  induction s generalizing out with
  | nil => simp [double, undoubleOnto]
  | cons c r ih =>
    have cons_eq : double q (c :: r) = (if c = q then [c, c] else [c]) ++ double q r :=
      List.flatMap_cons
    rw [cons_eq]
    split
    · rename_i h
      simp [undoubleOnto, h, ih]
    · rename_i h
      have step :
          undoubleOnto q out (c :: double q r) = undoubleOnto q (c :: out) (double q r) := by
        cases double q r with
        | nil => simp [undoubleOnto]
        | cons d r' => simp [undoubleOnto, h]
      simp [step, ih]

theorem undouble_double (q : Char) (s : List Char) : undouble q (double q s) = s := by
  simp [undouble, undoubleOnto_double]

end SqlSyntax.Quoted
