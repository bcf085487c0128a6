/-!
# Source locations

A piece of SQL text is read as a list of characters. Two kinds of location
point into it:

* a `Position` names one character for a human reader: line and column, both
  counted from one, and beside them the number of bytes of UTF-8 before it;
* a `Span` is a half-open range of bytes, the extent of a token or of a node
  of the syntax tree.

`Position.advance` is the only place that knows how a character moves a
position, so every line, column and offset in the library is a fold of it.

## Main results

* `Position.advanceAll_append` — walking over two pieces of text is walking
  over the first and then over the second.
* `Position.offset_advanceAll` — the offset moves by the number of bytes read.
* `Span.contains_union_left`, `Span.contains_union_right` — the union of two
  spans covers both.
-/

namespace SqlSyntax

/-- Number of bytes of UTF-8 that a text takes. -/
def byteLength : List Char → Nat
  | [] => 0
  | c :: cs => c.utf8Size + byteLength cs

/-- Location of a character: lines and columns start at one and columns count
characters, while `offset` counts bytes of UTF-8 from zero. -/
structure Position where
  line : Nat
  column : Nat
  offset : Nat
deriving DecidableEq, Repr

namespace Position

/-- Position of the first character of a text. -/
def origin : Position := ⟨1, 1, 0⟩

/-- Position of the character after `c`, when `c` stands at `p`. Only a line
feed ends a line. -/
def advance (p : Position) (c : Char) : Position :=
  if c = '\n' then ⟨p.line + 1, 1, p.offset + c.utf8Size⟩
  else ⟨p.line, p.column + 1, p.offset + c.utf8Size⟩

/-- Position after all of `cs`. -/
def advanceAll (p : Position) (cs : List Char) : Position :=
  cs.foldl advance p

/-- How a position is written in messages. -/
def describe (p : Position) : String :=
  "line " ++ toString p.line ++ ", column " ++ toString p.column

@[simp] theorem advanceAll_nil (p : Position) : p.advanceAll [] = p := rfl

@[simp] theorem advanceAll_cons (p : Position) (c : Char) (cs : List Char) :
    p.advanceAll (c :: cs) = (p.advance c).advanceAll cs := rfl

theorem advanceAll_append (p : Position) (cs ds : List Char) :
    p.advanceAll (cs ++ ds) = (p.advanceAll cs).advanceAll ds :=
  List.foldl_append

@[simp] theorem offset_advance (p : Position) (c : Char) :
    (p.advance c).offset = p.offset + c.utf8Size := by
  unfold advance; split <;> rfl

theorem offset_advanceAll (p : Position) (cs : List Char) :
    (p.advanceAll cs).offset = p.offset + byteLength cs := by
  induction cs generalizing p with
  | nil => rfl
  | cons c cs ih =>
    rw [advanceAll_cons, ih, offset_advance, byteLength]
    omega

end Position

/-- Half-open range of bytes. -/
structure Span where
  start : Nat
  stop : Nat
deriving DecidableEq, Repr

namespace Span

/-- Smallest span that covers both. -/
def union (a b : Span) : Span := ⟨min a.start b.start, max a.stop b.stop⟩

/-- Whether `b` lies inside `a`. -/
def contains (a b : Span) : Bool := a.start ≤ b.start && b.stop ≤ a.stop

/-- Number of bytes. -/
def length (a : Span) : Nat := a.stop - a.start

def isEmpty (a : Span) : Bool := a.start == a.stop

theorem contains_union_left (a b : Span) : (a.union b).contains a := by
  simp only [contains, union, Bool.and_eq_true]
  exact ⟨decide_eq_true (Nat.min_le_left ..), decide_eq_true (Nat.le_max_left ..)⟩

theorem contains_union_right (a b : Span) : (a.union b).contains b := by
  simp only [contains, union, Bool.and_eq_true]
  exact ⟨decide_eq_true (Nat.min_le_right ..), decide_eq_true (Nat.le_max_right ..)⟩

end Span

/-- Drops the characters of the first `n` bytes. -/
def dropBytes : Nat → List Char → List Char
  | 0, cs => cs
  | _, [] => []
  | n + 1, c :: cs => dropBytes (n + 1 - c.utf8Size) cs

end SqlSyntax
