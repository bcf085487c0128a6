/-!
# Lines

A text and the lines that a newline separates. There is one line more than
there are newlines, so the last line is empty when the text ends with one.

## Main results

* `join_splitLines` — nothing but the newlines is lost.
* `not_mem_of_mem_splitLines` — no line holds a newline.
-/

namespace SqlSyntax.Lines

/-- Puts a character in front of the first line. -/
def consFirst (c : Char) : List (List Char) → List (List Char)
  | [] => [[c]]
  | line :: lines => (c :: line) :: lines

/-- The lines of a text. -/
def splitLines : List Char → List (List Char)
  | [] => [[]]
  | c :: cs => if c = '\n' then [] :: splitLines cs else consFirst c (splitLines cs)

/-- Lines with a newline between neighbours. -/
def join : List (List Char) → List Char
  | [] => []
  | [line] => line
  | line :: lines => line ++ '\n' :: join lines

theorem splitLines_ne_nil (cs : List Char) : splitLines cs ≠ [] := by
  cases cs with
  | nil => simp [splitLines]
  | cons c cs =>
    by_cases h : c = '\n'
    · simp [splitLines, h]
    · cases hs : splitLines cs <;> simp [splitLines, h, consFirst, hs]

theorem join_consFirst (c : Char) (lines : List (List Char)) :
    join (consFirst c lines) = c :: join lines := by
  cases lines with
  | nil => rfl
  | cons line lines => cases lines <;> rfl

theorem join_splitLines (cs : List Char) : join (splitLines cs) = cs := by
  induction cs with
  | nil => rfl
  | cons c cs ih =>
    by_cases h : c = '\n'
    · subst h
      cases hs : splitLines cs with
      | nil => exact absurd hs (splitLines_ne_nil cs)
      | cons line lines =>
        rw [hs] at ih
        simp [splitLines, hs, join, ih]
    · simp [splitLines, h, join_consFirst, ih]

theorem not_mem_of_mem_splitLines {line cs : List Char} (h : line ∈ splitLines cs) :
    '\n' ∉ line := by
  induction cs generalizing line with
  | nil => simp_all [splitLines]
  | cons c cs ih =>
    by_cases hc : c = '\n'
    · simp only [splitLines, hc, if_true, List.mem_cons] at h
      rcases h with rfl | h
      · simp
      · exact ih h
    · rw [splitLines, if_neg hc] at h
      cases hs : splitLines cs with
      | nil => exact absurd hs (splitLines_ne_nil cs)
      | cons first lines =>
        rw [hs] at h ih
        rcases List.mem_cons.1 h with rfl | h
        · have := ih (List.mem_cons_self ..)
          simp [this, Ne.symm hc]
        · exact ih (List.mem_cons_of_mem _ h)

end SqlSyntax.Lines
