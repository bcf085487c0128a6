/-!
# Tables of code point ranges

A Unicode property is stored as an array of closed ranges in increasing
order. Membership is a binary search, so a test costs a handful of
comparisons however long the table is.
-/

namespace SqlSyntax.Unicode

/-- Closed ranges of code points, in increasing order and disjoint. -/
abbrev RangeTable := Array (Nat × Nat)

namespace RangeTable

/-- Binary search for `n` among the entries with an index in `[lo, hi)`. -/
def find? (t : RangeTable) (n lo hi : Nat) : Option Nat :=
  if lo < hi then
    let mid := (lo + hi) / 2
    match t[mid]? with
    | none => none
    | some (first, last) =>
      if n < first then find? t n lo mid
      else if last < n then find? t n (mid + 1) hi
      else some mid
  else none
termination_by hi - lo

/-- Whether some range of the table holds `n`. -/
def contains (t : RangeTable) (n : Nat) : Bool :=
  (find? t n 0 t.size).isSome

/-- A search only reports a range that holds what was looked for. -/
theorem of_find?_eq_some {t : RangeTable} {n lo hi i : Nat} (h : find? t n lo hi = some i) :
    ∃ r, t[i]? = some r ∧ r.1 ≤ n ∧ n ≤ r.2 := by
  fun_induction find? t n lo hi with
  | case1 => simp at h
  | case2 lo hi _ mid first last hmid hlt ih => exact ih h
  | case3 lo hi _ mid first last hmid hge hgt ih => exact ih h
  | case4 lo hi _ mid first last hmid hge hle =>
    obtain rfl : mid = i := by simpa using h
    exact ⟨(first, last), hmid, by simp; omega, by simp; omega⟩
  | case5 => simp at h

theorem of_contains {t : RangeTable} {n : Nat} (h : t.contains n) :
    ∃ r ∈ t, r.1 ≤ n ∧ n ≤ r.2 := by
  obtain ⟨i, hi⟩ := Option.isSome_iff_exists.1 h
  obtain ⟨r, hr, hle⟩ := of_find?_eq_some hi
  exact ⟨r, Array.mem_of_getElem? hr, hle⟩

end RangeTable

end SqlSyntax.Unicode
