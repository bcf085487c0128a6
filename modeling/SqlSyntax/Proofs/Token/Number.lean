import SqlSyntax.Proofs.Token.Stream
import SqlSyntax.Proofs.Tree.WellFormed

/-!
# Numbers by themselves

The longest number at the start of a text is a number with nothing behind it,
too: each of its runs ends where the text is cut off, at the latest.

## Main results

* `TokenStream.isNumber_of_mem` — the number tokens of a text are numbers.
-/

namespace SqlSyntax

namespace Lexeme

/-! ## Runs of digits -/

theorem digitsLength_le (cs : List Char) : digitsLength cs ≤ cs.length :=
  (List.takeWhile_sublist _).length_le

theorem digitsLength_take (n : Nat) (cs : List Char) :
    digitsLength (cs.take n) = min n (digitsLength cs) := by
  induction cs generalizing n with
  | nil => simp [digitsLength]
  | cons c cs ih =>
    cases n with
    | zero => simp [digitsLength]
    | succ n =>
      have := ih n
      simp only [digitsLength, List.take_succ_cons, List.takeWhile_cons] at this ⊢
      split <;> simp_all

/-! ## The parts of a number -/

theorem fractionLength_le (cs : List Char) : fractionLength cs ≤ cs.length := by
  unfold fractionLength
  split
  · rename_i r
    have := digitsLength_le r
    simp only [List.length_cons]
    omega
  · omega

theorem fractionLength_take {n : Nat} {cs : List Char} (h : fractionLength cs ≤ n) :
    fractionLength (cs.take n) = fractionLength cs := by
  rcases cs with _ | ⟨c, r⟩
  · simp
  by_cases hc : c = '.'
  · subst hc
    simp only [fractionLength] at h
    obtain ⟨m, rfl⟩ : ∃ m, n = m + 1 := ⟨n - 1, by omega⟩
    simp only [List.take_succ_cons, fractionLength, digitsLength_take]
    omega
  · cases n <;> simp [fractionLength, hc]

/-- Length of the sign that an exponent may start with. -/
def signLength : List Char → Nat
  | '+' :: _ | '-' :: _ => 1
  | _ => 0

theorem signLength_take {n : Nat} (hn : 0 < n) (cs : List Char) :
    signLength (cs.take n) = signLength cs := by
  obtain ⟨m, rfl⟩ : ∃ m, n = m + 1 := ⟨n - 1, by omega⟩
  cases cs with
  | nil => rfl
  | cons c cs =>
    rw [List.take_succ_cons]
    unfold signLength
    split <;> rename_i h
    · obtain ⟨rfl, -⟩ := List.cons.inj h
      rfl
    · obtain ⟨rfl, -⟩ := List.cons.inj h
      rfl
    · split <;> simp_all

theorem exponentLength_cons {c : Char} (hc : c = 'e' ∨ c = 'E') (r : List Char) :
    exponentLength (c :: r) = if digitsLength (r.drop (signLength r)) = 0 then 0
      else 1 + signLength r + digitsLength (r.drop (signLength r)) := by
  simp only [exponentLength, if_pos hc]
  -- The sign is matched on in the definition, with the same outcome as `signLength`.
  split
  · rename_i h
    exact (if_pos h).symm
  · rename_i h
    exact (if_neg h).symm

theorem exponentLength_of_ne {c : Char} (hc : ¬ (c = 'e' ∨ c = 'E')) (r : List Char) :
    exponentLength (c :: r) = 0 := by
  simp only [exponentLength, if_neg hc]

theorem exponentLength_le (cs : List Char) : exponentLength cs ≤ cs.length := by
  rcases cs with _ | ⟨c, r⟩
  · exact Nat.le_refl _
  by_cases hc : c = 'e' ∨ c = 'E'
  · have := digitsLength_le (r.drop (signLength r))
    rw [List.length_drop] at this
    rw [exponentLength_cons hc, List.length_cons]
    split <;> omega
  · rw [exponentLength_of_ne hc]
    exact Nat.zero_le _

theorem exponentLength_take {n : Nat} {cs : List Char} (h : exponentLength cs ≤ n) :
    exponentLength (cs.take n) = exponentLength cs := by
  rcases cs with _ | ⟨c, r⟩
  · simp
  rcases n with _ | n
  · rw [Nat.le_zero.1 h]
    rfl
  by_cases hc : c = 'e' ∨ c = 'E'
  · rw [List.take_succ_cons]
    rw [exponentLength_cons hc] at h
    rw [exponentLength_cons hc, exponentLength_cons hc]
    rcases n with _ | n
    · have none : digitsLength (r.drop (signLength r)) = 0 := by
        split at h <;> omega
      rw [List.take_zero, List.drop_nil, if_pos none]
      rfl
    · rw [signLength_take (Nat.succ_pos n), List.drop_take, digitsLength_take]
      split at h
      · rename_i none
        rw [none, Nat.min_zero]
      · rw [Nat.min_eq_right (by omega)]
  · rw [List.take_succ_cons, exponentLength_of_ne hc, exponentLength_of_ne hc]

/-! ## Numbers -/

theorem numberLength_le (cs : List Char) : numberLength cs ≤ cs.length := by
  have whole := digitsLength_le cs
  have fraction := fractionLength_le (cs.drop (digitsLength cs))
  have exponent := exponentLength_le
    (cs.drop (digitsLength cs + fractionLength (cs.drop (digitsLength cs))))
  simp only [List.length_drop] at fraction exponent
  simp only [numberLength]
  omega

theorem numberLength_take {n : Nat} {cs : List Char} (h : numberLength cs ≤ n) :
    numberLength (cs.take n) = numberLength cs := by
  simp only [numberLength] at h
  have whole : digitsLength (cs.take n) = digitsLength cs := by
    rw [digitsLength_take]
    omega
  have fraction : fractionLength ((cs.take n).drop (digitsLength cs)) =
      fractionLength (cs.drop (digitsLength cs)) := by
    rw [List.drop_take, fractionLength_take]
    omega
  simp only [numberLength, whole, fraction]
  rw [List.drop_take, exponentLength_take]
  omega

theorem scan_of_startsNumber {c : Char} {r : List Char} (h : startsNumber c r) :
    scan c r = scanNumber c r := by
  have hc : c ≠ '\'' ∧ c ≠ '"' ∧ c ≠ '\x60' := by
    refine ⟨?_, ?_, ?_⟩ <;>
    · rintro rfl
      revert h
      simp [startsNumber, Char.isDigit]
  simp only [scan, if_neg hc.1, if_neg hc.2.1, if_neg hc.2.2, if_pos h]

theorem startsNumber_of_scan {c : Char} {r : List Char} {n : Nat}
    (h : scan c r = .ok (.number, n)) : startsNumber c r := by
  unfold scan at h
  split at h
  · split at h <;> cases h
  split at h
  · split at h <;> cases h
  split at h
  · split at h <;> cases h
  split at h
  · assumption
  split at h
  · simp only [scanWord] at h
    split at h <;> cases h
  split at h
  · rename_i found
    cases h
    unfold scanSymbol at found
    split at found <;> simp only [Option.some.injEq, Prod.mk.injEq, reduceCtorEq, false_and] at found
  · cases h

theorem scanNumber_eq_ok {c : Char} {r : List Char} {kind : TokenKind} {n : Nat}
    (h : scanNumber c r = .ok (kind, n)) : kind = .number ∧ n = numberLength (c :: r) - 1 ∧
      ((c :: r).drop (numberLength (c :: r))).takeWhile isWordChar = [] := by
  simp only [scanNumber] at h
  split at h
  · rename_i run
    cases h
    exact ⟨rfl, rfl, List.eq_nil_of_length_eq_zero run⟩
  · cases h

/-- A number has a digit right away or behind its point. -/
theorem numberLength_of_startsNumber {c : Char} {r : List Char} (h : startsNumber c r) :
    0 < numberLength (c :: r) ∧ (c.isDigit = false → 1 < numberLength (c :: r)) := by
  simp only [startsNumber, Bool.or_eq_true, Bool.and_eq_true, beq_iff_eq] at h
  rcases h with h | ⟨rfl, h⟩
  · have : 0 < digitsLength (c :: r) := by simp [digitsLength, h]
    refine ⟨?_, fun hc => by simp [h] at hc⟩
    simp only [numberLength]
    omega
  · obtain ⟨d, r, rfl⟩ : ∃ d r', r = d :: r' := by
      cases r with
      | nil => simp at h
      | cons d r => exact ⟨d, r, rfl⟩
    have hd : d.isDigit := by simpa using h
    have whole : digitsLength ('.' :: d :: r) = 0 := by simp [digitsLength, Char.isDigit]
    have fraction : 1 < fractionLength ('.' :: d :: r) := by
      simp [fractionLength, digitsLength, hd]
    simp only [numberLength, whole, List.drop_zero]
    omega

/-- A number is found as long as it is there as a whole. -/
theorem scan_take_number {c : Char} {r : List Char} {n m : Nat} (h : scan c r = .ok (.number, m))
    (hle : m ≤ n) : scan c (r.take n) = .ok (.number, m) := by
  have starts := startsNumber_of_scan h
  rw [scan_of_startsNumber starts] at h
  obtain ⟨-, rfl, behind⟩ := scanNumber_eq_ok h
  obtain ⟨pos, pos'⟩ := numberLength_of_startsNumber starts
  have cut : c :: r.take n = (c :: r).take (n + 1) := rfl
  have starts' : startsNumber c (r.take n) := by
    simp only [startsNumber, Bool.or_eq_true, Bool.and_eq_true, beq_iff_eq] at starts ⊢
    refine starts.imp_right fun ⟨hc, hr⟩ => ⟨hc, ?_⟩
    have := pos' (by rw [hc]; rfl)
    rwa [List.head?_take, if_neg (by omega)]
  have same : numberLength (c :: r.take n) = numberLength (c :: r) := by
    rw [cut, numberLength_take (by omega)]
  have none : ((c :: r.take n).drop (numberLength (c :: r))).takeWhile isWordChar = [] := by
    rw [cut, List.drop_take, ← List.take_takeWhile, behind, List.take_nil]
  rw [scan_of_startsNumber starts', scanNumber]
  simp only [same, none, List.length_nil, if_true]

/-- No more than the rest of a text is found. -/
theorem length_of_scan_number {c : Char} {r : List Char} {n : Nat}
    (h : scan c r = .ok (.number, n)) : n ≤ r.length := by
  rw [scan_of_startsNumber (startsNumber_of_scan h)] at h
  obtain ⟨-, rfl, -⟩ := scanNumber_eq_ok h
  have := numberLength_le (c :: r)
  simp only [List.length_cons] at this
  omega

end Lexeme

namespace TokenStream

theorem isNumber_of_item {p q : Position} {cs ds : List Char} {t : Token}
    (h : item p cs = .token t q ds) (kind : t.kind = .number) : IsNumber t.text := by
  unfold item at h
  split at h
  · cases h
  · cases h
  · split at h
    · cases h
    · rename_i scanned
      simp only [Item.token.injEq] at h
      obtain ⟨rfl, -, -⟩ := h
      obtain rfl := kind
      have alone := Lexeme.scan_take_number scanned (Nat.le_refl _)
      simpa [IsNumber, tokenAt, Nat.min_eq_left (Lexeme.length_of_scan_number scanned)] using alone

/-- The number tokens of a text are numbers. -/
theorem isNumber_of_mem {p : Position} {cs : List Char} {t : Token}
    (h : t ∈ (readFrom p cs).tokens) (kind : t.kind = .number) : IsNumber t.text := by
  obtain ⟨q, r, ds, es, lexeme⟩ := exists_item_of_mem h (by simp [Token.isEnd, kind])
  exact isNumber_of_item lexeme kind

end TokenStream

end SqlSyntax
