import SqlSyntax.Proofs.Token.Tiling
import SqlSyntax.Proofs.Token.Written

/-!
# Cutting a text

A gap or a lexeme is found by looking at its characters and at what is right
behind it. A text that is cut behind it has nothing more to offer there, so it is
found again.

## Main results

* `gapLength_take`, `gapLength_take_none` — gaps in a text that is cut.
* `scan_take` — lexemes in a text that is cut behind them.
-/

namespace SqlSyntax

namespace Lexeme

/-! ## Gaps -/

theorem eq_cons_of_take_eq_cons {n : Nat} {c : Char} {cs ds : List Char}
    (h : cs.take n = c :: ds) : ∃ es, cs = c :: es := by
  obtain ⟨es, hes⟩ := List.take_prefix n cs
  exact ⟨ds ++ es, by rw [← hes, h, List.cons_append]⟩

theorem takeWhile_take_of_le {p : Char → Bool} {n : Nat} {cs : List Char}
    (h : (cs.takeWhile p).length ≤ n) : (cs.take n).takeWhile p = cs.takeWhile p := by
  rw [← List.take_takeWhile, List.take_of_length_le h]

theorem lineLength_take {n : Nat} {cs : List Char} (h : lineLength cs ≤ n) :
    lineLength (cs.take n) = lineLength cs := by
  have run : (cs.takeWhile (· ≠ '\n')).length ≤ n := by
    unfold lineLength at h
    simp only at h
    split at h <;> omega
  unfold lineLength at h ⊢
  simp only [takeWhile_take_of_le run, List.drop_take] at h ⊢
  generalize (cs.takeWhile (· ≠ '\n')).length = m at *
  cases behind : cs.drop m with
  | nil => simp
  | cons c rest =>
    simp only [behind] at h
    obtain ⟨k, hk⟩ : ∃ k, n - m = k + 1 := ⟨n - m - 1, by omega⟩
    rw [hk, List.take_succ_cons]

theorem commentLength_le {n m : Nat} {cs : List Char} (h : commentLength n cs = some m) :
    n + 2 ≤ m := by
  obtain ⟨_, _, -, -, rfl⟩ := commentLength_eq_some h
  omega

theorem commentLength_take {n m k : Nat} {cs : List Char} (h : commentLength n cs = some m)
    (hle : m ≤ n + k) : commentLength n (cs.take k) = some m := by
  fun_induction commentLength n cs generalizing k with
  | case1 => cases h
  | case2 n r =>
    obtain rfl := Option.some.inj h
    obtain ⟨k, rfl⟩ : ∃ j, k = j + 2 := ⟨k - 2, by omega⟩
    rfl
  | case3 n c r hnot ih =>
    have := commentLength_le h
    obtain ⟨k, rfl⟩ : ∃ j, k = j + 1 := ⟨k - 1, by omega⟩
    rw [List.take_succ_cons, commentLength]
    · exact ih h (by omega)
    · rintro r' rfl hr
      obtain ⟨es, rfl⟩ := eq_cons_of_take_eq_cons hr
      exact hnot es rfl rfl

/-- A gap is found as long as it is there as a whole. -/
theorem gapLength_take {c : Char} {r : List Char} {m n : Nat} (h : gapLength c r = .ok (some m))
    (hle : m ≤ n) : gapLength c (r.take n) = .ok (some m) := by
  unfold gapLength at h ⊢
  split at h
  · rename_i white
    obtain rfl := Option.some.inj (Except.ok.inj h)
    rw [if_pos white, takeWhile_take_of_le hle]
  · rename_i white
    rw [if_neg white]
    split at h
    · rename_i r
      obtain rfl := Option.some.inj (Except.ok.inj h)
      obtain ⟨n, rfl⟩ : ∃ k, n = k + 1 := ⟨n - 1, by omega⟩
      rw [List.take_succ_cons]
      simp only [lineLength_take (show lineLength r ≤ n by omega)]
    · rename_i r
      split at h
      · rename_i found
        obtain rfl := Option.some.inj (Except.ok.inj h)
        have := commentLength_le found
        obtain ⟨n, rfl⟩ : ∃ k, n = k + 1 := ⟨n - 1, by omega⟩
        rw [List.take_succ_cons]
        simp only [commentLength_take (k := n) found (by omega)]
      · exact nomatch h
    · exact nomatch h

theorem gapLength_take_none {c : Char} {r : List Char} (n : Nat) (h : gapLength c r = .ok none) :
    gapLength c (r.take n) = .ok none := by
  unfold gapLength at h ⊢
  split at h
  · exact nomatch h
  · rename_i white
    rw [if_neg white]
    split at h
    · exact nomatch h
    · split at h <;> exact nomatch h
    · rename_i line block
      split
      · rename_i shape
        obtain ⟨es, rfl⟩ := eq_cons_of_take_eq_cons shape
        exact absurd rfl (line es rfl)
      · rename_i shape
        obtain ⟨es, rfl⟩ := eq_cons_of_take_eq_cons shape
        exact absurd rfl (block es rfl)
      · rfl

/-! ## Lexemes -/

theorem stringLength_le {n m : Nat} {cs : List Char} (h : stringLength n cs = some m) :
    n < m := by
  fun_induction stringLength n cs with
  | case1 | case4 => exact nomatch h
  | case3 => obtain rfl := Option.some.inj h; omega
  | case2 _ _ ih | case5 _ _ _ ih => have := ih h; omega
  | case6 _ _ _ _ _ _ _ ih => have := ih h; omega

theorem stringLength_take {n m k : Nat} {cs : List Char} (h : stringLength n cs = some m)
    (hle : m ≤ n + k) : stringLength n (cs.take k) = some m := by
  fun_induction stringLength n cs generalizing k with
  | case1 | case4 => exact nomatch h
  | case2 n r ih =>
    have := stringLength_le h
    obtain ⟨k, rfl⟩ : ∃ j, k = j + 2 := ⟨k - 2, by omega⟩
    simp only [List.take_succ_cons, stringLength]
    exact ih h (by omega)
  | case3 n r hnot =>
    obtain rfl := Option.some.inj h
    obtain ⟨k, rfl⟩ : ∃ j, k = j + 1 := ⟨k - 1, by omega⟩
    rw [List.take_succ_cons, stringLength]
    rintro r' hr
    obtain ⟨es, rfl⟩ := eq_cons_of_take_eq_cons hr
    exact hnot es rfl
  | case5 n c r ih =>
    have := stringLength_le h
    obtain ⟨k, rfl⟩ : ∃ j, k = j + 2 := ⟨k - 2, by omega⟩
    simp only [List.take_succ_cons, stringLength]
    exact ih h (by omega)
  | case6 n c r h₁ h₂ h₃ h₄ ih =>
    have := stringLength_le h
    obtain ⟨k, rfl⟩ : ∃ j, k = j + 1 := ⟨k - 1, by omega⟩
    have plain : c ≠ '\\' := by
      rintro rfl
      cases r with
      | nil => exact h₃ rfl rfl
      | cons d r => exact h₄ d r rfl rfl
    rw [List.take_succ_cons, stringLength]
    · exact ih h (by omega)
    · exact fun _ hc _ => h₂ hc
    · exact h₂
    · exact fun hc _ => plain hc
    · exact fun _ _ hc _ => plain hc

theorem quotedLength_le {q : Char} {n m : Nat} {cs : List Char}
    (h : quotedLength q n cs = some m) : n < m := by
  fun_induction quotedLength q n cs with
  | case1 | case3 => exact nomatch h
  | case2 | case5 => obtain rfl := Option.some.inj h; omega
  | case4 _ _ ih | case6 _ _ _ _ _ ih => have := ih h; omega

theorem quotedLength_take {q : Char} {n m k : Nat} {cs : List Char}
    (h : quotedLength q n cs = some m) (hle : m ≤ n + k) :
    quotedLength q n (cs.take k) = some m := by
  fun_induction quotedLength q n cs generalizing k with
  | case1 | case3 => exact nomatch h
  | case2 n =>
    have found : quotedLength q n [q] = some m := by simpa [quotedLength] using h
    have := quotedLength_le found
    obtain ⟨k, rfl⟩ : ∃ j, k = j + 1 := ⟨k - 1, by omega⟩
    simpa [quotedLength] using h
  | case4 n r ih =>
    have := quotedLength_le h
    obtain ⟨k, rfl⟩ : ∃ j, k = j + 2 := ⟨k - 2, by omega⟩
    simp only [List.take_succ_cons, quotedLength, if_true]
    exact ih h (by omega)
  | case5 n d r hd =>
    obtain rfl := Option.some.inj h
    obtain ⟨k, rfl⟩ : ∃ j, k = j + 1 := ⟨k - 1, by omega⟩
    rw [List.take_succ_cons]
    cases k with
    | zero => simp [quotedLength]
    | succ k => simp [quotedLength, hd]
  | case6 n c d r hc ih =>
    have := quotedLength_le h
    obtain ⟨k, rfl⟩ : ∃ j, k = j + 2 := ⟨k - 2, by omega⟩
    have tail := ih h (k := k + 1) (by omega)
    simp only [List.take_succ_cons] at tail ⊢
    rw [quotedLength, if_neg hc, tail]

theorem head?_take {n : Nat} (hn : n ≠ 0) (cs : List Char) : (cs.take n).head? = cs.head? := by
  rw [List.head?_take, if_neg hn]

theorem scanSymbol_take {c : Char} {r : List Char} {kind : TokenKind} {m n : Nat}
    (h : scanSymbol c r = some (kind, m)) (hle : m ≤ n) :
    scanSymbol c (r.take n) = some (kind, m) := by
  rcases n with _ | n
  · obtain rfl := Nat.le_zero.1 hle
    unfold scanSymbol at h ⊢
    rw [List.take_zero, List.head?_nil]
    split at h <;> simp_all
  · unfold scanSymbol at h ⊢
    rwa [head?_take (Nat.succ_ne_zero n)]

/-- A lexeme is found as long as it is there as a whole. -/
theorem scan_take {c : Char} {r : List Char} {kind : TokenKind} {m n : Nat}
    (h : scan c r = .ok (kind, m)) (hle : m ≤ n) : scan c (r.take n) = .ok (kind, m) := by
  by_cases starts : startsNumber c r
  · have found := h
    rw [scan_of_startsNumber starts] at found
    obtain ⟨rfl, -, -⟩ := scanNumber_eq_ok found
    exact scan_take_number h hle
  · have starts' : ¬ startsNumber c (r.take n) := by
      simp only [startsNumber, Bool.or_eq_true, Bool.and_eq_true, not_or, not_and] at starts ⊢
      refine ⟨starts.1, fun hc => ?_⟩
      rcases n with _ | n
      · simp
      · rw [head?_take (Nat.succ_ne_zero n)]
        exact starts.2 hc
    unfold scan at h ⊢
    rw [if_neg starts] at h
    rw [if_neg starts']
    by_cases string : c = '\''
    · rw [if_pos string] at h ⊢
      split at h
      · rename_i found
        cases h
        rw [stringLength_take found (by omega)]
      · cases h
    rw [if_neg string] at h ⊢
    by_cases double : c = '"'
    · rw [if_pos double] at h ⊢
      split at h
      · rename_i found
        cases h
        rw [quotedLength_take found (by omega)]
      · cases h
    rw [if_neg double] at h ⊢
    by_cases backquote : c = '\x60'
    · rw [if_pos backquote] at h ⊢
      split at h
      · rename_i found
        cases h
        rw [quotedLength_take found (by omega)]
      · cases h
    rw [if_neg backquote] at h ⊢
    by_cases word : isWordStart c
    · rw [if_pos word] at h ⊢
      have run : (r.takeWhile isWordChar).length ≤ n := by
        simp only [scanWord] at h
        split at h <;>
        · cases h
          exact hle
      rw [scanWord, takeWhile_take_of_le run]
      exact h
    · rw [if_neg word] at h ⊢
      split at h
      · rename_i found
        cases h
        rw [scanSymbol_take found hle]
      · cases h

theorem stringLength_le_length {n m : Nat} {cs : List Char} (h : stringLength n cs = some m) :
    m ≤ n + cs.length := by
  fun_induction stringLength n cs with
  | case1 | case4 => exact nomatch h
  | case3 => obtain rfl := Option.some.inj h; simp
  | case2 _ _ ih | case5 _ _ _ ih =>
    have := ih h
    simp only [List.length_cons]
    omega
  | case6 _ _ _ _ _ _ _ ih =>
    have := ih h
    simp only [List.length_cons]
    omega

theorem quotedLength_le_length {q : Char} {n m : Nat} {cs : List Char}
    (h : quotedLength q n cs = some m) : m ≤ n + cs.length := by
  fun_induction quotedLength q n cs with
  | case1 | case3 => exact nomatch h
  | case2 | case5 => obtain rfl := Option.some.inj h; simp
  | case4 _ _ ih | case6 _ _ _ _ _ ih =>
    have := ih h
    simp only [List.length_cons] at this ⊢
    omega

theorem scanSymbol_le {c : Char} {r : List Char} {kind : TokenKind} {m : Nat}
    (h : scanSymbol c r = some (kind, m)) : m ≤ r.length := by
  cases r with
  | nil =>
    unfold scanSymbol at h
    rw [List.head?_nil] at h
    split at h <;> simp_all
  | cons d r =>
    unfold scanSymbol at h
    split at h <;> simp_all <;> omega

/-- A lexeme is no longer than the text. -/
theorem scan_le {c : Char} {r : List Char} {kind : TokenKind} {m : Nat}
    (h : scan c r = .ok (kind, m)) : m ≤ r.length := by
  by_cases starts : startsNumber c r
  · have found := h
    rw [scan_of_startsNumber starts] at found
    obtain ⟨rfl, -, -⟩ := scanNumber_eq_ok found
    exact length_of_scan_number h
  unfold scan at h
  split at h
  · split at h
    · rename_i found
      cases h
      have := stringLength_le_length found
      omega
    · cases h
  split at h
  · split at h
    · rename_i found
      cases h
      have := quotedLength_le_length found
      omega
    · cases h
  split at h
  · split at h
    · rename_i found
      cases h
      have := quotedLength_le_length found
      omega
    · cases h
  split at h
  · simp only [scanWord] at h
    split at h <;>
    · cases h
      exact (List.takeWhile_sublist _).length_le
  · split at h
    · rename_i found
      cases h
      exact scanSymbol_le found
    · cases h

theorem ReadsAs.take {cs rest : List Char} {kind : TokenKind} (h : ReadsAs cs kind rest) (n : Nat) :
    ReadsAs cs kind (rest.take n) := by
  obtain ⟨c, r, rfl, gap, scanned⟩ := h
  have cut : r ++ rest.take n = (r ++ rest).take (r.length + n) := by
    rw [List.take_length_add_append]
  refine ⟨c, r, rfl, ?_, ?_⟩
  · rw [cut]
    exact gapLength_take_none _ gap
  · rw [cut]
    exact scan_take scanned (Nat.le_add_right ..)

end Lexeme

end SqlSyntax
