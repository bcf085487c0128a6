import SqlSyntax.Proofs.Token.Pieces

/-!
# Putting texts together

White space ends every lexeme, and a line feed ends everything that can be open
at the end of a text that is read without an error: a line comment, a run of white
space, and every lexeme. So what is behind the line feed is read as if the text
were not there, but for where it stands, and the tokens of a text that stands
elsewhere are its tokens, moved.

## Main results

* `TokenStream.readFrom_gap_append` — a gap is skipped, whatever is behind it.
* `Lexeme.ReadsAs.append` — a lexeme is read when white space is put behind it.
* `TokenStream.readFrom_cons` — what stands before and behind the first token of a text.
* `TokenStream.readFrom_append` — a text with a line feed and more behind it.
* `TokenStream.readFrom_moved` — a text that stands elsewhere.
-/

namespace SqlSyntax

/-! ## Gaps -/

namespace Lexeme

theorem lineLength_append {body : List Char} (rest : List Char) (inner : '\n' ∉ body) :
    lineLength (body ++ '\n' :: rest) = body.length + 1 := by
  have run : (body ++ '\n' :: rest).takeWhile (· ≠ '\n') = body := by
    rw [takeWhile_append_of_not_head (by simp), List.takeWhile_eq_self_iff]
    rintro c hc
    simpa using fun h : c = '\n' => inner (h ▸ hc)
  unfold lineLength
  simp only [run, List.drop_left]

theorem lineLength_eq {body : List Char} (inner : '\n' ∉ body) : lineLength body = body.length := by
  have run : body.takeWhile (· ≠ '\n') = body := by
    rw [List.takeWhile_eq_self_iff]
    rintro c hc
    simpa using fun h : c = '\n' => inner (h ▸ hc)
  unfold lineLength
  simp only [run, List.drop_length]

theorem commentLength_append {body : List Char} (n : Nat) (rest : List Char)
    (inner : ¬ ['*', '/'] <:+: body) :
    commentLength n (body ++ '*' :: '/' :: rest) = some (n + body.length + 2) := by
  induction body generalizing n with
  | nil => rfl
  | cons c body ih =>
    rw [List.infix_cons_iff, not_or] at inner
    rw [List.cons_append, commentLength, ih _ inner.2, List.length_cons]
    · congr 1
      omega
    · -- No comment ends with `c`, for the next character is in the body or a star.
      rintro r rfl hr
      cases body with
      | nil => simp at hr
      | cons d body =>
        obtain ⟨rfl, -⟩ := List.cons.inj hr
        exact inner.1 ⟨body, rfl⟩

end Lexeme

namespace TokenStream

theorem skipGaps_of_gapLength {p : Position} {c : Char} {r : List Char} {n : Nat}
    (h : Lexeme.gapLength c r = .ok (some n)) :
    skipGaps p (c :: r) = skipGaps ((p.advance c).advanceAll (r.take n)) (r.drop n) := by
  conv_lhs => rw [skipGaps, h]

/-- White space is skipped one by one or as a run. -/
theorem skipGaps_white {c : Char} (white : Unicode.isWhiteSpace c) (p : Position)
    (r : List Char) : skipGaps p (c :: r) = skipGaps (p.advance c) r := by
  have run {d : Char} (hd : Unicode.isWhiteSpace d) (q : Position) (r : List Char) :
      skipGaps q (d :: r) = skipGaps ((q.advance d).advanceAll (r.takeWhile Unicode.isWhiteSpace))
        (r.dropWhile Unicode.isWhiteSpace) := by
    have found : Lexeme.gapLength d r =
        .ok (some (r.takeWhile Unicode.isWhiteSpace).length) := by
      unfold Lexeme.gapLength
      rw [if_pos hd]
    rw [skipGaps_of_gapLength found]
    have split := List.takeWhile_append_dropWhile (p := Unicode.isWhiteSpace) (l := r)
    generalize r.takeWhile Unicode.isWhiteSpace = front at *
    generalize r.dropWhile Unicode.isWhiteSpace = behind at *
    subst split
    rw [List.take_left, List.drop_left]
  rw [run white]
  cases r with
  | nil => rfl
  | cons d r =>
    by_cases hd : Unicode.isWhiteSpace d
    · rw [run hd, List.takeWhile_cons, List.dropWhile_cons, if_pos hd, if_pos hd]
      rfl
    · rw [List.takeWhile_cons, List.dropWhile_cons, if_neg hd, if_neg hd]
      rfl

/-- A gap is skipped, whatever is behind it. -/
theorem skipGaps_append {gap : List Char} (h : IsGap gap) (p : Position) (rest : List Char) :
    skipGaps p (gap ++ rest) = skipGaps (p.advanceAll gap) rest := by
  induction h generalizing p with
  | nil => rfl
  | space white _ ih => rw [List.cons_append, skipGaps_white white, ih, Position.advanceAll_cons]
  | @lineComment body cs inner _ ih =>
    have found : Lexeme.gapLength '-' ('-' :: (body ++ '\n' :: (cs ++ rest))) =
        .ok (some (body.length + 2)) := by
      rw [Lexeme.gapLength, if_neg (by decide)]
      simp only [Lexeme.lineLength_append _ inner]
      congr 2
      omega
    have shape : '-' :: '-' :: (body ++ '\n' :: cs) ++ rest =
        '-' :: '-' :: (body ++ '\n' :: (cs ++ rest)) := by simp
    have split : '-' :: (body ++ '\n' :: (cs ++ rest)) =
        '-' :: (body ++ ['\n']) ++ (cs ++ rest) := by
      simp
    have length : ('-' :: (body ++ ['\n'])).length = body.length + 2 := by simp
    rw [shape, skipGaps_of_gapLength found, split, List.take_left' length, List.drop_left' length,
      ih, ← Position.advanceAll_append, ← Position.advanceAll_cons]
    simp
  | @blockComment body cs inner _ ih =>
    have found : Lexeme.gapLength '/' ('*' :: (body ++ '*' :: '/' :: (cs ++ rest))) =
        .ok (some (body.length + 3)) := by
      rw [Lexeme.gapLength, if_neg (by decide)]
      simp only [Lexeme.commentLength_append 1 _ inner]
      congr 2
      omega
    have shape : '/' :: '*' :: (body ++ '*' :: '/' :: cs) ++ rest =
        '/' :: '*' :: (body ++ '*' :: '/' :: (cs ++ rest)) := by simp
    have split : '*' :: (body ++ '*' :: '/' :: (cs ++ rest)) =
        '*' :: (body ++ ['*', '/']) ++ (cs ++ rest) := by simp
    have length : ('*' :: (body ++ ['*', '/'])).length = body.length + 3 := by simp
    rw [shape, skipGaps_of_gapLength found, split, List.take_left' length, List.drop_left' length,
      ih, ← Position.advanceAll_append, ← Position.advanceAll_cons]
    simp

/-- What is left when a text ends with a gap. -/
theorem skipGaps_last {cs : List Char} (h : IsLastGap cs) (p : Position) :
    skipGaps p cs = .ok (p.advanceAll cs, []) := by
  cases h with
  | complete gap =>
    have skipped := skipGaps_append gap p []
    rw [List.append_nil, skipGaps] at skipped
    exact skipped
  | @lineComment cs body gap inner =>
    have found : Lexeme.gapLength '-' ('-' :: body) = .ok (some (body.length + 1)) := by
      rw [Lexeme.gapLength, if_neg (by decide)]
      simp only [Lexeme.lineLength_eq inner]
      congr 2
      omega
    have length : ('-' :: body).length = body.length + 1 := rfl
    rw [skipGaps_append gap, skipGaps_of_gapLength found, ← length, List.take_length,
      List.drop_length, skipGaps, ← Position.advanceAll_cons, ← Position.advanceAll_append]

theorem readFrom_gap_append {gap : List Char} (h : IsGap gap) (p : Position) (rest : List Char) :
    readFrom p (gap ++ rest) = readFrom (p.advanceAll gap) rest := by
  rw [readFrom_eq, item, skipGaps_append h, ← item, ← readFrom_eq]

end TokenStream

/-- A line feed ends the comment at the end of a text. -/
theorem IsLastGap.lineFeed {cs : List Char} (h : IsLastGap cs) : IsGap (cs ++ ['\n']) := by
  cases h with
  | complete gap => exact gap.append (.space (by decide) .nil)
  | lineComment gap inner =>
    rw [List.append_assoc]
    exact gap.append (.lineComment inner .nil)

/-! ## Lexemes -/

namespace Lexeme

theorem ne_of_isWhiteSpace {w d : Char} (white : Unicode.isWhiteSpace w)
    (h : Unicode.isWhiteSpace d = false) : w ≠ d := by
  rintro rfl
  rw [h] at white
  cases white

variable {w : Char} (white : Unicode.isWhiteSpace w) {rest : List Char}

include white

/-- What ends every lexeme: no part of a word, no quote, and none of the second
characters of symbols. -/
theorem endsNumber_white (rest : List Char) : EndsNumber (w :: rest) := by
  rintro _ ⟨⟩
  refine ⟨?_, ne_of_isWhiteSpace white (by decide)⟩
  by_contra word
  rw [isWhiteSpace_of_isWordChar (by simpa using word)] at white
  cases white

theorem stringLength_append {n m : Nat} {cs : List Char} (h : stringLength n cs = some m) :
    stringLength n (cs ++ w :: rest) = some m := by
  fun_induction stringLength n cs with
  | case1 | case4 => cases h
  | case2 n r ih => exact ih h
  | case3 n r hnot =>
    rw [List.cons_append, stringLength, h]
    rintro r' hr
    cases r with
    | nil => exact ne_of_isWhiteSpace white (by decide) (List.cons.inj hr).1
    | cons d r =>
      obtain ⟨rfl, -⟩ := List.cons.inj hr
      exact hnot r rfl
  | case5 n c r ih => exact ih h
  | case6 n c r h₁ h₂ h₃ h₄ ih =>
    have plain : c ≠ '\\' := by
      rintro rfl
      cases r with
      | nil => exact h₃ rfl rfl
      | cons d r => exact h₄ d r rfl rfl
    rw [List.cons_append, stringLength, ih h]
    · exact fun _ hc _ => h₂ hc
    · exact h₂
    · exact fun hc _ => plain hc
    · exact fun _ _ hc _ => plain hc

theorem quotedLength_append {q : Char} (hq : Unicode.isWhiteSpace q = false) {n m : Nat}
    {cs : List Char} (h : quotedLength q n cs = some m) :
    quotedLength q n (cs ++ w :: rest) = some m := by
  fun_induction quotedLength q n cs with
  | case1 | case3 => cases h
  | case2 n =>
    rw [List.singleton_append, quotedLength, if_pos rfl, if_neg (ne_of_isWhiteSpace white hq), ← h]
  | case4 n r ih =>
    rw [List.cons_append, List.cons_append, quotedLength, if_pos rfl, if_pos rfl]
    exact ih h
  | case5 n d r hd =>
    rw [List.cons_append, List.cons_append, quotedLength, if_pos rfl, if_neg hd, ← h]
  | case6 n c d r hc ih =>
    rw [List.cons_append, List.cons_append, quotedLength, if_neg hc]
    exact ih h

theorem signLength_white (cs : List Char) : signLength (cs ++ w :: rest) = signLength cs := by
  cases cs with
  | nil =>
    unfold signLength
    split
    · exact absurd (List.cons.inj ‹_›).1 (ne_of_isWhiteSpace white (by decide))
    · exact absurd (List.cons.inj ‹_›).1 (ne_of_isWhiteSpace white (by decide))
    · rfl
  | cons => exact signLength_append nofun

theorem exponentLength_white (cs : List Char) :
    exponentLength (cs ++ w :: rest) = exponentLength cs := by
  cases cs with
  | nil =>
    exact exponentLength_of_ne (not_or.2 ⟨ne_of_isWhiteSpace white (by decide),
      ne_of_isWhiteSpace white (by decide)⟩) rest
  | cons c r =>
    by_cases hc : c = 'e' ∨ c = 'E'
    · rw [List.cons_append, exponentLength_cons hc, exponentLength_cons hc,
        signLength_white white, List.drop_append_of_le_length (signLength_le r),
        digitsLength_append (endsNumber_white white rest)]
    · rw [List.cons_append, exponentLength_of_ne hc, exponentLength_of_ne hc]

theorem numberLength_white (cs : List Char) :
    numberLength (cs ++ w :: rest) = numberLength cs := by
  have whole := digitsLength_le cs
  have fraction := fractionLength_le (cs.drop (digitsLength cs))
  rw [List.length_drop] at fraction
  simp only [numberLength]
  rw [digitsLength_append (endsNumber_white white rest), List.drop_append_of_le_length whole,
    fractionLength_append (endsNumber_white white rest),
    List.drop_append_of_le_length (by omega), exponentLength_white white]

theorem scanNumber_append {c : Char} {r : List Char} {kind : TokenKind} {m : Nat}
    (h : scanNumber c r = .ok (kind, m)) : scanNumber c (r ++ w :: rest) = .ok (kind, m) := by
  have length : numberLength (c :: (r ++ w :: rest)) = numberLength (c :: r) := by
    rw [← List.cons_append]
    exact numberLength_white white (c :: r)
  have inner := numberLength_le (c :: r)
  obtain ⟨rfl, rfl, behind⟩ := scanNumber_eq_ok h
  simp only [scanNumber, length]
  rw [← List.cons_append, List.drop_append_of_le_length inner,
    takeWhile_append_of_not_head (fun d hd => (endsNumber_white white rest d hd).1), behind]
  rfl

theorem startsNumber_append (c : Char) (r : List Char) :
    startsNumber c (r ++ w :: rest) = startsNumber c r := by
  cases r with
  | nil =>
    have digit : w.isDigit = false := by
      by_contra digit
      have := isWordChar_of_isDigit (by simpa using digit)
      rw [(endsNumber_white white rest w rfl).1] at this
      cases this
    simp [startsNumber, digit]
  | cons => rfl

theorem scanSymbol_append (c : Char) (r : List Char) :
    scanSymbol c (r ++ w :: rest) = scanSymbol c r := by
  cases r with
  | nil =>
    have hne : w ≠ '=' ∧ w ≠ '>' ∧ w ≠ '|' := by
      refine ⟨?_, ?_, ?_⟩ <;> exact ne_of_isWhiteSpace white (by decide)
    unfold scanSymbol
    split <;> simp_all
  | cons => rfl

/-- A lexeme is found when white space and more is put behind the text. -/
theorem scan_append {c : Char} {r : List Char} {kind : TokenKind} {m : Nat}
    (h : scan c r = .ok (kind, m)) : scan c (r ++ w :: rest) = .ok (kind, m) := by
  unfold scan at h ⊢
  rw [startsNumber_append white, scanSymbol_append white]
  split at h
  · split at h
    · rename_i found
      rw [if_pos ‹_›, stringLength_append white found]
      exact h
    · exact nomatch h
  rw [if_neg ‹_›]
  split at h
  · rename_i quote
    split at h
    · rename_i found
      rw [if_pos quote, quotedLength_append white (by rw [quote]; decide) found]
      exact h
    · exact nomatch h
  rw [if_neg ‹_›]
  split at h
  · rename_i quote
    split at h
    · rename_i found
      rw [if_pos quote, quotedLength_append white (by rw [quote]; decide) found]
      exact h
    · exact nomatch h
  rw [if_neg ‹_›]
  split at h
  · rw [if_pos ‹_›]
    exact scanNumber_append white h
  rw [if_neg ‹_›]
  split at h
  · rw [if_pos ‹_›, scanWord,
      takeWhile_append_of_not_head (fun d hd => (endsNumber_white white rest d hd).1)]
    exact h
  · rw [if_neg ‹_›]
    exact h

theorem gapLength_append_none {c : Char} {r : List Char} (h : gapLength c r = .ok none) :
    gapLength c (r ++ w :: rest) = .ok none := by
  cases r with
  | nil =>
    have hne : w ≠ '-' ∧ w ≠ '*' := by
      refine ⟨?_, ?_⟩ <;> exact ne_of_isWhiteSpace white (by decide)
    unfold gapLength at h ⊢
    split at h
    · exact nomatch h
    · rename_i hc
      rw [if_neg hc, List.nil_append]
      split <;> simp_all
  | cons d r =>
    unfold gapLength at h ⊢
    split at h
    · exact nomatch h
    · rename_i hc
      rw [if_neg hc, List.cons_append]
      split at h
      · exact nomatch h
      · split at h <;> exact nomatch h
      · rename_i line block
        split
        · rename_i shape
          obtain ⟨rfl, -⟩ := List.cons.inj shape
          exact absurd rfl (line r rfl)
        · rename_i shape
          obtain ⟨rfl, -⟩ := List.cons.inj shape
          exact absurd rfl (block r rfl)
        · rfl

theorem ReadsAs.append {cs ds : List Char} {kind : TokenKind} (h : ReadsAs cs kind ds) :
    ReadsAs cs kind (ds ++ w :: rest) := by
  obtain ⟨c, r, rfl, gap, scanned⟩ := h
  refine ⟨c, r, rfl, ?_, ?_⟩
  · rw [← List.append_assoc]
    exact gapLength_append_none white gap
  · rw [← List.append_assoc]
    exact scan_append white scanned

end Lexeme

/-! ## Streams -/

namespace TokenStream

/-- An item is a gap and a lexeme. -/
theorem exists_of_item {p q : Position} {cs ds : List Char} {t : Token}
    (h : item p cs = .token t q ds) :
    ∃ gap text, cs = gap ++ (text ++ ds) ∧ IsGap gap ∧ Lexeme.ReadsAs text t.kind ds ∧
      t = tokenAt (p.advanceAll gap) t.kind text ∧ q = p.advanceAll (gap ++ text) := by
  obtain ⟨gap, text, shape, token, next, local_⟩ := token_of_item h
  obtain ⟨skips, reads⟩ := local_ ds.length
  rw [List.take_length] at skips reads
  refine ⟨gap, text, shape, ?_, reads, token, next⟩
  have skipped := skips p
  obtain ⟨gap', same, -, -, isGap⟩ := skipGaps_eq_ok skipped
  obtain rfl := List.append_cancel_right same
  obtain ⟨c, r, rfl, -⟩ := reads
  exact isGap nofun

/-- The end of the input is behind a gap. -/
theorem exists_of_ended {p : Position} {cs : List Char} {t : Token} (h : item p cs = .ended t) :
    IsLastGap cs ∧ t = tokenAt (p.advanceAll cs) .endOfInput [] := by
  unfold item at h
  split at h
  · exact nomatch h
  · rename_i skipped
    obtain rfl := Item.ended.inj h
    obtain ⟨gap, rfl, rfl, last, -⟩ := skipGaps_eq_ok skipped
    rw [List.append_nil]
    exact ⟨last, rfl⟩
  · split at h <;> exact nomatch h

/-- The first token of a text, the gap before it and the text behind. -/
theorem readFrom_cons {p : Position} {cs : List Char} {t : Token} {ts : List Token}
    {e : Option LexError} (h : readFrom p cs = ⟨t :: ts, e⟩) (inner : t.isEnd = false) :
    ∃ gap text rest, cs = gap ++ (text ++ rest) ∧ IsGap gap ∧ Lexeme.ReadsAs text t.kind rest ∧
      t = tokenAt (p.advanceAll gap) t.kind text ∧
      readFrom (p.advanceAll (gap ++ text)) rest = ⟨ts, e⟩ := by
  obtain ⟨q, ds, lexeme, tail⟩ := token_of_readFrom h inner
  obtain ⟨gap, text, rfl, isGap, reads, token, rfl⟩ := exists_of_item lexeme
  exact ⟨gap, text, ds, rfl, isGap, reads, token, tail⟩

theorem readFrom_last {cs : List Char} (h : IsLastGap cs) (p : Position) :
    readFrom p cs = ⟨[tokenAt (p.advanceAll cs) .endOfInput []], none⟩ := by
  rw [readFrom_eq, item, skipGaps_last h]

/-- Behind a text without an error, and a line feed, reading goes on as if nothing
were before. -/
theorem readFrom_append {p : Position} {cs : List Char} {ts : List Token} {t : Token}
    (h : readFrom p cs = ⟨ts ++ [t], none⟩) (rest : List Char) :
    readFrom p (cs ++ '\n' :: rest) =
      (readFrom (p.advanceAll (cs ++ ['\n'])) rest).prepend ts := by
  obtain ⟨inner, isEnd⟩ := isEnd_of_eq h
  induction ts generalizing p cs with
  | nil =>
    have gap := (exists_of_ended (ended_of_readFrom h isEnd).1).1.lineFeed
    rw [← List.singleton_append, ← List.append_assoc, readFrom_gap_append gap]
    rfl
  | cons u us ih =>
    obtain ⟨lexeme, inner⟩ := List.forall_mem_cons.1 inner
    obtain ⟨gap, text, ds, rfl, isGap, reads, token, tail⟩ := readFrom_cons h lexeme
    rw [List.append_assoc, List.append_assoc, readFrom_gap_append isGap,
      readFrom_lexeme (reads.append (by decide)), ← Position.advanceAll_append, ih tail inner,
      ← token, ← Position.advanceAll_append]
    simp [prepend]

/-- A text that stands elsewhere has the same tokens, moved. -/
theorem readFrom_moved {p : Position} {cs : List Char} {ts : List Token}
    (h : readFrom p cs = ⟨ts, none⟩) :
    (∀ t ∈ ts, p.offset ≤ t.span.start ∧ t.span.start ≤ t.span.stop) ∧
      ∀ q, readFrom q cs = ⟨ts.map (moved p.offset q cs), none⟩ := by
  induction ts generalizing p cs with
  | nil =>
    obtain ⟨us, -, ⟨e, shape⟩ | ⟨t, -, shape⟩⟩ := readFrom_shape p cs <;> simp [shape] at h
  | cons u us ih =>
    rcases item_of_readFrom h with ⟨r, ds, lexeme, tail⟩ | ⟨ended, rfl, -⟩
    · obtain ⟨gap, text, rfl, isGap, reads, token, rfl⟩ := exists_of_item lexeme
      obtain ⟨bounds, elsewhere⟩ := ih tail
      have next := Position.offset_advanceAll p (gap ++ text)
      refine ⟨List.forall_mem_cons.2 ⟨?_, fun t ht => ?_⟩, fun q => ?_⟩
      · have := Position.offset_advanceAll p gap
        have := Position.offset_advanceAll (p.advanceAll gap) text
        rw [token]
        exact ⟨by show p.offset ≤ (p.advanceAll gap).offset; omega,
          by show (p.advanceAll gap).offset ≤ ((p.advanceAll gap).advanceAll text).offset; omega⟩
      · have := bounds t ht
        omega
      · have others : us.map (moved p.offset q (gap ++ (text ++ ds))) =
            us.map (moved (p.advanceAll (gap ++ text)).offset (q.advanceAll (gap ++ text)) ds) := by
          refine List.map_congr_left fun t ht => ?_
          rw [← List.append_assoc]
          exact moved_append next (bounds t ht).1 (bounds t ht).2
        rw [readFrom_gap_append isGap, readFrom_lexeme reads, ← Position.advanceAll_append,
          elsewhere, List.map_cons, others, token, moved_tokenAt]
        rfl
    · obtain ⟨last, rfl⟩ := exists_of_ended ended
      refine ⟨fun t ht => ?_, fun q => ?_⟩
      · obtain rfl := List.mem_singleton.1 ht
        have := Position.offset_advanceAll p cs
        exact ⟨by show p.offset ≤ (p.advanceAll cs).offset; omega, Nat.le_refl _⟩
      · have there := moved_tokenAt p q cs [] [] .endOfInput
        rw [List.append_nil, List.append_nil] at there
        rw [readFrom_last last, List.map_singleton, there]

end TokenStream

end SqlSyntax
