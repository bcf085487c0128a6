import SqlSyntax.Proofs.Token.Cutting

/-!
# Reading a piece of a text

The tokens between two places of a text are read from the piece between these
alone, wherever that stands: the piece ends where a lexeme does.

## Main results

* `TokenStream.readFrom_cut` — the first tokens of a text by themselves.
* `TokenStream.ofString_slice` — the tokens from one to another by themselves.
-/

namespace SqlSyntax

/-! ## Pieces of a text -/

/-- The characters of the first `n` bytes. -/
def takeBytes : Nat → List Char → List Char
  | 0, _ => []
  | _, [] => []
  | n + 1, c :: cs => c :: takeBytes (n + 1 - c.utf8Size) cs

/-- The part of a text that a span covers. -/
def Span.slice (s : Span) (text : String) : String :=
  String.ofList (takeBytes s.length (dropBytes s.start text.toList))

theorem takeBytes_append (n : Nat) (cs ds : List Char) :
    takeBytes (byteLength cs + n) (cs ++ ds) = cs ++ takeBytes n ds := by
  induction cs with
  | nil => simp [byteLength]
  | cons c cs ih =>
    have := c.utf8Size_pos
    obtain ⟨m, hm⟩ : ∃ m, byteLength (c :: cs) + n = m + 1 :=
      ⟨byteLength (c :: cs) + n - 1, by rw [byteLength]; omega⟩
    rw [hm, List.cons_append, takeBytes, ← hm, byteLength,
      show c.utf8Size + byteLength cs + n - c.utf8Size = byteLength cs + n by omega, ih,
      List.cons_append]

theorem dropBytes_append (cs ds : List Char) : dropBytes (byteLength cs) (cs ++ ds) = ds := by
  induction cs with
  | nil => rw [byteLength, dropBytes, List.nil_append]
  | cons c cs ih =>
    have := c.utf8Size_pos
    obtain ⟨m, hm⟩ : ∃ m, byteLength (c :: cs) = m + 1 :=
      ⟨byteLength (c :: cs) - 1, by rw [byteLength]; omega⟩
    rw [hm, List.cons_append, dropBytes, ← hm, byteLength,
      show c.utf8Size + byteLength cs - c.utf8Size = byteLength cs by omega, ih]

theorem Span.slice_eq {text : String} {before piece behind : List Char}
    (h : text.toList = before ++ (piece ++ behind)) :
    Span.slice ⟨byteLength before, byteLength (before ++ piece)⟩ text = String.ofList piece := by
  have length : byteLength before + byteLength piece - byteLength before = byteLength piece + 0 := by
    omega
  rw [slice, Span.length, h, dropBytes_append, byteLength_append, length, takeBytes_append,
    takeBytes, List.append_nil]

/-! ## Tokens in order -/

/-- Whether tokens stand one behind the other and none of them is empty. -/
structure Ordered (ts : List Token) : Prop where
  apart : ts.Pairwise fun t u => t.span.stop ≤ u.span.start
  nonempty : ∀ t ∈ ts, t.span.start < t.span.stop

namespace Ordered

variable {ts us : List Token} {t u : Token}

theorem of_infix (h : Ordered ts) (hus : us <:+: ts) : Ordered us :=
  ⟨h.apart.sublist hus.sublist, fun t ht => h.nonempty t (hus.subset ht)⟩

theorem left (h : Ordered (ts ++ us)) : Ordered ts := h.of_infix (List.prefix_append ..).isInfix

theorem right (h : Ordered (ts ++ us)) : Ordered us := h.of_infix (List.suffix_append ..).isInfix

theorem tail (h : Ordered (t :: ts)) : Ordered ts := h.of_infix (List.suffix_cons ..).isInfix

theorem stop_le_start (h : Ordered (ts ++ us)) (ht : t ∈ ts) (hu : u ∈ us) :
    t.span.stop ≤ u.span.start :=
  (List.pairwise_append.1 h.apart).2.2 t ht u hu

theorem start_le (h : Ordered ts) (first : ts.head? = some t) (hu : u ∈ ts) :
    t.span.start ≤ u.span.start := by
  obtain ⟨us, rfl⟩ := List.head?_eq_some_iff.1 first
  rcases List.mem_cons.1 hu with rfl | hu
  · exact Nat.le_refl _
  · have := (List.pairwise_cons.1 h.apart).1 u hu
    have := h.nonempty t (List.mem_cons_self ..)
    omega

theorem stop_le (h : Ordered ts) (last : ts.getLast? = some t) (hu : u ∈ ts) :
    u.span.stop ≤ t.span.stop := by
  obtain ⟨us, rfl⟩ := List.getLast?_eq_some_iff.1 last
  rcases List.mem_append.1 hu with hu | hu
  · have := h.stop_le_start hu (List.mem_singleton_self t)
    have := h.nonempty t (by simp)
    omega
  · rw [List.mem_singleton.1 hu]

end Ordered

namespace TokenStream

/-! ## Items of a text that is cut -/

/-- Whether a gap is skipped when `rest` is behind it, wherever it stands. -/
def Skips (gap rest : List Char) : Prop :=
  ∀ p, skipGaps p (gap ++ rest) = .ok (p.advanceAll gap, rest)

theorem skips_of_skipGaps {p q : Position} {cs ds : List Char}
    (h : skipGaps p cs = .ok (q, ds)) (hds : ds ≠ []) :
    ∃ gap, cs = gap ++ ds ∧ q = p.advanceAll gap ∧ ∀ n, Skips gap (ds.take (n + 1)) := by
  fun_induction skipGaps p cs with
  | case1 =>
    cases h
    exact absurd rfl hds
  | case2 => cases h
  | case3 p c r none =>
    cases h
    refine ⟨[], rfl, rfl, fun n p => ?_⟩
    rw [List.nil_append, List.take_succ_cons, skipGaps, Lexeme.gapLength_take_none n none]
    rfl
  | case4 p c r m found ih =>
    obtain ⟨gap, shape, rfl, skips⟩ := ih h
    refine ⟨c :: (r.take m ++ gap), ?_, ?_, fun n p => ?_⟩
    · rw [List.cons_append, List.append_assoc, ← shape, List.take_append_drop]
    · rw [Position.advanceAll_cons, Position.advanceAll_append]
    · have inside : m ≤ r.length := by
        by_contra beyond
        rw [List.drop_eq_nil_of_le (by omega)] at shape
        exact hds (List.append_eq_nil_iff.1 shape.symm).2
      have length : (r.take m).length = m := by rw [List.length_take, Nat.min_eq_left inside]
      have cut : r.take m ++ gap ++ ds.take (n + 1) = r.take (m + (gap.length + (n + 1))) := by
        conv_rhs => rw [List.take_add, shape, List.take_length_add_append]
        rw [List.append_assoc]
      have first := Lexeme.gapLength_take found (Nat.le_add_right m (gap.length + (n + 1)))
      rw [← cut, List.append_assoc] at first
      rw [List.cons_append, List.append_assoc, skipGaps, first]
      simp only
      rw [List.take_left' length, List.drop_left' length, skips, Position.advanceAll_cons,
        Position.advanceAll_append]

/-- No gap starts where skipping has stopped. -/
theorem gapLength_of_skipGaps {p q : Position} {cs r : List Char} {c : Char}
    (h : skipGaps p cs = .ok (q, c :: r)) : Lexeme.gapLength c r = .ok none := by
  fun_induction skipGaps p cs with
  | case1 | case2 => cases h
  | case3 p c r none =>
    cases h
    exact none
  | case4 p c r m found ih => exact ih h

/-- What is behind a gap is read as if the gap were not there. -/
theorem item_skips {p : Position} {gap cs rest : List Char} {kind : TokenKind}
    (skips : Skips gap (cs ++ rest)) (h : Lexeme.ReadsAs cs kind rest) :
    item p (gap ++ (cs ++ rest)) =
      .token (tokenAt (p.advanceAll gap) kind cs) (p.advanceAll (gap ++ cs)) rest := by
  have alone := item_eq_token (p := p.advanceAll gap) h
  obtain ⟨c, r, rfl, none, scanned⟩ := h
  rw [item, skips p]
  rw [item, List.cons_append, skipGaps, none] at alone
  rw [List.cons_append, Position.advanceAll_append]
  exact alone

/-- An item is a gap and a lexeme, and stays so when the text is cut behind
it. -/
theorem token_of_item {p q : Position} {cs ds : List Char} {t : Token}
    (h : item p cs = .token t q ds) :
    ∃ gap text, cs = gap ++ (text ++ ds) ∧ t = tokenAt (p.advanceAll gap) t.kind text ∧
      q = p.advanceAll (gap ++ text) ∧
      ∀ n, Skips gap (text ++ ds.take n) ∧ Lexeme.ReadsAs text t.kind (ds.take n) := by
  unfold item at h
  split at h
  · exact nomatch h
  · exact nomatch h
  · rename_i p' c r skipped
    obtain ⟨gap, rfl, rfl, skips⟩ := skips_of_skipGaps skipped nofun
    split at h
    · exact nomatch h
    · rename_i kind m scanned
      obtain ⟨rfl, rfl, rfl⟩ := Item.token.inj h
      have hle := Lexeme.scan_le scanned
      have length : (r.take m).length = m := by rw [List.length_take, Nat.min_eq_left hle]
      have split : c :: r = (c :: r.take m) ++ r.drop m := by
        rw [List.cons_append, List.take_append_drop]
      refine ⟨gap, c :: r.take m, by rw [← split], rfl, by rw [Position.advanceAll_append],
        fun n => ⟨?_, ?_⟩⟩
      · have cut := skips (m + n)
        rw [show m + n + 1 = (c :: r.take m).length + n by simp [length]; omega, split,
          List.take_length_add_append] at cut
        exact cut
      · refine Lexeme.ReadsAs.take ⟨c, r.take m, rfl, ?_, ?_⟩ n
        · rw [List.take_append_drop]
          exact gapLength_of_skipGaps skipped
        · rw [List.take_append_drop, length]
          exact scanned

/-! ## Tokens of a piece -/

/-- A token of a text that stood at the offset `k`, now that `text` stands at
`p`. -/
def moved (k : Nat) (p : Position) (text : List Char) (t : Token) : Token :=
  ⟨t.kind, t.text, ⟨t.span.start - k + p.offset, t.span.stop - k + p.offset⟩,
    p.advanceAll (takeBytes (t.span.start - k) text)⟩

/-- Whether tokens are those of a text that starts at `q`, with a gap before each,
and those of the text alone. -/
structure IsCut (q : Position) (text : List Char) (ts : List Token) : Prop where
  ordered : Ordered ts
  start_le : ∀ t ∈ ts, q.offset ≤ t.span.start
  nil : ts = [] → text = []
  last : ∀ t, ts.getLast? = some t → t.span.stop = (q.advanceAll text).offset
  alone : ∀ p, readFrom p text =
    ⟨ts.map (moved q.offset p text) ++ [tokenAt (p.advanceAll text) .endOfInput []], none⟩

theorem moved_append {k n : Nat} {p : Position} {front text : List Char} {t : Token}
    (hn : n = k + byteLength front) (ht : n ≤ t.span.start) (ht' : t.span.start ≤ t.span.stop) :
    moved k p (front ++ text) t = moved n (p.advanceAll front) text t := by
  have bytes : t.span.start - k = byteLength front + (t.span.start - n) := by omega
  have start : t.span.start - k + p.offset = t.span.start - n + (p.offset + byteLength front) := by
    omega
  have stop : t.span.stop - k + p.offset = t.span.stop - n + (p.offset + byteLength front) := by
    omega
  rw [moved, moved, Position.offset_advanceAll, start, stop, bytes, takeBytes_append,
    Position.advanceAll_append]

theorem moved_tokenAt (q p : Position) (gap lexeme text : List Char) (kind : TokenKind) :
    moved q.offset p (gap ++ (lexeme ++ text)) (tokenAt (q.advanceAll gap) kind lexeme) =
      tokenAt (p.advanceAll gap) kind lexeme := by
  have start : (q.advanceAll gap).offset - q.offset = byteLength gap + 0 := by
    rw [Position.offset_advanceAll]
    omega
  have stop : ((q.advanceAll gap).advanceAll lexeme).offset - q.offset =
      byteLength gap + byteLength lexeme := by
    rw [Position.offset_advanceAll, Position.offset_advanceAll]
    omega
  have place : p.advanceAll (takeBytes (byteLength gap + 0) (gap ++ (lexeme ++ text))) =
      p.advanceAll gap := by
    rw [takeBytes_append, takeBytes, List.append_nil]
  have moved_start : byteLength gap + 0 + p.offset = (p.advanceAll gap).offset := by
    rw [Position.offset_advanceAll]
    omega
  have moved_stop : byteLength gap + byteLength lexeme + p.offset =
      ((p.advanceAll gap).advanceAll lexeme).offset := by
    rw [Position.offset_advanceAll, Position.offset_advanceAll]
    omega
  simp only [moved, tokenAt, start, stop, place, moved_start, moved_stop]

theorem isCut_nil (q : Position) : IsCut q [] [] where
  ordered := ⟨.nil, nofun⟩
  start_le := nofun
  nil _ := rfl
  last := nofun
  alone p := by
    rw [readFrom_eq, item, skipGaps]
    rfl

theorem byteLength_pos {cs : List Char} (h : cs ≠ []) : 0 < byteLength cs := by
  cases cs with
  | nil => exact absurd rfl h
  | cons c cs =>
    have := c.utf8Size_pos
    rw [byteLength]
    omega

/-- One more token in front of a piece. -/
theorem IsCut.cons {q : Position} {gap lexeme text : List Char} {kind : TokenKind}
    {ts : List Token} (skips : Skips gap (lexeme ++ text))
    (reads : Lexeme.ReadsAs lexeme kind text)
    (h : IsCut (q.advanceAll (gap ++ lexeme)) text ts) :
    IsCut q (gap ++ (lexeme ++ text)) (tokenAt (q.advanceAll gap) kind lexeme :: ts) := by
  have pos : 0 < byteLength lexeme := by
    obtain ⟨c, r, rfl, -⟩ := reads
    exact byteLength_pos nofun
  have start : (q.advanceAll gap).offset = q.offset + byteLength gap :=
    Position.offset_advanceAll ..
  have stop : (tokenAt (q.advanceAll gap) kind lexeme).span.stop =
      (q.advanceAll (gap ++ lexeme)).offset := by
    rw [Position.advanceAll_append]
    rfl
  have next : (q.advanceAll (gap ++ lexeme)).offset =
      q.offset + byteLength gap + byteLength lexeme := by
    rw [Position.offset_advanceAll, byteLength_append, Nat.add_assoc]
  refine ⟨⟨List.pairwise_cons.2 ⟨fun t ht => ?_, h.ordered.apart⟩, ?_⟩, ?_, nofun, ?_, fun p => ?_⟩
  · rw [stop]
    exact h.start_le t ht
  · refine List.forall_mem_cons.2 ⟨?_, h.ordered.nonempty⟩
    show (q.advanceAll gap).offset < _
    rw [stop]
    omega
  · refine List.forall_mem_cons.2 ⟨?_, fun t ht => ?_⟩
    · show q.offset ≤ (q.advanceAll gap).offset
      omega
    · have := h.start_le t ht
      omega
  · intro t last
    have whole : q.advanceAll (gap ++ (lexeme ++ text)) =
        (q.advanceAll (gap ++ lexeme)).advanceAll text := by
      rw [← List.append_assoc, Position.advanceAll_append]
    rw [whole]
    cases ts with
    | nil =>
      rw [h.nil rfl, Position.advanceAll_nil, ← stop, ← Option.some.inj last]
      rfl
    | cons u us => exact h.last t (by rwa [List.getLast?_cons_cons] at last)
  · have first : moved q.offset p (gap ++ (lexeme ++ text))
        (tokenAt (q.advanceAll gap) kind lexeme) = tokenAt (p.advanceAll gap) kind lexeme :=
      moved_tokenAt ..
    have others : ts.map (moved q.offset p (gap ++ (lexeme ++ text))) =
        ts.map (moved (q.advanceAll (gap ++ lexeme)).offset (p.advanceAll (gap ++ lexeme)) text) := by
      refine List.map_congr_left fun t ht => ?_
      rw [← List.append_assoc]
      refine moved_append ?_ (h.start_le t ht) (Nat.le_of_lt (h.ordered.nonempty t ht))
      rw [Position.offset_advanceAll]
    rw [readFrom_eq, item_skips skips reads]
    simp only
    rw [h.alone, List.map_cons, first, others, ← List.append_assoc,
      Position.advanceAll_append p (gap ++ lexeme)]
    rfl

/-- The first tokens of a text are those of a piece of it alone. -/
theorem readFrom_cut {q : Position} {cs : List Char} {ts us : List Token} {e : Option LexError}
    (h : readFrom q cs = ⟨ts ++ us, e⟩) (inner : ∀ t ∈ ts, t.isEnd = false) :
    ∃ text rest, cs = text ++ rest ∧ readFrom (q.advanceAll text) rest = ⟨us, e⟩ ∧
      IsCut q text ts := by
  induction ts generalizing q cs with
  | nil => exact ⟨[], cs, rfl, h, isCut_nil q⟩
  | cons t ts ih =>
    obtain ⟨q', ds, hitem, tail⟩ := token_of_readFrom h (inner t (List.mem_cons_self ..))
    obtain ⟨gap, lexeme, rfl, token, rfl, local_⟩ := token_of_item hitem
    obtain ⟨text, rest, rfl, behind, cut⟩ :=
      ih tail fun t ht => inner t (List.mem_cons_of_mem _ ht)
    obtain ⟨skips, reads⟩ := local_ text.length
    rw [List.take_left] at skips reads
    refine ⟨gap ++ (lexeme ++ text), rest, by simp, ?_, ?_⟩
    · rw [← List.append_assoc, Position.advanceAll_append, behind]
    · rw [token]
      exact .cons skips reads cut

/-- The tokens at the start of a text come one behind the other. -/
theorem ordered_of_readFrom {q : Position} {cs : List Char} {ts us : List Token}
    {e : Option LexError} (h : readFrom q cs = ⟨ts ++ us, e⟩)
    (inner : ∀ t ∈ ts, t.isEnd = false) : Ordered ts := by
  obtain ⟨_, _, -, -, cut⟩ := readFrom_cut h inner
  exact cut.ordered

/-- Before the first token of a text is a gap. -/
theorem readFrom_gap {q : Position} {cs : List Char} {t : Token} {ts : List Token}
    {e : Option LexError} (h : readFrom q cs = ⟨t :: ts, e⟩) (inner : t.isEnd = false) :
    ∃ gap rest, cs = gap ++ rest ∧ readFrom (q.advanceAll gap) rest = ⟨t :: ts, e⟩ ∧
      t.span.start = (q.advanceAll gap).offset ∧
      ∀ c ∈ rest.head?, Unicode.isWhiteSpace c = false := by
  obtain ⟨q', ds, hitem, tail⟩ := token_of_readFrom h inner
  obtain ⟨gap, lexeme, rfl, token, rfl, local_⟩ := token_of_item hitem
  obtain ⟨-, reads⟩ := local_ ds.length
  rw [List.take_length] at reads
  refine ⟨gap, lexeme ++ ds, rfl, ?_, ?_, ?_⟩
  · rw [readFrom_lexeme reads, ← token, ← Position.advanceAll_append, tail]
    rfl
  · rw [token]
    rfl
  · obtain ⟨c, r, rfl, none, -⟩ := reads
    rintro _ ⟨⟩
    by_contra white
    unfold Lexeme.gapLength at none
    rw [if_pos (by simpa using white)] at none
    cases none

/-- The tokens between two places of a text are read from the piece between these
alone. -/
theorem ofString_slice {sql : String} {ts us vs : List Token} {e : Option LexError} {s : Span}
    {t : Token} (h : ofString sql = ⟨ts ++ (t :: us ++ vs), e⟩)
    (inner : ∀ u ∈ ts ++ t :: us, u.isEnd = false) (start : s.start = t.span.start)
    (stop : ∀ u, (t :: us).getLast? = some u → s.stop = u.span.stop) :
    (∀ c ∈ (s.slice sql).toList.head?, Unicode.isWhiteSpace c = false) ∧
      byteLength (s.slice sql).toList = s.stop - s.start ∧
      ∀ p, readFrom p (s.slice sql).toList =
        ⟨(t :: us).map (moved s.start p (s.slice sql).toList) ++
          [tokenAt (p.advanceAll (s.slice sql).toList) .endOfInput []], none⟩ := by
  obtain ⟨front, rest, hsql, tail, -⟩ :=
    readFrom_cut h fun u hu => inner u (List.mem_append_left _ hu)
  obtain ⟨gap, rest, rfl, tail, first, white⟩ := readFrom_gap tail (inner t (by simp))
  obtain ⟨piece, rest, rfl, -, cut⟩ :=
    readFrom_cut tail fun u hu => inner u (List.mem_append_right _ hu)
  have offset (cs : List Char) : (Position.origin.advanceAll cs).offset = byteLength cs := by
    rw [Position.offset_advanceAll]
    exact Nat.zero_add _
  rw [← Position.advanceAll_append] at first cut
  have hstart : s.start = byteLength (front ++ gap) := by rw [start, first, offset]
  have hstop : s.stop = byteLength (front ++ gap ++ piece) := by
    obtain ⟨u, last⟩ : ∃ u, (t :: us).getLast? = some u :=
      ⟨_, List.getLast?_eq_some_getLast (List.cons_ne_nil t us)⟩
    rw [stop u last, cut.last u last, ← Position.advanceAll_append, offset]
  have slice : s.slice sql = String.ofList piece := by
    rw [show s = ⟨s.start, s.stop⟩ from rfl, hstart, hstop]
    have split : sql.toList = front ++ gap ++ (piece ++ rest) := by rw [hsql]; simp
    exact Span.slice_eq split
  rw [slice, String.toList_ofList]
  refine ⟨?_, ?_, fun p => ?_⟩
  · intro c hc
    refine white c ?_
    rw [List.head?_append]
    simp only [Option.mem_def] at hc ⊢
    rw [hc, Option.some_or]
  · rw [hstart, hstop, byteLength_append (front ++ gap)]
    omega
  · rw [hstart, ← offset]
    exact cut.alone p

end TokenStream

end SqlSyntax
