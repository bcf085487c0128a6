import SqlSyntax.Proofs.Token.Joining

/-!
# Reading again from a token on

The reader carries nothing along but its place. So what is read from the position of a
token on, gaps and comments before it left out, is what was read there the first time:
this token, all that come behind it, and the error that stopped the reading if there was
one.

## Main results

* `TokenStream.readFrom_first` — reading starts again at the first token of a stream.
* `TokenStream.ofString_split` — behind its first tokens a text is read as if nothing
  were before them.
* `TokenStream.exists_readsAs` — each token of a text is a lexeme at its place.
* `TokenStream.resume_items` — reading again from any token on.
-/

namespace SqlSyntax.TokenStream

/-- A lexeme that is the first token of a stream stands behind a gap. -/
theorem readsAs_of_first {p : Position} {cs : List Char} {t : Token} {ts : List Token}
    {e : Option LexError} (h : readFrom p cs = ⟨t :: ts, e⟩) (inner : t.isEnd = false) :
    ∃ gap rest, cs = gap ++ (t.text.toList ++ rest) ∧ t.position = p.advanceAll gap ∧
      Lexeme.ReadsAs t.text.toList t.kind rest ∧
      readFrom t.position (t.text.toList ++ rest) = ⟨t :: ts, e⟩ := by
  obtain ⟨gap, text, rest, rfl, -, reads, token, tail⟩ := readFrom_cons h inner
  have place : t.position = p.advanceAll gap := by rw [token]; rfl
  have written : t.text.toList = text := by rw [token, tokenAt, String.toList_ofList]
  rw [written]
  refine ⟨gap, rest, rfl, place, reads, ?_⟩
  rw [place, readFrom_lexeme reads, ← token, ← Position.advanceAll_append, tail]
  rfl

/-- The first token of a stream stands behind a gap, and reading from its position on
gives the same stream: no gap starts where a lexeme does. -/
theorem readFrom_first {p : Position} {cs : List Char} {t : Token} {ts : List Token}
    {e : Option LexError} (h : readFrom p cs = ⟨t :: ts, e⟩) :
    ∃ gap rest, cs = gap ++ rest ∧ t.position = p.advanceAll gap ∧
      readFrom t.position rest = ⟨t :: ts, e⟩ := by
  cases isEnd : t.isEnd with
  | false =>
    obtain ⟨gap, rest, rfl, place, -, again⟩ := readsAs_of_first h isEnd
    exact ⟨gap, t.text.toList ++ rest, rfl, place, again⟩
  | true =>
    obtain ⟨ended, rfl, rfl⟩ := ended_of_readFrom h isEnd
    obtain ⟨-, rfl⟩ := exists_of_ended ended
    exact ⟨cs, [], (List.append_nil cs).symm, rfl, readFrom_last (.complete .nil) _⟩

/-- Before a token no token is the end of the input. -/
theorem isEnd_of_mem_take {p : Position} {cs : List Char} {i : Nat} {t : Token}
    (h : (readFrom p cs).tokens[i]? = some t) :
    ∀ u ∈ (readFrom p cs).tokens.take i, u.isEnd = false := by
  obtain ⟨ts, inner, ⟨e, shape⟩ | ⟨last, -, shape⟩⟩ := readFrom_shape p cs
  · rw [shape]
    exact fun u hu => inner u (List.mem_of_mem_take hu)
  · rw [shape] at h ⊢
    have hle : i ≤ ts.length := by
      have := (List.getElem?_eq_some_iff.1 h).1
      rw [List.length_append, List.length_singleton] at this
      omega
    intro u hu
    rw [List.take_append_of_le_length hle] at hu
    exact inner u (List.mem_of_mem_take hu)

/-- Behind its first tokens, none of them the end, a text is read as if nothing were
before them but characters to count. -/
theorem ofString_split {sql : String} {i : Nat}
    (inner : ∀ u ∈ (ofString sql).tokens.take i, u.isEnd = false) :
    ∃ front rest, sql.toList = front ++ rest ∧
      (∀ t, ((ofString sql).tokens.take i).getLast? = some t →
        t.span.stop = byteLength front) ∧
      ((ofString sql).tokens.take i = [] → front = []) ∧
      readFrom (.behind front) rest = ⟨(ofString sql).tokens.drop i, (ofString sql).failure⟩ := by
  have split : readFrom .origin sql.toList =
      ⟨(ofString sql).tokens.take i ++ (ofString sql).tokens.drop i, (ofString sql).failure⟩ := by
    rw [List.take_append_drop]
    rfl
  obtain ⟨front, rest, shape, behind, cut⟩ := readFrom_cut split inner
  rw [Position.advanceAll_origin] at behind
  refine ⟨front, rest, shape, fun t last => ?_, cut.nil, behind⟩
  rw [cut.last t last, Position.advanceAll_origin, Position.behind]

/-- A token stands in its text as the lexeme that it was read as. -/
theorem exists_readsAs {sql : String} {t : Token} (h : t ∈ (ofString sql).tokens)
    (inner : t.isEnd = false) :
    ∃ before behind, sql.toList = before ++ (t.text.toList ++ behind) ∧
      t.position = .behind before ∧ Lexeme.ReadsAs t.text.toList t.kind behind := by
  obtain ⟨i, token⟩ := List.getElem?_of_mem h
  obtain ⟨inside, here⟩ := List.getElem?_eq_some_iff.1 token
  obtain ⟨front, rest, shape, -, -, behind⟩ := ofString_split (isEnd_of_mem_take token)
  rw [List.drop_eq_getElem_cons inside, here] at behind
  obtain ⟨gap, rest, rfl, place, reads, -⟩ := readsAs_of_first behind inner
  rw [Position.advanceAll_behind] at place
  exact ⟨front ++ gap, rest, by rw [shape, List.append_assoc], place, reads⟩

/-! ## Items by their numbers -/

theorem getElem?_items {s : TokenStream} {i : Nat} {t : Token} :
    s.items[i]? = some (.ok t) ↔ s.tokens[i]? = some t := by
  rw [items, List.getElem?_append, List.length_map]
  split
  · simp
  · rename_i behind
    rw [List.getElem?_eq_none (Nat.le_of_not_lt behind)]
    simp

theorem drop_items {s : TokenStream} {i : Nat} (h : i ≤ s.tokens.length) :
    s.items.drop i = (TokenStream.mk (s.tokens.drop i) s.failure).items := by
  rw [items, List.drop_append_of_le_length (by rwa [List.length_map]), ← List.map_drop]
  rfl

/-- Reading again from the position of any token on gives this token and all items
behind it. -/
theorem resume_items {sql : String} {i : Nat} {t : Token}
    (h : (ofString sql).items[i]? = some (.ok t)) :
    (resume sql t.position).items = (ofString sql).items.drop i := by
  have token : (ofString sql).tokens[i]? = some t := getElem?_items.1 h
  obtain ⟨inside, here⟩ := List.getElem?_eq_some_iff.1 token
  obtain ⟨front, rest, shape, -, -, behind⟩ := ofString_split (isEnd_of_mem_take token)
  rw [List.drop_eq_getElem_cons inside, here] at behind
  obtain ⟨gap, rest, rfl, place, again⟩ := readFrom_first behind
  rw [Position.advanceAll_behind] at place
  have left : dropBytes t.position.offset sql.toList = rest := by
    rw [place, shape, ← List.append_assoc]
    exact dropBytes_append (front ++ gap) rest
  rw [resume, left, again, drop_items (Nat.le_of_lt inside), List.drop_eq_getElem_cons inside, here]

/-- Behind a comment that goes over two lines, with a letter of two bytes, and before a
string that is not closed. -/
theorem resume_before_unclosed :
    (resume "a,/*\n*/ é 'b" ⟨2, 4, 8⟩).items =
      [.ok ⟨.identifier .bare, "é", ⟨8, 10⟩, ⟨2, 4, 8⟩⟩,
        .error ⟨.unterminatedString, ⟨2, 6, 11⟩⟩] := by
  have read : (ofString "a,/*\n*/ é 'b").items =
      [.ok ⟨.identifier .bare, "a", ⟨0, 1⟩, ⟨1, 1, 0⟩⟩,
        .ok ⟨.punctuation .comma, ",", ⟨1, 2⟩, ⟨1, 2, 1⟩⟩,
        .ok ⟨.identifier .bare, "é", ⟨8, 10⟩, ⟨2, 4, 8⟩⟩,
        .error ⟨.unterminatedString, ⟨2, 6, 11⟩⟩] := by decide +kernel
  have again := resume_items (i := 2) (t := ⟨.identifier .bare, "é", ⟨8, 10⟩, ⟨2, 4, 8⟩⟩)
    (congrArg (·[2]?) read)
  rwa [read] at again

end SqlSyntax.TokenStream
