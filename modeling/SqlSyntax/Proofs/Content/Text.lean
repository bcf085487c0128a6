import SqlSyntax.Proofs.Canonical.RoundTrip
import SqlSyntax.Proofs.Content.Statement

/-!
# Content of texts

A text that is parsed says what its canonical text says: the same items, and in
the same order unless a limit has a comma or a table is created.

## Main results

* `contentTokens_of_reading` — the tokens of a statement say what its tree says.
* `parseStatement_content` — nothing of a text is lost or made up.
-/

namespace SqlSyntax

open Content Grammar

/-- The semicolon and the end of the input say nothing. -/
theorem scan_closing {R : Bool → Prop} {m : Mode} {us : List Token} {t : Token}
    (hm : Ends R [] m) (closing : IsClosing us) (ht : t.isEnd) :
    (scan m (us ++ [t])).1 = [] ∧ (scan m (us ++ [t])).2.reordered = m.reordered := by
  have kind := t.isEnd_iff.1 ht
  cases closing with
  | none =>
    rw [List.nil_append, scan_cons [] hm.skip (by simp [hm.expects])]
    simp [Mode.items, Mode.next, kind, scan]
  | semicolon semicolon =>
    rw [List.singleton_append, scan_cons _ hm.skip (by simp [hm.expects]), scan_cons []]
    · simp [Mode.items, Mode.next, kind, semicolon, scan]
    · simpa [Mode.next, semicolon] using hm.skip
    · simp [Mode.next, semicolon]

/-- A statement may stand in front of the semicolon and the end of the input. -/
theorem followsType_closing {us : List Token} {t : Token} (closing : IsClosing us) (ht : t.isEnd) :
    Parser.FollowsType (us ++ [t]) := by
  have kind := t.isEnd_iff.1 ht
  cases closing with
  | none => simp [Parser.FollowsType, kind]
  | semicolon semicolon => simp [Parser.FollowsType, semicolon]

/-- The tokens of a statement say what its tree says. They are noticed to say it
in another order if a table is created, and else only if a limit may have a
comma. -/
theorem contentTokens_of_reading {comma : Prop} {depth : Nat} {ts us : List Token} {t : Token}
    {s : Statement} (h : IsStatement (phrases comma depth) ts s) (closing : IsClosing us)
    (ht : t.isEnd) :
    (contentTokens (ts ++ us ++ [t])).Perm s.content ∧
      (reorders (ts ++ us ++ [t]) = false → contentTokens (ts ++ us ++ [t]) = s.content) ∧
      (s.createsTable → reorders (ts ++ us ++ [t])) ∧
      (reorders (ts ++ us ++ [t]) → comma ∨ s.createsTable) := by
  let R : Bool → Prop := fun b => (s.createsTable → b) ∧ (b → comma ∨ s.createsTable)
  have allowed : comma → R true := fun hc => ⟨fun _ => rfl, fun _ => .inl hc⟩
  have start : R s.createsTable := ⟨id, .inr⟩
  obtain ⟨m, hm, scans⟩ := h.yields (phrases_yielding comma depth) allowed start .start rfl
  obtain ⟨mode, agrees⟩ := scans _ (followsType_closing closing ht)
  obtain ⟨items, reordered⟩ := scan_closing hm closing ht
  have whole := agrees [] ⟨items ▸ .refl _, fun _ => items⟩
  rw [List.append_nil, ← List.append_assoc] at whole
  have noticed : reorders (ts ++ us ++ [t]) = m.reordered := by
    rw [reorders, List.append_assoc, mode, reordered]
  rw [noticed]
  exact ⟨whole.perm, fun hr => whole.eq (noticed.trans hr), hm.reordered⟩

/-- The tokens of the canonical text of a statement say what its tree says. -/
theorem contentTokens_canonical {depth : Nat} {s : Statement}
    (admissible : (Node.statement s).Admissible depth) :
    ∃ ts, tokenize s.canonical = .ok ts ∧ (contentTokens ts).Perm s.content ∧
      (s.createsTable = false → contentTokens ts = s.content) := by
  obtain ⟨ts, t, stream, ht, spelled⟩ := Statement.ofString_canonical admissible.wellFormed
  obtain ⟨s', reading, same⟩ := (Node.statement s).rereads admissible spelled
  have content : s'.content = s.content := by
    rw [← s'.content_unplaced, ← s.content_unplaced]
    exact congrArg Statement.content same
  have creates : s'.createsTable = s.createsTable := by
    have := congrArg Statement.createsTable same
    cases s <;> cases s' <;> first | rfl | exact nomatch this
  obtain ⟨perm, eq, -, noticed⟩ := contentTokens_of_reading reading .none ht
  rw [List.append_nil, content] at perm eq
  refine ⟨ts ++ [t], by simp [tokenize, stream, TokenStream.toExcept], perm, fun hs => eq ?_⟩
  rw [List.append_nil] at noticed
  by_contra h
  rcases noticed (Bool.of_not_eq_false h) with absurd | hs'
  · exact absurd
  · rw [creates, hs] at hs'
    exact nomatch hs'

/-- Nothing of a text that is parsed is lost or made up: its tokens and those of
its canonical text say the same, and in the same order if the text has no limit
with a comma and creates no table. -/
theorem parseStatement_content {limits : Limits} {sql : String} {s : Statement}
    (h : parseStatement limits sql = .ok s) :
    ∃ ts us, tokenize sql = .ok ts ∧ tokenize s.canonical = .ok us ∧
      (contentTokens ts).Perm (contentTokens us) ∧
      (reorders ts = false → contentTokens ts = contentTokens us) := by
  obtain ⟨ts, us, t, stream, statement, closing⟩ := parseStatement_sound h
  obtain ⟨-, ht⟩ := TokenStream.isEnd_of_eq stream
  obtain ⟨perm, eq, created, -⟩ := contentTokens_of_reading statement closing ht
  obtain ⟨vs, tokens, perm', eq'⟩ := contentTokens_canonical (parseStatement_admissible h)
  refine ⟨ts ++ us ++ [t], vs, by simp [tokenize, stream, TokenStream.toExcept], tokens,
    perm.trans perm'.symm, fun hr => ?_⟩
  have table : s.createsTable = false := by
    by_contra hs
    rw [created (Bool.of_not_eq_false hs)] at hr
    exact nomatch hr
  rw [eq hr, eq' table]

/-- A text with noise words, a data type of two words and `NULLS FIRST` in small
letters. -/
theorem content_of_noise_words :
    let sql := "select all cast(a as double precision) x from t order by x asc nulls first;"
    let content : List Item := [.keyword .SELECT, .keyword .CAST, .identifier "a", .type .double,
      .identifier "x", .keyword .FROM, .identifier "t", .keyword .ORDER, .keyword .BY,
      .identifier "x", .word "NULLS", .word "FIRST"]
    ∃ s ts us, parseStatement {} sql = .ok s ∧ tokenize sql = .ok ts ∧
      tokenize s.canonical = .ok us ∧ contentTokens ts = content ∧ contentTokens us = content := by
  intro sql content
  have parsed : (match parseStatement {} sql with
      | .ok _ => true
      | .error _ => false) = true := by decide +kernel
  have scanned : (match tokenize sql with
      | .ok ts => contentTokens ts == content && !reorders ts
      | .error _ => false) = true := by decide +kernel
  cases h : parseStatement {} sql with
  | error => simp [h] at parsed
  | ok s =>
    obtain ⟨ts, us, tokens, tokens', -, same⟩ := parseStatement_content h
    simp only [tokens, Bool.and_eq_true, beq_iff_eq, Bool.not_eq_true'] at scanned
    obtain ⟨here, ordered⟩ := scanned
    exact ⟨s, ts, us, rfl, tokens, tokens', here, same ordered ▸ here⟩

end SqlSyntax
