import SqlSyntax.Token.Stream

/-!
# How streams end

No lexeme is the end of the input. So the tokens of a stream are lexemes, and
behind them stands the end of the input, once, or the error that stopped the
reading.

## Main results

* `TokenStream.item_of_readFrom` — what a stream starts with.
* `TokenStream.readFrom_shape` — the shape of every stream.
-/

namespace SqlSyntax

namespace Lexeme

theorem scanSymbol_ne_end {c : Char} {r : List Char} {kind : TokenKind} {n : Nat}
    (h : scanSymbol c r = some (kind, n)) : kind ≠ .endOfInput := by
  unfold scanSymbol at h
  split at h <;> simp only [Option.some.injEq, Prod.mk.injEq, reduceCtorEq] at h
  all_goals
    obtain ⟨rfl, -⟩ := h
    nofun

/-- No lexeme is the end of the input. -/
theorem scan_ne_end {c : Char} {r : List Char} {kind : TokenKind} {n : Nat}
    (h : scan c r = .ok (kind, n)) : kind ≠ .endOfInput := by
  unfold scan at h
  split at h
  · split at h
    · cases h
      nofun
    · exact nomatch h
  split at h
  · split at h
    · cases h
      nofun
    · exact nomatch h
  split at h
  · split at h
    · cases h
      nofun
    · exact nomatch h
  split at h
  · simp only [scanNumber] at h
    split at h
    · cases h
      nofun
    · exact nomatch h
  split at h
  · simp only [scanWord] at h
    split at h <;>
    · cases h
      nofun
  split at h
  · rename_i found
    cases h
    exact scanSymbol_ne_end found
  · exact nomatch h

end Lexeme

namespace TokenStream

theorem isEnd_of_item {p q : Position} {cs ds : List Char} {t : Token}
    (h : item p cs = .token t q ds) : t.isEnd = false := by
  unfold item at h
  split at h
  · exact nomatch h
  · exact nomatch h
  · split at h
    · exact nomatch h
    · rename_i kind n scanned
      simp only [Item.token.injEq] at h
      obtain ⟨rfl, -, -⟩ := h
      simpa [Token.isEnd, tokenAt] using Lexeme.scan_ne_end scanned

theorem isEnd_of_ended {p : Position} {cs : List Char} {t : Token} (h : item p cs = .ended t) :
    t.isEnd := by
  unfold item at h
  split at h
  · exact nomatch h
  · obtain rfl := Item.ended.inj h
    rfl
  · split at h <;> exact nomatch h

section

variable {p : Position} {cs : List Char} {t : Token} {ts : List Token} {e : Option LexError}

/-- A stream starts with a lexeme, behind which the others are read, or with the end of
the input, behind which there is nothing. -/
theorem item_of_readFrom (h : readFrom p cs = ⟨t :: ts, e⟩) :
    (∃ q ds, item p cs = .token t q ds ∧ readFrom q ds = ⟨ts, e⟩) ∨
      item p cs = .ended t ∧ ts = [] ∧ e = none := by
  rw [readFrom_eq] at h
  cases hitem : item p cs with
  | failed => simp [hitem] at h
  | ended u =>
    simp only [hitem, TokenStream.mk.injEq, List.cons.injEq] at h
    obtain ⟨⟨rfl, rfl⟩, rfl⟩ := h
    exact .inr ⟨rfl, rfl, rfl⟩
  | token u q ds =>
    simp only [hitem, prepend, List.singleton_append, TokenStream.mk.injEq, List.cons.injEq] at h
    obtain ⟨⟨rfl, tokens⟩, failure⟩ := h
    exact .inl ⟨q, ds, rfl, by rw [← tokens, ← failure]⟩

theorem token_of_readFrom (h : readFrom p cs = ⟨t :: ts, e⟩) (inner : t.isEnd = false) :
    ∃ q ds, item p cs = .token t q ds ∧ readFrom q ds = ⟨ts, e⟩ := by
  rcases item_of_readFrom h with lexeme | ⟨ended, -, -⟩
  · exact lexeme
  · have isEnd := isEnd_of_ended ended
    rw [inner] at isEnd
    cases isEnd

theorem ended_of_readFrom (h : readFrom p cs = ⟨t :: ts, e⟩) (isEnd : t.isEnd) :
    item p cs = .ended t ∧ ts = [] ∧ e = none := by
  rcases item_of_readFrom h with ⟨q, ds, lexeme, -⟩ | ended
  · have inner := isEnd_of_item lexeme
    rw [isEnd] at inner
    cases inner
  · exact ended

/-- Each token of a text but the end of the input is the lexeme at some place of it. -/
theorem exists_item_of_mem (h : t ∈ (readFrom p cs).tokens) (inner : t.isEnd = false) :
    ∃ q r ds es, item q ds = .token t r es := by
  induction hn : cs.length using Nat.strongRecOn generalizing p cs with
  | ind n ih =>
    subst hn
    rw [readFrom_eq] at h
    cases hitem : item p cs with
    | failed => simp [hitem] at h
    | ended u =>
      simp only [hitem, List.mem_singleton] at h
      have isEnd := isEnd_of_ended hitem
      rw [← h, inner] at isEnd
      cases isEnd
    | token u q ds =>
      simp only [hitem, prepend, List.singleton_append, List.mem_cons] at h
      rcases h with rfl | h
      · exact ⟨p, q, cs, ds, hitem⟩
      · exact ih _ (length_lt_of_item hitem) h rfl

end

/-- A stream is lexemes and the end of the input, or lexemes and an error. -/
theorem readFrom_shape (p : Position) (cs : List Char) :
    ∃ ts, (∀ t ∈ ts, t.isEnd = false) ∧
      ((∃ e, readFrom p cs = ⟨ts, some e⟩) ∨ ∃ t, t.isEnd ∧ readFrom p cs = ⟨ts ++ [t], none⟩) := by
  induction h : cs.length using Nat.strongRecOn generalizing p cs with
  | ind n ih =>
    subst h
    rw [readFrom_eq]
    cases hitem : item p cs with
    | failed e => exact ⟨[], nofun, .inl ⟨e, rfl⟩⟩
    | ended t => exact ⟨[], nofun, .inr ⟨t, isEnd_of_ended hitem, rfl⟩⟩
    | token t q ds =>
      obtain ⟨ts, inner, shape⟩ := ih _ (length_lt_of_item hitem) q ds rfl
      refine ⟨t :: ts, List.forall_mem_cons.2 ⟨isEnd_of_item hitem, inner⟩, ?_⟩
      rcases shape with ⟨e, he⟩ | ⟨u, hu, he⟩
      · exact .inl ⟨e, by simp [he, prepend]⟩
      · exact .inr ⟨u, hu, by simp [he, prepend]⟩

/-- In a stream without an error the last token, and no other, is the end of the
input. -/
theorem isEnd_of_eq {p : Position} {cs : List Char} {ts : List Token} {t : Token}
    (h : readFrom p cs = ⟨ts ++ [t], none⟩) : (∀ u ∈ ts, u.isEnd = false) ∧ t.isEnd := by
  obtain ⟨us, inner, ⟨e, shape⟩ | ⟨u, hu, shape⟩⟩ := readFrom_shape p cs
  · exact nomatch (TokenStream.mk.inj (h.symm.trans shape)).2
  · have tokens := (TokenStream.mk.inj (h.symm.trans shape)).1
    obtain ⟨rfl, last⟩ := List.append_inj' tokens rfl
    obtain rfl := List.singleton_inj.1 last
    exact ⟨inner, hu⟩

/-! ### Whole texts -/

theorem ofString_of_tokenize {sql : String} {ts : List Token}
    (h : tokenize sql = .ok ts) : ofString sql = ⟨ts, none⟩ := by
  unfold tokenize toExcept at h
  split at h
  · exact nomatch h
  · rename_i failure
    rw [← Except.ok.inj h, ← failure]

theorem exists_last {sql : String} {ts : List Token}
    (h : ofString sql = ⟨ts, none⟩) : ∃ us t, ts = us ++ [t] ∧ t.isEnd := by
  obtain ⟨us, -, ⟨e, shape⟩ | ⟨t, isEnd, shape⟩⟩ := readFrom_shape .origin sql.toList
  · exact nomatch (TokenStream.mk.inj (h.symm.trans shape)).2
  · exact ⟨us, t, (TokenStream.mk.inj (h.symm.trans shape)).1, isEnd⟩

end TokenStream

end SqlSyntax
