import SqlSyntax.Proofs.Canonical.Lexing
import SqlSyntax.Proofs.Token.Spacing
import SqlSyntax.Proofs.Token.Units

/-!
# Quoting

The printer quotes, the reader finds the closing quote, and the value of a token has its
quotes and escapes taken out. Each of the three knows the rules for itself. Here they
agree: for any text at all, what is printed for it is one token with this text as its
value, and quotes are left out exactly where they are not needed.

What stands behind a printed token can begin with anything that canonical SQL puts behind
an identifier or a string.

## Main results

* `Piece.exists_readsBack` — what a piece is written as is one token, alone and in a text.
* `readsAs_bare_iff` — the texts that need no quotes are those that are one identifier.
* `quoting_unquoting` — quoting and unquoting undo each other.
-/

namespace SqlSyntax

/-- Whether a text is the one token `t`, and still begins with it in front of a blank, a
comma, a closing bracket or a point. -/
structure ReadsBack (text : String) (t : Token) : Prop where
  alone : ∃ e, e.isEnd ∧ tokenize text = .ok [t, e]
  first : ∀ rest : String, (∃ d ∈ rest.toList.head?, d ∈ [' ', ',', ')', '.']) →
    (TokenStream.ofString (text ++ rest)).items.head? = some (.ok t)

/-! ## Pieces -/

/-- A lexeme has one kind, whatever is behind it. -/
theorem Lexeme.ReadsAs.kind_eq {cs rest : List Char} {kind kind' : TokenKind}
    (h : ReadsAs cs kind rest) (alone : ReadsAs cs kind' []) : kind = kind' := by
  obtain ⟨c, r, rfl, -, scanned⟩ := h.take 0
  obtain ⟨c', r', same, -, scanned'⟩ := alone
  obtain ⟨rfl, rfl⟩ := List.cons.inj same
  rw [List.take_zero] at scanned
  exact (Prod.mk.inj (Except.ok.inj (scanned.symm.trans scanned'))).1

/-- A text that is one lexeme is one token. -/
theorem tokenize_of_readsAs {text : String} {kind : TokenKind}
    (alone : Lexeme.ReadsAs text.toList kind []) :
    ∃ e, e.isEnd ∧ tokenize text = .ok [TokenStream.tokenAt .origin kind text.toList, e] := by
  refine ⟨TokenStream.tokenAt (Position.origin.advanceAll text.toList) .endOfInput [], rfl, ?_⟩
  have read := TokenStream.readFrom_lexeme (p := .origin) alone
  rw [List.append_nil, TokenStream.readFrom_last (.complete .nil)] at read
  rw [tokenize, TokenStream.ofString, read]
  rfl

theorem render_singleton (p : Piece) : render [p] = p.text :=
  String.toList_injective (by rw [toList_render, List.flatMap_singleton])

/-- What a piece is written as is one token, and it begins a text in front of each
character that ends the piece. -/
theorem Piece.exists_readsBack {p : Piece} (hp : p ≠ .space) (lexical : p.Lexical)
    (closing : ∀ d ∈ [' ', ',', ')', '.'], p.followedBy d) :
    ∃ t, ReadsBack p.text t ∧ p.Writes t := by
  have none : ∀ d ∈ ([] : List Char).head?, p.followedBy d := nofun
  obtain ⟨kind, alone, writes⟩ := Piece.readsAs hp lexical none
  refine ⟨TokenStream.tokenAt .origin kind p.text.toList, ⟨tokenize_of_readsAs alone, ?_⟩,
    writes .origin⟩
  rintro rest ⟨d, head, mem⟩
  have follows : ∀ d ∈ rest.toList.head?, p.followedBy d := by
    intro d' head'
    obtain rfl : d = d' := Option.some.inj (head.symm.trans head')
    exact closing d mem
  obtain ⟨kind', reads, -⟩ := Piece.readsAs hp lexical follows
  obtain rfl := reads.kind_eq alone
  rw [TokenStream.ofString, String.toList_append, TokenStream.readFrom_lexeme reads,
    TokenStream.items_prepend]
  rfl

/-! ## Texts that need no quotes -/

theorem Lexeme.scanWord_of_scan {c : Char} {r : List Char} {n : Nat}
    (h : scan c r = .ok (.identifier .bare, n)) :
    isWordStart c ∧ scanWord c r = (.identifier .bare, n) := by
  unfold scan at h
  split at h
  · split at h <;> cases h
  split at h
  · split at h <;> cases h
  split at h
  · split at h <;> cases h
  split at h
  · obtain ⟨⟨⟩, -⟩ := scanNumber_eq_ok h
  split at h
  · rename_i start
    exact ⟨start, Except.ok.inj h⟩
  · split at h
    · rename_i found
      cases h
      unfold scanSymbol at found
      split at found <;> cases found
    · cases h

/-- A text is one identifier exactly if it needs no quotes. -/
theorem readsAs_bare_iff {text : String} :
    Lexeme.ReadsAs text.toList (.identifier .bare) [] ↔ needsQuotes text = false := by
  refine ⟨?_, fun h => Piece.readsAs_bare h nofun⟩
  rintro ⟨c, r, shape, -, scanned⟩
  rw [List.append_nil] at scanned
  obtain ⟨start, word⟩ := Lexeme.scanWord_of_scan scanned
  have whole : (r.takeWhile isWordChar).length = r.length ∧
      Keyword.ofText? (String.ofList (c :: r.takeWhile isWordChar)) = none := by
    simp only [Lexeme.scanWord] at word
    split at word
    · cases word
    · rename_i none
      exact ⟨(Prod.mk.inj word).2, none⟩
  have run := (List.takeWhile_prefix isWordChar).eq_of_length whole.1
  have inner : r.all isWordChar := by
    rw [List.all_eq_true]
    exact fun d hd => List.mem_takeWhile_imp (run ▸ hd)
  rw [run, ← shape, String.ofList_toList] at whole
  simp [needsQuotes, isWord, shape, start, inner, whole.2]

/-- A text that is one identifier without quotes and no more. -/
theorem needsQuotes_eq_false_iff {text : String} : needsQuotes text = false ↔
    ∃ t e, tokenize text = .ok [t, e] ∧ e.isEnd ∧ t.kind = .identifier .bare ∧ t.text = text := by
  rw [← readsAs_bare_iff]
  constructor
  · intro reads
    obtain ⟨e, isEnd, tokens⟩ := tokenize_of_readsAs reads
    exact ⟨_, e, tokens, isEnd, rfl, String.ofList_toList⟩
  · rintro ⟨t, e, tokens, -, kind, same⟩
    have stream := TokenStream.ofString_of_tokenize tokens
    have mem : t ∈ (TokenStream.readFrom .origin text.toList).tokens := by
      rw [← TokenStream.ofString, stream]
      exact List.mem_cons_self ..
    have reads := TokenStream.readsAs_of_mem mem (by rw [Token.isEnd, kind]; rfl)
    rwa [kind, same] at reads

/-! ## Quoting and unquoting -/

/-- Quoting and unquoting undo each other. Any text is read back from the identifier and
from the string literal that are printed for it; it is an identifier without quotes exactly
where none are printed; and what a quoted token of any text stands for is read off the
units between its quotes, the same that the reader found there. -/
theorem quoting_unquoting (v : String) (span : Span) :
    (∃ t, ReadsBack (render (Identifier.mk span v).pieces) t ∧
      (∃ style, t.kind = .identifier style) ∧ t.value = v) ∧
    (∃ t, ReadsBack (render [(Literal.string v).piece]) t ∧ t.kind = .string ∧ t.value = v) ∧
    (needsQuotes v = false ↔
      ∃ t e, tokenize v = .ok [t, e] ∧ e.isEnd ∧ t.kind = .identifier .bare ∧ t.text = v) ∧
    ∀ (sql : String) (t : Token) (q : Char), t ∈ (TokenStream.ofString sql).tokens →
      t.kind.quote? = some q →
      ∃ before behind us, sql.toList = before ++ (t.text.toList ++ behind) ∧
        t.position = .behind before ∧
        Lexeme.scan q (t.text.toList.tail ++ behind) =
          .ok (t.kind, (us.flatMap QuotedUnit.written).length + 1) ∧
        (∀ u ∈ us, u.Fits q (t.kind == .string)) ∧
        t.text.toList = q :: (us.flatMap QuotedUnit.written ++ [q]) ∧
        (∀ us' : List QuotedUnit, (∀ u ∈ us', u.Fits q (t.kind == .string)) →
          t.text.toList = q :: (us'.flatMap QuotedUnit.written ++ [q]) → us' = us) ∧
        t.value = String.ofList (us.map QuotedUnit.value) := by
  have closing (p : Piece) (hp : p ≠ .space) (point : p.followedBy '.') :
      ∀ d ∈ [' ', ',', ')', '.'], p.followedBy d := by
    simp only [List.forall_mem_cons, List.not_mem_nil, false_implies, implies_true, and_true]
    exact ⟨Piece.followedBy_closing hp (by decide), Piece.followedBy_closing hp (by decide),
      Piece.followedBy_closing hp (by decide), point⟩
  refine ⟨?_, ?_, needsQuotes_eq_false_iff, fun _ _ _ h quote => Token.exists_units h quote⟩
  · rw [Identifier.pieces, render_singleton]
    have word : isWordChar '.' = false := by decide
    have identifier : Piece.identifier v ≠ .space := by simp
    exact Piece.exists_readsBack identifier trivial
      (closing _ identifier (by simp [Piece.followedBy, word]))
  · rw [Literal.piece, render_singleton]
    have literal : Piece.string v ≠ .space := by simp
    exact Piece.exists_readsBack literal trivial
      (closing _ literal (by simp [Piece.followedBy]))

/-- A keyword as the text of an identifier, and a string in which a backslash stands before
a quote and this before a quote that is written twice. -/
theorem quoting_of_backslash : (∃ t, ReadsBack "\"select\"" t ∧ t.value = "select") ∧
    ∃ t ∈ (TokenStream.ofString "x '\\''''").tokens, t.value = "''" ∧
      t.text.toList = '\'' :: ([QuotedUnit.escaped '\'', .doubled '\''].flatMap
        QuotedUnit.written ++ ['\'']) := by
  obtain ⟨⟨t, reads, -, value⟩, -, -, units⟩ := quoting_unquoting "select" ⟨0, 6⟩
  have printed : render (Identifier.mk ⟨0, 6⟩ "select").pieces = "\"select\"" := by decide +kernel
  rw [printed] at reads
  refine ⟨⟨t, reads, value⟩, ?_⟩
  have mem : (⟨.string, "'\\''''", ⟨2, 8⟩, ⟨1, 3, 2⟩⟩ : Token) ∈
      (TokenStream.ofString "x '\\''''").tokens := by decide +kernel
  obtain ⟨-, -, us, -, -, -, -, -, only, resolved⟩ := units _ _ '\'' mem rfl
  obtain rfl := only [.escaped '\'', .doubled '\''] (by decide) (by decide)
  exact ⟨_, mem, resolved, by decide⟩

end SqlSyntax
