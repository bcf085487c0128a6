import SqlSyntax.Proofs.Token.Joining

/-!
# Space between tokens

A lexeme is what it is by its own characters: with nothing behind it, it is read
as in its text, and so it is in front of white space. So a text keeps its tokens
when the gaps around them are changed, as long as they begin with white space where
a token is in front of them and they are not left out between two tokens.

## Main results

* `TokenStream.readsAs_of_mem` — each token of a text is a lexeme by itself.
* `TokenStream.readFrom_withGaps` — lexemes with gaps between them.
* `tokenize_withGaps` — the tokens of a text whose gaps are changed.
-/

namespace SqlSyntax

/-- Whether a gap keeps what is in front of it apart from all that is behind it. -/
structure Separates (gap : List Char) : Prop where
  isGap : IsGap gap
  white : ∃ w ∈ gap.head?, Unicode.isWhiteSpace w

/-- The texts of tokens with a gap behind each, behind the gap `first`. -/
def withGaps (first : List Char) (pieces : List (Token × List Char)) : List Char :=
  first ++ pieces.flatMap fun (t, gap) => t.text.toList ++ gap

/-- What a token is, wherever it stands. -/
def Token.lexeme (t : Token) : TokenKind × String := (t.kind, t.text)

theorem withGaps_cons (first gap : List Char) (t : Token) (pieces : List (Token × List Char)) :
    withGaps first ((t, gap) :: pieces) = first ++ (t.text.toList ++ withGaps gap pieces) := by
  simp [withGaps]

/-- A lexeme by itself is one in front of a gap that keeps it apart. -/
theorem Lexeme.ReadsAs.withGaps {cs gap : List Char} {kind : TokenKind}
    {pieces : List (Token × List Char)} (alone : ReadsAs cs kind []) (apart : Separates gap) :
    ReadsAs cs kind (withGaps gap pieces) := by
  obtain ⟨w, head, white⟩ := apart.white
  obtain ⟨rest, rfl⟩ := List.head?_eq_some_iff.1 head
  exact alone.append white

namespace TokenStream

/-- Each token of a text is a lexeme by itself. -/
theorem readsAs_of_mem {p : Position} {cs : List Char} {t : Token}
    (h : t ∈ (readFrom p cs).tokens) (inner : t.isEnd = false) :
    Lexeme.ReadsAs t.text.toList t.kind [] := by
  obtain ⟨q, r, ds, es, lexeme⟩ := exists_item_of_mem h inner
  obtain ⟨gap, text, -, token, -, local_⟩ := token_of_item lexeme
  have written : t.text.toList = text := by rw [token, tokenAt, String.toList_ofList]
  rw [written]
  exact (local_ 0).2

/-- Lexemes are read with any gaps between them that keep them apart. -/
theorem readFrom_withGaps {pieces : List (Token × List Char)} {first : List Char}
    (alone : ∀ piece ∈ pieces, Lexeme.ReadsAs piece.1.text.toList piece.1.kind [])
    (isGap : IsGap first) (between : ∀ piece ∈ pieces.dropLast, Separates piece.2)
    (behind : ∀ piece ∈ pieces.getLast?, piece.2 = [] ∨ Separates piece.2) (p : Position) :
    ∃ us e, readFrom p (withGaps first pieces) = ⟨us ++ [e], none⟩ ∧ e.isEnd ∧
      us.map Token.lexeme = pieces.map (·.1.lexeme) := by
  induction pieces generalizing first p with
  | nil =>
    refine ⟨[], tokenAt (p.advanceAll first) .endOfInput [], ?_, rfl, rfl⟩
    rw [withGaps, List.flatMap_nil, List.append_nil, readFrom_last (.complete isGap)]
    rfl
  | cons piece pieces ih =>
    obtain ⟨t, gap⟩ := piece
    have here : Lexeme.ReadsAs t.text.toList t.kind [] := alone _ (List.mem_cons_self ..)
    -- Only behind the last token the gap can be empty, and then nothing else is behind it.
    obtain ⟨reads, gapIsGap, between', behind'⟩ :
        Lexeme.ReadsAs t.text.toList t.kind (withGaps gap pieces) ∧ IsGap gap ∧
          (∀ piece ∈ pieces.dropLast, Separates piece.2) ∧
          ∀ piece ∈ pieces.getLast?, piece.2 = [] ∨ Separates piece.2 := by
      cases pieces with
      | nil =>
        rcases behind _ rfl with rfl | apart
        · exact ⟨here, .nil, nofun, nofun⟩
        · exact ⟨here.withGaps apart, apart.isGap, nofun, nofun⟩
      | cons next pieces =>
        have apart : Separates gap := between _ (List.mem_cons_self ..)
        exact ⟨here.withGaps apart, apart.isGap,
          fun piece hp => between piece (List.mem_cons_of_mem _ hp), behind⟩
    obtain ⟨us, e, read, isEnd, same⟩ :=
      ih (fun piece hp => alone piece (List.mem_cons_of_mem _ hp)) gapIsGap between' behind'
        ((p.advanceAll first).advanceAll t.text.toList)
    refine ⟨tokenAt (p.advanceAll first) t.kind t.text.toList :: us, e, ?_, isEnd, ?_⟩
    · rw [withGaps_cons, readFrom_gap_append isGap, readFrom_lexeme reads, read]
      rfl
    · rw [List.map_cons, List.map_cons, same, Token.lexeme, tokenAt, String.ofList_toList]
      rfl

end TokenStream

/-- White space and comments only keep tokens apart: a text has the same tokens
when there are other gaps around them. -/
theorem tokenize_withGaps {sql : String} {first : List Char} {pieces : List (Token × List Char)}
    {last : Token} (tokens : tokenize sql = .ok (pieces.map Prod.fst ++ [last]))
    (isGap : IsGap first) (between : ∀ piece ∈ pieces.dropLast, Separates piece.2)
    (behind : ∀ piece ∈ pieces.getLast?, piece.2 = [] ∨ Separates piece.2) :
    ∃ us e, tokenize (String.ofList (withGaps first pieces)) = .ok (us ++ [e]) ∧ e.isEnd ∧
      us.map Token.lexeme = pieces.map (·.1.lexeme) := by
  have stream : TokenStream.readFrom .origin sql.toList = ⟨pieces.map Prod.fst ++ [last], none⟩ :=
    TokenStream.ofString_of_tokenize tokens
  have inner := (TokenStream.isEnd_of_eq stream).1
  have alone : ∀ piece ∈ pieces, Lexeme.ReadsAs piece.1.text.toList piece.1.kind [] := by
    intro piece hp
    have mem : piece.1 ∈ pieces.map Prod.fst := List.mem_map_of_mem hp
    have read : piece.1 ∈ (TokenStream.readFrom .origin sql.toList).tokens := by
      rw [stream]
      exact List.mem_append_left _ mem
    exact TokenStream.readsAs_of_mem read (inner _ mem)
  obtain ⟨us, e, read, isEnd, same⟩ :=
    TokenStream.readFrom_withGaps alone isGap between behind .origin
  refine ⟨us, e, ?_, isEnd, same⟩
  rw [tokenize, TokenStream.ofString, String.toList_ofList, read]
  rfl

/-- Signs and numbers that touch one another, spread out: the two minus signs stay
apart from each other and from the comment that is now before the second. -/
theorem withGaps_of_signs : ∃ us e, tokenize "--x\n1. - /**/-\t.5 " = .ok (us ++ [e]) ∧ e.isEnd ∧
    us.map Token.lexeme =
      [(.number, "1."), (.operator .minus, "-"), (.operator .minus, "-"), (.number, ".5")] := by
  have tokens : tokenize "1.-/**/-.5" = .ok
      (([(⟨.number, "1.", ⟨0, 2⟩, ⟨1, 1, 0⟩⟩, [' ']),
        (⟨.operator .minus, "-", ⟨2, 3⟩, ⟨1, 3, 2⟩⟩, [' ', '/', '*', '*', '/']),
        (⟨.operator .minus, "-", ⟨7, 8⟩, ⟨1, 8, 7⟩⟩, ['\t']),
        (⟨.number, ".5", ⟨8, 10⟩, ⟨1, 9, 8⟩⟩, [' '])] : List (Token × List Char)).map Prod.fst ++
        [⟨.endOfInput, "", ⟨10, 10⟩, ⟨1, 11, 10⟩⟩]) := by decide +kernel
  have blank (w : Char) (white : Unicode.isWhiteSpace w) : Separates [w] :=
    ⟨.space white .nil, w, rfl, white⟩
  have block : IsGap ['/', '*', '*', '/'] := @IsGap.blockComment [] [] (by decide) .nil
  have line : IsGap ['-', '-', 'x', '\n'] := @IsGap.lineComment ['x'] [] (by decide) .nil
  have comment : Separates [' ', '/', '*', '*', '/'] :=
    ⟨.space (by decide) block, ' ', rfl, by decide⟩
  have read := tokenize_withGaps tokens line
    (by
      simp only [List.dropLast, List.forall_mem_cons]
      exact ⟨blank ' ' (by decide), comment, blank '\t' (by decide), nofun⟩)
    (by
      simp only [List.getLast?_cons_cons, List.getLast?_singleton, Option.mem_some_iff, forall_eq']
      exact .inr (blank ' ' (by decide)))
  exact read

end SqlSyntax
