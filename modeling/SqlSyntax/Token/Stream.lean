import SqlSyntax.Token.Lexeme

/-!
# Token streams

Reading a text gives a finite list of tokens and, perhaps, the error that
stopped the reading. Without an error the last token is the end of the input.

Reading can also start in the middle, at the position of a token: everything
about a token depends on the text from there on and on the position alone.

## Main results

* `length_le_of_skipGaps` — skipping gaps never lengthens the text, which is
  why reading ends.
* `readFrom_eq` — a stream is its first item and the stream of what follows.
-/

namespace SqlSyntax

/-- What is read from a text: tokens, and the error after them if there is
one. -/
structure TokenStream where
  tokens : List Token
  failure : Option LexError
deriving DecidableEq, Repr

namespace TokenStream

/-- Skips white space and comments. -/
def skipGaps (p : Position) : List Char → Except LexError (Position × List Char)
  | [] => .ok (p, [])
  | c :: r =>
    match Lexeme.gapLength c r with
    | .error fault => .error ⟨fault, p⟩
    | .ok none => .ok (p, c :: r)
    | .ok (some n) => skipGaps ((p.advance c).advanceAll (r.take n)) (r.drop n)
termination_by cs => cs.length

theorem length_le_of_skipGaps {p q : Position} {cs ds : List Char}
    (h : skipGaps p cs = .ok (q, ds)) : ds.length ≤ cs.length := by
  fun_induction skipGaps p cs with
  | case1 => simp_all
  | case2 => simp at h
  | case3 =>
    simp only [Except.ok.injEq, Prod.mk.injEq] at h
    simp [← h.2]
  | case4 p c r n _ ih =>
    have := ih h
    simp only [List.length_drop, List.length_cons] at this ⊢
    omega

/-- The token of the given kind that consists of `text` and starts at `p`. -/
def tokenAt (p : Position) (kind : TokenKind) (text : List Char) : Token :=
  ⟨kind, String.ofList text, ⟨p.offset, (p.advanceAll text).offset⟩, p⟩

/-- What comes next in a text. -/
inductive Item where
  /-- A token, the position after it and the text after it. -/
  | token (token : Token) (next : Position) (rest : List Char)
  /-- The end of the input. -/
  | ended (token : Token)
  | failed (error : LexError)

/-- What comes next in `cs`, which start at `p`. -/
def item (p : Position) (cs : List Char) : Item :=
  match skipGaps p cs with
  | .error e => .failed e
  | .ok (q, []) => .ended (tokenAt q .endOfInput [])
  | .ok (q, c :: r) =>
    match Lexeme.scan c r with
    | .error fault => .failed ⟨fault, q⟩
    | .ok (kind, n) =>
      let text := c :: r.take n
      .token (tokenAt q kind text) (q.advanceAll text) (r.drop n)

theorem length_lt_of_item {p q : Position} {cs ds : List Char} {t : Token}
    (h : item p cs = .token t q ds) : ds.length < cs.length := by
  unfold item at h
  split at h
  · simp at h
  · simp at h
  · rename_i hs
    have := length_le_of_skipGaps hs
    split at h
    · simp at h
    · simp only [Item.token.injEq] at h
      rw [← h.2.2]
      simp only [List.length_drop, List.length_cons] at this ⊢
      omega

/-- Reads `cs`, which start at `p`, and puts the tokens behind those of `out`,
which are held backwards. -/
def readOnto (out : List Token) (p : Position) (cs : List Char) : TokenStream :=
  match _h : item p cs with
  | .failed e => ⟨out.reverse, some e⟩
  | .ended t => ⟨(t :: out).reverse, none⟩
  | .token t q ds => readOnto (t :: out) q ds
termination_by cs.length
decreasing_by exact length_lt_of_item _h

/-- Reads `cs`, which start at `p`. -/
def readFrom (p : Position) (cs : List Char) : TokenStream := readOnto [] p cs

/-- Puts tokens in front of a stream. -/
def prepend (tokens : List Token) (s : TokenStream) : TokenStream :=
  ⟨tokens ++ s.tokens, s.failure⟩

theorem readOnto_append (out before : List Token) (p : Position) (cs : List Char) :
    readOnto (out ++ before) p cs = (readOnto out p cs).prepend before.reverse := by
  fun_induction readOnto out p cs with
  | case1 => rw [readOnto]; split <;> simp_all [prepend]
  | case2 => rw [readOnto]; split <;> simp_all [prepend]
  | case3 => rw [readOnto]; split <;> simp_all

/-- Reading is one item after the other. -/
theorem readFrom_eq (p : Position) (cs : List Char) :
    readFrom p cs = match item p cs with
      | .failed e => ⟨[], some e⟩
      | .ended t => ⟨[t], none⟩
      | .token t q ds => (readFrom q ds).prepend [t] := by
  rw [readFrom, readOnto]
  split
  · simp_all
  · simp_all
  · rename_i t q ds h
    simpa [h, readFrom] using readOnto_append [] [t] q ds

/-- Reads a whole text. -/
def ofString (sql : String) : TokenStream := readFrom .origin sql.toList

/-- Reads a text from the position of one of its tokens on. -/
def resume (sql : String) (p : Position) : TokenStream :=
  readFrom p (dropBytes p.offset sql.toList)

/-- The tokens of a stream that no error stopped. -/
def toExcept (s : TokenStream) : Except Error (List Token) :=
  match s.failure with
  | some e => .error (.lex e)
  | none => .ok s.tokens

end TokenStream

/-- All tokens of a text, with the end of the input as the last one. -/
def tokenize (sql : String) : Except Error (List Token) :=
  (TokenStream.ofString sql).toExcept

end SqlSyntax
