import Mathlib.Data.List.Chain
import SqlSyntax.Proofs.Canonical.Spelled
import SqlSyntax.Proofs.Token.Written

/-!
# Reading pieces back

Pieces are read back as the tokens that they were written for, if none runs on
into the next: `Piece.before` lists which pieces may stand next to each other
without a space.

## Main results

* `TokenStream.readFrom_render` — pieces that may stand next to each other are
  read back one by one.
-/

namespace SqlSyntax

namespace Piece

/-- Whether a word is one identifier and a number one number. -/
def Lexical : Piece → Prop
  | .word text => needsQuotes text = false
  | .number text => IsNumber text
  | _ => True

/-- Whether a piece may stand right before another one. -/
def before : Piece → Piece → Bool
  | .space, q => q ≠ .space
  | _, .space | _, .punctuation .openParen | _, .punctuation .closeParen
  | _, .punctuation .comma => true
  | .punctuation .openParen, _ | .operator .plus, _ => true
  | .operator .minus, q => q ≠ .operator .minus
  | .identifier _, .punctuation .dot => true
  | .punctuation .dot, .identifier _ | .punctuation .dot, .operator .times => true
  | _, _ => false

/-- Whether a piece ends where it should when a character stands behind it. -/
def followedBy : Piece → Char → Bool
  | .space, d => !Unicode.isWhiteSpace d
  | .keyword _, d | .word _, d => !isWordChar d
  | .identifier _, d => !isWordChar d && d ≠ '"'
  | .number _, d => !isWordChar d && d ≠ '.'
  | .string _, d => d ≠ '\''
  | .operator o, d => Lexeme.followsOperator o d
  | .punctuation .dot, d => !d.isDigit
  | .punctuation _, _ => true

/-! ## Words -/

theorem isWordStart_of_isWord {text : String} (h : isWord text) :
    ∀ d ∈ text.toList.head?, isWordStart d := by
  intro d hd
  unfold isWord at h
  cases shape : text.toList with
  | nil => simp [shape] at hd
  | cons c r =>
    simp only [shape, List.head?_cons, Option.mem_def, Option.some.injEq] at hd
    simp only [shape, Bool.and_eq_true] at h
    exact hd ▸ h.1

theorem isWord_text (k : Keyword) : isWord k.text := by
  have key : ∀ k ∈ Keyword.all, isWord k.text := by decide +kernel
  exact key k (Keyword.mem_all k)

theorem ofText?_text (k : Keyword) : Keyword.ofText? k.text = some k := by
  have key : ∀ k ∈ Keyword.all, capitals k.text = k.text := by decide +kernel
  exact Keyword.ofText?_eq_some_iff.2 (key k (Keyword.mem_all k))

/-- A text that needs no quotes is a word and no keyword. -/
theorem readsAs_bare {text : String} {rest : List Char} (h : needsQuotes text = false)
    (hrest : ∀ d ∈ rest.head?, isWordChar d = false) :
    Lexeme.ReadsAs text.toList (.identifier .bare) rest := by
  simp only [needsQuotes, Bool.or_eq_false_iff, Bool.not_eq_false', Option.isSome_eq_false_iff,
    Option.isNone_iff_eq_none] at h
  have read := Lexeme.readsAs_word h.1 hrest
  rwa [h.2] at read

theorem readsAs_keyword {k : Keyword} {rest : List Char}
    (hrest : ∀ d ∈ rest.head?, isWordChar d = false) :
    Lexeme.ReadsAs k.text.toList (.keyword k) rest := by
  have read := Lexeme.readsAs_word (isWord_text k) hrest
  rwa [ofText?_text] at read

/-! ## One piece -/

theorem text_of_quoted {value : String} (h : needsQuotes value) :
    (Piece.identifier value).text.toList = '"' :: Quoted.double '"' value.toList ++ ['"'] := by
  simp [Piece.text, quoteIdentifier, h]

theorem text_of_bare {value : String} (h : needsQuotes value = false) :
    (Piece.identifier value).text = value := by
  simp [Piece.text, quoteIdentifier, h]

/-- A piece is read back as what it was written for. -/
theorem readsAs {p : Piece} (hp : p ≠ .space) (lexical : p.Lexical) {rest : List Char}
    (hrest : ∀ d ∈ rest.head?, p.followedBy d) :
    ∃ kind, Lexeme.ReadsAs p.text.toList kind rest ∧
      ∀ pos, p.Writes (TokenStream.tokenAt pos kind p.text.toList) := by
  cases p with
  | space => exact absurd rfl hp
  | keyword k =>
    exact ⟨_, readsAs_keyword fun d hd => by simpa [followedBy] using hrest d hd, fun _ => rfl⟩
  | word text =>
    refine ⟨_, readsAs_bare lexical fun d hd => by simpa [followedBy] using hrest d hd,
      fun _ => ⟨rfl, ?_⟩⟩
    simp [TokenStream.tokenAt, Piece.text]
  | identifier value =>
    have hrest' : ∀ d ∈ rest.head?, isWordChar d = false ∧ d ≠ '"' := fun d hd => by
      simpa [followedBy] using hrest d hd
    cases quoted : needsQuotes value with
    | true =>
      have text := text_of_quoted quoted
      refine ⟨_, text ▸ Lexeme.readsAs_quoted fun d hd => (hrest' d hd).2, fun pos => ⟨⟨_, rfl⟩, ?_⟩⟩
      rw [text]
      simp [Token.value, TokenStream.tokenAt, QuoteStyle.quote?, Token.body,
        Quoted.undouble_double]
    | false =>
      have text := text_of_bare quoted
      refine ⟨_, text ▸ readsAs_bare quoted fun d hd => (hrest' d hd).1, fun pos => ⟨⟨_, rfl⟩, ?_⟩⟩
      rw [text]
      simp [Token.value, TokenStream.tokenAt, QuoteStyle.quote?]
  | number text =>
    refine ⟨_, Lexeme.readsAs_number lexical fun d hd => by simpa [followedBy] using hrest d hd,
      fun _ => ⟨rfl, ?_⟩⟩
    simp [TokenStream.tokenAt, Piece.text]
  | string value =>
    have text : (Piece.string value).text.toList =
        '\'' :: Quoted.escape value.toList ++ ['\''] := by
      simp [Piece.text, quoteString]
    refine ⟨_, text ▸ Lexeme.readsAs_string fun d hd => by simpa [followedBy] using hrest d hd,
      fun pos => ⟨rfl, ?_⟩⟩
    rw [text]
    simp [Token.value, TokenStream.tokenAt, Token.body, Quoted.unescape_escape]
  | operator o => exact ⟨_, Lexeme.readsAs_operator hrest, fun _ => rfl⟩
  | punctuation q =>
    refine ⟨_, Lexeme.readsAs_punctuation ?_, fun _ => rfl⟩
    rintro rfl d hd
    simpa [followedBy] using hrest d hd

/-! ## Pieces next to each other -/

/-- What an identifier is written with first. -/
theorem head_identifier {value : String} :
    ∀ d ∈ (Piece.identifier value).text.toList.head?, d = '"' ∨ isWordStart d := by
  intro d hd
  cases quoted : needsQuotes value with
  | true =>
    rw [text_of_quoted quoted] at hd
    exact .inl (Option.some.inj hd).symm
  | false =>
    rw [text_of_bare quoted] at hd
    simp only [needsQuotes, Bool.or_eq_false_iff, Bool.not_eq_false'] at quoted
    exact .inr (isWordStart_of_isWord quoted.1 d hd)

/-- No piece but a space starts with white space, and only a minus sign starts
with one. -/
theorem head_text {q : Piece} (hq : q.Lexical) (hspace : q ≠ .space) :
    ∀ d ∈ q.text.toList.head?,
      Unicode.isWhiteSpace d = false ∧ (d = '-' → q = .operator .minus) := by
  intro d hd
  have plain : Unicode.isWhiteSpace d = false → d ≠ '-' →
      Unicode.isWhiteSpace d = false ∧ (d = '-' → q = .operator .minus) :=
    fun h h' => ⟨h, fun h'' => absurd h'' h'⟩
  have word : isWordChar d → Unicode.isWhiteSpace d = false ∧ (d = '-' → q = .operator .minus) := by
    intro hword
    refine plain (isWhiteSpace_of_isWordChar hword) ?_
    rintro rfl
    exact absurd hword (by decide)
  cases q with
  | space => exact absurd rfl hspace
  | keyword k => exact word (isWordChar_of_isWordStart (isWordStart_of_isWord (isWord_text k) d hd))
  | word text =>
    simp only [Lexical, needsQuotes, Bool.or_eq_false_iff, Bool.not_eq_false'] at hq
    exact word (isWordChar_of_isWordStart (isWordStart_of_isWord hq.1 d hd))
  | identifier value =>
    rcases head_identifier d hd with rfl | start
    · exact plain (by decide) (by decide)
    · exact word (isWordChar_of_isWordStart start)
  | number text =>
    unfold Lexical IsNumber at hq
    cases shape : text.toList with
    | nil => simp [shape] at hq
    | cons c r =>
      simp only [shape] at hq
      obtain rfl : c = d := by simpa [Piece.text, shape] using hd
      have starts := Lexeme.startsNumber_of_scan hq
      simp only [Lexeme.startsNumber, Bool.or_eq_true, Bool.and_eq_true, beq_iff_eq] at starts
      rcases starts with digit | ⟨rfl, -⟩
      · exact word (isWordChar_of_isDigit digit)
      · exact plain (by decide) (by decide)
  | string value =>
    obtain rfl : '\'' = d := by simpa [Piece.text, quoteString] using hd
    exact plain (by decide) (by decide)
  | operator o =>
    have key : ∀ d ∈ o.symbol.toList.head?,
        Unicode.isWhiteSpace d = false ∧ (d = '-' → o = .minus) := by
      cases o <;> exact fun d hd => Option.some.inj hd ▸ by decide
    exact (key d hd).imp_right fun h hd => congrArg Piece.operator (h hd)
  | punctuation p =>
    have key : ∀ d ∈ p.symbol.toList.head?, Unicode.isWhiteSpace d = false ∧ d ≠ '-' := by
      cases p <;> exact fun d hd => Option.some.inj hd ▸ by decide
    exact plain (key d hd).1 (key d hd).2

theorem text_ne_nil {q : Piece} (hq : q.Lexical) : q.text.toList ≠ [] := by
  by_cases hspace : q = .space
  · subst hspace
    decide
  · have last : ∀ d ∈ ([] : List Char).head?, q.followedBy d := nofun
    obtain ⟨kind, ⟨c, r, shape, -⟩, -⟩ := readsAs hspace hq last
    rw [shape]
    nofun

/-- Blanks, brackets and commas end every piece but a space. -/
theorem followedBy_closing {p : Piece} (hp : p ≠ .space) {d : Char}
    (hd : d ∈ [' ', '(', ')', ',']) : p.followedBy d := by
  have key : ∀ e ∈ [' ', '(', ')', ','], isWordChar e = false ∧ e.isDigit = false ∧
      e ∉ ['"', '.', '\'', '-', '*', '=', '>'] := by
    simp only [List.forall_mem_cons, List.not_mem_nil, false_implies, implies_true]
    decide
  obtain ⟨word, digit, ne⟩ := key d hd
  simp only [List.mem_cons, List.not_mem_nil, or_false, not_or] at ne
  cases p with
  | space => exact absurd rfl hp
  | operator o => cases o <;> simp [followedBy, Lexeme.followsOperator, ne]
  | punctuation q => cases q <;> simp [followedBy, digit]
  | _ => simp [followedBy, word, ne]

/-- A piece that may stand right before another one may stand right before its
first character. -/
theorem followedBy_of_before {p q : Piece} (h : p.before q) (hq : q.Lexical) :
    ∀ d ∈ q.text.toList.head?, p.followedBy d := by
  intro d hd
  unfold before at h
  split at h
  · have hspace : q ≠ .space := by simpa using h
    simp [followedBy, (head_text hq hspace d hd).1]
  · rename_i hp
    obtain rfl : ' ' = d := by simpa [Piece.text] using hd
    exact followedBy_closing hp (by decide)
  · rename_i hp
    obtain rfl : '(' = d := by simpa [Piece.text, Punctuation.symbol] using hd
    exact followedBy_closing hp (by decide)
  · rename_i hp
    obtain rfl : ')' = d := by simpa [Piece.text, Punctuation.symbol] using hd
    exact followedBy_closing hp (by decide)
  · rename_i hp
    obtain rfl : ',' = d := by simpa [Piece.text, Punctuation.symbol] using hd
    exact followedBy_closing hp (by decide)
  · rfl
  · rfl
  · rename_i hspace _ _ _
    have hminus : q ≠ .operator .minus := by simpa using h
    have := (head_text hq hspace d hd).2
    simp only [followedBy, Lexeme.followsOperator, decide_eq_true_eq]
    exact fun hd => hminus (this hd)
  · obtain rfl : '.' = d := by simpa [Piece.text, Punctuation.symbol] using hd
    simp [followedBy, show isWordChar '.' = false by decide]
  · have start := head_identifier d hd
    have digit : d.isDigit = false := by
      rcases start with rfl | start
      · decide
      · by_contra digit
        rw [isWordStart_of_isDigit (by simpa using digit)] at start
        cases start
    simp [followedBy, digit]
  · obtain rfl : '*' = d := by simpa [Piece.text, Operator.symbol] using hd
    decide
  · cases h

end Piece

/-! ## Texts -/

theorem toList_render (ps : List Piece) : (render ps).toList = ps.flatMap (·.text.toList) := by
  rw [render, String.toList_join, List.flatMap_map]

/-- Pieces that may stand next to each other are read back one by one. -/
theorem TokenStream.readFrom_render {ps : List Piece} (chain : ps.IsChain fun p q => p.before q)
    (lexical : ∀ p ∈ ps, p.Lexical) (pos : Position) :
    ∃ ts t, readFrom pos (render ps).toList = ⟨ts ++ [t], none⟩ ∧ t.isEnd ∧ Spelled ps ts := by
  rw [toList_render]
  induction ps generalizing pos with
  | nil =>
    refine ⟨[], tokenAt pos .endOfInput [], ?_, rfl, .nil⟩
    rw [readFrom_eq]
    simp [item, skipGaps]
  | cons p ps ih =>
    obtain ⟨next, below⟩ := List.isChain_cons.1 chain
    have here : p.Lexical := lexical p (List.mem_cons_self ..)
    have inner : ∀ q ∈ ps, q.Lexical := fun q hq => lexical q (List.mem_cons_of_mem _ hq)
    have follows : ∀ d ∈ (ps.flatMap (·.text.toList)).head?, p.followedBy d := by
      intro d hd
      cases ps with
      | nil => cases hd
      | cons q qs =>
        have hq := inner q (List.mem_cons_self ..)
        refine Piece.followedBy_of_before (next q rfl) hq d ?_
        rwa [List.flatMap_cons, List.head?_append_of_ne_nil _ (Piece.text_ne_nil hq)] at hd
    rw [List.flatMap_cons]
    by_cases hp : p = .space
    · subst hp
      obtain ⟨ts, t, read, ht, spelled⟩ := ih below inner (pos.advance ' ')
      refine ⟨ts, t, ?_, ht, .space spelled⟩
      rw [← read]
      exact readFrom_space fun d hd => by simpa [Piece.followedBy] using follows d hd
    · obtain ⟨kind, lexeme, writes⟩ := Piece.readsAs hp here follows
      obtain ⟨ts, t, read, ht, spelled⟩ := ih below inner (pos.advanceAll p.text.toList)
      refine ⟨_ :: ts, t, ?_, ht, .token (writes pos) spelled⟩
      rw [readFrom_lexeme lexeme, read]
      rfl

end SqlSyntax
