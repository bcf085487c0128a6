import Mathlib.Data.List.TakeWhile
import SqlSyntax.Proofs.Token.Number

/-!
# Lexemes that are written out

What is read back of a lexeme that was written with something behind it. A
lexeme ends where it was meant to end as long as the character behind it is
none that it could go on with.

## Main results

* `readsAs_word`, `readsAs_quoted`, `readsAs_string`, `readsAs_number` — words,
  quoted identifiers, string literals and numbers.
* `TokenStream.item_eq_token` — a lexeme is the next item of a stream.
-/

namespace SqlSyntax

/-! ## Characters -/

theorem toNat_lt_of_isDigit {c : Char} (h : c.isDigit) : c.toNat < 0x80 := by
  simp only [Char.isDigit, Bool.and_eq_true, decide_eq_true_eq] at h
  exact Nat.lt_of_le_of_lt (UInt32.le_iff_toNat_le.1 h.2) (by decide)

theorem isWordChar_of_isDigit {c : Char} (h : c.isDigit) : isWordChar c := by
  simp [isWordChar, Unicode.isNumeric_of_lt (toNat_lt_of_isDigit h), h]

theorem isWordStart_of_isDigit {c : Char} (h : c.isDigit) : isWordStart c = false := by
  have key : ∀ n < 0x80, (Char.ofNat n).isDigit → isWordStart (Char.ofNat n) = false := by
    decide +kernel
  have := key c.toNat (toNat_lt_of_isDigit h)
  rw [Char.ofNat_toNat] at this
  exact this h

/-- White space is no part of a word. -/
theorem isWhiteSpace_of_isWordChar {c : Char} (h : isWordChar c) :
    Unicode.isWhiteSpace c = false := by
  have key : ∀ r ∈ Unicode.whiteSpaceRanges, ∀ n ∈ List.range' r.1 (r.2 + 1 - r.1),
      isWordChar (Char.ofNat n) = false := by decide +kernel
  by_contra hspace
  simp only [Unicode.isWhiteSpace, Bool.not_eq_false, List.any_eq_true, Bool.and_eq_true,
    decide_eq_true_eq] at hspace
  obtain ⟨r, hr, first, last⟩ := hspace
  have := key r hr c.toNat (List.mem_range'_1.2 ⟨first, by omega⟩)
  rw [Char.ofNat_toNat] at this
  simp [this] at h

theorem takeWhile_append_of_not_head {α : Type} {p : α → Bool} {xs ys : List α}
    (h : ∀ y ∈ ys.head?, p y = false) : (xs ++ ys).takeWhile p = xs.takeWhile p := by
  induction xs with
  | nil =>
    cases ys with
    | nil => rfl
    | cons y ys => simp [h y rfl]
  | cons x xs ih =>
    rw [List.cons_append, List.takeWhile_cons, List.takeWhile_cons, ih]

namespace Lexeme

/-- Whether characters are read as one lexeme when `rest` is behind them. -/
def ReadsAs (cs : List Char) (kind : TokenKind) (rest : List Char) : Prop :=
  ∃ c r, cs = c :: r ∧ gapLength c (r ++ rest) = .ok none ∧
    scan c (r ++ rest) = .ok (kind, r.length)

/-- No gap starts with any other character. -/
theorem gapLength_eq_none {c : Char} {r : List Char} (hspace : Unicode.isWhiteSpace c = false)
    (hminus : c ≠ '-') (hdivide : c ≠ '/') : gapLength c r = .ok none := by
  unfold gapLength
  rw [if_neg (by simp [hspace])]
  split <;> simp_all

/-! ## Words -/

theorem scan_word {c : Char} {r rest : List Char} (start : isWordStart c)
    (hrest : ∀ d ∈ rest.head?, isWordChar d = false) :
    gapLength c (r ++ rest) = .ok none ∧ scan c (r ++ rest) = .ok (scanWord c r) := by
  have ne : ∀ d, isWordStart d = false → c ≠ d := by
    rintro d hd rfl
    simp [start] at hd
  have number : startsNumber c (r ++ rest) = false := by
    cases digit : c.isDigit with
    | true =>
      rw [isWordStart_of_isDigit digit] at start
      exact nomatch start
    | false => simp [startsNumber, digit, ne '.' (by decide)]
  refine ⟨gapLength_eq_none (isWhiteSpace_of_isWordChar (isWordChar_of_isWordStart start))
    (ne _ (by decide)) (ne _ (by decide)), ?_⟩
  unfold scan
  rw [if_neg (ne _ (by decide)), if_neg (ne _ (by decide)), if_neg (ne _ (by decide)),
    if_neg (by simp [number]), if_pos start]
  simp only [scanWord, takeWhile_append_of_not_head hrest]

/-- A word in front of a character that is no part of one. -/
theorem readsAs_word {text : String} {rest : List Char} (word : isWord text)
    (hrest : ∀ d ∈ rest.head?, isWordChar d = false) :
    ReadsAs text.toList (match Keyword.ofText? text with
      | some k => .keyword k
      | none => .identifier .bare) rest := by
  unfold isWord at word
  split at word
  · cases word
  · rename_i c r shape
    simp only [Bool.and_eq_true, List.all_eq_true] at word
    obtain ⟨gap, scanned⟩ := scan_word word.1 hrest
    refine ⟨c, r, shape, gap, ?_⟩
    have whole : String.ofList (c :: r) = text := by rw [← shape, String.ofList_toList]
    rw [scanned, scanWord, List.takeWhile_eq_self_iff.2 word.2, whole]
    cases Keyword.ofText? text <;> rfl

/-! ## Quoted text -/

theorem quotedLength_double {q : Char} {s rest : List Char} (n : Nat)
    (hrest : ∀ d ∈ rest.head?, d ≠ q) :
    quotedLength q n (Quoted.double q s ++ q :: rest) =
      some (n + (Quoted.double q s).length + 1) := by
  induction s generalizing n with
  | nil =>
    cases rest with
    | nil => simp [Quoted.double, quotedLength]
    | cons d rest => simp [Quoted.double, quotedLength, hrest d rfl]
  | cons c s ih =>
    have cons_eq : Quoted.double q (c :: s) =
        (if c = q then [c, c] else [c]) ++ Quoted.double q s := List.flatMap_cons
    rw [cons_eq]
    split
    · rename_i h
      subst h
      simp only [List.cons_append, List.nil_append, quotedLength, if_true, ih, List.length_cons]
      congr 1
      omega
    · rename_i h
      obtain ⟨d, r, shape⟩ : ∃ d r, Quoted.double q s ++ q :: rest = d :: r := by
        cases Quoted.double q s with
        | nil => exact ⟨_, _, rfl⟩
        | cons d r => exact ⟨_, _, rfl⟩
      rw [List.append_assoc, List.singleton_append, shape, quotedLength, if_neg h, ← shape, ih]
      simp only [List.singleton_append, List.length_cons]
      congr 1
      omega

theorem stringLength_escape {s rest : List Char} (n : Nat) (hrest : ∀ d ∈ rest.head?, d ≠ '\'') :
    stringLength n (Quoted.escape s ++ '\'' :: rest) =
      some (n + (Quoted.escape s).length + 1) := by
  induction s generalizing n with
  | nil =>
    rw [show Quoted.escape [] = [] from rfl, List.nil_append, stringLength]
    · rfl
    · rintro r rfl
      exact hrest '\'' rfl rfl
  | cons c s ih =>
    have cons_eq : Quoted.escape (c :: s) =
        (if c = '\'' ∨ c = '\\' then [c, c] else [c]) ++ Quoted.escape s := List.flatMap_cons
    rw [cons_eq]
    split
    · rename_i h
      rcases h with rfl | rfl
      · simp only [List.cons_append, List.nil_append, stringLength, ih, List.length_cons]
        congr 1
        omega
      · simp only [List.cons_append, List.nil_append, stringLength, ih, List.length_cons]
        congr 1
        omega
    · rename_i h
      rw [not_or] at h
      rw [List.append_assoc, List.singleton_append, stringLength, ih]
      · simp only [List.singleton_append, List.length_cons]
        congr 1
        omega
      · rintro r rfl
        exact absurd rfl h.1
      · rintro rfl
        exact absurd rfl h.1
      · rintro rfl
        exact absurd rfl h.2
      · rintro d r rfl
        exact absurd rfl h.2

/-- An identifier in double quotes in front of anything but a double quote. -/
theorem readsAs_quoted {s rest : List Char} (hrest : ∀ d ∈ rest.head?, d ≠ '"') :
    ReadsAs ('"' :: Quoted.double '"' s ++ ['"']) (.identifier .double) rest := by
  refine ⟨'"', Quoted.double '"' s ++ ['"'], rfl,
    gapLength_eq_none (by decide) (by decide) (by decide), ?_⟩
  unfold scan
  rw [if_neg (by decide), if_pos rfl, List.append_assoc, List.singleton_append,
    quotedLength_double 0 hrest]
  simp

/-- A string literal in front of anything but a single quote. -/
theorem readsAs_string {s rest : List Char} (hrest : ∀ d ∈ rest.head?, d ≠ '\'') :
    ReadsAs ('\'' :: Quoted.escape s ++ ['\'']) .string rest := by
  refine ⟨'\'', Quoted.escape s ++ ['\''], rfl,
    gapLength_eq_none (by decide) (by decide) (by decide), ?_⟩
  unfold scan
  rw [if_pos rfl, List.append_assoc, List.singleton_append, stringLength_escape 0 hrest]
  simp

/-! ## Numbers -/

/-- What ends a number: no digit, point or letter of an exponent. -/
def EndsNumber (rest : List Char) : Prop :=
  ∀ d ∈ rest.head?, isWordChar d = false ∧ d ≠ '.'

theorem digitsLength_append {cs rest : List Char} (hrest : EndsNumber rest) :
    digitsLength (cs ++ rest) = digitsLength cs := by
  rw [digitsLength, takeWhile_append_of_not_head, digitsLength]
  intro d hd
  by_contra digit
  have := isWordChar_of_isDigit (by simpa using digit)
  simp [(hrest d hd).1] at this

theorem fractionLength_append {cs rest : List Char} (hrest : EndsNumber rest) :
    fractionLength (cs ++ rest) = fractionLength cs := by
  cases cs with
  | nil =>
    cases rest with
    | nil => rfl
    | cons d rest =>
      have := (hrest d rfl).2
      simp [fractionLength, this]
  | cons c cs =>
    by_cases hc : c = '.'
    · subst hc
      simp only [List.cons_append, fractionLength, digitsLength_append hrest]
    · simp [fractionLength, hc]

theorem signLength_append {cs rest : List Char} (hne : cs ≠ []) :
    signLength (cs ++ rest) = signLength cs := by
  cases cs with
  | nil => exact absurd rfl hne
  | cons c cs =>
    rw [List.cons_append]
    unfold signLength
    split <;> rename_i h
    · obtain ⟨rfl, -⟩ := List.cons.inj h
      rfl
    · obtain ⟨rfl, -⟩ := List.cons.inj h
      rfl
    · split <;> simp_all

theorem signLength_le (cs : List Char) : signLength cs ≤ cs.length := by
  unfold signLength
  split <;> simp

/-- An exponent that is there as a whole does not go on. -/
theorem exponentLength_append {cs rest : List Char} (hrest : EndsNumber rest)
    (h : exponentLength cs = cs.length) : exponentLength (cs ++ rest) = exponentLength cs := by
  cases cs with
  | nil =>
    cases rest with
    | nil => rfl
    | cons d rest =>
      have hd : ¬ (d = 'e' ∨ d = 'E') := by
        have := (hrest d rfl).1
        rintro (rfl | rfl) <;> exact absurd this (by decide)
      exact exponentLength_of_ne hd rest
  | cons c r =>
    have hc : c = 'e' ∨ c = 'E' := by
      by_contra hc
      rw [exponentLength_of_ne hc] at h
      exact nomatch h
    have digits : digitsLength (r.drop (signLength r)) ≠ 0 := by
      intro none
      rw [exponentLength_cons hc, if_pos none] at h
      exact nomatch h
    have hne : r ≠ [] := by
      rintro rfl
      exact digits rfl
    rw [List.cons_append, exponentLength_cons hc, exponentLength_cons hc, signLength_append hne,
      List.drop_append_of_le_length (signLength_le r), digitsLength_append hrest]

theorem numberLength_append {cs rest : List Char} (hrest : EndsNumber rest)
    (h : numberLength cs = cs.length) : numberLength (cs ++ rest) = cs.length := by
  have whole := digitsLength_le cs
  have fraction := fractionLength_le (cs.drop (digitsLength cs))
  rw [List.length_drop] at fraction
  simp only [numberLength] at h ⊢
  rw [digitsLength_append hrest, List.drop_append_of_le_length whole, fractionLength_append hrest,
    List.drop_append_of_le_length (by omega), exponentLength_append hrest, h]
  rw [List.length_drop]
  omega

/-- No gap starts where a number does. -/
theorem gapLength_of_startsNumber {c : Char} {r : List Char} (h : startsNumber c r)
    (rest : List Char) : gapLength c rest = .ok none := by
  simp only [startsNumber, Bool.or_eq_true, Bool.and_eq_true, beq_iff_eq] at h
  rcases h with digit | ⟨rfl, -⟩
  · refine gapLength_eq_none (isWhiteSpace_of_isWordChar (isWordChar_of_isDigit digit)) ?_ ?_ <;>
    · rintro rfl
      exact absurd digit (by decide)
  · exact gapLength_eq_none (by decide) (by decide) (by decide)

/-- A number in front of anything that ends it. -/
theorem readsAs_number {text : String} {rest : List Char} (number : IsNumber text)
    (hrest : EndsNumber rest) : ReadsAs text.toList .number rest := by
  unfold IsNumber at number
  split at number
  · exact number.elim
  · rename_i c r shape
    have starts := startsNumber_of_scan number
    rw [scan_of_startsNumber starts] at number
    obtain ⟨-, length, -⟩ := scanNumber_eq_ok number
    have pos := (numberLength_of_startsNumber starts).1
    have whole : numberLength (c :: r) = (c :: r).length := by
      rw [List.length_cons]
      omega
    have starts' : startsNumber c (r ++ rest) := by
      simp only [startsNumber, Bool.or_eq_true, Bool.and_eq_true, beq_iff_eq] at starts ⊢
      refine starts.imp_right fun ⟨hc, hr⟩ => ⟨hc, ?_⟩
      cases r with
      | nil => simp at hr
      | cons => exact hr
    refine ⟨c, r, shape, gapLength_of_startsNumber starts _, ?_⟩
    have same : numberLength (c :: (r ++ rest)) = (c :: r).length :=
      numberLength_append hrest whole
    have none : rest.takeWhile isWordChar = [] := by
      cases rest with
      | nil => rfl
      | cons d rest => simp [(hrest d rfl).1]
    rw [scan_of_startsNumber starts', scanNumber, same, ← List.cons_append, List.drop_left, none]
    rfl

/-! ## Symbols -/

/-- Whether a character can stand right behind an operator. -/
def followsOperator : Operator → Char → Bool
  | .minus, d => d ≠ '-'
  | .divide, d => d ≠ '*'
  | .less, d => d ≠ '=' ∧ d ≠ '>'
  | .greater, d => d ≠ '='
  | _, _ => true

theorem scan_symbol {c : Char} {r : List Char} {found : TokenKind × Nat}
    (hquote : c ∉ ['\'', '"', '\x60']) (hnumber : startsNumber c r = false)
    (hword : isWordStart c = false) (h : scanSymbol c r = some found) : scan c r = .ok found := by
  simp only [List.mem_cons, List.not_mem_nil, or_false, not_or] at hquote
  unfold scan
  rw [if_neg hquote.1, if_neg hquote.2.1, if_neg hquote.2.2, if_neg (by simp [hnumber]),
    if_neg (by simp [hword]), h]

/-- A symbol whose first character starts nothing else. -/
theorem readsAs_symbol {c : Char} {r rest : List Char} {kind : TokenKind}
    (hquote : c ∉ ['\'', '"', '\x60']) (hword : isWordChar c = false)
    (hdot : c = '.' → ∀ d ∈ (r ++ rest).head?, d.isDigit = false)
    (hgap : gapLength c (r ++ rest) = .ok none)
    (h : scanSymbol c (r ++ rest) = some (kind, r.length)) : ReadsAs (c :: r) kind rest := by
  have hstart : isWordStart c = false := by
    by_contra start
    have := isWordChar_of_isWordStart (by simpa using start)
    simp [hword] at this
  have hnumber : startsNumber c (r ++ rest) = false := by
    have digit : c.isDigit = false := by
      by_contra digit
      have := isWordChar_of_isDigit (by simpa using digit)
      simp [hword] at this
    by_cases hc : c = '.'
    · have := hdot hc
      cases shape : (r ++ rest).head? with
      | none => simp [startsNumber, digit, shape]
      | some d => simp [startsNumber, digit, shape, this d shape]
    · simp [startsNumber, digit, hc]
  exact ⟨c, r, rfl, hgap, scan_symbol hquote hnumber hstart h⟩

/-- A symbol that starts no comment and no number. -/
theorem readsAs_plain {c : Char} {r rest : List Char} {kind : TokenKind}
    (hquote : c ∉ ['\'', '"', '\x60'])
    (hplain : isWordChar c = false ∧ Unicode.isWhiteSpace c = false ∧ c ∉ ['.', '-', '/'])
    (h : scanSymbol c (r ++ rest) = some (kind, r.length)) : ReadsAs (c :: r) kind rest := by
  obtain ⟨hword, hspace, hne⟩ := hplain
  simp only [List.mem_cons, List.not_mem_nil, or_false, not_or] at hne
  exact readsAs_symbol hquote hword (fun h => absurd h hne.1)
    (gapLength_eq_none hspace hne.2.1 hne.2.2) h

theorem readsAs_operator {o : Operator} {rest : List Char}
    (hrest : ∀ d ∈ rest.head?, followsOperator o d) :
    ReadsAs o.symbol.toList (.operator o) rest := by
  cases o with
  | equal => exact readsAs_plain (c := '=') (r := []) (by decide) (by decide) rfl
  | notEqual => exact readsAs_plain (c := '<') (r := ['>']) (by decide) (by decide) rfl
  | lessEqual => exact readsAs_plain (c := '<') (r := ['=']) (by decide) (by decide) rfl
  | greaterEqual => exact readsAs_plain (c := '>') (r := ['=']) (by decide) (by decide) rfl
  | plus => exact readsAs_plain (c := '+') (r := []) (by decide) (by decide) rfl
  | times => exact readsAs_plain (c := '*') (r := []) (by decide) (by decide) rfl
  | modulo => exact readsAs_plain (c := '%') (r := []) (by decide) (by decide) rfl
  | concat => exact readsAs_plain (c := '|') (r := ['|']) (by decide) (by decide) rfl
  | less =>
    refine readsAs_plain (c := '<') (r := []) (by decide) (by decide) ?_
    cases rest with
    | nil => rfl
    | cons d rest =>
      have : d ≠ '=' ∧ d ≠ '>' := by simpa [followsOperator] using hrest d rfl
      simp [scanSymbol, this]
  | greater =>
    refine readsAs_plain (c := '>') (r := []) (by decide) (by decide) ?_
    cases rest with
    | nil => rfl
    | cons d rest =>
      have : d ≠ '=' := by simpa [followsOperator] using hrest d rfl
      simp [scanSymbol, this]
  | minus =>
    refine readsAs_symbol (c := '-') (r := []) (by decide) (by decide) nofun ?_ rfl
    cases rest with
    | nil => rfl
    | cons d rest =>
      have : d ≠ '-' := by simpa [followsOperator] using hrest d rfl
      unfold gapLength
      rw [if_neg (by decide)]
      simp [this]
  | divide =>
    refine readsAs_symbol (c := '/') (r := []) (by decide) (by decide) nofun ?_ rfl
    cases rest with
    | nil => rfl
    | cons d rest =>
      have : d ≠ '*' := by simpa [followsOperator] using hrest d rfl
      unfold gapLength
      rw [if_neg (by decide)]
      simp [this]

theorem readsAs_punctuation {p : Punctuation} {rest : List Char}
    (hrest : p = .dot → ∀ d ∈ rest.head?, d.isDigit = false) :
    ReadsAs p.symbol.toList (.punctuation p) rest := by
  cases p with
  | openParen => exact readsAs_plain (c := '(') (r := []) (by decide) (by decide) rfl
  | closeParen => exact readsAs_plain (c := ')') (r := []) (by decide) (by decide) rfl
  | comma => exact readsAs_plain (c := ',') (r := []) (by decide) (by decide) rfl
  | semicolon => exact readsAs_plain (c := ';') (r := []) (by decide) (by decide) rfl
  | dot =>
    exact readsAs_symbol (c := '.') (r := []) (by decide) (by decide) (fun _ => hrest rfl)
      (gapLength_eq_none (by decide) (by decide) (by decide)) rfl

end Lexeme

/-! ## Streams -/

namespace TokenStream

/-- A lexeme is the next item of a stream. -/
theorem item_eq_token {p : Position} {cs rest : List Char} {kind : TokenKind}
    (h : Lexeme.ReadsAs cs kind rest) :
    item p (cs ++ rest) = .token (tokenAt p kind cs) (p.advanceAll cs) rest := by
  obtain ⟨c, r, rfl, gap, scanned⟩ := h
  have skipped : skipGaps p (c :: (r ++ rest)) = .ok (p, c :: (r ++ rest)) := by
    rw [skipGaps, gap]
  rw [item, List.cons_append, skipped]
  simp only [scanned, List.take_left, List.drop_left]

/-- A space leaves a stream as it is, but for where it stands. -/
theorem item_space {p : Position} {rest : List Char}
    (hrest : ∀ d ∈ rest.head?, Unicode.isWhiteSpace d = false) :
    item p (' ' :: rest) = item (p.advance ' ') rest := by
  have run : rest.takeWhile Unicode.isWhiteSpace = [] := by
    cases rest with
    | nil => rfl
    | cons d rest => simp [hrest d rfl]
  have gap : Lexeme.gapLength ' ' rest = .ok (some 0) := by
    unfold Lexeme.gapLength
    rw [if_pos (by decide), run]
    rfl
  have skipped : skipGaps p (' ' :: rest) = skipGaps (p.advance ' ') rest := by
    conv_lhs => rw [skipGaps, gap]
    rfl
  rw [item, skipped, item]

theorem readFrom_space {p : Position} {rest : List Char}
    (hrest : ∀ d ∈ rest.head?, Unicode.isWhiteSpace d = false) :
    readFrom p (' ' :: rest) = readFrom (p.advance ' ') rest := by
  rw [readFrom_eq, item_space hrest, ← readFrom_eq]

theorem readFrom_lexeme {p : Position} {cs rest : List Char} {kind : TokenKind}
    (h : Lexeme.ReadsAs cs kind rest) :
    readFrom p (cs ++ rest) =
      (readFrom (p.advanceAll cs) rest).prepend [tokenAt p kind cs] := by
  rw [readFrom_eq, item_eq_token h]

end TokenStream

end SqlSyntax
