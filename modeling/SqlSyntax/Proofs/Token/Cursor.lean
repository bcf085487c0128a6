import SqlSyntax.Proofs.Token.Numerals
import SqlSyntax.Proofs.Token.Slices

/-!
# Reading with a cursor

A cursor reads a text in place: all it keeps is a position, and whatever it looks at is a
slice of the text at the offset of this position. It moves by one character at a time, and
it takes the text of a token as the slice from where the token starts.

A slice that cannot be taken is a crash, and so is a loop that takes more steps than there
are characters. Neither happens. Wherever a cursor is put between two characters, it reads
the items that `TokenStream.readFrom` reads from the characters behind it.

## Main results

* `Cursor.skip_eq` — gaps are skipped as by `TokenStream.skipGaps`.
* `Cursor.lexeme_eq` — what comes next is scanned as by `Lexeme.scan`.
* `Cursor.items_eq` — a cursor does not crash, and reads what `TokenStream.readFrom` reads.
-/

namespace SqlSyntax

/-- A reader that keeps a position. It gives a result and moves, or it fails with an error of
the lexer, or it crashes and gives nothing. -/
abbrev Cursor := StateT Position (ExceptT LexError Option)

namespace Cursor

variable {α β : Type}

def crash : Cursor α := fun _ => none

def fail (fault : LexFault) (p : Position) : Cursor α := throw ⟨fault, p⟩

section

variable (text : List Char)

/-! ## Looking and moving -/

/-- The text from the position on. -/
def rest : Cursor (List Char) := fun p => (textFrom? p.offset text).map fun cs => .ok (cs, p)

/-- The text from `start` up to the position. -/
def cut (start : Position) : Cursor (List Char) := fun p =>
  (slice? start.offset p.offset text).map fun cs => .ok (cs, p)

def peekNth (n : Nat) : Cursor (Option Char) := do
  return (← rest text)[n]?

def peek : Cursor (Option Char) := peekNth text 0

/-- Moves over a character. -/
def bump : Cursor (Option Char) := do
  match ← peek text with
  | none => return none
  | some c =>
    modify (·.advance c)
    return some c

/-- Moves over a number of characters. -/
def bumps : Nat → Cursor Unit
  | 0 => return ()
  | n + 1 => do
    let _ ← bump text
    bumps n

/-- Moves over the characters that are accepted. -/
def scanWhile (accepts : Char → Bool) : Nat → Cursor Unit
  | 0 => crash
  | n + 1 => do
    if (← peek text).any accepts then
      let _ ← bump text
      scanWhile accepts n

/-! ## Gaps -/

/-- Moves through the end of the line. -/
def lineComment : Nat → Cursor Unit
  | 0 => crash
  | n + 1 => do
    match ← bump text with
    | none => return ()
    | some c => if c = '\n' then return () else lineComment n

/-- Moves through the end of the comment that starts at `start`. -/
def blockComment (start : Position) : Nat → Cursor Unit
  | 0 => crash
  | n + 1 => do
    match ← bump text with
    | none => fail .unterminatedComment start
    | some c =>
      if c = '*' then
        if (← peek text) = some '/' then
          let _ ← bump text
        else blockComment start n
      else blockComment start n

/-- Moves over white space and comments. -/
def skip : Nat → Cursor Unit
  | 0 => crash
  | n + 1 => do
    match ← peek text with
    | none => return ()
    | some c =>
      if Unicode.isWhiteSpace c then
        let _ ← bump text
        skip n
      else if c = '-' then
        if (← peekNth text 1) = some '-' then
          lineComment text (n + 1)
          skip n
      else if c = '/' then
        if (← peekNth text 1) = some '*' then
          let start ← get
          bumps text 2
          blockComment text start (n + 1)
          skip n

/-! ## Lexemes -/

/-- Moves through the end of a string literal. -/
def string (start : Position) : Nat → Cursor TokenKind
  | 0 => crash
  | n + 1 => do
    match ← bump text with
    | none => fail .unterminatedString start
    | some c =>
      if c = '\'' then
        if (← peek text) = some '\'' then
          let _ ← bump text
          string start n
        else return .string
      else if c = '\\' then
        match ← bump text with
        | none => fail .unterminatedString start
        | some _ => string start n
      else string start n

/-- Moves through the end of an identifier in quotes `q`. -/
def quoted (start : Position) (style : QuoteStyle) (q : Char) : Nat → Cursor TokenKind
  | 0 => crash
  | n + 1 => do
    match ← bump text with
    | none => fail .unterminatedQuotedIdentifier start
    | some c =>
      if c = q then
        if (← peek text) = some q then
          let _ ← bump text
          quoted start style q n
        else return .identifier style
      else quoted start style q n

/-- Moves over a point and the digits behind it. -/
def fraction (n : Nat) : Cursor Unit := do
  if (← peek text) = some '.' then
    let _ ← bump text
    scanWhile text Char.isDigit n

/-- Moves over an exponent, if there is a digit in it. -/
def exponent (n : Nat) : Cursor Unit := do
  if (← peek text).any fun c => c = 'e' ∨ c = 'E' then
    let sign := (← peekNth text 1).any fun c => c = '+' ∨ c = '-'
    let digitAt := if sign then 2 else 1
    if (← peekNth text digitAt).any Char.isDigit then
      bumps text digitAt
      scanWhile text Char.isDigit n

/-- Moves over a number. -/
def numeral (n : Nat) : Cursor Unit := do
  scanWhile text Char.isDigit n
  fraction text n
  exponent text n

/-- Moves over a number, which no word may follow. -/
def number (start : Position) (n : Nat) : Cursor TokenKind := do
  numeral text n
  if (← peek text).any isWordChar then
    scanWhile text isWordChar n
    fail (.invalidNumber (String.ofList (← cut text start))) start
  else return .number

def word (start : Position) (n : Nat) : Cursor TokenKind := do
  scanWhile text isWordChar n
  match Keyword.ofText? (String.ofList (← cut text start)) with
  | some keyword => return .keyword keyword
  | none => return .identifier .bare

/-- The second character of an operator. -/
def consume (operator : Operator) : Cursor TokenKind := do
  let _ ← bump text
  return .operator operator

def symbol (start : Position) (c : Char) : Cursor TokenKind := do
  let _ ← bump text
  match c with
  | '(' => return .punctuation .openParen
  | ')' => return .punctuation .closeParen
  | ',' => return .punctuation .comma
  | ';' => return .punctuation .semicolon
  | '.' => return .punctuation .dot
  | '=' => return .operator .equal
  | '<' =>
    match ← peek text with
    | some '=' => consume text .lessEqual
    | some '>' => consume text .notEqual
    | _ => return .operator .less
  | '>' =>
    match ← peek text with
    | some '=' => consume text .greaterEqual
    | _ => return .operator .greater
  | '!' =>
    match ← peek text with
    | some '=' => consume text .notEqual
    | _ => fail (.unexpectedCharacter '!') start
  | '|' =>
    match ← peek text with
    | some '|' => consume text .concat
    | _ => fail (.unexpectedCharacter '|') start
  | '+' => return .operator .plus
  | '-' => return .operator .minus
  | '*' => return .operator .times
  | '/' => return .operator .divide
  | '%' => return .operator .modulo
  | c => fail (.unexpectedCharacter c) start

/-- Moves over the lexeme that starts with `c`. -/
def lexeme (start : Position) (c : Char) (n : Nat) : Cursor TokenKind := do
  if c = '\'' then
    let _ ← bump text
    string text start n
  else if c = '"' then
    let _ ← bump text
    quoted text start .double c n
  else if c = '\x60' then
    let _ ← bump text
    quoted text start .backquote c n
  else if c.isDigit then number text start n
  else if c = '.' then
    if (← peekNth text 1).any Char.isDigit then number text start n
    else symbol text start c
  else if isWordStart c then word text start n
  else symbol text start c

/-! ## Tokens -/

/-- The token of the given kind from `start` up to the position. -/
def token (kind : TokenKind) (start : Position) : Cursor Token := do
  let found ← cut text start
  return ⟨kind, String.ofList found, ⟨start.offset, (← get).offset⟩, start⟩

def nextToken (n : Nat) : Cursor Token := do
  skip text n
  let start ← get
  match ← peek text with
  | none => token text .endOfInput start
  | some c => token text (← lexeme text start c n) start

/-- All items from a position on, through the end of the input or the first error. -/
def items : Nat → Position → Option (List (Except LexError Token))
  | 0, _ => none
  | n + 1, p =>
    match nextToken text (n + 1) p with
    | none => none
    | some (.error e) => some [.error e]
    | some (.ok (t, q)) => if t.isEnd then some [.ok t] else (items n q).map (.ok t :: ·)

end

/-! ## Results in a row -/

section

variable {p q : Position} {m : Cursor α} {f : α → Cursor β} {a : α} {e : LexError}

theorem bind_of_ok (h : m p = some (.ok (a, q))) : (m >>= f) p = f a q := by
  show Option.bind (m p) _ = _
  rw [h]
  rfl

theorem bind_of_error (h : m p = some (.error e)) : (m >>= f) p = some (.error e) := by
  show Option.bind (m p) _ = _
  rw [h]
  rfl

end

/-! ## Between two characters -/

/-- Whether a position is that of the last characters of a text. -/
def At (text : List Char) (p : Position) (cs : List Char) : Prop :=
  ∃ front, text = front ++ cs ∧ p.offset = byteLength front

variable {text cs ds : List Char} {p q : Position} {c : Char} {r : List Char} {n : Nat}

theorem At.append (at' : At text p (cs ++ ds)) : At text (p.advanceAll cs) ds := by
  obtain ⟨front, rfl, offset⟩ := at'
  refine ⟨front ++ cs, (List.append_assoc ..).symm, ?_⟩
  rw [Position.offset_advanceAll, offset, byteLength_append]

theorem At.advance (at' : At text p (c :: r)) : At text (p.advance c) r := by
  show At text (p.advanceAll [c]) r
  exact At.append at'

theorem At.drop (at' : At text p cs) (n : Nat) :
    At text (p.advanceAll (cs.take n)) (cs.drop n) := by
  apply At.append
  rwa [List.take_append_drop]

/-- The slice over which a cursor moves can be taken. -/
theorem At.cut_eq (at' : At text p (cs ++ ds)) :
    cut text p (p.advanceAll cs) = some (.ok (cs, p.advanceAll cs)) := by
  obtain ⟨front, rfl, offset⟩ := at'
  have sliced := slice?_append front cs ds
  rw [byteLength_append, ← offset, ← Position.offset_advanceAll] at sliced
  rw [cut, sliced]
  rfl

theorem length_drop_lt (m : Nat) (h : cs.length < n) : (cs.drop m).length < n :=
  Nat.lt_of_le_of_lt (List.drop_sublist m cs).length_le h

theorem peekNth_eq (at' : At text p cs) (n : Nat) : peekNth text n p = some (.ok (cs[n]?, p)) := by
  obtain ⟨front, rfl, offset⟩ := at'
  have behind : rest (front ++ cs) p = some (.ok (cs, p)) := by
    rw [rest, offset, textFrom?_append]
    rfl
  rw [peekNth, bind_of_ok behind]
  rfl

theorem peek_eq (at' : At text p cs) : peek text p = some (.ok (cs.head?, p)) := by
  rw [peek, peekNth_eq at', List.head?_eq_getElem?]

theorem bump_nil (at' : At text p []) : bump text p = some (.ok (none, p)) := by
  rw [bump, bind_of_ok (peek_eq at')]
  rfl

theorem bump_cons (at' : At text p (c :: r)) : bump text p = some (.ok (some c, p.advance c)) := by
  rw [bump, bind_of_ok (peek_eq at')]
  rfl

theorem bumps_eq (at' : At text p cs) (h : n ≤ cs.length) :
    bumps text n p = some (.ok ((), p.advanceAll (cs.take n))) := by
  induction n generalizing p cs with
  | zero => rfl
  | succ n ih =>
    cases cs with
    | nil => cases h
    | cons c r =>
      rw [bumps, bind_of_ok (bump_cons at'), ih at'.advance (Nat.le_of_succ_le_succ h)]
      rfl

theorem scanWhile_eq (accepts : Char → Bool) (at' : At text p cs) (h : cs.length < n) :
    scanWhile text accepts n p = some (.ok ((), p.advanceAll (cs.takeWhile accepts))) := by
  induction n generalizing p cs with
  | zero => cases h
  | succ n ih =>
    rw [scanWhile, bind_of_ok (peek_eq at')]
    cases cs with
    | nil => rfl
    | cons c r =>
      rw [List.takeWhile_cons]
      by_cases accepted : accepts c
      · rw [if_pos (show (c :: r).head?.any accepts from accepted), if_pos accepted,
          bind_of_ok (bump_cons at'), ih at'.advance (Nat.lt_of_succ_lt_succ h)]
        rfl
      · rw [if_neg (show ¬ (c :: r).head?.any accepts from accepted), if_neg accepted]
        rfl

/-! ## Gaps -/

theorem lineLength_cons (c : Char) (r : List Char) :
    Lexeme.lineLength (c :: r) = if c = '\n' then 1 else Lexeme.lineLength r + 1 := by
  by_cases h : c = '\n'
  · rw [if_pos h, h]
    rfl
  · have run : (c :: r).takeWhile (· ≠ '\n') = c :: r.takeWhile (· ≠ '\n') :=
      List.takeWhile_cons_of_pos (decide_eq_true h)
    unfold Lexeme.lineLength
    rw [if_neg h, run, List.length_cons]
    simp only [List.drop_succ_cons]
    split <;> rfl

theorem lineComment_eq (at' : At text p cs) (h : cs.length < n) :
    lineComment text n p = some (.ok ((), p.advanceAll (cs.take (Lexeme.lineLength cs)))) := by
  induction n generalizing p cs with
  | zero => cases h
  | succ n ih =>
    rw [lineComment]
    cases cs with
    | nil =>
      rw [bind_of_ok (bump_nil at')]
      rfl
    | cons c r =>
      rw [bind_of_ok (bump_cons at'), lineLength_cons]
      by_cases feed : c = '\n'
      · simp only [if_pos feed]
        rfl
      · simp only [if_neg feed]
        exact ih at'.advance (Nat.lt_of_succ_lt_succ h)

/-- A comment ends where the first `*/` does. -/
theorem blockComment_eq (start : Position) (k : Nat) (at' : At text p cs) (h : cs.length < n) :
    blockComment text start n p = match Lexeme.commentLength k cs with
      | some m => some (.ok ((), p.advanceAll (cs.take (m - k))))
      | none => some (.error ⟨.unterminatedComment, start⟩) := by
  fun_induction Lexeme.commentLength k cs generalizing n p with
  | case1 =>
    obtain ⟨n, rfl⟩ := Nat.exists_eq_succ_of_ne_zero (Nat.ne_of_gt h)
    rw [blockComment, bind_of_ok (bump_nil at')]
    rfl
  | case2 k r =>
    obtain ⟨n, rfl⟩ := Nat.exists_eq_succ_of_ne_zero (Nat.ne_zero_of_lt h)
    rw [blockComment, bind_of_ok (bump_cons at')]
    show (peek text >>= _) _ = _
    rw [bind_of_ok (peek_eq at'.advance)]
    show (bump text >>= _) _ = _
    rw [bind_of_ok (bump_cons at'.advance)]
    dsimp only
    rw [Nat.add_sub_cancel_left]
    rfl
  | case3 k c r other ih =>
    obtain ⟨n, rfl⟩ := Nat.exists_eq_succ_of_ne_zero (Nat.ne_zero_of_lt h)
    have tail : blockComment text start n (p.advance c) =
        match Lexeme.commentLength (k + 1) r with
        | some m => some (.ok ((), p.advanceAll ((c :: r).take (m - k))))
        | none => some (.error ⟨.unterminatedComment, start⟩) := by
      rw [ih at'.advance (Nat.lt_of_succ_lt_succ h)]
      cases found : Lexeme.commentLength (k + 1) r with
      | none => rfl
      | some m =>
        have := Lexeme.commentLength_le found
        dsimp only
        rw [show m - k = m - (k + 1) + 1 by omega]
        rfl
    rw [blockComment, bind_of_ok (bump_cons at')]
    dsimp only
    by_cases star : c = '*'
    · rw [if_pos star, bind_of_ok (peek_eq at'.advance), if_neg, tail]
      intro slash
      obtain ⟨r', rfl⟩ := List.head?_eq_some_iff.1 slash
      exact other r' star rfl
    · rw [if_neg star, tail]

/-- Where neither white space nor the two characters of a comment are, there is no gap. -/
theorem gapLength_eq_none (white : Unicode.isWhiteSpace c = false)
    (dash : c = '-' → r[0]? ≠ some '-') (slash : c = '/' → r[0]? ≠ some '*') :
    Lexeme.gapLength c r = .ok none := by
  unfold Lexeme.gapLength
  rw [if_neg (by simp [white])]
  split
  · exact absurd rfl (dash rfl)
  · exact absurd rfl (slash rfl)
  · rfl

/-- What is left to skip at a place where a comment may start. -/
def afterComment (text : List Char) (n : Nat) (p : Position) (cs : List Char) :
    Except LexFault (Option Nat) → Option (Except LexError (Unit × Position))
  | .ok (some m) => skip text n (p.advanceAll (cs.take (m + 1)))
  | .ok none => some (.ok ((), p))
  | .error fault => some (.error ⟨fault, p⟩)

theorem skip_lineComment (at' : At text p ('-' :: '-' :: r))
    (h : ('-' :: '-' :: r).length < n + 1) : skip text (n + 1) p =
      afterComment text n p ('-' :: '-' :: r) (Lexeme.gapLength '-' ('-' :: r)) := by
  have white : ¬ Unicode.isWhiteSpace '-' := by decide +kernel
  rw [skip, bind_of_ok (peek_eq at')]
  dsimp only [List.head?_cons]
  rw [if_neg white, if_pos rfl, bind_of_ok (peekNth_eq at' 1), List.getElem?_cons_succ,
    List.getElem?_cons_zero, if_pos rfl, bind_of_ok (lineComment_eq at' h), lineLength_cons,
    if_neg (by decide), lineLength_cons, if_neg (by decide), Lexeme.gapLength, if_neg white,
    Nat.add_comm 1]
  rfl

theorem skip_blockComment (at' : At text p ('/' :: '*' :: r))
    (h : ('/' :: '*' :: r).length < n + 1) : skip text (n + 1) p =
      afterComment text n p ('/' :: '*' :: r) (Lexeme.gapLength '/' ('*' :: r)) := by
  have white : ¬ Unicode.isWhiteSpace '/' := by decide +kernel
  have start : (get : Cursor Position) p = some (.ok (p, p)) := rfl
  have comment := blockComment_eq p 1 at'.advance.advance (Nat.lt_of_succ_lt (Nat.lt_of_succ_lt h))
  rw [skip, bind_of_ok (peek_eq at')]
  dsimp only [List.head?_cons]
  rw [if_neg white, if_neg (by decide), if_pos rfl, bind_of_ok (peekNth_eq at' 1),
    List.getElem?_cons_succ, List.getElem?_cons_zero, if_pos rfl, bind_of_ok start,
    bind_of_ok (bumps_eq at' (by simp)), Lexeme.gapLength, if_neg white]
  cases found : Lexeme.commentLength 1 r with
  | none =>
    rw [found] at comment
    exact bind_of_error comment
  | some m =>
    have le := Lexeme.commentLength_le found
    obtain ⟨m, rfl⟩ : ∃ m', m = m' + 1 := ⟨m - 1, by omega⟩
    rw [found] at comment
    exact bind_of_ok comment

/-- Where no white space is, a cursor skips a comment or stops. -/
theorem skip_of_not_white (at' : At text p (c :: r)) (h : (c :: r).length < n + 1)
    (white : ¬ Unicode.isWhiteSpace c) :
    skip text (n + 1) p = afterComment text n p (c :: r) (Lexeme.gapLength c r) := by
  by_cases line : c = '-' ∧ r[0]? = some '-'
  · obtain ⟨rfl, second⟩ := line
    obtain ⟨r, rfl⟩ := List.head?_eq_some_iff.1 (List.head?_eq_getElem?.trans second)
    exact skip_lineComment at' h
  by_cases block : c = '/' ∧ r[0]? = some '*'
  · obtain ⟨rfl, second⟩ := block
    obtain ⟨r, rfl⟩ := List.head?_eq_some_iff.1 (List.head?_eq_getElem?.trans second)
    exact skip_blockComment at' h
  rw [gapLength_eq_none (Bool.eq_false_iff.2 white) (not_and.1 line) (not_and.1 block), skip,
    bind_of_ok (peek_eq at')]
  dsimp only [List.head?_cons]
  rw [if_neg white]
  by_cases dash : c = '-'
  · rw [if_pos dash, bind_of_ok (peekNth_eq at' 1), List.getElem?_cons_succ,
      if_neg (not_and.1 line dash)]
    rfl
  rw [if_neg dash]
  by_cases slash : c = '/'
  · rw [if_pos slash, bind_of_ok (peekNth_eq at' 1), List.getElem?_cons_succ,
      if_neg (not_and.1 block slash)]
    rfl
  · rw [if_neg slash]
    rfl

/-- What a cursor does with the outcome of skipping. -/
def skipped : Except LexError (Position × List Char) → Option (Except LexError (Unit × Position))
  | .ok (q, _) => some (.ok ((), q))
  | .error e => some (.error e)

/-- A cursor skips the gaps that are in front of it. -/
theorem skip_eq (at' : At text p cs) (h : cs.length < n) :
    skip text n p = skipped (TokenStream.skipGaps p cs) := by
  induction n generalizing p cs with
  | zero => cases h
  | succ n ih =>
    cases cs with
    | nil =>
      rw [skip, bind_of_ok (peek_eq at'), TokenStream.skipGaps]
      rfl
    | cons c r =>
      have shorter : r.length < n := Nat.lt_of_succ_lt_succ h
      by_cases white : Unicode.isWhiteSpace c
      · rw [skip, bind_of_ok (peek_eq at')]
        dsimp only [List.head?_cons]
        rw [if_pos white, bind_of_ok (bump_cons at'), TokenStream.skipGaps_white white]
        exact ih at'.advance shorter
      rw [skip_of_not_white at' h white]
      cases gap : Lexeme.gapLength c r with
      | error fault =>
        rw [TokenStream.skipGaps, gap]
        rfl
      | ok found =>
        cases found with
        | none =>
          rw [TokenStream.skipGaps, gap]
          rfl
        | some m =>
          rw [TokenStream.skipGaps_of_gapLength gap]
          exact ih (at'.drop (m + 1)) (length_drop_lt m shorter)

/-! ## Lexemes -/

/-- What a cursor at `p` does when a lexeme is scanned that starts with `c`. -/
def scanned (p : Position) (c : Char) (r : List Char) :
    Except LexFault (TokenKind × Nat) → Option (Except LexError (TokenKind × Position))
  | .ok (kind, m) => some (.ok (kind, p.advanceAll (c :: r.take m)))
  | .error fault => some (.error ⟨fault, p⟩)

/-- What a cursor does with units up to a closing quote. -/
def closed (start : Position) (kind : TokenKind) (fault : LexFault) (q : Char) (p : Position) :
    Option (List QuotedUnit) → Option (Except LexError (TokenKind × Position))
  | some us => some (.ok (kind, p.advanceAll (us.flatMap QuotedUnit.written ++ [q])))
  | none => some (.error ⟨fault, start⟩)

theorem closed_map_cons {start p : Position} {kind : TokenKind} {fault : LexFault} {q : Char}
    (u : QuotedUnit) (found : Option (List QuotedUnit)) :
    closed start kind fault q p (found.map (u :: ·)) =
      closed start kind fault q (p.advanceAll u.written) found := by
  cases found with
  | none => rfl
  | some us =>
    rw [Option.map_some, closed, closed, List.flatMap_cons, List.append_assoc,
      Position.advanceAll_append]

theorem string_nil {start : Position} (at' : At text p []) :
    string text start (n + 1) p = some (.error ⟨.unterminatedString, start⟩) := by
  rw [string, bind_of_ok (bump_nil at')]
  rfl

/-- A cursor goes through a string literal from unit to unit. -/
theorem string_eq {start : Position} (at' : At text p cs) (h : cs.length < n) :
    string text start n p =
      closed start .string .unterminatedString '\'' p (Lexeme.unitsTo '\'' true cs) := by
  obtain ⟨n, rfl⟩ := Nat.exists_eq_succ_of_ne_zero (Nat.ne_zero_of_lt h)
  fun_induction Lexeme.unitsTo '\'' true cs generalizing n p with
  | case1 => exact string_nil at'
  | case2 =>
    rw [string, bind_of_ok (bump_cons at')]
    dsimp only
    rw [if_pos rfl, bind_of_ok (peek_eq at'.advance)]
    rfl
  | case3 c hc =>
    obtain ⟨n, rfl⟩ := Nat.exists_eq_succ_of_ne_zero (Nat.ne_of_gt (Nat.lt_of_succ_lt_succ h))
    rw [string, bind_of_ok (bump_cons at')]
    dsimp only
    rw [if_neg hc]
    split
    · rw [bind_of_ok (bump_nil at'.advance)]
      rfl
    · exact string_nil at'.advance
  | case4 r ih =>
    obtain ⟨n, rfl⟩ := Nat.exists_eq_succ_of_ne_zero (Nat.ne_zero_of_lt (Nat.lt_of_succ_lt_succ h))
    rw [string, bind_of_ok (bump_cons at')]
    dsimp only
    rw [if_pos rfl, bind_of_ok (peek_eq at'.advance), if_pos List.head?_cons,
      bind_of_ok (bump_cons at'.advance), closed_map_cons]
    exact ih at'.advance.advance n (Nat.lt_of_succ_lt (Nat.lt_of_succ_lt_succ h))
  | case5 d r hd =>
    rw [string, bind_of_ok (bump_cons at')]
    dsimp only
    rw [if_pos rfl, bind_of_ok (peek_eq at'.advance), if_neg (by simpa using hd)]
    rfl
  | case6 c d r hc escape ih =>
    obtain ⟨n, rfl⟩ := Nat.exists_eq_succ_of_ne_zero (Nat.ne_zero_of_lt (Nat.lt_of_succ_lt_succ h))
    rw [string, bind_of_ok (bump_cons at')]
    dsimp only
    obtain ⟨-, rfl⟩ := escape
    rw [if_neg hc, if_pos rfl, bind_of_ok (bump_cons at'.advance), closed_map_cons]
    exact ih at'.advance.advance n (Nat.lt_of_succ_lt (Nat.lt_of_succ_lt_succ h))
  | case7 c d r hc escape ih =>
    obtain ⟨n, rfl⟩ := Nat.exists_eq_succ_of_ne_zero (Nat.ne_zero_of_lt (Nat.lt_of_succ_lt_succ h))
    rw [string, bind_of_ok (bump_cons at')]
    dsimp only
    rw [if_neg hc, if_neg fun h => escape ⟨rfl, h⟩, closed_map_cons]
    exact ih at'.advance n (Nat.lt_of_succ_lt_succ h)

theorem quoted_nil {start : Position} {style : QuoteStyle} {q : Char} (at' : At text p []) :
    quoted text start style q (n + 1) p = some (.error ⟨.unterminatedQuotedIdentifier, start⟩) := by
  rw [quoted, bind_of_ok (bump_nil at')]
  rfl

/-- A cursor goes through a quoted identifier from unit to unit. -/
theorem quoted_eq {start : Position} {style : QuoteStyle} {q : Char} (at' : At text p cs)
    (h : cs.length < n) : quoted text start style q n p =
      closed start (.identifier style) .unterminatedQuotedIdentifier q p
        (Lexeme.unitsTo q false cs) := by
  obtain ⟨n, rfl⟩ := Nat.exists_eq_succ_of_ne_zero (Nat.ne_zero_of_lt h)
  fun_induction Lexeme.unitsTo q false cs generalizing n p with
  | case1 => exact quoted_nil at'
  | case2 =>
    rw [quoted, bind_of_ok (bump_cons at')]
    dsimp only
    rw [if_pos rfl, bind_of_ok (peek_eq at'.advance)]
    rfl
  | case3 c hc =>
    obtain ⟨n, rfl⟩ := Nat.exists_eq_succ_of_ne_zero (Nat.ne_of_gt (Nat.lt_of_succ_lt_succ h))
    rw [quoted, bind_of_ok (bump_cons at')]
    dsimp only
    rw [if_neg hc]
    exact quoted_nil at'.advance
  | case4 r ih =>
    obtain ⟨n, rfl⟩ := Nat.exists_eq_succ_of_ne_zero (Nat.ne_zero_of_lt (Nat.lt_of_succ_lt_succ h))
    rw [quoted, bind_of_ok (bump_cons at')]
    dsimp only
    rw [if_pos rfl, bind_of_ok (peek_eq at'.advance), if_pos List.head?_cons,
      bind_of_ok (bump_cons at'.advance), closed_map_cons]
    exact ih at'.advance.advance n (Nat.lt_of_succ_lt (Nat.lt_of_succ_lt_succ h))
  | case5 d r hd =>
    rw [quoted, bind_of_ok (bump_cons at')]
    dsimp only
    rw [if_pos rfl, bind_of_ok (peek_eq at'.advance), if_neg (by simpa using hd)]
    rfl
  | case6 c d r hc escape => cases escape.1
  | case7 c d r hc escape ih =>
    obtain ⟨n, rfl⟩ := Nat.exists_eq_succ_of_ne_zero (Nat.ne_zero_of_lt (Nat.lt_of_succ_lt_succ h))
    rw [quoted, bind_of_ok (bump_cons at')]
    dsimp only
    rw [if_neg hc, closed_map_cons]
    exact ih at'.advance n (Nat.lt_of_succ_lt_succ h)

/-- What is scanned through a closing quote. -/
theorem closed_eq_scanned {kind : TokenKind} {fault : LexFault} {q : Char} (escapes : Bool) :
    closed p kind fault q (p.advance c) (Lexeme.unitsTo q escapes r) =
      scanned p c r (match (Lexeme.unitsTo q escapes r).map (Lexeme.lengthThrough 0) with
        | some m => .ok (kind, m)
        | none => .error fault) := by
  cases found : Lexeme.unitsTo q escapes r with
  | none => rfl
  | some us =>
    obtain ⟨-, rest, rfl, -⟩ := Lexeme.exists_of_unitsTo found
    have through : us.flatMap QuotedUnit.written ++ q :: rest =
        (us.flatMap QuotedUnit.written ++ [q]) ++ rest := by simp
    have length : Lexeme.lengthThrough 0 us = (us.flatMap QuotedUnit.written ++ [q]).length := by
      simp [Lexeme.lengthThrough]
    dsimp only [Option.map_some]
    rw [closed, scanned, through, length, List.take_left, Position.advanceAll_cons]

/-! ### Numbers -/

theorem scanWhile_take (accepts : Char → Bool) (at' : At text p cs) (h : cs.length < n) :
    scanWhile text accepts n p =
      some (.ok ((), p.advanceAll (cs.take (cs.takeWhile accepts).length))) := by
  rw [scanWhile_eq accepts at' h, ← List.prefix_iff_eq_take.1 (List.takeWhile_prefix accepts)]

theorem fraction_eq (at' : At text p cs) (h : cs.length < n) : fraction text n p =
    some (.ok ((), p.advanceAll (cs.take (Lexeme.fractionLength cs)))) := by
  rw [fraction, bind_of_ok (peek_eq at')]
  by_cases point : cs.head? = some '.'
  · obtain ⟨r, rfl⟩ := List.head?_eq_some_iff.1 point
    rw [if_pos point, bind_of_ok (bump_cons at'),
      scanWhile_take Char.isDigit at'.advance (Nat.lt_of_succ_lt h), Lexeme.fractionLength,
      Nat.add_comm]
    rfl
  · rw [if_neg point, fractionLength_of_ne fun d hd => ?_]
    · rfl
    · rintro rfl
      exact point hd

/-- Where the first digit of an exponent can stand. -/
theorem digitAt_eq (c : Char) (r : List Char) :
    (if (c :: r)[1]?.any (fun d => d = '+' ∨ d = '-') then 2 else 1) =
      Lexeme.signLength r + 1 := by
  cases r with
  | nil => rfl
  | cons d r =>
    by_cases sign : d = '+' ∨ d = '-'
    · rw [if_pos (by simpa using sign)]
      rcases sign with rfl | rfl <;> rfl
    · rw [if_neg (by simpa using sign)]
      unfold Lexeme.signLength
      split <;> simp_all

theorem length_takeWhile_eq_zero_iff {accepts : Char → Bool} :
    (cs.takeWhile accepts).length = 0 ↔ cs.head?.any accepts = false := by
  cases cs with
  | nil => simp
  | cons c r => by_cases h : accepts c <;> simp [h]

theorem exponent_eq (at' : At text p cs) (h : cs.length < n) : exponent text n p =
    some (.ok ((), p.advanceAll (cs.take (Lexeme.exponentLength cs)))) := by
  rw [exponent, bind_of_ok (peek_eq at')]
  cases cs with
  | nil => rfl
  | cons c r =>
    by_cases letter : c = 'e' ∨ c = 'E'
    · rw [if_pos (by simpa using letter), bind_of_ok (peekNth_eq at' 1)]
      rw [digitAt_eq, bind_of_ok (peekNth_eq at' _), List.getElem?_cons_succ,
        Lexeme.exponentLength_cons letter]
      rw [← List.head?_drop]
      by_cases digits : Lexeme.digitsLength (r.drop (Lexeme.signLength r)) = 0
      · rw [if_pos digits, if_neg (ne_true_of_eq_false (length_takeWhile_eq_zero_iff.1 digits))]
        rfl
      · have digit := eq_true_of_ne_false (mt length_takeWhile_eq_zero_iff.2 digits)
        rw [if_neg digits, if_pos digit,
          bind_of_ok (bumps_eq at' (Nat.succ_le_succ (Lexeme.signLength_le r))),
          scanWhile_take Char.isDigit (at'.drop _) (length_drop_lt _ h),
          ← Position.advanceAll_append, ← List.take_add, Nat.add_comm 1]
        rfl
    · rw [if_neg (by simpa using letter), Lexeme.exponentLength_of_ne letter]
      rfl

/-- Moving on behind the first `n` characters. -/
theorem advanceAll_take_drop (p : Position) (cs : List Char) (n m : Nat) :
    (p.advanceAll (cs.take n)).advanceAll ((cs.drop n).take m) =
      p.advanceAll (cs.take (n + m)) := by
  rw [← Position.advanceAll_append, ← List.take_add]

theorem numeral_eq (at' : At text p cs) (h : cs.length < n) : numeral text n p =
    some (.ok ((), p.advanceAll (cs.take (Lexeme.numberLength cs)))) := by
  have mantissa := fraction_eq (at'.drop (Lexeme.digitsLength cs)) (length_drop_lt _ h)
  rw [advanceAll_take_drop] at mantissa
  have exponent := exponent_eq (at'.drop (Lexeme.digitsLength cs +
    Lexeme.fractionLength (cs.drop (Lexeme.digitsLength cs)))) (length_drop_lt _ h)
  rw [advanceAll_take_drop] at exponent
  exact (bind_of_ok (scanWhile_take Char.isDigit at' h)).trans
    ((bind_of_ok mantissa).trans exponent)

/-- A cursor reads numbers as `Lexeme.scanNumber` does. -/
theorem number_eq (at' : At text p (c :: r)) (h : (c :: r).length < n)
    (starts : Lexeme.startsNumber c r) :
    number text p n p = scanned p c r (Lexeme.scanNumber c r) := by
  have positive := (Lexeme.numberLength_of_startsNumber starts).1
  rw [number, bind_of_ok (numeral_eq at' h), Lexeme.scanNumber]
  have behind := at'.drop (Lexeme.numberLength (c :: r))
  generalize Lexeme.numberLength (c :: r) = m at positive behind
  rw [bind_of_ok (peek_eq behind)]
  have run := scanWhile_take isWordChar behind (length_drop_lt _ h)
  rw [advanceAll_take_drop] at run
  by_cases apart : (((c :: r).drop m).takeWhile isWordChar).length = 0
  · rw [if_neg (ne_true_of_eq_false (length_takeWhile_eq_zero_iff.1 apart)), if_pos apart]
    obtain ⟨m, rfl⟩ := Nat.exists_eq_succ_of_ne_zero (Nat.ne_of_gt positive)
    rfl
  · have joined := eq_true_of_ne_false (mt length_takeWhile_eq_zero_iff.2 apart)
    rw [if_pos joined, if_neg apart, bind_of_ok run]
    generalize (((c :: r).drop m).takeWhile isWordChar).length = k
    have split := at'
    rw [← List.take_append_drop (m + k) (c :: r)] at split
    exact bind_of_ok split.cut_eq

theorem word_eq (at' : At text p (c :: r)) (h : (c :: r).length < n) (start : isWordStart c) :
    word text p n p = scanned p c r (.ok (Lexeme.scanWord c r)) := by
  have run : (c :: r).takeWhile isWordChar = c :: r.takeWhile isWordChar :=
    List.takeWhile_cons_of_pos (isWordChar_of_isWordStart start)
  have split : At text p ((c :: r.takeWhile isWordChar) ++ r.dropWhile isWordChar) := by
    rwa [List.cons_append, List.takeWhile_append_dropWhile]
  have tail : r.take (r.takeWhile isWordChar).length = r.takeWhile isWordChar :=
    (List.prefix_iff_eq_take.1 (List.takeWhile_prefix _)).symm
  rw [word, bind_of_ok (scanWhile_eq isWordChar at' h), run, bind_of_ok split.cut_eq,
    Lexeme.scanWord]
  cases Keyword.ofText? (String.ofList (c :: r.takeWhile isWordChar)) <;>
  · dsimp only [scanned]
    rw [tail]
    rfl

theorem consume_eq {d : Char} {o : Operator} (at' : At text p (d :: r)) :
    consume text o p = some (.ok (.operator o, p.advance d)) := by
  rw [consume, bind_of_ok (bump_cons at')]
  rfl

theorem symbol_eq (at' : At text p (c :: r)) :
    symbol text p c p = scanned p c r (match Lexeme.scanSymbol c r with
      | some found => .ok found
      | none => .error (.unexpectedCharacter c)) := by
  have second {d : Char} {o : Operator} (h : r.head? = some d) :
      consume text o (p.advance c) = scanned p c r (.ok (.operator o, 1)) := by
    obtain ⟨r, rfl⟩ := List.head?_eq_some_iff.1 h
    exact consume_eq at'.advance
  rw [symbol.eq_def, bind_of_ok (bump_cons at')]
  unfold Lexeme.scanSymbol
  split
  -- The operators that may have a second character, and the characters that are no symbol.
  case h_7 | h_8 | h_9 | h_10 =>
    rw [bind_of_ok (peek_eq at'.advance)]
    generalize next : r.head? = o at second
    split
    all_goals first | exact second rfl | (split <;> simp_all)
    all_goals
      subst_vars
      rfl
  case h_16 =>
    split <;> first | rfl | simp_all
  all_goals rfl

/-- A cursor reads what comes next as `Lexeme.scan` does. -/
theorem lexeme_eq (at' : At text p (c :: r)) (h : (c :: r).length < n) :
    lexeme text p c n p = scanned p c r (Lexeme.scan c r) := by
  rw [lexeme, Lexeme.scan]
  by_cases quote : c = '\''
  · rw [if_pos quote, if_pos quote, bind_of_ok (bump_cons at'), string_eq at'.advance
      (Nat.lt_of_succ_lt h), Lexeme.stringLength_eq]
    exact closed_eq_scanned _
  rw [if_neg quote, if_neg quote]
  by_cases double : c = '"'
  · rw [if_pos double, if_pos double, bind_of_ok (bump_cons at'), quoted_eq at'.advance
      (Nat.lt_of_succ_lt h), Lexeme.quotedLength_eq]
    exact closed_eq_scanned _
  rw [if_neg double, if_neg double]
  by_cases back : c = '\x60'
  · rw [if_pos back, if_pos back, bind_of_ok (bump_cons at'), quoted_eq at'.advance
      (Nat.lt_of_succ_lt h), Lexeme.quotedLength_eq]
    exact closed_eq_scanned _
  rw [if_neg back, if_neg back]
  by_cases digit : c.isDigit
  · have starts : Lexeme.startsNumber c r := by rw [Lexeme.startsNumber, digit, Bool.true_or]
    rw [if_pos digit, if_pos starts, number_eq at' h starts]
  rw [if_neg digit]
  rw [Bool.not_eq_true] at digit
  by_cases point : c = '.'
  · have notWord : isWordStart c = false := by
      subst point
      decide +kernel
    have starts : Lexeme.startsNumber c r = (c :: r)[1]?.any Char.isDigit := by
      rw [Lexeme.startsNumber, digit, Bool.false_or, beq_iff_eq.2 point, Bool.true_and,
        List.head?_eq_getElem?, List.getElem?_cons_succ]
    rw [if_pos point, bind_of_ok (peekNth_eq at' 1), ← starts]
    by_cases number : Lexeme.startsNumber c r
    · rw [if_pos number, if_pos number, number_eq at' h number]
    · rw [if_neg number, if_neg number, if_neg (ne_true_of_eq_false notWord)]
      exact symbol_eq at'
  · have number : Lexeme.startsNumber c r = false := by
      rw [Lexeme.startsNumber, digit, Bool.false_or, beq_eq_false_iff_ne.2 point, Bool.false_and]
    rw [if_neg point, if_neg (ne_true_of_eq_false number)]
    by_cases start : isWordStart c
    · rw [if_pos start, if_pos start, word_eq at' h start]
    · rw [if_neg start, if_neg start]
      exact symbol_eq at'

/-! ## Tokens -/

theorem token_eq {kind : TokenKind} (cs : List Char) (at' : At text p (cs ++ ds)) :
    token text kind p (p.advanceAll cs) =
      some (.ok (TokenStream.tokenAt p kind cs, p.advanceAll cs)) := by
  rw [token, bind_of_ok at'.cut_eq]
  rfl

/-- What a cursor does with the item that comes next. -/
def found : TokenStream.Item → Option (Except LexError (Token × Position))
  | .token t q _ => some (.ok (t, q))
  | .ended t => some (.ok (t, t.position))
  | .failed e => some (.error e)

theorem nextToken_eq (at' : At text p cs) (h : cs.length < n) :
    nextToken text n p = found (TokenStream.item p cs) := by
  have skip := skip_eq at' h
  rw [nextToken, TokenStream.item]
  cases skipped : TokenStream.skipGaps p cs with
  | error e =>
    rw [skipped] at skip
    rw [bind_of_error skip]
    rfl
  | ok behind =>
    obtain ⟨q, ds⟩ := behind
    obtain ⟨gap, rfl, rfl, -⟩ := TokenStream.skipGaps_eq_ok skipped
    rw [skipped] at skip
    rw [bind_of_ok skip]
    have start : (get : Cursor Position) (p.advanceAll gap) =
      some (.ok (p.advanceAll gap, p.advanceAll gap)) := rfl
    have behind := at'.append
    rw [bind_of_ok start, bind_of_ok (peek_eq behind)]
    cases ds with
    | nil => exact token_eq [] behind
    | cons c r =>
      have lexeme := lexeme_eq behind (Nat.lt_of_le_of_lt (by simp) h)
      dsimp only [List.head?_cons]
      cases scanned : Lexeme.scan c r with
      | error fault =>
        rw [scanned] at lexeme
        rw [bind_of_error lexeme]
        rfl
      | ok result =>
        obtain ⟨kind, m⟩ := result
        rw [scanned] at lexeme
        rw [bind_of_ok lexeme]
        rw [← List.take_append_drop m r] at behind
        exact token_eq (c :: r.take m) behind

/-- A cursor that stands between two characters reads the items from there on. -/
theorem items_eq (at' : At text p cs) (h : cs.length < n) :
    items text n p = some (TokenStream.readFrom p cs).items := by
  induction n generalizing p cs with
  | zero => cases h
  | succ n ih =>
    rw [items, nextToken_eq at' h, TokenStream.readFrom_eq]
    cases next : TokenStream.item p cs with
    | failed e => rfl
    | ended t =>
      dsimp only [found]
      rw [if_pos (TokenStream.isEnd_of_ended next)]
      rfl
    | token t q ds =>
      obtain ⟨gap, lexeme, rfl, -, rfl, -⟩ := TokenStream.token_of_item next
      have behind : At text (p.advanceAll (gap ++ lexeme)) ds :=
        At.append (by rwa [List.append_assoc])
      have fewer : ds.length < n :=
        Nat.lt_of_lt_of_le (TokenStream.length_lt_of_item next) (Nat.le_of_lt_succ h)
      dsimp only [found]
      rw [if_neg (ne_true_of_eq_false (TokenStream.isEnd_of_item next)), ih behind fewer,
        TokenStream.items_prepend]
      rfl

end Cursor

end SqlSyntax
