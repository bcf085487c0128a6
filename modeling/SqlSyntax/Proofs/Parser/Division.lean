import SqlSyntax.Proofs.Parser.Script
import SqlSyntax.Proofs.Parser.Spans
import SqlSyntax.Proofs.Token.Joining

/-!
# Scripts and their text

The statements of a script divide its text: each covers a piece, and between the
pieces are white space, comments and semicolons. The piece of a statement is the
statement by itself.

## Main results

* `parseScript_divides` — the spans of the statements of a script divide its text.
* `parseScript_slice` — what a statement of a script covers is parsed by itself.
-/

namespace SqlSyntax

open Grammar

/-! ## Separators -/

/-- White space and comments with a number of semicolons between them. -/
inductive IsSeparator : Nat → List Char → Prop where
  | gap {cs : List Char} (gap : IsGap cs) : IsSeparator 0 cs
  | semicolon {n : Nat} {gap cs : List Char} (isGap : IsGap gap) (tail : IsSeparator n cs) :
      IsSeparator (n + 1) (gap ++ ';' :: cs)

theorem IsSeparator.append_gap {n : Nat} {cs gap : List Char} (h : IsSeparator n cs)
    (isGap : IsGap gap) : IsSeparator n (cs ++ gap) := by
  induction h with
  | gap isGap' => exact .gap (isGap'.append isGap)
  | semicolon isGap' _ ih =>
    rw [List.append_assoc, List.cons_append]
    exact .semicolon isGap' ih

theorem Lexeme.scan_eq_semicolon {c : Char} {r : List Char} {n : Nat}
    (h : scan c r = .ok (.punctuation .semicolon, n)) : c = ';' ∧ n = 0 := by
  unfold scan at h
  split at h
  · split at h <;> cases h
  split at h
  · split at h <;> cases h
  split at h
  · split at h <;> cases h
  split at h
  · simp only [scanNumber] at h
    split at h <;> cases h
  split at h
  · simp only [scanWord] at h
    split at h <;> cases h
  split at h
  · rename_i found
    obtain rfl := Except.ok.inj h
    unfold scanSymbol at found
    split at found <;> simp only [Option.some.injEq, Prod.mk.injEq, reduceCtorEq, false_and,
      TokenKind.punctuation.injEq] at found
    exact ⟨rfl, found.2.symm⟩
  · cases h

namespace TokenStream

variable {p : Position} {cs : List Char} {ts us : List Token} {t : Token} {e : Option LexError}

/-- Where nothing but the end of the input is read, there is a gap. -/
theorem isLastGap_of_readFrom (h : readFrom p cs = ⟨[t], e⟩) (isEnd : t.isEnd) :
    IsLastGap cs :=
  (exists_of_ended (ended_of_readFrom h isEnd).1).1

/-- Semicolons at the start of a text are a separator. -/
theorem readFrom_semicolons (h : readFrom p cs = ⟨us ++ ts, e⟩) (semicolons : Semicolons us) :
    ∃ sep rest, cs = sep ++ rest ∧ IsSeparator us.length sep ∧
      readFrom (p.advanceAll sep) rest = ⟨ts, e⟩ := by
  induction us generalizing p cs with
  | nil => exact ⟨[], cs, rfl, .gap .nil, h⟩
  | cons u us ih =>
    obtain ⟨kind, others⟩ := List.forall_mem_cons.1 semicolons
    obtain ⟨gap, text, rest, rfl, isGap, reads, -, tail⟩ :=
      readFrom_cons h (by simp [Token.isEnd, kind])
    obtain rfl : text = [';'] := by
      obtain ⟨c, r, rfl, -, scanned⟩ := reads
      rw [kind] at scanned
      obtain ⟨rfl, length⟩ := Lexeme.scan_eq_semicolon scanned
      rw [List.eq_nil_of_length_eq_zero length]
    obtain ⟨sep, rest, rfl, separator, behind⟩ := ih tail others
    refine ⟨gap ++ ';' :: sep, rest, by simp, .semicolon isGap separator, ?_⟩
    rw [← Position.advanceAll_append] at behind
    simpa using behind

/-- The piece of a text that a span covers, and the gap before it. -/
theorem readFrom_covered {s : Span} (h : readFrom p cs = ⟨us ++ ts, e⟩)
    (inner : ∀ u ∈ us, u.isEnd = false) (covers : Covers us s) :
    ∃ gap piece rest, cs = gap ++ (piece ++ rest) ∧ IsGap gap ∧ piece ≠ [] ∧
      s = ⟨(p.advanceAll gap).offset, (p.advanceAll (gap ++ piece)).offset⟩ ∧
      readFrom (p.advanceAll gap) (piece ++ rest) = ⟨us ++ ts, e⟩ ∧
      readFrom (p.advanceAll (gap ++ piece)) rest = ⟨ts, e⟩ ∧
      IsCut (p.advanceAll gap) piece us := by
  obtain ⟨t, u, first, last, rfl⟩ := covers
  obtain ⟨us, rfl⟩ := List.head?_eq_some_iff.1 first
  obtain ⟨gap, text, rest, rfl, isGap, reads, token, -⟩ :=
    readFrom_cons h (inner t (List.mem_cons_self ..))
  have there := readFrom_gap_append isGap p (text ++ rest)
  rw [h] at there
  obtain ⟨piece, rest', split, behind, cut⟩ := readFrom_cut there.symm inner
  refine ⟨gap, piece, rest', by rw [split], isGap, ?_, ?_, ?_, ?_, cut⟩
  · rintro rfl
    have stop := cut.last u last
    have start := cut.start_le u (List.mem_of_getLast? last)
    have nonempty := cut.ordered.nonempty u (List.mem_of_getLast? last)
    rw [Position.advanceAll_nil] at stop
    omega
  · have start : t.span.start = (p.advanceAll gap).offset := by rw [token]; rfl
    rw [start, cut.last u last, Position.advanceAll_append]
  · rw [← split, ← there]
  · rw [Position.advanceAll_append, behind]

end TokenStream

/-! ## Divisions -/

/-- Whether spans divide a text that stands behind `before`: what is between two of
them is a separator with a semicolon at least, what is before the first is one with
`least` semicolons at least, and what is behind the last is one too. -/
inductive Divides : (least : Nat) → (before text : List Char) → List Span → Prop where
  | done {least n : Nat} {before sep gap : List Char} (separator : IsSeparator n sep)
      (isGap : IsLastGap gap) : Divides least before (sep ++ gap) []
  | piece {least n : Nat} {before sep piece rest : List Char} {spans : List Span}
      (separator : IsSeparator n sep) (enough : least ≤ n) (nonempty : piece ≠ [])
      (others : Divides 1 (before ++ sep ++ piece) rest spans) :
      Divides least before (sep ++ (piece ++ rest))
        (⟨byteLength (before ++ sep), byteLength (before ++ sep ++ piece)⟩ :: spans)

theorem Statement.span_part (s : Statement) : s.part.span = s.span := by cases s <;> rfl

/-- The statement of a reading covers its tokens. -/
theorem Grammar.IsStatement.covers {depth : Nat} {ts : List Token} {s : Statement}
    (h : IsStatement (phrases True depth) ts s) (ordered : Ordered ts) : Covers ts s.span := by
  rw [← s.span_part]
  exact (h.laid (phrases_lay depth) ordered).covers

theorem utf8ByteSize_eq (text : String) : text.utf8ByteSize = byteLength text.toList := by
  have list (cs : List Char) : (String.ofList cs).utf8ByteSize = byteLength cs := by
    induction cs with
    | nil => rfl
    | cons c cs ih =>
      rw [String.ofList_cons, String.utf8ByteSize_append, String.utf8ByteSize_singleton, ih,
        byteLength]
  rw [← list, String.ofList_toList]

theorem offset_advanceAll_origin (cs : List Char) :
    (Position.origin.advanceAll cs).offset = byteLength cs := by
  rw [Position.offset_advanceAll]
  exact Nat.zero_add _

section

variable {depth : Nat} {us ts vs : List Token} {s : Statement} {before cs : List Char}

/-- Semicolons and a statement at the start of a text are a separator and a piece. -/
theorem readFrom_statement
    (stream : TokenStream.readFrom (.behind before) cs = ⟨us ++ (ts ++ vs), none⟩)
    (semicolons : Semicolons us) (inner : ∀ t ∈ ts, t.isEnd = false)
    (statement : IsStatement (phrases True depth) ts s) :
    ∃ sep piece rest, cs = sep ++ (piece ++ rest) ∧ IsSeparator us.length sep ∧ piece ≠ [] ∧
      s.span = ⟨byteLength (before ++ sep), byteLength (before ++ sep ++ piece)⟩ ∧
      TokenStream.readFrom (.behind (before ++ sep ++ piece)) rest = ⟨vs, none⟩ := by
  obtain ⟨sep, rest, rfl, separator, stream⟩ := TokenStream.readFrom_semicolons stream semicolons
  have ordered := TokenStream.ordered_of_readFrom stream inner
  obtain ⟨gap, piece, rest, rfl, isGap, nonempty, span, -, behind, -⟩ :=
    TokenStream.readFrom_covered stream inner (statement.covers ordered)
  refine ⟨sep ++ gap, piece, rest, by simp, separator.append_gap isGap, nonempty, ?_, ?_⟩
  · rw [span, Position.advanceAll_behind, Position.advanceAll_behind, Position.advanceAll_behind]
    simp [Position.behind]
  · rw [Position.advanceAll_behind, Position.advanceAll_behind] at behind
    simpa using behind

theorem divides_of_isEnd {t : Token} {least : Nat}
    (stream : TokenStream.readFrom (.behind before) cs = ⟨us ++ [t], none⟩)
    (semicolons : Semicolons us) (isEnd : t.isEnd) : Divides least before cs [] := by
  obtain ⟨sep, rest, rfl, separator, stream⟩ := TokenStream.readFrom_semicolons stream semicolons
  exact .done separator (TokenStream.isLastGap_of_readFrom stream isEnd)

/-- What is read from a text as a script divides the text. The semicolons `us` are
behind the statement before. -/
theorem Grammar.IsScript.divides {t : Token} {ss : List Statement}
    (h : IsScript (phrases True depth) ts ss) (isEnd : t.isEnd)
    (inner : ∀ u ∈ ts, u.isEnd = false)
    (stream : TokenStream.readFrom (.behind before) cs = ⟨us ++ (ts ++ [t]), none⟩)
    (semicolons : Semicolons us) : Divides us.length before cs (ss.map Statement.span) := by
  induction h generalizing us before cs with
  | done more =>
    rw [← List.append_assoc] at stream
    exact divides_of_isEnd stream (List.forall_mem_append.2 ⟨semicolons, more⟩) isEnd
  | @last us' ts s more statement =>
    rw [List.append_assoc, ← List.append_assoc] at stream
    obtain ⟨sep, piece, rest, rfl, separator, nonempty, span, behind⟩ :=
      readFrom_statement stream (List.forall_mem_append.2 ⟨semicolons, more⟩)
        (fun u hu => inner u (List.mem_append_right _ hu)) statement
    rw [List.map_singleton, span]
    refine .piece separator (by simp) nonempty ?_
    exact divides_of_isEnd behind .nil isEnd
  | @statement us' ts vs s v ss more statement closing _ ih =>
    have tokens : us ++ (us' ++ (ts ++ v :: vs) ++ [t]) =
        us ++ us' ++ (ts ++ ([v] ++ (vs ++ [t]))) := by simp
    rw [tokens] at stream
    obtain ⟨sep, piece, rest, rfl, separator, nonempty, span, behind⟩ :=
      readFrom_statement stream (List.forall_mem_append.2 ⟨semicolons, more⟩)
        (fun u hu => inner u (by simp [hu])) statement
    rw [List.map_cons, span]
    refine .piece separator (by simp) nonempty ?_
    have closes : Semicolons [v] := List.forall_mem_singleton.2 closing
    exact ih (fun u hu => inner u (by simp [hu])) behind closes

end

/-- The spans of the statements of a script divide its text. -/
theorem parseScript_divides {limits : Limits} {sql : String} {ss : List Statement}
    (h : parseScript limits sql = .ok ss) :
    Divides 0 [] sql.toList (ss.map Statement.span) := by
  obtain ⟨ts, t, stream, script⟩ := parseScript_sound h
  obtain ⟨inner, isEnd⟩ := TokenStream.isEnd_of_eq stream
  have start : TokenStream.readFrom (.behind []) sql.toList = ⟨[] ++ (ts ++ [t]), none⟩ := stream
  exact script.divides isEnd inner start .nil

/-- The spans that divide a text are not empty and come one behind the other. -/
theorem Divides.pairwise {least : Nat} {before text : List Char} {spans : List Span}
    (h : Divides least before text spans) :
    (∀ s ∈ spans, byteLength before ≤ s.start ∧ s.start < s.stop) ∧
      spans.Pairwise fun s t => s.stop ≤ t.start := by
  induction h with
  | done => exact ⟨nofun, .nil⟩
  | @piece least n before sep piece rest spans _ _ nonempty _ ih =>
    have start : byteLength (before ++ sep) = byteLength before + byteLength sep :=
      byteLength_append ..
    have stop : byteLength (before ++ sep ++ piece) =
        byteLength before + byteLength sep + byteLength piece := by
      rw [byteLength_append, start]
    have pos := TokenStream.byteLength_pos nonempty
    refine ⟨List.forall_mem_cons.2 ⟨by simp only [start, stop]; omega, fun s hs => ?_⟩,
      List.pairwise_cons.2 ⟨fun s hs => (ih.1 s hs).1, ih.2⟩⟩
    have := ih.1 s hs
    omega

/-! ## Statements by themselves -/

/-- The statement of a reading is the only one. -/
theorem Grammar.IsStatement.unique {comma comma' : Prop} {depth : Nat} {ts : List Token}
    {s s' : Statement} (h : IsStatement (phrases comma depth) ts s)
    (h' : IsStatement (phrases comma' depth) ts s') : s = s' := by
  have reads : Parser.Reads (Parser.statement depth) ts s [] := Parser.statement_reads h rfl
  have reads' : Parser.Reads (Parser.statement depth) ts s' [] := Parser.statement_reads h' rfl
  obtain ⟨r, hr, -⟩ := reads (s := alone ts) (List.append_nil ts).symm rfl
    (Token.isEnd_endOf []) nofun
  obtain ⟨r', hr', -⟩ := reads' (s := alone ts) (List.append_nil ts).symm rfl
    (Token.isEnd_endOf []) nofun
  exact (EStateM.Result.ok.inj (hr.symm.trans hr')).1

theorem Grammar.IsScript.mem {P : Phrases} {ts : List Token} {ss : List Statement}
    (h : IsScript P ts ss) {s : Statement} (hs : s ∈ ss) :
    ∃ us vs ws, ts = us ++ (vs ++ ws) ∧ IsStatement P vs s := by
  induction h with
  | done => exact nomatch hs
  | @last us ts s _ statement =>
    rw [List.mem_singleton.1 hs]
    exact ⟨us, ts, [], by simp, statement⟩
  | @statement us ts vs s v ss _ statement _ _ ih =>
    rcases List.mem_cons.1 hs with rfl | hs
    · exact ⟨us, ts, v :: vs, rfl, statement⟩
    · obtain ⟨us', vs', ws', rfl, reading⟩ := ih hs
      exact ⟨us ++ (ts ++ v :: us'), vs', ws', by simp, reading⟩

/-- A statement on a piece of a text is parsed from the piece by itself, and is
then moved to where the piece stands. -/
theorem parseStatement_piece {limits : Limits} {q : Position} {piece rest : List Char}
    {us vs : List Token} {s : Statement}
    (there : TokenStream.readFrom q (piece ++ rest) = ⟨us ++ vs, none⟩)
    (cut : TokenStream.IsCut q piece us) (small : byteLength piece ≤ limits.maxInputBytes)
    (statement : IsStatement (phrases True limits.maxDepth) us s) :
    ∃ b, parseStatement limits (String.ofList piece) = .ok b ∧
      s = b.mapSpans (Span.shift 0 q.offset) := by
  -- The piece has the tokens of the statement, moved to the start of a text.
  let f := Relocation.ofPiece q.offset .origin piece
  have stream : TokenStream.ofString (String.ofList piece) = ⟨us.map f.token ++ [] ++
      [TokenStream.tokenAt (Position.origin.advanceAll piece) .endOfInput []], none⟩ := by
    rw [TokenStream.ofString, String.toList_ofList, cut.alone, List.append_nil]
    rfl
  have size : (String.ofList piece).utf8ByteSize ≤ limits.maxInputBytes := by
    rwa [utf8ByteSize_eq, String.toList_ofList]
  refine ⟨s.mapSpans f.span,
    parseStatement_complete size stream rfl (statement_relocate f statement) .none, ?_⟩
  -- Moved back, they are the tokens of the statement.
  let g := Relocation.ofPiece 0 q (piece ++ rest)
  have back : (us.map f.token).map g.token = us := by
    have same := (TokenStream.readFrom_moved there).2 q
    rw [there, List.map_append] at same
    have tokens := (List.append_inj (TokenStream.mk.inj same).1 (by simp)).1
    rw [List.map_map]
    exact tokens.symm
  have moved := statement_relocate g (statement_relocate f statement)
  rw [back] at moved
  exact statement.unique moved

/-- What a statement covers is the statement by itself, moved. -/
theorem parseStatement_slice {limits : Limits} {sql : String} {ts us vs : List Token}
    {s : Statement} (hsize : sql.utf8ByteSize ≤ limits.maxInputBytes)
    (h : TokenStream.ofString sql = ⟨ts ++ (us ++ vs), none⟩)
    (inner : ∀ t ∈ ts ++ us, t.isEnd = false)
    (statement : IsStatement (phrases True limits.maxDepth) us s) :
    ∃ b, parseStatement limits (s.span.slice sql) = .ok b ∧
      s = b.mapSpans (Span.shift 0 s.span.start) := by
  obtain ⟨front, behind, hsql, tail, -⟩ :=
    TokenStream.readFrom_cut h fun t ht => inner t (List.mem_append_left _ ht)
  have inner' : ∀ t ∈ us, t.isEnd = false := fun t ht => inner t (List.mem_append_right _ ht)
  have ordered := TokenStream.ordered_of_readFrom tail inner'
  obtain ⟨gap, piece, rest, rfl, -, -, span, there, -, cut⟩ :=
    TokenStream.readFrom_covered tail inner' (statement.covers ordered)
  rw [← Position.advanceAll_append] at span there cut
  rw [← Position.advanceAll_append, ← List.append_assoc, offset_advanceAll_origin,
    offset_advanceAll_origin] at span
  have slice : s.span.slice sql = String.ofList piece := by
    rw [span]
    refine Span.slice_eq (?_ : sql.toList = front ++ gap ++ (piece ++ rest))
    rw [hsql, List.append_assoc]
  have small : byteLength piece ≤ limits.maxInputBytes := by
    rw [utf8ByteSize_eq, hsql, byteLength_append, byteLength_append, byteLength_append] at hsize
    omega
  obtain ⟨b, parsed, moved⟩ := parseStatement_piece there cut small statement
  rw [offset_advanceAll_origin] at moved
  refine ⟨b, by rw [slice, parsed], ?_⟩
  rw [span]
  exact moved

/-- What a statement of a script covers is parsed by itself. -/
theorem parseScript_slice {limits : Limits} {sql : String} {ss : List Statement}
    (h : parseScript limits sql = .ok ss) {s : Statement} (hs : s ∈ ss) :
    ∃ b, parseStatement limits (s.span.slice sql) = .ok b ∧
      s = b.mapSpans (Span.shift 0 s.span.start) := by
  have hsize := (Limits.parse_eq_ok_iff.1 h).1
  obtain ⟨ts, t, stream, script⟩ := parseScript_sound h
  obtain ⟨inner, -⟩ := TokenStream.isEnd_of_eq stream
  obtain ⟨us, vs, ws, rfl, statement⟩ := script.mem hs
  have tokens : us ++ (vs ++ ws) ++ [t] = us ++ (vs ++ (ws ++ [t])) := by simp
  rw [tokens] at stream
  refine parseStatement_slice hsize stream (fun u hu => inner u ?_) statement
  rcases List.mem_append.1 hu with hu | hu <;> simp [hu]

end SqlSyntax
