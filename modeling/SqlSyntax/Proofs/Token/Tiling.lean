import Mathlib.Data.List.Infix
import Mathlib.Data.List.TakeWhile
import SqlSyntax.Proofs.Token.Stream

/-!
# Tokens tile their text

Reading loses nothing: a text is its tokens and, before each of them and before
the end, a gap of white space and comments. Gaps and places are described here
by the text alone and without the reader: a gap by what it is made of, a
position by the line feeds and the characters before it.

## Main results

* `Position.advanceAll_origin` — the position that the reader carries along is
  the true one.
* `TokenStream.skipGaps_eq_ok`, `TokenStream.skipGaps_eq_error` — what is
  skipped is a gap, and a comment that is not closed has one before it.
* `TokenStream.ofString_tiles` — the items of every text tile it.
-/

namespace SqlSyntax

/-! ## Places -/

theorem byteLength_append (cs ds : List Char) :
    byteLength (cs ++ ds) = byteLength cs + byteLength ds := by
  induction cs with
  | nil => simp [byteLength]
  | cons c cs ih =>
    rw [List.cons_append, byteLength, byteLength, ih]
    omega

namespace Position

/-- Where the character behind `before` stands, when `before` starts a text. -/
def behind (before : List Char) : Position :=
  ⟨1 + before.count '\n', 1 + (before.reverse.takeWhile (· ≠ '\n')).length, byteLength before⟩

theorem advance_behind (before : List Char) (c : Char) :
    (behind before).advance c = behind (before ++ [c]) := by
  have bytes : byteLength (before ++ [c]) = byteLength before + c.utf8Size := byteLength_append ..
  by_cases h : c = '\n'
  · subst h
    simp [advance, behind, bytes, Nat.add_assoc]
  · simp [advance, behind, bytes, h, Nat.add_comm]

theorem advanceAll_behind (before cs : List Char) :
    (behind before).advanceAll cs = behind (before ++ cs) := by
  induction cs generalizing before with
  | nil => simp
  | cons c cs ih => rw [advanceAll_cons, advance_behind, ih, List.append_assoc]; rfl

/-- Walking over a text from its start leads to the true position. -/
theorem advanceAll_origin (cs : List Char) : origin.advanceAll cs = behind cs :=
  advanceAll_behind [] cs

end Position

/-! ## Gaps -/

/-- White space and complete comments in any order. A line comment ends with its
line feed, a block comment with the first `*/` behind its start. -/
inductive IsGap : List Char → Prop where
  | nil : IsGap []
  | space {c : Char} {cs : List Char} (white : Unicode.isWhiteSpace c) (tail : IsGap cs) :
      IsGap (c :: cs)
  | lineComment {body cs : List Char} (inner : '\n' ∉ body) (tail : IsGap cs) :
      IsGap ('-' :: '-' :: (body ++ '\n' :: cs))
  | blockComment {body cs : List Char} (inner : ¬ ['*', '/'] <:+: body) (tail : IsGap cs) :
      IsGap ('/' :: '*' :: (body ++ '*' :: '/' :: cs))

/-- A gap at the end of a text, where a line comment needs no line feed. -/
inductive IsLastGap : List Char → Prop where
  | complete {cs : List Char} (gap : IsGap cs) : IsLastGap cs
  | lineComment {cs body : List Char} (gap : IsGap cs) (inner : '\n' ∉ body) :
      IsLastGap (cs ++ '-' :: '-' :: body)

theorem IsGap.append {cs ds : List Char} (h : IsGap cs) (h' : IsGap ds) : IsGap (cs ++ ds) := by
  induction h with
  | nil => exact h'
  | space white _ ih => exact .space white ih
  | lineComment inner _ ih =>
    simp only [List.cons_append, List.append_assoc]
    exact .lineComment inner ih
  | blockComment inner _ ih =>
    simp only [List.cons_append, List.append_assoc]
    exact .blockComment inner ih

theorem IsGap.append_last {cs ds : List Char} (h : IsGap cs) (h' : IsLastGap ds) :
    IsLastGap (cs ++ ds) := by
  cases h' with
  | complete h' => exact .complete (h.append h')
  | lineComment h' inner =>
    rw [← List.append_assoc]
    exact .lineComment (h.append h') inner

theorem isGap_of_white {cs : List Char} (h : ∀ c ∈ cs, Unicode.isWhiteSpace c) : IsGap cs := by
  induction cs with
  | nil => exact .nil
  | cons c cs ih =>
    exact .space (h c (List.mem_cons_self ..)) (ih fun d hd => h d (List.mem_cons_of_mem _ hd))

namespace Lexeme

/-- A line comment goes through its line feed, or to the end of the text. -/
theorem take_lineLength (cs : List Char) :
    ∃ body, '\n' ∉ body ∧ (cs.take (lineLength cs) = body ++ ['\n'] ∨
      cs.take (lineLength cs) = body ∧ cs.drop (lineLength cs) = []) := by
  have split := List.takeWhile_append_dropWhile (p := (· ≠ '\n')) (l := cs)
  have next := List.head?_dropWhile_not (· ≠ '\n') cs
  have inner : '\n' ∉ cs.takeWhile (· ≠ '\n') := fun h => by
    simpa using List.mem_takeWhile_imp h
  unfold lineLength
  generalize cs.takeWhile (· ≠ '\n') = body at *
  generalize cs.dropWhile (· ≠ '\n') = rest at *
  subst split
  refine ⟨body, inner, ?_⟩
  cases rest with
  | nil => exact .inr (by simp)
  | cons c rest =>
    obtain rfl : c = '\n' := by simpa using next
    have behind : (body ++ '\n' :: rest).drop body.length = '\n' :: rest := List.drop_left ..
    refine .inl ?_
    simp only [behind]
    rw [List.append_cons]
    exact List.take_left' (by simp)

/-- A block comment goes through the first `*/`. -/
theorem commentLength_eq_some {n m : Nat} {cs : List Char} (h : commentLength n cs = some m) :
    ∃ body rest, cs = body ++ '*' :: '/' :: rest ∧ ¬ ['*', '/'] <:+: body ∧
      m = n + body.length + 2 := by
  fun_induction commentLength n cs with
  | case1 => exact nomatch h
  | case2 n r => exact ⟨[], r, rfl, by simp, (Option.some.inj h).symm⟩
  | case3 n c r hnot ih =>
    obtain ⟨body, rest, rfl, inner, rfl⟩ := ih h
    refine ⟨c :: body, rest, rfl, ?_, by simp only [List.length_cons]; omega⟩
    rw [List.infix_cons_iff, not_or]
    refine ⟨?_, inner⟩
    rintro ⟨t, ht⟩
    obtain ⟨rfl, rest'⟩ := List.cons.inj ht
    cases body with
    | nil => exact nomatch rest'
    | cons d body =>
      obtain ⟨rfl, -⟩ := List.cons.inj rest'
      exact hnot _ rfl rfl

/-- One gap of a text, and where the text goes on behind it. -/
theorem gapLength_eq_some {c : Char} {r : List Char} {n : Nat}
    (h : gapLength c r = .ok (some n)) :
    IsGap (c :: r.take n) ∨ r.drop n = [] ∧ IsLastGap (c :: r.take n) := by
  unfold gapLength at h
  split at h
  · rename_i white
    cases h
    have taken := List.prefix_iff_eq_take.1 (List.takeWhile_prefix (l := r) Unicode.isWhiteSpace)
    refine .inl (.space white (isGap_of_white fun d hd => ?_))
    rw [← taken] at hd
    exact List.mem_takeWhile_imp hd
  · split at h
    · rename_i r _
      cases h
      obtain ⟨body, inner, taken | ⟨taken, dropped⟩⟩ := take_lineLength r
      · refine .inl ?_
        rw [Nat.add_comm, List.take_succ_cons, taken]
        exact .lineComment inner .nil
      · refine .inr ⟨by rwa [Nat.add_comm, List.drop_succ_cons], ?_⟩
        rw [Nat.add_comm, List.take_succ_cons, taken]
        exact .lineComment .nil inner
    · split at h
      · rename_i hm
        cases h
        obtain ⟨body, rest, rfl, inner, rfl⟩ := commentLength_eq_some hm
        refine .inl ?_
        have taken : (body ++ '*' :: '/' :: rest).take (body.length + 2) = body ++ ['*', '/'] := by
          rw [show body ++ '*' :: '/' :: rest = body ++ ['*', '/'] ++ rest by simp]
          exact List.take_left' List.length_append
        rw [Nat.add_assoc, Nat.add_comm 1, List.take_succ_cons, taken]
        exact .blockComment inner .nil
      · exact nomatch h
    · exact nomatch h

end Lexeme

namespace TokenStream

/-- What is skipped is a gap, and the position is moved over it. -/
theorem skipGaps_eq_ok {p q : Position} {cs ds : List Char} (h : skipGaps p cs = .ok (q, ds)) :
    ∃ gap, cs = gap ++ ds ∧ q = p.advanceAll gap ∧ IsLastGap gap ∧ (ds ≠ [] → IsGap gap) := by
  fun_induction skipGaps p cs with
  | case1 =>
    cases h
    exact ⟨[], rfl, rfl, .complete .nil, fun _ => .nil⟩
  | case2 => cases h
  | case3 =>
    cases h
    exact ⟨[], rfl, rfl, .complete .nil, fun _ => .nil⟩
  | case4 p c r n hn ih =>
    obtain ⟨gap, shape, rfl, last, inner⟩ := ih h
    refine ⟨c :: r.take n ++ gap, ?_, ?_, ?_, ?_⟩
    · rw [List.append_assoc, ← shape, List.cons_append, List.take_append_drop]
    · rw [Position.advanceAll_append, Position.advanceAll_cons]
    · rcases Lexeme.gapLength_eq_some hn with complete | ⟨ended, open_⟩
      · exact complete.append_last last
      · rw [ended] at shape
        obtain ⟨rfl, -⟩ := List.append_eq_nil_iff.1 shape.symm
        rwa [List.append_nil]
    · intro hds
      rcases Lexeme.gapLength_eq_some hn with complete | ⟨ended, -⟩
      · exact complete.append (inner hds)
      · rw [ended] at shape
        exact absurd (List.append_eq_nil_iff.1 shape.symm).2 hds

/-- A comment that is not closed has a gap before it. -/
theorem skipGaps_eq_error {p : Position} {cs : List Char} {e : LexError}
    (h : skipGaps p cs = .error e) :
    ∃ gap c rest, cs = gap ++ c :: rest ∧ IsGap gap ∧ e.position = p.advanceAll gap := by
  fun_induction skipGaps p cs with
  | case1 => cases h
  | case2 p c r fault =>
    cases h
    exact ⟨[], c, r, rfl, .nil, rfl⟩
  | case3 => cases h
  | case4 p c r n hn ih =>
    obtain ⟨gap, d, rest, shape, inner, place⟩ := ih h
    refine ⟨c :: r.take n ++ gap, d, rest, ?_, ?_, ?_⟩
    · rw [List.append_assoc, ← shape, List.cons_append, List.take_append_drop]
    · rcases Lexeme.gapLength_eq_some hn with complete | ⟨ended, -⟩
      · exact complete.append inner
      · rw [ended] at shape
        simp at shape
    · rw [place, Position.advanceAll_append, Position.advanceAll_cons]

end TokenStream

/-! ## Tiles -/

/-- Whether a token consists of `lexeme` and stands right behind `before`. -/
structure Token.StandsBehind (t : Token) (before lexeme : List Char) : Prop where
  text : t.text.toList = lexeme
  span : t.span = ⟨byteLength before, byteLength (before ++ lexeme)⟩
  position : t.position = .behind before

/-- Whether items, which are tokens or an error, are read from a text behind
`before`: lexemes with gaps between them, and at last the end of the input or an
error, with a gap before it. -/
inductive Tiles : (before text : List Char) → List (Except LexError Token) → Prop where
  | lexeme {before gap text rest : List Char} {t : Token} {items : List (Except LexError Token)}
      (isGap : IsGap gap) (nonempty : text ≠ []) (inner : t.isEnd = false)
      (stands : t.StandsBehind (before ++ gap) text)
      (tail : Tiles (before ++ gap ++ text) rest items) :
      Tiles before (gap ++ (text ++ rest)) (.ok t :: items)
  | ended {before gap : List Char} {t : Token} (isGap : IsLastGap gap) (isEnd : t.isEnd)
      (stands : t.StandsBehind (before ++ gap) []) : Tiles before gap [.ok t]
  | failed {before gap rest : List Char} {c : Char} {e : LexError} (isGap : IsGap gap)
      (position : e.position = .behind (before ++ gap)) :
      Tiles before (gap ++ c :: rest) [.error e]

namespace TokenStream

/-- Tokens, and the error that stopped the reading as the last item. -/
def items (s : TokenStream) : List (Except LexError Token) :=
  s.tokens.map .ok ++ s.failure.toList.map .error

@[simp] theorem items_prepend (ts : List Token) (s : TokenStream) :
    (s.prepend ts).items = ts.map .ok ++ s.items := by
  simp [items, prepend]

theorem standsBehind_tokenAt (before text : List Char) (kind : TokenKind) :
    (tokenAt (.behind before) kind text).StandsBehind before text where
  text := by simp [tokenAt]
  span := by rw [tokenAt, Position.advanceAll_behind]; rfl
  position := rfl

/-- What is read behind a part of a text tiles the rest of it. -/
theorem readFrom_tiles (before cs : List Char) :
    Tiles before cs (readFrom (.behind before) cs).items := by
  induction h : cs.length using Nat.strongRecOn generalizing before cs with
  | ind n ih =>
    subst h
    rw [readFrom_eq]
    cases hitem : item (.behind before) cs with
    | failed e =>
      unfold item at hitem
      split at hitem
      · rename_i hskip
        cases hitem
        obtain ⟨gap, c, rest, rfl, isGap, position⟩ := skipGaps_eq_error hskip
        exact .failed isGap (by rw [position, Position.advanceAll_behind])
      · exact nomatch hitem
      · rename_i q c r hskip
        obtain ⟨gap, rfl, rfl, -, isGap⟩ := skipGaps_eq_ok hskip
        split at hitem
        · cases hitem
          exact .failed (isGap nofun) (by rw [Position.advanceAll_behind])
        · exact nomatch hitem
    | ended t =>
      unfold item at hitem
      split at hitem
      · exact nomatch hitem
      · rename_i hskip
        cases hitem
        obtain ⟨gap, rfl, rfl, isGap, -⟩ := skipGaps_eq_ok hskip
        rw [Position.advanceAll_behind, List.append_nil]
        exact .ended isGap rfl (standsBehind_tokenAt ..)
      · split at hitem <;> exact nomatch hitem
    | token t q ds =>
      have shorter := length_lt_of_item hitem
      have inner := isEnd_of_item hitem
      unfold item at hitem
      split at hitem
      · exact nomatch hitem
      · exact nomatch hitem
      · rename_i p c r hskip
        obtain ⟨gap, rfl, rfl, -, isGap⟩ := skipGaps_eq_ok hskip
        rw [Position.advanceAll_behind] at hitem
        split at hitem
        · exact nomatch hitem
        · rename_i kind m _
          obtain ⟨rfl, rfl, rfl⟩ := Item.token.inj hitem
          have split : c :: r = (c :: r.take m) ++ r.drop m := by
            rw [List.cons_append, List.take_append_drop]
          rw [items_prepend, List.map_singleton, List.singleton_append, Position.advanceAll_behind]
          rw [split]
          exact .lexeme (isGap nofun) nofun inner (standsBehind_tokenAt ..)
            (ih _ shorter _ _ rfl)

/-- The items of every text tile it. -/
theorem ofString_tiles (sql : String) : Tiles [] sql.toList (ofString sql).items :=
  readFrom_tiles [] sql.toList

end TokenStream

end SqlSyntax
