import SqlSyntax.Proofs.Token.Restart

/-!
# What quoted tokens are made of

Between its quotes a token is a sequence of units: a character that stands for itself, a
quote that is written twice, or a character behind a backslash. The reader that looks for
the closing quote goes from unit to unit, and so does the one that takes the quotes and
escapes out. That they go through the same units is what is shown here, so no character
of the token is lost or read twice.

## Main results

* `Lexeme.unitsTo_written` — a text goes through units in one way only.
* `Lexeme.stringLength_eq`, `Lexeme.quotedLength_eq` — the reader counts the characters of
  the units up to the closing quote.
* `Quoted.unescape_written`, `Quoted.undouble_written` — the text of units is that of each
  of them.
* `Token.exists_units` — the units of any quoted token of a text.
-/

namespace SqlSyntax

/-- What is taken at once between quotes. -/
inductive QuotedUnit where
  /-- A character that stands for itself. -/
  | plain (c : Char)
  /-- A quote that is written twice. -/
  | doubled (quote : Char)
  /-- A character behind a backslash. -/
  | escaped (c : Char)
deriving DecidableEq, Repr

namespace QuotedUnit

def written : QuotedUnit → List Char
  | plain c => [c]
  | doubled q => [q, q]
  | escaped c => ['\\', c]

/-- The character that a unit stands for. -/
def value : QuotedUnit → Char
  | plain c => c
  | doubled q => q
  | escaped c => Quoted.escapedChar c

/-- Whether a unit can stand between quotes `q`, where a backslash takes the character
behind it or does not. -/
def Fits (q : Char) (escapes : Bool) : QuotedUnit → Prop
  | plain c => c ≠ q ∧ (escapes → c ≠ '\\')
  | doubled q' => q' = q
  | escaped _ => escapes

instance (q : Char) (escapes : Bool) : DecidablePred (Fits q escapes)
  | plain c => inferInstanceAs (Decidable (c ≠ q ∧ (escapes → c ≠ '\\')))
  | doubled q' => inferInstanceAs (Decidable (q' = q))
  | escaped _ => inferInstanceAs (Decidable (escapes = true))

end QuotedUnit

namespace Lexeme

open QuotedUnit

/-- The units in front of the closing quote `q`, if there is one. -/
def unitsTo (q : Char) (escapes : Bool) : List Char → Option (List QuotedUnit)
  | [] => none
  | [c] => if c = q then some [] else none
  | c :: d :: r =>
    if c = q then
      if d = q then (unitsTo q escapes r).map (doubled q :: ·) else some []
    else if escapes ∧ c = '\\' then (unitsTo q escapes r).map (escaped d :: ·)
    else (unitsTo q escapes (d :: r)).map (plain c :: ·)

/-- The units and the closing quote are the start of the text, and no other quote follows. -/
theorem exists_of_unitsTo {q : Char} {escapes : Bool} {cs : List Char} {us : List QuotedUnit}
    (h : unitsTo q escapes cs = some us) :
    (∀ u ∈ us, u.Fits q escapes) ∧
      ∃ rest, cs = us.flatMap written ++ q :: rest ∧ ∀ d ∈ rest.head?, d ≠ q := by
  fun_induction unitsTo q escapes cs generalizing us with
  | case1 => cases h
  | case2 =>
    cases h
    exact ⟨nofun, [], rfl, nofun⟩
  | case3 => cases h
  | case4 r ih =>
    obtain ⟨us, found, rfl⟩ := Option.map_eq_some_iff.1 h
    obtain ⟨fits, rest, rfl, closed⟩ := ih found
    exact ⟨List.forall_mem_cons.2 ⟨rfl, fits⟩, rest, rfl, closed⟩
  | case5 d r hd =>
    cases h
    refine ⟨nofun, _, rfl, ?_⟩
    rintro _ ⟨⟩
    exact hd
  | case6 c d r _ escape ih =>
    obtain ⟨us, found, rfl⟩ := Option.map_eq_some_iff.1 h
    obtain ⟨fits, rest, rfl, closed⟩ := ih found
    obtain ⟨escapes, rfl⟩ := escape
    exact ⟨List.forall_mem_cons.2 ⟨escapes, fits⟩, rest, rfl, closed⟩
  | case7 c d r hc escape ih =>
    obtain ⟨us, found, rfl⟩ := Option.map_eq_some_iff.1 h
    obtain ⟨fits, rest, shape, closed⟩ := ih found
    refine ⟨List.forall_mem_cons.2 ⟨⟨hc, fun h h' => escape ⟨h, h'⟩⟩, fits⟩, rest, ?_, closed⟩
    rw [shape]
    rfl

/-- A text goes through units in one way only: those that fit are the ones that are taken. -/
theorem unitsTo_written {q : Char} {escapes : Bool} (quote : escapes → q ≠ '\\')
    {us : List QuotedUnit} (fits : ∀ u ∈ us, u.Fits q escapes) {rest : List Char}
    (closed : ∀ d ∈ rest.head?, d ≠ q) :
    unitsTo q escapes (us.flatMap written ++ q :: rest) = some us := by
  induction us with
  | nil =>
    cases rest with
    | nil => simp [unitsTo]
    | cons d rest => simp [unitsTo, closed d rfl]
  | cons u us ih =>
    obtain ⟨here, below⟩ := List.forall_mem_cons.1 fits
    have read := ih below
    rw [List.flatMap_cons, List.append_assoc]
    cases u with
    | plain c =>
      obtain ⟨d, r, shape⟩ : ∃ d r, us.flatMap written ++ q :: rest = d :: r :=
        List.exists_cons_of_ne_nil (by simp)
      have plain : ¬(escapes = true ∧ c = '\\') := fun h => here.2 h.1 h.2
      rw [shape] at read ⊢
      rw [written, List.singleton_append, unitsTo, if_neg here.1, if_neg plain, read]
      rfl
    | doubled q' =>
      obtain rfl : q' = q := here
      simp [written, unitsTo, read]
    | escaped c =>
      have backslash : '\\' ≠ q := fun h => quote here h.symm
      simp only [written, List.cons_append, List.nil_append]
      rw [unitsTo, if_neg backslash, if_pos ⟨here, rfl⟩, read]
      rfl

theorem eq_of_written {q : Char} {escapes : Bool} (quote : escapes → q ≠ '\\')
    {us vs : List QuotedUnit} (hus : ∀ u ∈ us, u.Fits q escapes)
    (hvs : ∀ v ∈ vs, v.Fits q escapes)
    (h : us.flatMap written ++ [q] = vs.flatMap written ++ [q]) : us = vs := by
  have first : unitsTo q escapes (us.flatMap written ++ [q]) = some us :=
    unitsTo_written quote hus nofun
  have second : unitsTo q escapes (vs.flatMap written ++ [q]) = some vs :=
    unitsTo_written quote hvs nofun
  exact Option.some.inj (first.symm.trans (h ▸ second))

/-! ## The reader goes through the units -/

/-- How many characters are read with units and the closing quote behind `n` others. -/
def lengthThrough (n : Nat) (us : List QuotedUnit) : Nat := n + (us.flatMap written).length + 1

theorem lengthThrough_cons (n : Nat) (u : QuotedUnit) (us : List QuotedUnit) :
    lengthThrough n (u :: us) = lengthThrough (n + u.written.length) us := by
  simp only [lengthThrough, List.flatMap_cons, List.length_append]
  omega

theorem map_lengthThrough_cons (n : Nat) (u : QuotedUnit) (found : Option (List QuotedUnit)) :
    (found.map (u :: ·)).map (lengthThrough n) =
      found.map (lengthThrough (n + u.written.length)) := by
  rw [Option.map_map]
  exact Option.map_congr fun us _ => lengthThrough_cons n u us

theorem stringLength_eq (n : Nat) (cs : List Char) :
    stringLength n cs = (unitsTo '\'' true cs).map (lengthThrough n) := by
  fun_induction unitsTo '\'' true cs generalizing n with
  | case1 => rfl
  | case2 => rfl
  | case3 c hc =>
    by_cases backslash : c = '\\'
    · subst backslash
      rfl
    · rw [stringLength] <;> simp_all [stringLength]
  | case4 r ih => rw [stringLength, ih, map_lengthThrough_cons]; rfl
  | case5 d r hd =>
    rw [stringLength]
    · rfl
    · rintro r' ⟨⟩
      exact hd rfl
  | case6 c d r hc escape ih =>
    obtain ⟨-, rfl⟩ := escape
    rw [stringLength, ih, map_lengthThrough_cons]; rfl
  | case7 c d r hc escape ih =>
    have backslash : c ≠ '\\' := fun h => escape ⟨rfl, h⟩
    rw [stringLength, ih, map_lengthThrough_cons]
    · rfl
    · exact fun _ h _ => hc h
    · exact hc
    · exact fun h _ => backslash h
    · exact fun _ _ h _ => backslash h

theorem quotedLength_eq (q : Char) (n : Nat) (cs : List Char) :
    quotedLength q n cs = (unitsTo q false cs).map (lengthThrough n) := by
  fun_induction unitsTo q false cs generalizing n with
  | case1 => rfl
  | case2 => simp [quotedLength, lengthThrough]
  | case3 c hc => simp [quotedLength, hc]
  | case4 r ih => rw [quotedLength, if_pos rfl, if_pos rfl, ih, map_lengthThrough_cons]; rfl
  | case5 d r hd => rw [quotedLength, if_pos rfl, if_neg hd]; rfl
  | case6 c d r hc escape => simp at escape
  | case7 c d r hc escape ih => rw [quotedLength, if_neg hc, ih, map_lengthThrough_cons]; rfl

theorem exists_of_stringLength {r : List Char} {n : Nat} (h : stringLength 0 r = some n) :
    ∃ us, unitsTo '\'' true r = some us ∧ n = lengthThrough 0 us := by
  rw [stringLength_eq] at h
  obtain ⟨us, units, rfl⟩ := Option.map_eq_some_iff.1 h
  exact ⟨us, units, rfl⟩

theorem exists_of_quotedLength {q : Char} {r : List Char} {n : Nat}
    (h : quotedLength q 0 r = some n) :
    ∃ us, unitsTo q false r = some us ∧ n = lengthThrough 0 us := by
  rw [quotedLength_eq] at h
  obtain ⟨us, units, rfl⟩ := Option.map_eq_some_iff.1 h
  exact ⟨us, units, rfl⟩

end Lexeme

/-! ## The text of units -/

namespace Quoted

open QuotedUnit

theorem unescapeOnto_written (out : List Char) {us : List QuotedUnit}
    (fits : ∀ u ∈ us, u.Fits '\'' true) :
    unescapeOnto out (us.flatMap written) = out.reverse ++ us.map value := by
  induction us generalizing out with
  | nil => simp [unescapeOnto]
  | cons u us ih =>
    obtain ⟨here, below⟩ := List.forall_mem_cons.1 fits
    rw [List.flatMap_cons]
    cases u with
    | plain c =>
      obtain ⟨quote, backslash⟩ := here
      rw [written, List.singleton_append, unescapeOnto, ih _ below]
      · simp [value]
      · exact quote
      · exact fun _ _ h _ => backslash rfl h
    | doubled q =>
      obtain rfl : q = '\'' := here
      simp [written, value, unescapeOnto, ih _ below]
    | escaped c => simp [written, value, unescapeOnto, ih _ below]

/-- The text of a string literal is that of its units. -/
theorem unescape_written {us : List QuotedUnit} (fits : ∀ u ∈ us, u.Fits '\'' true) :
    unescape (us.flatMap written) = us.map value :=
  unescapeOnto_written [] fits

theorem undoubleOnto_cons {q c : Char} (hc : c ≠ q) (out cs : List Char) :
    undoubleOnto q out (c :: cs) = undoubleOnto q (c :: out) cs := by
  cases cs with
  | nil => rfl
  | cons d cs => simp [undoubleOnto, hc]

theorem undoubleOnto_written {q : Char} (out : List Char) {us : List QuotedUnit}
    (fits : ∀ u ∈ us, u.Fits q false) :
    undoubleOnto q out (us.flatMap written) = out.reverse ++ us.map value := by
  induction us generalizing out with
  | nil => simp [undoubleOnto]
  | cons u us ih =>
    obtain ⟨here, below⟩ := List.forall_mem_cons.1 fits
    rw [List.flatMap_cons]
    cases u with
    | plain c =>
      rw [written, List.singleton_append, undoubleOnto_cons here.1, ih _ below]
      simp [value]
    | doubled q' =>
      obtain rfl : q' = q := here
      simp [written, value, undoubleOnto, ih _ below]
    | escaped c => cases here

/-- The text of a quoted identifier is that of its units. -/
theorem undouble_written {q : Char} {us : List QuotedUnit} (fits : ∀ u ∈ us, u.Fits q false) :
    undouble q (us.flatMap written) = us.map value :=
  undoubleOnto_written [] fits

end Quoted

/-! ## Quoted tokens -/

/-- The quote that opens and closes tokens of a kind. -/
def TokenKind.quote? : TokenKind → Option Char
  | .string => some '\''
  | .identifier style => style.quote?
  | _ => none

theorem TokenKind.quote_ne_backslash {kind : TokenKind} {q : Char} (h : kind.quote? = some q) :
    q ≠ '\\' := by
  cases kind with
  | string =>
    cases h
    decide
  | identifier style => cases style <;> cases h <;> decide
  | _ => cases h

namespace Lexeme

theorem quote?_of_scanSymbol {c : Char} {r : List Char} {kind : TokenKind} {n : Nat}
    (h : scanSymbol c r = some (kind, n)) : kind.quote? = none := by
  unfold scanSymbol at h
  split at h <;> simp only [Option.some.injEq, Prod.mk.injEq, reduceCtorEq] at h
  all_goals
    obtain ⟨rfl, -⟩ := h
    rfl

/-- A quoted token is its quote, its units and its quote. -/
theorem unitsTo_of_scan {c q : Char} {r : List Char} {kind : TokenKind} {n : Nat}
    (h : scan c r = .ok (kind, n)) (quote : kind.quote? = some q) :
    c = q ∧ ∃ us, unitsTo q (kind == .string) r = some us ∧ n = lengthThrough 0 us := by
  unfold scan at h
  split at h
  · rename_i hc
    split at h
    · rename_i found
      cases h
      cases quote
      exact ⟨hc, exists_of_stringLength found⟩
    · cases h
  split at h
  · rename_i hc
    split at h
    · rename_i found
      cases h
      cases quote
      exact ⟨hc, exists_of_quotedLength (hc ▸ found)⟩
    · cases h
  split at h
  · rename_i hc
    split at h
    · rename_i found
      cases h
      cases quote
      exact ⟨hc, exists_of_quotedLength (hc ▸ found)⟩
    · cases h
  split at h
  · obtain ⟨rfl, -, -⟩ := scanNumber_eq_ok h
    cases quote
  split at h
  · simp only [scanWord] at h
    split at h <;>
    · cases h
      cases quote
  · split at h
    · rename_i found
      cases h
      rw [quote?_of_scanSymbol found] at quote
      cases quote
    · cases h

end Lexeme

/-- What a quoted token stands for is what its units stand for. -/
theorem Token.value_of_units {t : Token} {q : Char} {us : List QuotedUnit}
    (quote : t.kind.quote? = some q) (fits : ∀ u ∈ us, u.Fits q (t.kind == .string))
    (body : t.body = us.flatMap QuotedUnit.written) :
    t.value = String.ofList (us.map QuotedUnit.value) := by
  unfold value
  cases hkind : t.kind with
  | string =>
    rw [hkind] at quote fits
    cases quote
    simp only
    rw [body, Quoted.unescape_written fits]
  | identifier style =>
    rw [hkind] at quote fits
    have style : style.quote? = some q := quote
    simp only [style]
    rw [body, Quoted.undouble_written fits]
  | _ =>
    rw [hkind] at quote
    cases quote

/-- A quoted token of a text goes through units from its opening quote to its closing
quote, and in no other way. The reader counts their characters at this place, the text of
the token is what they are written as, and its value is what they stand for. -/
theorem Token.exists_units {sql : String} {t : Token} {q : Char}
    (h : t ∈ (TokenStream.ofString sql).tokens) (quote : t.kind.quote? = some q) :
    ∃ before behind us, sql.toList = before ++ (t.text.toList ++ behind) ∧
      t.position = .behind before ∧
      Lexeme.scan q (t.text.toList.tail ++ behind) =
        .ok (t.kind, (us.flatMap QuotedUnit.written).length + 1) ∧
      (∀ u ∈ us, u.Fits q (t.kind == .string)) ∧
      t.text.toList = q :: (us.flatMap QuotedUnit.written ++ [q]) ∧
      (∀ us' : List QuotedUnit, (∀ u ∈ us', u.Fits q (t.kind == .string)) →
        t.text.toList = q :: (us'.flatMap QuotedUnit.written ++ [q]) → us' = us) ∧
      t.value = String.ofList (us.map QuotedUnit.value) := by
  have inner : t.isEnd = false := by
    by_contra isEnd
    rw [Bool.not_eq_false, Token.isEnd, beq_iff_eq] at isEnd
    rw [isEnd] at quote
    cases quote
  obtain ⟨before, behind, shape, place, c, r, text, -, scanned⟩ :=
    TokenStream.exists_readsAs h inner
  obtain ⟨rfl, us, units, length⟩ := Lexeme.unitsTo_of_scan scanned quote
  obtain ⟨fits, rest, split, -⟩ := Lexeme.exists_of_unitsTo units
  -- The units and the token both start what is left of the text, and are equally long.
  obtain rfl : r = us.flatMap QuotedUnit.written ++ [c] := by
    have start : us.flatMap QuotedUnit.written ++ [c] <+: r ++ behind := by
      rw [split]
      exact ⟨rest, by simp⟩
    have same : (us.flatMap QuotedUnit.written ++ [c]).length = r.length := by
      rw [length, Lexeme.lengthThrough, List.length_append, List.length_singleton]
      omega
    exact ((List.prefix_of_prefix_length_le start (List.prefix_append r behind)
      (Nat.le_of_eq same)).eq_of_length same).symm
  refine ⟨before, behind, us, shape, place, ?_, fits, text, fun us' fits' text' => ?_, ?_⟩
  · rw [List.length_append, List.length_singleton] at scanned
    rwa [text]
  · exact Lexeme.eq_of_written (fun _ => TokenKind.quote_ne_backslash quote) fits' fits
      (List.cons.inj (text'.symm.trans text)).2
  · refine Token.value_of_units quote fits ?_
    rw [Token.body, text, List.drop_one, List.tail_cons, List.dropLast_concat]

end SqlSyntax
