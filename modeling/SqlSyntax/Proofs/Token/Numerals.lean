import SqlSyntax.Proofs.Token.Restart

/-!
# The grammar of numbers

A number is read greedily: all digits, then a point and all digits behind it, then an
exponent if there is a whole one. That gives the longest number of one grammar, said
here without the reader: each of the runs that the reader takes can only be cut short
by taking less of the text, so no other number at the place is longer.

## Main results

* `IsNumeral.numberLength_eq` — a number of the grammar is taken as a whole.
* `isLongest_take` — what is taken is the longest number of the grammar.
* `isNumber_iff` — the texts that are one number token are those of the grammar.
* `TokenStream.ofString_numeral` — what is read wherever a number starts.
-/

namespace SqlSyntax

/-! ## The grammar -/

/-- One digit or more. -/
structure IsDigits (ds : List Char) : Prop where
  nonempty : ds ≠ []
  digits : ∀ c ∈ ds, c.isDigit

/-- Digits, with or without a point and more digits, or a point and digits. -/
inductive IsMantissa : List Char → Prop where
  | whole {ds : List Char} (digits : IsDigits ds) : IsMantissa ds
  | decimal {ds fs : List Char} (digits : IsDigits ds) (fraction : ∀ c ∈ fs, c.isDigit) :
      IsMantissa (ds ++ '.' :: fs)
  | fraction {fs : List Char} (digits : IsDigits fs) : IsMantissa ('.' :: fs)

/-- A letter, a sign or none, and digits. -/
inductive IsExponent : List Char → Prop where
  | intro {letter : Char} {sign ds : List Char} (isLetter : letter = 'e' ∨ letter = 'E')
      (isSign : sign ∈ [[], ['+'], ['-']]) (digits : IsDigits ds) :
      IsExponent (letter :: (sign ++ ds))

inductive IsNumeral : List Char → Prop where
  | plain {m : List Char} (mantissa : IsMantissa m) : IsNumeral m
  | scaled {m x : List Char} (mantissa : IsMantissa m) (exponent : IsExponent x) :
      IsNumeral (m ++ x)

/-- A digit, or a point in front of a digit. -/
inductive StartsNumeral : List Char → Prop where
  | digit {c : Char} {r : List Char} (isDigit : c.isDigit) : StartsNumeral (c :: r)
  | point {d : Char} {r : List Char} (isDigit : d.isDigit) : StartsNumeral ('.' :: d :: r)

/-- Whether `p` is the longest of the texts in `P` that `cs` starts with. -/
structure IsLongest (P : List Char → Prop) (p cs : List Char) : Prop where
  initial : p <+: cs
  holds : P p
  longest : ∀ q, q <+: cs → P q → q.length ≤ p.length

theorem IsLongest.unique {P : List Char → Prop} {p q cs : List Char} (h : IsLongest P p cs)
    (h' : IsLongest P q cs) : p = q := by
  have le := h'.longest p h.initial h.holds
  have ge := h.longest q h'.initial h'.holds
  exact (List.prefix_of_prefix_length_le h.initial h'.initial le).eq_of_length (by omega)

theorem isLongest_takeWhile (p : Char → Bool) (cs : List Char) :
    IsLongest (fun run => ∀ c ∈ run, p c) (cs.takeWhile p) cs where
  initial := List.takeWhile_prefix p
  holds _ hc := List.mem_takeWhile_imp hc
  longest q hq all := by
    obtain ⟨rest, rfl⟩ := hq
    rw [List.takeWhile_append_of_pos all, List.length_append]
    omega

namespace Lexeme

/-! ## The reader in a text that is cut -/

theorem fractionLength_take_eq (n : Nat) (cs : List Char) :
    fractionLength (cs.take n) = min n (fractionLength cs) := by
  by_cases whole : fractionLength cs ≤ n
  · rw [fractionLength_take whole, Nat.min_eq_right whole]
  rcases cs with _ | ⟨c, r⟩
  · exact absurd (Nat.zero_le n) whole
  by_cases hc : c = '.'
  · subst hc
    cases n with
    | zero => rw [Nat.zero_min]; rfl
    | succ n =>
      simp only [List.take_succ_cons, fractionLength, digitsLength_take]
      omega
  · exact absurd (by simp [fractionLength, hc]) whole

theorem exponentLength_take_le (n : Nat) (cs : List Char) :
    exponentLength (cs.take n) ≤ exponentLength cs := by
  by_cases whole : exponentLength cs ≤ n
  · rw [exponentLength_take whole]
  · have short := exponentLength_le (cs.take n)
    rw [List.length_take] at short
    omega

/-- With less of the text the reader never takes more. -/
theorem numberLength_take_le (n : Nat) (cs : List Char) :
    numberLength (cs.take n) ≤ numberLength cs := by
  have short := numberLength_le (cs.take n)
  rw [List.length_take] at short
  have exponent := exponentLength_take_le
    (n - (digitsLength cs + fractionLength (cs.drop (digitsLength cs))))
    (cs.drop (digitsLength cs + fractionLength (cs.drop (digitsLength cs))))
  -- A cut behind the mantissa leaves it as it is, and one in front of its end is short.
  by_cases mantissa : digitsLength cs + fractionLength (cs.drop (digitsLength cs)) ≤ n
  · have digits : digitsLength (cs.take n) = digitsLength cs := by
      rw [digitsLength_take]
      omega
    have fraction : fractionLength ((cs.take n).drop (digitsLength cs)) =
        fractionLength (cs.drop (digitsLength cs)) := by
      rw [List.drop_take, fractionLength_take_eq]
      omega
    simp only [numberLength, digits, fraction]
    rw [List.drop_take]
    omega
  · have least : digitsLength cs + fractionLength (cs.drop (digitsLength cs)) ≤ numberLength cs :=
      Nat.le_add_right ..
    omega

end Lexeme

/-! ## A number of the grammar is taken as a whole -/

open Lexeme

theorem digitsLength_append_of_digits {ds rest : List Char} (digits : ∀ c ∈ ds, c.isDigit)
    (hrest : ∀ d ∈ rest.head?, d.isDigit = false) : digitsLength (ds ++ rest) = ds.length := by
  rw [digitsLength, takeWhile_append_of_not_head hrest, List.takeWhile_eq_self_iff.2 digits]

theorem fractionLength_of_ne {cs : List Char} (h : ∀ d ∈ cs.head?, d ≠ '.') :
    fractionLength cs = 0 := by
  cases cs with
  | nil => rfl
  | cons c r => simp [fractionLength, h c rfl]

/-- Behind a mantissa the reader looks for an exponent. -/
theorem IsMantissa.numberLength_append {m rest : List Char} (h : IsMantissa m)
    (hrest : ∀ d ∈ rest.head?, d.isDigit = false ∧ d ≠ '.') :
    numberLength (m ++ rest) = m.length + exponentLength rest := by
  have noDigit : ∀ d ∈ rest.head?, d.isDigit = false := fun d hd => (hrest d hd).1
  have noPoint : ∀ d ∈ rest.head?, d ≠ '.' := fun d hd => (hrest d hd).2
  have point (cs : List Char) : ∀ d ∈ ('.' :: cs).head?, d.isDigit = false := by
    rintro _ ⟨⟩
    rfl
  cases h with
  | whole digits =>
    simp only [numberLength]
    rw [digitsLength_append_of_digits digits.digits noDigit, List.drop_left,
      fractionLength_of_ne noPoint, Nat.add_zero, List.drop_left]
  | @decimal ds fs digits fraction =>
    have behind : fractionLength ('.' :: (fs ++ rest)) = 1 + fs.length := by
      rw [fractionLength, digitsLength_append_of_digits fraction noDigit]
    have length : (ds ++ '.' :: fs).length = ds.length + (1 + fs.length) := by
      simp only [List.length_append, List.length_cons]
      omega
    simp only [numberLength]
    rw [List.append_assoc, List.cons_append,
      digitsLength_append_of_digits digits.digits (point _), List.drop_left, behind, ← length,
      ← List.cons_append, ← List.append_assoc, List.drop_left]
  | @fraction fs digits =>
    have before : digitsLength ('.' :: (fs ++ rest)) = 0 := rfl
    have behind : fractionLength ('.' :: (fs ++ rest)) = 1 + fs.length := by
      rw [fractionLength, digitsLength_append_of_digits digits.digits noDigit]
    have length : ('.' :: fs).length = 0 + (1 + fs.length) := by
      simp only [List.length_cons]
      omega
    simp only [numberLength]
    rw [List.cons_append, before, List.drop_zero, behind, ← length, ← List.cons_append,
      List.drop_left]

theorem IsExponent.exponentLength_eq {x : List Char} (h : IsExponent x) :
    exponentLength x = x.length := by
  obtain @⟨letter, sign, ds, isLetter, isSign, digits⟩ := h
  have run : digitsLength ds = ds.length := by
    rw [digitsLength, List.takeWhile_eq_self_iff.2 digits.digits]
  have length : signLength (sign ++ ds) = sign.length := by
    simp only [List.mem_cons, List.not_mem_nil, or_false] at isSign
    rcases isSign with rfl | rfl | rfl
    · cases ds with
      | nil => rfl
      | cons d ds =>
        have digit := digits.digits d (List.mem_cons_self ..)
        unfold signLength
        split <;> simp_all
    · rfl
    · rfl
  have some : ds.length ≠ 0 := fun h => digits.nonempty (List.eq_nil_of_length_eq_zero h)
  rw [exponentLength_cons isLetter, length, List.drop_left, run, if_neg some, List.length_cons,
    List.length_append]
  omega

/-- A number of the grammar is taken as a whole. -/
theorem IsNumeral.numberLength_eq {p : List Char} (h : IsNumeral p) :
    numberLength p = p.length := by
  cases h with
  | plain mantissa =>
    have none : ∀ d ∈ ([] : List Char).head?, d.isDigit = false ∧ d ≠ '.' := nofun
    simpa [exponentLength] using mantissa.numberLength_append none
  | @scaled m x mantissa exponent =>
    have whole := exponent.exponentLength_eq
    obtain @⟨letter, sign, ds, isLetter, -, -⟩ := exponent
    have head : ∀ d ∈ (letter :: (sign ++ ds)).head?, d.isDigit = false ∧ d ≠ '.' := by
      rintro _ ⟨⟩
      rcases isLetter with rfl | rfl <;> decide
    rw [mantissa.numberLength_append head, whole, List.length_append]

/-! ## What is taken is a number of the grammar -/

theorem isDigit_of_mem_take {cs : List Char} : ∀ c ∈ cs.take (digitsLength cs), c.isDigit := by
  have taken := List.prefix_iff_eq_take.1 (List.takeWhile_prefix (l := cs) Char.isDigit)
  rw [digitsLength, ← taken]
  exact fun c hc => List.mem_takeWhile_imp hc

theorem startsNumber_iff {c : Char} {r : List Char} :
    startsNumber c r ↔ StartsNumeral (c :: r) := by
  simp only [startsNumber, Bool.or_eq_true, Bool.and_eq_true, beq_iff_eq]
  constructor
  · rintro (digit | ⟨rfl, head⟩)
    · exact .digit digit
    · cases r with
      | nil => simp at head
      | cons d r => exact .point (by simpa using head)
  · rintro (digit | digit)
    · exact .inl digit
    · exact .inr ⟨rfl, by simpa using digit⟩

theorem isDigits_take {c : Char} (h : c.isDigit) (r : List Char) :
    IsDigits ((c :: r).take (digitsLength (c :: r))) where
  nonempty := by simp [digitsLength, h]
  digits := isDigit_of_mem_take

theorem take_fractionLength (cs : List Char) :
    cs.take (fractionLength cs) = [] ∨
      ∃ fs, (∀ c ∈ fs, c.isDigit) ∧ cs.take (fractionLength cs) = '.' :: fs := by
  unfold fractionLength
  split
  · rename_i r
    refine .inr ⟨r.take (digitsLength r), isDigit_of_mem_take, ?_⟩
    rw [Nat.add_comm, List.take_succ_cons]
  · exact .inl (List.take_zero ..)

theorem take_exponentLength (cs : List Char) :
    cs.take (exponentLength cs) = [] ∨ IsExponent (cs.take (exponentLength cs)) := by
  rcases cs with _ | ⟨letter, r⟩
  · exact .inl rfl
  by_cases isLetter : letter = 'e' ∨ letter = 'E'
  · rw [exponentLength_cons isLetter]
    split
    · exact .inl (List.take_zero ..)
    · rename_i some
      have isSign : r.take (signLength r) ∈ [[], ['+'], ['-']] := by
        unfold signLength
        split <;> simp
      rw [Nat.add_assoc, Nat.add_comm, List.take_succ_cons, List.take_add]
      refine .inr (.intro isLetter isSign ⟨fun none => ?_, isDigit_of_mem_take⟩)
      have length := congrArg List.length none
      rw [List.length_take, Nat.min_eq_left (digitsLength_le _)] at length
      exact some length
  · rw [exponentLength_of_ne isLetter]
    exact .inl (List.take_zero ..)

theorem isMantissa_take {cs : List Char} (h : StartsNumeral cs) :
    IsMantissa (cs.take (digitsLength cs + fractionLength (cs.drop (digitsLength cs)))) := by
  cases h with
  | @digit c r isDigit =>
    have digits := isDigits_take isDigit r
    rw [List.take_add]
    rcases take_fractionLength ((c :: r).drop (digitsLength (c :: r))) with
      none | ⟨fs, fraction, some⟩
    · rw [none, List.append_nil]
      exact .whole digits
    · rw [some]
      exact .decimal digits fraction
  | @point d r isDigit =>
    have before : digitsLength ('.' :: d :: r) = 0 := rfl
    rw [before, List.drop_zero, Nat.zero_add, fractionLength, Nat.add_comm, List.take_succ_cons]
    exact .fraction (isDigits_take isDigit r)

/-- Where a number starts, what the reader takes is the longest number. -/
theorem isLongest_take {cs : List Char} (h : StartsNumeral cs) :
    IsLongest IsNumeral (cs.take (numberLength cs)) cs where
  initial := List.take_prefix ..
  holds := by
    have mantissa := isMantissa_take h
    rw [numberLength, List.take_add]
    rcases take_exponentLength
      (cs.drop (digitsLength cs + fractionLength (cs.drop (digitsLength cs)))) with none | exponent
    · rw [none, List.append_nil]
      exact .plain mantissa
    · exact .scaled mantissa exponent
  longest q hq numeral := by
    have more := numberLength_take_le q.length cs
    rw [← List.prefix_iff_eq_take.1 hq, numeral.numberLength_eq] at more
    rwa [List.length_take, Nat.min_eq_left (numberLength_le cs)]

/-! ## Number tokens -/

theorem IsDigits.starts {ds : List Char} (h : IsDigits ds) (rest : List Char) :
    StartsNumeral (ds ++ rest) := by
  obtain ⟨nonempty, digits⟩ := h
  cases ds with
  | nil => exact absurd rfl nonempty
  | cons d ds => exact .digit (digits d (List.mem_cons_self ..))

theorem IsMantissa.starts {m : List Char} (h : IsMantissa m) (rest : List Char) :
    StartsNumeral (m ++ rest) := by
  cases h with
  | whole digits => exact digits.starts rest
  | decimal digits =>
    rw [List.append_assoc]
    exact digits.starts _
  | @fraction fs digits =>
    obtain ⟨nonempty, digits⟩ := digits
    cases fs with
    | nil => exact absurd rfl nonempty
    | cons d fs => exact .point (digits d (List.mem_cons_self ..))

theorem IsNumeral.starts {p : List Char} (h : IsNumeral p) : StartsNumeral p := by
  cases h with
  | plain mantissa => simpa using mantissa.starts []
  | scaled mantissa => exact mantissa.starts _

/-- The texts that are one number token. -/
theorem isNumber_iff {text : String} : IsNumber text ↔ IsNumeral text.toList := by
  unfold IsNumber
  split
  · rename_i shape
    rw [shape]
    refine ⟨False.elim, fun h => ?_⟩
    cases h.starts
  · rename_i c r shape
    rw [shape]
    constructor
    · intro scanned
      have starts := startsNumber_of_scan scanned
      rw [scan_of_startsNumber starts] at scanned
      obtain ⟨-, length, -⟩ := scanNumber_eq_ok scanned
      have pos := (numberLength_of_startsNumber starts).1
      have whole := (isLongest_take (startsNumber_iff.1 starts)).holds
      rwa [List.take_of_length_le (by rw [List.length_cons]; omega)] at whole
    · intro numeral
      have whole := numeral.numberLength_eq
      rw [scan_of_startsNumber (startsNumber_iff.2 numeral.starts), scanNumber, whole,
        List.drop_length]
      rfl

namespace Lexeme

theorem scanNumber_of_ends {c : Char} {r : List Char}
    (ends : ∀ d ∈ ((c :: r).drop (numberLength (c :: r))).head?, isWordChar d = false) :
    scanNumber c r = .ok (.number, numberLength (c :: r) - 1) := by
  have run : ((c :: r).drop (numberLength (c :: r))).takeWhile isWordChar = [] := by
    cases shape : (c :: r).drop (numberLength (c :: r)) with
    | nil => rfl
    | cons d ds => simp [ends d (by rw [shape]; rfl)]
  simp only [scanNumber, run]
  rfl

theorem scanNumber_of_goesOn {c : Char} {r : List Char}
    (goesOn : ∃ d ∈ ((c :: r).drop (numberLength (c :: r))).head?, isWordChar d) :
    scanNumber c r = .error (.invalidNumber (String.ofList ((c :: r).take (numberLength (c :: r)) ++
      ((c :: r).drop (numberLength (c :: r))).takeWhile isWordChar))) := by
  obtain ⟨d, hd, word⟩ := goesOn
  obtain ⟨ds, shape⟩ := List.head?_eq_some_iff.1 hd
  have taken := List.prefix_iff_eq_take.1 (List.takeWhile_prefix
    (l := (c :: r).drop (numberLength (c :: r))) isWordChar)
  have run : (((c :: r).drop (numberLength (c :: r))).takeWhile isWordChar).length ≠ 0 := by
    simp [shape, word]
  simp only [scanNumber]
  rw [if_neg run, List.take_add, ← taken]

end Lexeme

namespace TokenStream

/-! ## Where a number starts -/

/-- Whether a stream goes through its first `i` tokens to the end of `front`, and on from
there. -/
inductive Arrives (s : TokenStream) : Nat → List Char → Prop where
  | start : Arrives s 0 []
  | behind {i : Nat} {t : Token} {front : List Char} (token : s.tokens[i]? = some t)
      (inner : t.isEnd = false) (stop : t.span.stop = byteLength front) : Arrives s (i + 1) front

theorem append_inj_of_byteLength {front front' rest rest' : List Char}
    (h : front ++ rest = front' ++ rest') (bytes : byteLength front = byteLength front') :
    front = front' ∧ rest = rest' := by
  obtain rfl : rest = rest' := by
    rw [← dropBytes_append front rest, h, bytes, dropBytes_append]
  exact ⟨List.append_cancel_right h, rfl⟩

/-- The items from where a stream arrives are those of the text from there on. -/
theorem drop_items_of_arrives {sql : String} {i : Nat} {front rest : List Char}
    (h : (ofString sql).Arrives i front) (text : sql.toList = front ++ rest) :
    (ofString sql).items.drop i = (readFrom (.behind front) rest).items := by
  cases h with
  | start =>
    rw [List.drop_zero, ofString, text]
    rfl
  | @behind i t _ token inner stop =>
    have inside := (List.getElem?_eq_some_iff.1 token).1
    have before : (ofString sql).tokens.take (i + 1) = (ofString sql).tokens.take i ++ [t] := by
      rw [List.take_add_one, token]
      rfl
    have inner' : ∀ u ∈ (ofString sql).tokens.take (i + 1), u.isEnd = false := by
      rw [before]
      intro u hu
      rcases List.mem_append.1 hu with hu | hu
      · exact isEnd_of_mem_take token u hu
      · rwa [List.mem_singleton.1 hu]
    obtain ⟨front', rest', shape, last, -, behind⟩ := ofString_split inner'
    have bytes : byteLength front = byteLength front' := by
      rw [← stop]
      exact last t (by rw [before, List.getLast?_concat])
    obtain ⟨rfl, rfl⟩ := append_inj_of_byteLength (text.symm.trans shape) bytes
    rw [drop_items inside, behind]

theorem skipGaps_of_startsNumeral {c : Char} {r : List Char} (h : StartsNumeral (c :: r))
    (p : Position) : skipGaps p (c :: r) = .ok (p, c :: r) := by
  rw [skipGaps, Lexeme.gapLength_of_startsNumber (startsNumber_iff.2 h)]

theorem item_of_scanNumber_eq_ok {c : Char} {r : List Char} {kind : TokenKind} {n : Nat}
    (h : StartsNumeral (c :: r)) (scanned : Lexeme.scanNumber c r = .ok (kind, n)) (p : Position) :
    item p (c :: r) =
      .token (tokenAt p kind (c :: r.take n)) (p.advanceAll (c :: r.take n)) (r.drop n) := by
  rw [item, skipGaps_of_startsNumeral h]
  simp only [Lexeme.scan_of_startsNumber (startsNumber_iff.2 h), scanned]

theorem item_of_scanNumber_eq_error {c : Char} {r : List Char} {fault : LexFault}
    (h : StartsNumeral (c :: r)) (scanned : Lexeme.scanNumber c r = .error fault) (p : Position) :
    item p (c :: r) = .failed ⟨fault, p⟩ := by
  rw [item, skipGaps_of_startsNumeral h]
  simp only [Lexeme.scan_of_startsNumber (startsNumber_iff.2 h), scanned]

/-- Wherever a number starts, behind any number of tokens and a gap, the next item is the
longest number there, if no word goes on behind it; and otherwise it is an error for the
number and the rest of the word. -/
theorem ofString_numeral {sql : String} {front gap rest : List Char} {i : Nat}
    (text : sql.toList = front ++ (gap ++ rest)) (arrives : (ofString sql).Arrives i front)
    (isGap : IsGap gap) (starts : StartsNumeral rest) :
    ∃ number behind, rest = number ++ behind ∧ IsLongest IsNumeral number rest ∧
      ((∀ d ∈ behind.head?, isWordChar d = false) →
        ∃ t, (ofString sql).items[i]? = some (.ok t) ∧ t.kind = .number ∧
          t.StandsBehind (front ++ gap) number) ∧
      ((∃ d ∈ behind.head?, isWordChar d) →
        ∃ run, IsLongest (fun run => ∀ d ∈ run, isWordChar d) run behind ∧
          (ofString sql).items[i]? = some (.error
            ⟨.invalidNumber (String.ofList (number ++ run)), .behind (front ++ gap)⟩)) := by
  have here : (ofString sql).items[i]? = (readFrom (.behind (front ++ gap)) rest).items.head? := by
    rw [← List.head?_drop, drop_items_of_arrives arrives text, readFrom_gap_append isGap,
      Position.advanceAll_behind]
  obtain ⟨c, r, rfl⟩ : ∃ c r, rest = c :: r := by
    cases starts <;> exact ⟨_, _, rfl⟩
  have pos := (Lexeme.numberLength_of_startsNumber (startsNumber_iff.2 starts)).1
  -- The reader counts the characters behind the first one.
  obtain ⟨n, hn⟩ : ∃ n, numberLength (c :: r) = n + 1 := ⟨numberLength (c :: r) - 1, by omega⟩
  refine ⟨(c :: r).take (n + 1), (c :: r).drop (n + 1), (List.take_append_drop ..).symm,
    hn ▸ isLongest_take starts, fun ends => ?_, fun goesOn => ?_⟩
  · have scanned : Lexeme.scanNumber c r = .ok (.number, n) := by
      rw [Lexeme.scanNumber_of_ends (hn ▸ ends), hn]
      rfl
    refine ⟨tokenAt (.behind (front ++ gap)) .number (c :: r.take n), ?_, rfl,
      standsBehind_tokenAt ..⟩
    rw [here, readFrom_eq, item_of_scanNumber_eq_ok starts scanned]
    rfl
  · refine ⟨_, isLongest_takeWhile isWordChar _, ?_⟩
    have scanned := Lexeme.scanNumber_of_goesOn (hn ▸ goesOn)
    rw [here, readFrom_eq, item_of_scanNumber_eq_error starts scanned, hn]
    rfl

/-- A number that ends in a point, a comment, and a number that goes on with the letter of
an exponent but no digit. -/
theorem unfinished_exponent : (ofString "a 1./**/.5e+").items[2]? =
    some (.error ⟨.invalidNumber ".5e", ⟨1, 9, 8⟩⟩) := by
  have tokens : (ofString "a 1./**/.5e+").tokens[1]? =
      some ⟨.number, "1.", ⟨2, 4⟩, ⟨1, 3, 2⟩⟩ := by decide +kernel
  have comment : IsGap "/**/".toList := @IsGap.blockComment [] [] (by decide) .nil
  have starts : StartsNumeral ['.', '5', 'e', '+'] := .point rfl
  have arrives : (ofString "a 1./**/.5e+").Arrives 2 "a 1.".toList := .behind tokens rfl rfl
  have text : "a 1./**/.5e+".toList = "a 1.".toList ++ ("/**/".toList ++ ['.', '5', 'e', '+']) :=
    rfl
  obtain ⟨number, behind, split, longest, -, goesOn⟩ :=
    ofString_numeral text arrives comment starts
  obtain rfl : number = ['.', '5'] := longest.unique (isLongest_take starts)
  obtain rfl : ['e', '+'] = behind :=
    List.append_cancel_left (show ['.', '5'] ++ ['e', '+'] = ['.', '5'] ++ behind from split)
  obtain ⟨run, word, item⟩ := goesOn ⟨'e', rfl, by decide +kernel⟩
  have longestRun := isLongest_takeWhile isWordChar ['e', '+']
  rw [show ['e', '+'].takeWhile isWordChar = ['e'] by decide +kernel] at longestRun
  obtain rfl : run = ['e'] := word.unique longestRun
  exact item

end TokenStream

end SqlSyntax
