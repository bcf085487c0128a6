import SqlSyntax.Proofs.Canonical.Tidy
import SqlSyntax.Proofs.Interchange.Alike

/-!
# Names and types by their texts

A document writes the names of functions and the types of columns as canonical
SQL. Such a text says all that there is to say: it is read back as tokens that
spell it, and what these tokens hold is what was written.

## Main results

* `content_eq_of_render_eq` — pieces that can be read back and have the same
  text hold the same words and numbers.
* `QualifiedName.values_eq_of_canonical_eq` — a name is given by its canonical form.
* `DataType.document_inj` — a type is given by its document.
-/

namespace SqlSyntax

/-! ## What pieces hold -/

/-- The text of an identifier, a word or a number. -/
def Piece.content? : Piece → Option String
  | .identifier text | .word text | .number text => some text
  | _ => none

/-- The value of an identifier or a number. -/
def Token.content? (t : Token) : Option String :=
  match t.kind with
  | .identifier _ | .number => some t.value
  | _ => none

theorem Piece.Writes.content? {p : Piece} {t : Token} (h : p.Writes t) :
    t.content? = p.content? := by
  cases p with
  | space => exact h.elim
  | word text =>
    obtain ⟨kind, rfl⟩ := h
    simp [Token.content?, Piece.content?, Token.value, QuoteStyle.quote?, kind]
  | identifier value =>
    obtain ⟨⟨style, kind⟩, rfl⟩ := h
    simp [Token.content?, Piece.content?, kind]
  | number text =>
    obtain ⟨kind, rfl⟩ := h
    simp [Token.content?, Piece.content?, Token.value, kind]
  | string value => simp [Token.content?, Piece.content?, h.1]
  | keyword | operator | punctuation =>
    simp [Token.content?, Piece.content?, show t.kind = _ from h]

theorem Spelled.content? {ps : List Piece} {ts : List Token} (h : Spelled ps ts) :
    ts.filterMap Token.content? = ps.filterMap Piece.content? := by
  induction h with
  | nil => rfl
  | space _ ih => exact ih
  | token head _ ih => rw [List.filterMap_cons, List.filterMap_cons, head.content?, ih]

/-- Pieces that can be read back and have the same text hold the same words and
numbers. -/
theorem content_eq_of_render_eq {ps qs : List Piece} (h : Tidy ps) (h' : Tidy qs)
    (same : render ps = render qs) :
    ps.filterMap Piece.content? = qs.filterMap Piece.content? := by
  obtain ⟨ts, t, read, -, spelled⟩ := TokenStream.readFrom_render h.chain h.lexical .origin
  obtain ⟨us, u, read', -, spelled'⟩ := TokenStream.readFrom_render h'.chain h'.lexical .origin
  rw [same] at read
  obtain ⟨rfl, -⟩ := List.append_inj' (TokenStream.mk.inj (read.symm.trans read')).1 rfl
  rw [← spelled.content?, ← spelled'.content?]

/-! ## Names -/

theorem content_separated {separator : Piece} (none : separator.content? = none)
    (is : List Identifier) :
    (Piece.separated [separator] (is.map Identifier.pieces)).filterMap Piece.content? =
      is.map (·.value) := by
  induction is with
  | nil => rfl
  | cons i is ih =>
    cases is with
    | nil => rfl
    | cons j is =>
      have first : (Piece.identifier i.value).content? = some i.value := rfl
      simpa [Piece.separated, Identifier.pieces, first, none] using ih

theorem QualifiedName.content_pieces (n : QualifiedName) :
    n.pieces.filterMap Piece.content? = n.values :=
  content_separated rfl n.parts

/-- A name is given by its canonical form. -/
theorem QualifiedName.values_eq_of_canonical_eq {n n' : QualifiedName}
    (h : n.canonical = n'.canonical) : n.values = n'.values := by
  rw [← content_pieces, ← content_pieces]
  exact content_eq_of_render_eq n.named.tidy n'.named.tidy h

/-- The text of a qualifier, as a document. -/
theorem QualifiedName.qualifierDocument_eq (n : QualifiedName) :
    n.qualifierDocument = (n.qualifierText?.map Document.string).getD Document.null := by
  unfold qualifierDocument qualifierText?
  split <;> rfl

theorem QualifiedName.qualifierText?_eq {n n' : QualifiedName}
    (h : n.qualifierDocument = n'.qualifierDocument) : n.qualifierText? = n'.qualifierText? := by
  rw [qualifierDocument_eq, qualifierDocument_eq] at h
  cases text : n.qualifierText? <;> cases text' : n'.qualifierText? <;> simp_all

theorem isWordStart_of_toUpper {c : Char} (h : c.toUpper.isUpper) : isWordStart c := by
  have alpha : c.isUpper ∨ c.isLower := by
    unfold Char.toUpper at h
    split at h
    · rename_i lower
      exact .inr (Bool.and_eq_true_iff.2 ⟨decide_eq_true lower.1, decide_eq_true lower.2⟩)
    · exact .inl h
  have ascii : c.toNat < 0x80 := by
    rcases alpha with upper | lower
    · have last : c.val ≤ 'Z'.val := (of_decide_eq_true upper).2
      exact Nat.lt_of_le_of_lt (UInt32.le_iff_toNat_le.1 last) (by decide)
    · have last : c.val ≤ 'z'.val := of_decide_eq_true (Bool.and_eq_true_iff.1 lower).2
      exact Nat.lt_of_le_of_lt (UInt32.le_iff_toNat_le.1 last) (by decide)
  have letter : c.isAlpha := Bool.or_eq_true_iff.2 alpha
  simp [isWordStart, Unicode.isAlphabetic_of_lt ascii, letter]

/-- A word that is that of an aggregate in capitals is one of letters. -/
theorem isWord_of_capitals {text : String}
    (h : capitals text ∈ ["COUNT", "SUM", "AVG", "MIN", "MAX"]) : isWord text := by
  have toList : (capitals text).toList = text.toList.map Char.toUpper := String.toList_ofList
  have letters : ∀ c ∈ text.toList, isWordStart c := by
    intro c hc
    have key : ∀ t ∈ ["COUNT", "SUM", "AVG", "MIN", "MAX"], t.toList.all Char.isUpper := by decide
    have mem : c.toUpper ∈ (capitals text).toList := by
      rw [toList]
      exact List.mem_map_of_mem hc
    exact isWordStart_of_toUpper (List.all_eq_true.1 (key _ h) _ mem)
  unfold isWord
  cases shape : text.toList with
  | nil => simp [capitals, shape] at h
  | cons c r =>
    rw [shape] at letters
    simp only [Bool.and_eq_true, List.all_eq_true]
    exact ⟨letters c (List.mem_cons_self ..), fun d hd =>
      isWordChar_of_isWordStart (letters d (List.mem_cons_of_mem _ hd))⟩

/-- The name of an aggregate needs no quotes. -/
theorem QualifiedName.canonical_of_isAggregate {n : QualifiedName} (h : n.isAggregate) :
    n.canonical = n.base.value := by
  simp only [isAggregate, Bool.and_eq_true, List.isEmpty_iff, List.contains_iff_mem] at h
  obtain ⟨unqualified, known⟩ := h
  have keyword : Keyword.ofText? n.base.value = none := by
    have none : ∀ k ∈ Keyword.all, k.text ∉ ["COUNT", "SUM", "AVG", "MIN", "MAX"] := by
      decide +kernel
    by_contra some
    obtain ⟨k, hk⟩ := Option.ne_none_iff_exists'.1 some
    rw [Keyword.ofText?_eq_some_iff] at hk
    exact none k (Keyword.mem_all k) (hk ▸ known)
  have bare : needsQuotes n.base.value = false := by
    simp [needsQuotes, isWord_of_capitals known, keyword]
  simp [canonical, pieces, parts, unqualified, Identifier.pieces, Piece.separated, render,
    Piece.text, quoteIdentifier, bare]

/-! ## Types -/

/-- The word that names a type. -/
def DataType.name : DataType → String
  | .int => "INT"
  | .bigInt => "BIGINT"
  | .smallInt => "SMALLINT"
  | .float => "FLOAT"
  | .double => "DOUBLE"
  | .decimal | .decimalOf .. => "DECIMAL"
  | .char _ => "CHAR"
  | .varchar _ => "VARCHAR"
  | .text => "TEXT"
  | .boolean => "BOOLEAN"
  | .date => "DATE"
  | .time => "TIME"
  | .timestamp => "TIMESTAMP"

/-- The numbers behind the name of a type. -/
def DataType.lengths : DataType → List Nat
  | .decimalOf precision scale => precision :: scale.toList
  | .char length | .varchar length => length.toList
  | _ => []

theorem DataType.content_pieces (d : DataType) :
    d.pieces.filterMap Piece.content? = d.name :: d.lengths.map toString := by
  have sized (length : Option Nat) :
      (lengthPieces length).filterMap Piece.content? = length.toList.map toString := by
    cases length <;> rfl
  cases d with
  | char length | varchar length => exact congrArg (_ :: ·) (sized length)
  | decimalOf precision scale => cases scale <;> rfl
  | _ => rfl

theorem Digits.eq_of_toString_eq {m n : Nat} (h : toString m = toString n) : m = n := by
  have read := Digits.valueUpTo_toString (Nat.le_max_left m n)
  rw [h, Digits.valueUpTo_toString (Nat.le_max_right m n)] at read
  exact (Option.some.inj read).symm

/-- A type is given by its document. -/
theorem DataType.document_inj {d d' : DataType} (h : d.document = d'.document) : d = d' := by
  have same : render d.pieces = render d'.pieces := by simpa [document] using h
  have content := content_eq_of_render_eq d.tidy d'.tidy same
  rw [content_pieces, content_pieces] at content
  obtain ⟨name, lengths⟩ := List.cons.inj content
  replace lengths : d.lengths = d'.lengths :=
    (List.map_inj_right fun _ _ => Digits.eq_of_toString_eq).1 lengths
  have toList_inj {o o' : Option Nat} (h : o.toList = o'.toList) : o = o' := by
    cases o <;> cases o' <;> simp_all
  cases d <;> cases d' <;> simp_all [DataType.name, DataType.lengths] <;>
    exact toList_inj (by simp_all)

end SqlSyntax
