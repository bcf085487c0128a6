import SqlSyntax.Proofs.Canonical.Spelled
import SqlSyntax.Proofs.Grammar.Name
import SqlSyntax.Proofs.Token.Digits
import SqlSyntax.Proofs.Tree.Spans
import SqlSyntax.Proofs.Tree.WellFormed

/-!
# Reading canonical forms again

A printed tree has other spans than the tree that it was printed from, and
apart from them it should be the same. `Rereads` says so for one list of pieces:
whatever tokens are written for it have a reading, equal to the printed thing
up to what `g` forgets.

Each relation of the grammar has one lemma here, for the pieces that it is
printed as.
-/

namespace SqlSyntax

open Grammar

/-- Whether tokens that are written for `ps` can be read as `a`, as far as `g`
tells. -/
def Rereads {α β : Type} (R : List Token → α → Prop) (g : α → β) (ps : List Piece) (a : α) :
    Prop :=
  ∀ ⦃ts : List Token⦄, Spelled ps ts → ∃ a', R ts a' ∧ g a' = g a

namespace Rereads

variable {α β : Type} {R : List Token → α → Prop} {g : α → β}

theorem behind {ps : List Piece} {a : α} (k : Keyword) (h : Rereads R g ps a) :
    Rereads (Behind (.keyword k) R) g (.keyword k :: .space :: ps) a := by
  intro ts spelled
  obtain ⟨t, us, rfl, kind, spelled⟩ := Spelled.keyword_iff.1 spelled
  obtain ⟨a', reading, same⟩ := h (Spelled.space_iff.1 spelled)
  exact ⟨a', .intro kind reading, same⟩

theorem parenthesized {ps : List Piece} {a : α} (h : Rereads R g ps a) :
    Rereads (Parenthesized R) g (Piece.parenthesized ps) a := by
  intro ts spelled
  obtain ⟨o, us, c, rfl, opening, spelled, closing⟩ := Spelled.parenthesized_iff.1 spelled
  obtain ⟨a', reading, same⟩ := h spelled
  exact ⟨a', .intro opening reading closing, same⟩

theorem optional {f : α → List Piece} {o : Option α} (h : ∀ a ∈ o, Rereads R g (f a) a) :
    Rereads (Optional R) (Option.map g) (clausePieces f o) o := by
  intro ts spelled
  cases o with
  | none =>
    obtain rfl := Spelled.nil_iff.1 spelled
    exact ⟨none, .none, rfl⟩
  | some a =>
    obtain ⟨a', reading, same⟩ := h a rfl (Spelled.space_iff.1 spelled)
    exact ⟨some a', .some reading, congrArg some same⟩

/-! ### Lists -/

theorem many {f : α → List Piece} {as : List α} (h : ∀ a ∈ as, Rereads R g (f a) a) :
    Rereads (Many R) (List.map g) (as.flatMap fun a => .space :: f a) as := by
  induction as with
  | nil =>
    intro ts spelled
    obtain rfl := Spelled.nil_iff.1 spelled
    exact ⟨[], .nil, rfl⟩
  | cons a as ih =>
    intro ts spelled
    rw [List.flatMap_cons] at spelled
    obtain ⟨us, vs, rfl, first, others⟩ := Spelled.append_iff.1 spelled
    obtain ⟨a', head, same⟩ := h a (List.mem_cons_self ..) (Spelled.space_iff.1 first)
    obtain ⟨as', tail, sames⟩ := ih (fun a ha => h a (List.mem_cons_of_mem _ ha)) others
    exact ⟨a' :: as', .cons head tail, by rw [List.map_cons, List.map_cons, same, sames]⟩

/-- Parts with a separator that is one token of kind `k`. -/
theorem separated {k : TokenKind} {separator : List Piece}
    (one : ∀ {ps : List Piece} {ts : List Token}, Spelled (separator ++ ps) ts →
      ∃ t us, ts = t :: us ∧ t.kind = k ∧ Spelled ps us)
    {f : α → List Piece} {as : List α} (hne : as ≠ []) (h : ∀ a ∈ as, Rereads R g (f a) a) :
    Rereads (Separated k R) (List.map g) (Piece.separated separator (as.map f)) as := by
  induction as with
  | nil => exact absurd rfl hne
  | cons a as ih =>
    have first := h a (List.mem_cons_self ..)
    intro ts spelled
    cases as with
    | nil =>
      have single : Spelled (f a) ts := by simpa [Piece.separated] using spelled
      obtain ⟨a', reading, same⟩ := first single
      refine ⟨[a'], ?_, by rw [List.map_singleton, List.map_singleton, same]⟩
      simpa using Separated.intro (k := k) reading .nil
    | cons b as =>
      have shape : Piece.separated separator ((a :: b :: as).map f) =
          f a ++ (separator ++ Piece.separated separator ((b :: as).map f)) := by
        simp [Piece.separated]
      rw [shape] at spelled
      obtain ⟨us, vs, rfl, head, others⟩ := Spelled.append_iff.1 spelled
      obtain ⟨t, ws, rfl, kind, others⟩ := one others
      obtain ⟨a', reading, same⟩ := first head
      obtain ⟨as', readings, sames⟩ :=
        ih (List.cons_ne_nil b as) (fun a ha => h a (List.mem_cons_of_mem _ ha)) others
      refine ⟨a' :: as', ?_, by rw [List.map_cons, List.map_cons, same, sames]⟩
      cases readings with
      | intro second rest => exact .intro reading (.cons (.intro kind second) rest)

theorem commaSeparated {f : α → List Piece} {as : List α} (hne : as ≠ [])
    (h : ∀ a ∈ as, Rereads R g (f a) a) :
    Rereads (CommaSeparated R) (List.map g) (Piece.commaSeparated (as.map f)) as := by
  refine separated (fun {ps ts} spelled => ?_) hne h
  obtain ⟨t, us, rfl, kind, spelled⟩ := Spelled.punctuation_iff.1 spelled
  exact ⟨t, us, rfl, kind, Spelled.space_iff.1 spelled⟩

end Rereads

/-! ## Words -/

theorem Spelled.flag_iff {k : Keyword} {b : Bool} {ps : List Piece} {ts : List Token} :
    Spelled ((if b then [.keyword k, .space] else []) ++ ps) ts ↔
      ∃ us vs, ts = us ++ vs ∧ Flag k us b ∧ Spelled ps vs := by
  constructor
  · intro spelled
    cases b with
    | false => exact ⟨[], ts, rfl, .absent, spelled⟩
    | true =>
      obtain ⟨t, vs, rfl, kind, spelled⟩ := Spelled.keyword_iff.1 spelled
      exact ⟨[t], vs, rfl, .present kind, Spelled.space_iff.1 spelled⟩
  · rintro ⟨us, vs, rfl, flag, spelled⟩
    cases flag with
    | absent => exact spelled
    | present kind => exact .token kind (.space spelled)

theorem Spelled.negation_iff {b : Bool} {ps : List Piece} {ts : List Token} :
    Spelled (negation b ++ ps) ts ↔ ∃ us vs, ts = us ++ vs ∧ Flag .NOT us b ∧ Spelled ps vs :=
  flag_iff

theorem Spelled.keywords_iff {ks : List Keyword} {ts : List Token} :
    Spelled (Piece.keywords ks) ts ↔ Keywords ks ts := by
  have shape : ∀ k l ks, Piece.keywords (k :: l :: ks) =
      .keyword k :: .space :: Piece.keywords (l :: ks) := fun _ _ _ => by
    simp [Piece.keywords, Piece.spaceSeparated, Piece.separated]
  induction ks generalizing ts with
  | nil =>
    refine Spelled.nil_iff.trans ⟨?_, fun h => by cases h; rfl⟩
    rintro rfl
    exact .nil
  | cons k ks ih =>
    have first : Spelled (Piece.keywords (k :: ks)) ts ↔
        ∃ t us, ts = t :: us ∧ t.kind = .keyword k ∧ Spelled (Piece.keywords ks) us := by
      cases ks with
      | nil => exact Spelled.keyword_iff
      | cons l ks => rw [shape, Spelled.keyword_iff]; simp only [Spelled.space_iff]
    rw [first]
    constructor
    · rintro ⟨t, us, rfl, kind, spelled⟩
      exact .cons kind (ih.1 spelled)
    · rintro (_ | ⟨kind, words⟩)
      exact ⟨_, _, rfl, kind, ih.2 words⟩

/-! ## Names -/

theorem Identifier.rereads (i : Identifier) :
    Rereads IsIdentifier (Identifier.mapSpans .erase) i.pieces i := by
  intro ts spelled
  obtain ⟨t, us, rfl, ⟨⟨style, kind⟩, value⟩, spelled⟩ :=
    (Spelled.cons_iff (p := .identifier i.value) nofun).1 spelled
  obtain rfl := Spelled.nil_iff.1 spelled
  exact ⟨⟨t.span, t.value⟩, .intro kind, by simp [mapSpans, value]⟩

theorem QualifiedName.rereads (n : QualifiedName) :
    Rereads IsName (QualifiedName.mapSpans .erase) n.pieces n := by
  intro ts spelled
  have parts : Rereads (Separated (.punctuation .dot) IsIdentifier)
      (List.map (Identifier.mapSpans .erase)) n.pieces n.parts :=
    Rereads.separated Spelled.punctuation_iff.1 (by simp [parts]) fun i _ => i.rereads
  obtain ⟨as, readings, same⟩ := parts spelled
  obtain ⟨qs, bs, rfl, qualifiers, base⟩ := List.map_eq_append_iff.1
    (same.trans (@List.map_append _ _ _ n.qualifiers [n.base]))
  obtain ⟨b, rfl, same'⟩ := List.map_eq_singleton_iff.1 base
  obtain ⟨i, hi⟩ : ∃ i, (qs ++ [b]).head? = some i := by cases qs <;> exact ⟨_, rfl⟩
  refine ⟨⟨i.span.union b.span, qs, b⟩, ⟨readings, fun j hj => ?_⟩, ?_⟩
  · obtain rfl := Option.mem_unique hj hi
    rfl
  · simp only [mapSpans, qualifiers, same', Span.erase_eq]

theorem rereads_columnPieces {columns : List Identifier} (hne : columns ≠ []) :
    Rereads IsColumnList (List.map (Identifier.mapSpans .erase)) (columnPieces columns) columns :=
  Rereads.parenthesized (Rereads.commaSeparated hne fun i _ => i.rereads)

theorem rereads_aliasPieces (label : Option Identifier) :
    Rereads IsAlias (Option.map (Identifier.mapSpans .erase)) (aliasPieces label) label := by
  intro ts spelled
  rw [aliasPieces_eq] at spelled
  obtain ⟨label', reading, same⟩ :=
    Rereads.optional (fun i _ => i.rereads.behind .AS) spelled
  refine ⟨label', ?_, same⟩
  cases reading with
  | none => exact .none
  | some name => exact .announced name

/-! ## Data types -/

theorem rereads_length {n : Nat} (h : n ≤ Parser.maxLength) :
    Rereads IsLength id [.number (toString n)] n := by
  intro ts spelled
  obtain ⟨t, us, rfl, ⟨kind, text⟩, spelled⟩ :=
    (Spelled.cons_iff (p := .number (toString n)) nofun).1 spelled
  obtain rfl := Spelled.nil_iff.1 spelled
  exact ⟨n, .intro kind (by rw [text, Digits.valueUpTo_toString h]), rfl⟩

theorem Grammar.IsWord.of_spelled {text : String} {ts : List Token} (h : Spelled [.word text] ts)
    (capital : capitals text = text) : IsWord text ts := by
  obtain ⟨t, us, rfl, ⟨kind, ht⟩, h⟩ := (Spelled.cons_iff (p := .word text) nofun).1 h
  obtain rfl := Spelled.nil_iff.1 h
  exact .intro kind (by rw [ht, capital])

/-- A data type is read again from its name and what follows it. -/
theorem rereads_dataType {name : String} {ps : List Piece} {d : DataType}
    {form : Parser.TypeForm} (named : Parser.typeNamed? (capitals name) = some form)
    (tail : Rereads (IsTypeTail form) id ps d) :
    Rereads IsDataType id (.word name :: ps) d := by
  intro ts spelled
  obtain ⟨t, us, rfl, ⟨kind, text⟩, spelled⟩ :=
    (Spelled.cons_iff (p := .word name) nofun).1 spelled
  obtain ⟨d', reading, same⟩ := tail spelled
  exact ⟨d', .intro kind (by rw [text, named]) reading, same⟩

theorem rereads_sized {name : String} {type : Option Nat → DataType} {length : Option Nat}
    (named : Parser.typeNamed? (capitals name) = some (.sized type))
    (h : ∀ n ∈ length, n ≤ Parser.maxLength) :
    Rereads IsDataType id (.word name :: lengthPieces length) (type length) := by
  refine rereads_dataType named fun ts spelled => ?_
  cases length with
  | none =>
    obtain rfl := Spelled.nil_iff.1 spelled
    exact ⟨_, .sized type, rfl⟩
  | some n =>
    obtain ⟨_, reading, rfl⟩ := (rereads_length (h n rfl)).parenthesized spelled
    exact ⟨_, .sizedOf type reading, rfl⟩

theorem DataType.rereads {d : DataType} (h : d.WellFormed) :
    Rereads IsDataType id d.pieces d := by
  have plain : ∀ {name : String} {form : Parser.TypeForm} {d : DataType},
      Parser.typeNamed? (capitals name) = some form → IsTypeTail form [] d →
      Rereads IsDataType id [.word name] d := fun named tail =>
    rereads_dataType named fun ts spelled => by
      obtain rfl := Spelled.nil_iff.1 spelled
      exact ⟨_, tail, rfl⟩
  cases d with
  | int | bigInt | smallInt | float | text | boolean | date | time | timestamp =>
    exact plain (by rfl) (.plain _)
  | double => exact plain (by rfl) .double
  | decimal => exact plain (by rfl) .decimal
  | char length => exact rereads_sized (by rfl) h
  | varchar length => exact rereads_sized (by rfl) h
  | decimalOf precision scale =>
    have named : Parser.typeNamed? (capitals "DECIMAL") = some .decimal := by rfl
    have first := rereads_length h.1
    cases scale with
    | none =>
      refine rereads_dataType named fun ts spelled => ?_
      obtain ⟨o, us, c, rfl, opening, spelled, closing⟩ := Spelled.parenthesized_iff.1 spelled
      obtain ⟨_, reading, rfl⟩ := first spelled
      exact ⟨_, .decimalOf (.intro opening (.precision reading) closing), rfl⟩
    | some scale =>
      have second := rereads_length (h.2 scale rfl)
      refine rereads_dataType named fun ts spelled => ?_
      obtain ⟨o, us, c, rfl, opening, spelled, closing⟩ := Spelled.parenthesized_iff.1 spelled
      have shape : Piece.commaSeparated [[.number (toString precision)], [.number (toString scale)]]
          = [.number (toString precision)] ++
            (.punctuation .comma :: .space :: [.number (toString scale)]) := rfl
      rw [shape] at spelled
      obtain ⟨vs, ws, rfl, lengths, rest⟩ := Spelled.append_iff.1 spelled
      obtain ⟨t, xs, rfl, kind, rest⟩ := Spelled.punctuation_iff.1 rest
      obtain ⟨_, reading, rfl⟩ := first lengths
      obtain ⟨_, reading', rfl⟩ := second (Spelled.space_iff.1 rest)
      exact ⟨_, .decimalOf (.intro opening (.scale reading (.intro kind reading')) closing), rfl⟩

end SqlSyntax
