import SqlSyntax.Canonical.Piece

/-!
# Tokens that spell pieces

Canonical SQL is put together from pieces, and all of them but spaces are read
back as one token each. `Spelled` relates the pieces to the tokens; it says
nothing about spans, which the pieces leave open, and little about quotes.
-/

namespace SqlSyntax

/-- Whether a token is what a piece was written for. -/
def Piece.Writes : Piece → Token → Prop
  | .space, _ => False
  | .keyword k, t => t.kind = .keyword k
  | .word text, t => t.kind = .identifier .bare ∧ t.text = text
  | .identifier value, t => (∃ style, t.kind = .identifier style) ∧ t.value = value
  | .number text, t => t.kind = .number ∧ t.text = text
  | .string value, t => t.kind = .string ∧ t.value = value
  | .operator o, t => t.kind = .operator o
  | .punctuation p, t => t.kind = .punctuation p

/-- Whether tokens are those of pieces, one for each that is no space. -/
inductive Spelled : List Piece → List Token → Prop where
  | nil : Spelled [] []
  | space {ps : List Piece} {ts : List Token} (tail : Spelled ps ts) : Spelled (.space :: ps) ts
  | token {p : Piece} {ps : List Piece} {t : Token} {ts : List Token} (head : p.Writes t)
      (tail : Spelled ps ts) : Spelled (p :: ps) (t :: ts)

namespace Spelled

@[simp] theorem nil_iff {ts : List Token} : Spelled [] ts ↔ ts = [] := by
  refine ⟨fun h => ?_, fun h => h ▸ .nil⟩
  cases h
  rfl

@[simp] theorem space_iff {ps : List Piece} {ts : List Token} :
    Spelled (.space :: ps) ts ↔ Spelled ps ts := by
  refine ⟨fun h => ?_, .space⟩
  cases h with
  | space tail => exact tail
  | token head => exact head.elim

theorem cons_iff {p : Piece} (hp : p ≠ .space) {ps : List Piece} {ts : List Token} :
    Spelled (p :: ps) ts ↔ ∃ t us, ts = t :: us ∧ p.Writes t ∧ Spelled ps us := by
  constructor
  · intro h
    cases h with
    | space => exact absurd rfl hp
    | token head tail => exact ⟨_, _, rfl, head, tail⟩
  · rintro ⟨t, us, rfl, head, tail⟩
    exact .token head tail

theorem append_iff {ps qs : List Piece} {ts : List Token} :
    Spelled (ps ++ qs) ts ↔ ∃ us vs, ts = us ++ vs ∧ Spelled ps us ∧ Spelled qs vs := by
  constructor
  · intro h
    induction ps generalizing ts with
    | nil => exact ⟨[], ts, rfl, .nil, h⟩
    | cons p ps ih =>
      cases h with
      | space tail =>
        obtain ⟨us, vs, rfl, hus, hvs⟩ := ih tail
        exact ⟨us, vs, rfl, .space hus, hvs⟩
      | token head tail =>
        obtain ⟨us, vs, rfl, hus, hvs⟩ := ih tail
        exact ⟨_ :: us, vs, rfl, .token head hus, hvs⟩
  · rintro ⟨us, vs, rfl, hus, hvs⟩
    induction hus with
    | nil => exact hvs
    | space _ ih => exact .space ih
    | token head _ ih => exact .token head ih

/-! ### By kind of piece -/

section

variable {ps : List Piece} {ts : List Token}

@[simp] theorem keyword_iff {k : Keyword} : Spelled (.keyword k :: ps) ts ↔
    ∃ t us, ts = t :: us ∧ t.kind = .keyword k ∧ Spelled ps us :=
  cons_iff (p := .keyword k) nofun

@[simp] theorem operator_iff {o : Operator} : Spelled (.operator o :: ps) ts ↔
    ∃ t us, ts = t :: us ∧ t.kind = .operator o ∧ Spelled ps us :=
  cons_iff (p := .operator o) nofun

@[simp] theorem punctuation_iff {p : Punctuation} : Spelled (.punctuation p :: ps) ts ↔
    ∃ t us, ts = t :: us ∧ t.kind = .punctuation p ∧ Spelled ps us :=
  cons_iff (p := .punctuation p) nofun

@[simp] theorem parenthesized_iff : Spelled (Piece.parenthesized ps) ts ↔ ∃ o us c, ts = o :: (us ++ [c]) ∧
    o.kind = .punctuation .openParen ∧ Spelled ps us ∧ c.kind = .punctuation .closeParen := by
  constructor
  · intro h
    obtain ⟨o, vs, rfl, opening, h⟩ := punctuation_iff.1 h
    obtain ⟨us, ws, rfl, hus, h⟩ := append_iff.1 h
    obtain ⟨c, xs, rfl, closing, h⟩ := punctuation_iff.1 h
    obtain rfl := nil_iff.1 h
    exact ⟨o, us, c, rfl, opening, hus, closing⟩
  · rintro ⟨o, us, c, rfl, opening, hus, closing⟩
    exact .token opening (append_iff.2 ⟨us, [c], rfl, hus, .token closing .nil⟩)

end

end Spelled

end SqlSyntax
