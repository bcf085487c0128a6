import Mathlib.Data.List.Perm.Basic
import SqlSyntax.Proofs.Grammar.Nesting
import SqlSyntax.Proofs.Token.Pieces
import SqlSyntax.Proofs.Tree.Parts

/-!
# Parts on their tokens

A part is *laid* on tokens when its span goes from the first of them to the last
and its children are laid on disjoint stretches of them. What is laid there can
have been read there: for expressions and queries, the parts that can stand by
themselves, the tokens are a reading.

Children come in the order of their tokens, but for a limit and for the elements
of a new table, which the tree holds in an order of its own.

Being laid is one of the relations between tokens and parts that hold of a part
when they hold of its children on stretches of its tokens. `Composes` is what
they have in common, so that the grammar is gone through once for all of them;
expressions, queries and set operations, where the levels of nesting come in,
are left to each.

## Main results

* `Covers.through`, `Covers.union` — the ways in which spans are made.
* `Many.spread`, `Separated.spread`, `Parenthesized.spread` — children in lists.
* `laid_composes` — parts are laid on tokens when their children are.
* `Laid.within` — what is below a part is laid on some of its tokens.
-/

namespace SqlSyntax.Grammar

/-! ## Spans of tokens -/

/-- Whether a span goes from the first of some tokens to the last. -/
def Covers (ts : List Token) (s : Span) : Prop :=
  ∃ t u, ts.head? = some t ∧ ts.getLast? = some u ∧ s = ⟨t.span.start, u.span.stop⟩

theorem covers_token (t : Token) : Covers [t] t.span := ⟨t, t, rfl, rfl, rfl⟩

namespace Covers

variable {ts us : List Token} {s s' : Span}

theorem start_mem (h : Covers ts s) : ∃ t ∈ ts, s.start = t.span.start := by
  obtain ⟨t, u, first, -, rfl⟩ := h
  exact ⟨t, List.mem_of_head? first, rfl⟩

theorem stop_mem (h : Covers ts s) : ∃ t ∈ ts, s.stop = t.span.stop := by
  obtain ⟨t, u, -, last, rfl⟩ := h
  exact ⟨u, List.mem_of_getLast? last, rfl⟩

/-- From the start of a span over some tokens to the end of others. -/
theorem through_right (h : Covers ts s) (hus : us ≠ []) (ordered : Ordered (ts ++ us)) :
    Covers (ts ++ us) (s.through us) := by
  obtain ⟨t, u, first, last, rfl⟩ := h
  have behind := List.getLast?_eq_some_getLast hus
  have whole : (ts ++ us).getLast? = some (us.getLast hus) := by
    rw [List.getLast?_append, behind, Option.some_or]
  have hle : u.span.stop ≤ (us.getLast hus).span.stop :=
    ordered.stop_le whole (List.mem_append_left _ (List.mem_of_getLast? last))
  refine ⟨t, us.getLast hus, ?_, whole, ?_⟩
  · rw [List.head?_append, first, Option.some_or]
  · rw [Span.through, behind]
    simp only [Nat.max_eq_left hle]

theorem through (h : Covers ts s) (ordered : Ordered (ts ++ us)) :
    Covers (ts ++ us) (s.through (ts ++ us)) := by
  rcases us with _ | ⟨u, us⟩
  · obtain ⟨t, v, first, last, rfl⟩ := h
    rw [List.append_nil]
    exact ⟨t, v, first, last, by simp [Span.through, last]⟩
  · have same : s.through (ts ++ u :: us) = s.through (u :: us) := by
      have behind := List.getLast?_eq_some_getLast (List.cons_ne_nil u us)
      rw [Span.through, Span.through, List.getLast?_append, behind, Option.some_or]
    rw [same]
    exact h.through_right nofun ordered

theorem union (h : Covers ts s) (vs : List Token) (h' : Covers us s')
    (ordered : Ordered (ts ++ (vs ++ us))) : Covers (ts ++ (vs ++ us)) (s.union s') := by
  obtain ⟨t, u, first, last, rfl⟩ := h
  obtain ⟨t', u', first', last', rfl⟩ := h'
  have whole : (ts ++ (vs ++ us)).head? = some t := by
    rw [List.head?_append, first, Option.some_or]
  have whole' : (ts ++ (vs ++ us)).getLast? = some u' := by
    rw [List.getLast?_append, List.getLast?_append, last', Option.some_or, Option.some_or]
  have hstart := ordered.start_le whole <|
    List.mem_append_right _ (List.mem_append_right _ (List.mem_of_head? first'))
  have hstop := ordered.stop_le whole' (List.mem_append_left _ (List.mem_of_getLast? last))
  exact ⟨t, u', whole, whole', by simp only [Span.union, Nat.min_eq_left hstart,
    Nat.max_eq_right hstop]⟩

end Covers

theorem covers_through {t : Token} {ts : List Token} (ordered : Ordered (t :: ts)) :
    Covers (t :: ts) (t.span.through (t :: ts)) :=
  Covers.through (show Covers [t] t.span from covers_token t) ordered

/-! ## Parts one behind the other -/

/-- Parts on disjoint stretches of tokens, in the order of these. -/
inductive Spread (R : List Token → Part → Prop) : List Token → List Part → Prop where
  | skip (ts : List Token) : Spread R ts []
  | part {ts : List Token} {p : Part} (part : R ts p) : Spread R ts [p]
  | append {ts us : List Token} {ps qs : List Part} (left : Spread R ts ps)
      (right : Spread R us qs) : Spread R (ts ++ us) (ps ++ qs)

namespace Spread

variable {R : List Token → Part → Prop} {ts us : List Token} {ps qs : List Part} {p : Part}

/-- Before the parts there may be more tokens. -/
theorem after (us : List Token) (h : Spread R ts ps) : Spread R (us ++ ts) ps :=
  append (.skip us) h

theorem behind {t : Token} (h : Spread R ts ps) : Spread R (t :: ts) ps := h.after [t]

theorem cons (hp : R ts p) (h : Spread R us ps) : Spread R (ts ++ us) (p :: ps) :=
  append (.part hp) h

/-- Behind the parts there may be more tokens. -/
theorem before (h : Spread R ts ps) (us : List Token) : Spread R (ts ++ us) ps := by
  have := h.append (.skip us)
  rwa [List.append_nil] at this

theorem mem (h : Spread R ts ps) (hp : p ∈ ps) : ∃ us, us <:+: ts ∧ R us p := by
  induction h with
  | skip => exact nomatch hp
  | part part => exact ⟨_, List.infix_rfl, List.mem_singleton.1 hp ▸ part⟩
  | append _ _ ih ih' =>
    rcases List.mem_append.1 hp with hp | hp
    · obtain ⟨us, hus, hR⟩ := ih hp
      exact ⟨us, hus.trans (List.prefix_append ..).isInfix, hR⟩
    · obtain ⟨us, hus, hR⟩ := ih' hp
      exact ⟨us, hus.trans (List.suffix_append ..).isInfix, hR⟩

/-- Parts on disjoint stretches do not overlap. -/
theorem apart (h : Spread R ts ps) (covers : ∀ {us p}, R us p → Covers us p.span)
    (ordered : Ordered ts) : ps.Pairwise fun p q => p.span.stop ≤ q.span.start := by
  induction h with
  | skip => exact .nil
  | part => exact List.pairwise_singleton ..
  | append left right ih ih' =>
    refine List.pairwise_append.2 ⟨ih ordered.left, ih' ordered.right, fun p hp q hq => ?_⟩
    obtain ⟨ts', hts', hp⟩ := left.mem hp
    obtain ⟨us', hus', hq⟩ := right.mem hq
    obtain ⟨t, ht, stop⟩ := (covers hp).stop_mem
    obtain ⟨u, hu, start⟩ := (covers hq).start_mem
    rw [stop, start]
    exact ordered.stop_le_start (hts'.subset ht) (hus'.subset hu)

end Spread

/-- Relations that hold of a part on some tokens when they hold of its children
on stretches of them, levels of nesting aside. -/
structure Composes (R : List Token → Part → Prop) : Prop where
  covers : ∀ {ts : List Token} {p : Part}, R ts p → Covers ts p.span
  intro : ∀ {ts : List Token} {p : Part} {ps : List Part}, p.isLevel = false → Covers ts p.span →
    Spread R ts ps → ps.Perm p.children → R ts p

theorem Composes.of_spread {R : List Token → Part → Prop} (hR : Composes R) {ts : List Token}
    {p : Part} (covers : Covers ts p.span) (parts : Spread R ts p.children)
    (plain : p.isLevel = false) : R ts p :=
  hR.intro plain covers parts (List.Perm.refl _)

/-! ## Parts on tokens -/

/-- Whether an expression or a query, whatever its depth, can have been read
from some tokens. There is no such condition on other parts. -/
def IsReading (ts : List Token) : Part → Prop
  | .expr e => ∃ depth, exprs True depth 0 ts e
  | .query q => ∃ depth, queries True depth ts q
  | _ => True

/-- Whether a part stands on some tokens and its children on stretches of
them. -/
inductive Laid : List Token → Part → Prop where
  | intro {ts : List Token} {p : Part} {ps : List Part} (covers : Covers ts p.span)
      (reading : IsReading ts p) (parts : Spread Laid ts ps) (children : ps.Perm p.children) :
      Laid ts p

namespace Laid

variable {ts : List Token} {p q : Part}

theorem of_spread (covers : Covers ts p.span) (parts : Spread Laid ts p.children)
    (reading : IsReading ts p) : Laid ts p :=
  .intro covers reading parts (List.Perm.refl _)

theorem covers (h : Laid ts p) : Covers ts p.span := by
  obtain ⟨covers⟩ := h
  exact covers

theorem reading (h : Laid ts p) : IsReading ts p := by
  obtain ⟨-, reading⟩ := h
  exact reading

/-- What is below a part is laid on some of its tokens. -/
theorem within (h : Laid ts p) (hq : q.Within p) : ∃ us, us <:+: ts ∧ Laid us q := by
  induction hq generalizing ts with
  | refl => exact ⟨ts, List.infix_rfl, h⟩
  | child mem _ ih =>
    obtain ⟨-, -, parts, children⟩ := h
    obtain ⟨us, hus, laid⟩ := parts.mem (children.mem_iff.2 mem)
    obtain ⟨vs, hvs, laid⟩ := ih laid
    exact ⟨vs, hvs.trans hus, laid⟩

/-- A part covers its children. -/
theorem contains (h : Laid ts p) (ordered : Ordered ts) (hq : q ∈ p.children) :
    p.span.contains q.span := by
  obtain ⟨⟨t, u, first, last, span⟩, -, parts, children⟩ := h
  obtain ⟨us, hus, laid⟩ := parts.mem (children.mem_iff.2 hq)
  obtain ⟨t', ht', start⟩ := laid.covers.start_mem
  obtain ⟨u', hu', stop⟩ := laid.covers.stop_mem
  have hstart := ordered.start_le first (hus.subset ht')
  have hstop := ordered.stop_le last (hus.subset hu')
  simp [Span.contains, span, start, stop, hstart, hstop]

/-- The children of a part do not overlap. -/
theorem disjoint (h : Laid ts p) (ordered : Ordered ts) :
    p.children.Pairwise fun q r => q.span.stop ≤ r.span.start ∨ r.span.stop ≤ q.span.start := by
  obtain ⟨-, -, parts, children⟩ := h
  refine (children.pairwise_iff fun h => h.symm).1 ?_
  exact (parts.apart Laid.covers ordered).imp .inl

theorem nonempty (h : Laid ts p) (ordered : Ordered ts) : p.span.start < p.span.stop := by
  obtain ⟨t, u, first, last, span⟩ := h.covers
  have := ordered.nonempty t (List.mem_of_head? first)
  have := ordered.stop_le last (List.mem_of_head? first)
  rw [span]
  simp only
  omega

end Laid

/-- Parts are laid on tokens when their children are. -/
theorem laid_composes : Composes Laid where
  covers := Laid.covers
  intro {_ p _} plain covers parts children := by
    refine .intro covers ?_ parts children
    cases p <;> trivial

/-! ## Lists and options -/

section

variable {L : List Token → Part → Prop} {α : Type} {R : List Token → α → Prop}
  {f : α → List Part} {ts : List Token}
  (hR : ∀ ⦃ts a⦄, R ts a → Ordered ts → Spread L ts (f a))

include hR

theorem Many.spread {as : List α} (h : Many R ts as) (ordered : Ordered ts) :
    Spread L ts (as.flatMap f) := by
  induction h with
  | nil => exact .skip []
  | cons head _ ih => exact .append (hR head ordered.left) (ih ordered.right)

theorem Behind.spread {k : TokenKind} {a : α} (h : Behind k R ts a) (ordered : Ordered ts) :
    Spread L ts (f a) := by
  obtain ⟨-, part⟩ := h
  exact (hR part ordered.tail).behind

theorem Separated.spread {k : TokenKind} {as : List α} (h : Separated k R ts as)
    (ordered : Ordered ts) : Spread L ts (as.flatMap f) := by
  obtain ⟨first, others⟩ := h
  exact .append (hR first ordered.left) (Many.spread (fun _ _ h => Behind.spread hR h) others
    ordered.right)

theorem Parenthesized.spread {a : α} (h : Parenthesized R ts a) (ordered : Ordered ts) :
    Spread L ts (f a) := by
  obtain ⟨-, part, -⟩ := h
  exact ((hR part ordered.tail.left).before _).behind

theorem Optional.spread {o : Option α} (h : Optional R ts o) (ordered : Ordered ts) :
    Spread L ts (o.toList.flatMap f) := by
  cases h with
  | none => exact .skip []
  | some part => simpa using hR part ordered

end

section

variable {L : List Token → Part → Prop} {α : Type} {R : List Token → α → Prop} {f : α → Part}
  {ts : List Token} (hR : ∀ ⦃ts a⦄, R ts a → Ordered ts → L ts (f a))

include hR

theorem Many.spread_map {as : List α} (h : Many R ts as) (ordered : Ordered ts) :
    Spread L ts (as.map f) := by
  rw [List.map_eq_flatMap]
  exact h.spread (fun _ _ h ordered => .part (hR h ordered)) ordered

theorem Separated.spread_map {k : TokenKind} {as : List α} (h : Separated k R ts as)
    (ordered : Ordered ts) : Spread L ts (as.map f) := by
  rw [List.map_eq_flatMap]
  exact h.spread (fun _ _ h ordered => .part (hR h ordered)) ordered

theorem Optional.spread_map {o : Option α} (h : Optional R ts o) (ordered : Ordered ts) :
    Spread L ts (o.toList.map f) := by
  rw [List.map_eq_flatMap]
  exact h.spread (fun _ _ h ordered => .part (hR h ordered)) ordered

end

end SqlSyntax.Grammar
