import SqlSyntax.Proofs.Content.Yields

/-!
# Content of lists and names

## Main results

* `Many.yields`, `Separated.yields`, `Optional.yields`, `Parenthesized.yields` —
  lists and optional parts yield what their parts yield.
* `IsName.yields`, `IsAlias.yields` — names yield their parts.
-/

namespace SqlSyntax.Grammar

open Content

variable {α : Type} {Q : List Token → α → Prop} {F : List Token → Prop} {A B C : Mode → Prop}
  {R : Bool → Prop} {f : Frame} {o : List Frame} {K L : TokenKind → Prop} {k : Keyword}
  {ts us : List Token} {a : α}

/-! ## Lists and optional parts -/

section

variable {c : α → List Item}

theorem Many.yields {as : List α} (h : Many Q ts as) (hQ : ∀ ⦃us a⦄, Q us a → Yields A A us (c a)) :
    Yields A A ts (as.flatMap c) := by
  induction h with
  | nil => exact yields_nil fun _ => id
  | cons head _ ih => exact .append (hQ head) ih

/-- What comes behind a part of a list comes behind the list, or is a
separator. -/
theorem Many.follows {s : TokenKind} {as : List α} (h : Many (Behind s Q) us as)
    (hs : ∀ t rest, t.kind = s → F (t :: rest)) {rest : List Token} (hrest : F rest) :
    F (us ++ rest) := by
  cases h with
  | nil => exact hrest
  | cons head tail =>
    obtain ⟨kind, part⟩ := head
    exact hs _ _ kind

theorem Separated.yieldsBefore {s : TokenKind} {as : List α} (h : Separated s Q ts as)
    (hQ : ∀ ⦃us a⦄, Q us a → YieldsBefore F A B us (c a))
    (sep : ∀ ⦃t⦄, t.kind = s → Yields B A [t] []) (hs : ∀ t rest, t.kind = s → F (t :: rest)) :
    YieldsBefore F A B ts (as.flatMap c) := by
  have rest : ∀ {us as}, Many (Behind s Q) us as → YieldsBefore F B B us (as.flatMap c) := by
    intro us as h
    induction h with
    | nil => exact yields_nil fun _ => id
    | cons head tail ih =>
      obtain ⟨kind, part⟩ := head
      exact (Yields.append (sep kind) (hQ part)).append ih fun _ => tail.follows hs
  obtain ⟨first, others⟩ := h
  exact (hQ first).append (rest others) fun _ => others.follows hs

theorem Separated.yields {s : TokenKind} {as : List α} (h : Separated s Q ts as)
    (hQ : ∀ ⦃us a⦄, Q us a → Yields A B us (c a))
    (sep : ∀ ⦃t⦄, t.kind = s → Yields B A [t] []) : Yields A B ts (as.flatMap c) :=
  h.yieldsBefore hQ sep fun _ _ _ => trivial

theorem Optional.yields {p : Option α} (h : Optional Q ts p) (hAB : ∀ m, A m → B m)
    (hQ : ∀ ⦃us a⦄, Q us a → Yields A B us (c a)) : Yields A B ts (p.toList.flatMap c) := by
  cases h with
  | none => exact yields_nil hAB
  | some part => exact (hQ part).congr (by simp)

end

section

variable {c : List Item}

theorem Behind.yields (h : Behind (.keyword k) Q ts a) (plain : isPlain k) (hK : L (.keyword k))
    (hQ : ∀ ⦃us⦄, Q us a → YieldsBefore F (Calm R f o L) B us c) :
    YieldsBefore F (Calm R f o K) B ts (.keyword k :: c) := by
  obtain ⟨kind, part⟩ := h
  exact .keyword kind plain (hQ part) hK

theorem Parenthesized.yields (h : Parenthesized Q ts a) (hf : f ≠ .table)
    (hK : ∀ k, K k → k ≠ .keyword .CAST) (hL : L (.punctuation .closeParen))
    (hQ : ∀ ⦃us⦄, Q us a → Yields (Calm R .plain (f :: o) (· = .punctuation .openParen))
      (Ends R (f :: o)) us c) : Yields (Calm R f o K) (Calm R f o L) ts c := by
  obtain ⟨opening, part, closing⟩ := h
  have inner := Yields.append (hQ part) (yields_close closing hL)
  exact (Yields.append (yields_open opening hf hK (by rfl)) inner).congr (List.append_nil c)

end

theorem Flag.yields {b : Bool} (h : Flag k ts b) (plain : isPlain k) (hK : ∀ k, K k → L k)
    (hL : L (.keyword k)) : Yields (Calm R f o K) (Calm R f o L) ts (flag k b) := by
  cases h with
  | absent => exact yields_nil fun _ hm => hm.imp hK
  | present kind => exact yields_keyword kind plain nofun hL

theorem Noise.yields (h : Noise k ts) (silent : isSilent k) (hK : ∀ k, K k → L k)
    (hL : L (.keyword k)) : Yields (Calm R f o K) (Calm R f o L) ts [] := by
  cases h with
  | absent => exact yields_nil fun _ hm => hm.imp hK
  | present kind => exact yields_silent kind silent hL

theorem Keywords.yields {ks : List Keyword} (h : Keywords ks ts) (plain : ∀ k ∈ ks, isPlain k) :
    Yields (Calm R f o Anything) (Calm R f o Anything) ts (ks.map .keyword) := by
  induction h with
  | nil => exact yields_nil fun _ => id
  | cons kind _ ih =>
    exact .keyword kind (plain _ (List.mem_cons_self ..))
      (ih fun k hk => plain k (List.mem_cons_of_mem _ hk)) trivial

/-! ## Names -/

theorem IsIdentifier.yields {i : Identifier} (h : IsIdentifier ts i) (hK : ∀ k, K k → Names f k) :
    Yields (Calm R f o K) (Calm R f o Named) ts i.content := by
  obtain ⟨kind⟩ := h
  exact yields_identifier kind hK

theorem IsName.yields {n : QualifiedName} (h : IsName ts n) (hK : ∀ k, K k → Names f k) :
    Yields (Calm R f o K) (Calm R f o Named) ts n.content := by
  have parts : Yields (Calm R f o (Names f)) (Calm R f o Named) ts n.content :=
    h.parts.yields (fun _ _ part => part.yields fun _ => id)
      fun _ kind => yields_dot kind fun _ => rfl
  exact parts.mono (fun _ hm => hm.imp hK) fun _ => id

theorem IsColumnList.yields {is : List Identifier} (h : IsColumnList ts is) (hf : f ≠ .table)
    (hK : ∀ k, K k → k ≠ .keyword .CAST) (hL : L (.punctuation .closeParen)) :
    Yields (Calm R f o K) (Calm R f o L) ts (is.flatMap Identifier.content) := by
  refine Parenthesized.yields h hf hK hL fun us list => ?_
  have columns : Yields (Calm R .plain (f :: o) Anything) (Calm R .plain (f :: o) Named) us
      (is.flatMap Identifier.content) :=
    list.yields (fun _ _ part => part.yields fun _ _ => nofun)
      fun _ kind => yields_comma kind nofun nofun trivial
  exact columns.mono (fun _ hm => hm.imp fun _ _ => trivial) fun _ => At.ends

theorem IsAlias.yields {label : Option Identifier} (h : IsAlias ts label) :
    Yields (Calm R .plain o K) (Calm R .plain o Anything) ts (aliasContent label) := by
  cases h with
  | none => exact yields_nil fun _ hm => hm.imp fun _ _ => trivial
  | bare name =>
    have bare : Yields (Calm R .plain o K) (Calm R .plain o Named) ts (aliasContent (some _)) :=
      name.yields fun _ _ => nofun
    exact bare.forget
  | announced name =>
    obtain ⟨kind, name⟩ := name
    have named : Yields (Calm R .plain o Anything) (Calm R .plain o Named) _
      (aliasContent (some _)) := name.yields fun _ _ => nofun
    exact Yields.append (yields_as kind (by nofun) trivial) named.forget

end SqlSyntax.Grammar
