import SqlSyntax.Proofs.Grammar.Name
import SqlSyntax.Proofs.Parser.Basic

/-!
# Parsers of names and data types

Each parser is sound for its relation, and reads what the relation says
wherever the next token cannot belong to it.
-/

namespace SqlSyntax.Parser

open Grammar

/-! ## Names -/

theorem Token.isIdentifier_iff {t : Token} :
    t.isIdentifier ↔ ∃ style, t.kind = .identifier style := by
  unfold Token.isIdentifier
  cases t.kind <;> simp

theorem identifier_sound : Sound identifier IsIdentifier := by
  intro s i s' hend h
  obtain ⟨t, s₁, hp, h⟩ := bind_eq_ok.1 h
  obtain ⟨rfl, rfl⟩ := peek_eq_ok hp
  split at h
  · rename_i ht
    obtain ⟨style, kind⟩ := Token.isIdentifier_iff.1 ht
    obtain ⟨t, s₂, hn, h⟩ := bind_eq_ok.1 h
    obtain ⟨rfl, hc⟩ := next_eq_ok hend hn (by simp [Token.isEnd, kind])
    obtain ⟨rfl, rfl⟩ := pure_eq_ok.1 h
    exact ⟨_, hc, .intro kind⟩
  · obtain ⟨_, s₂, -, h⟩ := bind_eq_ok.1 h
    exact absurd h unexpected_ne_ok

theorem identifier_reads {ts : List Token} {i : Identifier} {before rest : List Token}
    (h : IsIdentifier ts i) : ReadsAfter before identifier ts i rest := by
  obtain @⟨t, style, kind⟩ := h
  refine .bindPeek fun u _ hu => ?_
  obtain rfl := hu t rfl
  rw [if_pos (Token.isIdentifier_iff.2 ⟨style, kind⟩)]
  exact .bindLast (next_reads (by simp [Token.isEnd, kind])) .pure

/-- The dot of a name comes next. -/
def AtNameDot (ts : List Token) : Prop :=
  headKind ts = .punctuation .dot ∧ headKind ts.tail ≠ .operator .times

instance (ts : List Token) : Decidable (AtNameDot ts) :=
  inferInstanceAs (Decidable (_ ∧ _))

theorem atNameDot_eq_ok {s s' : ParserState} {b : Bool} (h : atNameDot s = .ok b s') :
    s = s' ∧ (b → (ahead s).kind = .punctuation .dot) := by
  obtain ⟨t, s₁, hp, h⟩ := bind_eq_ok.1 h
  obtain ⟨rfl, rfl⟩ := peek_eq_ok hp
  split at h
  · rename_i ht
    obtain ⟨u, s₂, hu, h⟩ := bind_eq_ok.1 h
    obtain ⟨rfl, -⟩ := peekAt_eq_ok hu
    obtain ⟨-, rfl⟩ := pure_eq_ok.1 h
    exact ⟨rfl, fun _ => by simpa using ht⟩
  · obtain ⟨rfl, rfl⟩ := pure_eq_ok.1 h
    exact ⟨rfl, nofun⟩

theorem atNameDot_bind {α : Type} {f : Bool → Parser α} {before us rest : List Token} {a : α}
    (h : ReadsAfter before (f (decide (AtNameDot (us ++ rest)))) us a rest) :
    ReadsAfter before (atNameDot >>= f) us a rest := by
  rw [atNameDot, bind_assoc]
  refine .bindPeek fun t ht _ => ?_
  by_cases hdot : headKind (us ++ rest) = .punctuation .dot
  · rw [if_pos (by simp [ht, hdot]), bind_assoc]
    refine .bindPeekAt fun u hu => ?_
    rw [List.drop_one] at hu
    have same : (u.kind != .operator .times) = decide (AtNameDot (us ++ rest)) := by
      rw [Bool.eq_iff_iff]
      simp [AtNameDot, hdot, hu]
    rwa [pure_bind, same]
  · rw [if_neg (by simp [ht, hdot])]
    simpa [AtNameDot, hdot] using h

/-- One more part of a name: the part that was the last joins those before. -/
def NextPart (p : List Identifier × Identifier) (ts : List Token)
    (q : List Identifier × Identifier) : Prop :=
  q.1 = p.2 :: p.1 ∧ Behind (.punctuation .dot) IsIdentifier ts q.2

theorem parts_of_chain {p q : List Identifier × Identifier} {ts : List Token}
    (h : Chain NextPart p ts q) :
    ∃ is, q.1.reverse ++ [q.2] = p.1.reverse ++ p.2 :: is ∧
      Many (Behind (.punctuation .dot) IsIdentifier) ts is := by
  induction h with
  | done => exact ⟨[], rfl, .nil⟩
  | @step p q r ts us head _ ih =>
    obtain ⟨hq, hi⟩ := head
    obtain ⟨is, hr, his⟩ := ih
    refine ⟨q.2 :: is, ?_, .cons hi his⟩
    rw [hr, hq, List.reverse_cons, List.append_assoc]
    rfl

theorem chain_of_parts {ts : List Token} {is : List Identifier}
    (h : Many (Behind (.punctuation .dot) IsIdentifier) ts is) (p : List Identifier × Identifier)
    {before : List Identifier} {base : Identifier}
    (hparts : before ++ [base] = p.1.reverse ++ p.2 :: is) :
    Chain NextPart p ts (before.reverse, base) := by
  induction h generalizing p with
  | nil =>
    obtain ⟨hbefore, hbase⟩ := List.append_inj' hparts rfl
    obtain rfl := (List.cons.inj hbase).1
    rw [hbefore, List.reverse_reverse]
    exact .done p
  | @cons ts us i is head _ ih =>
    refine .step (b := (p.2 :: p.1, i)) ⟨rfl, head⟩ (ih _ ?_)
    rw [hparts, List.reverse_cons, List.append_assoc]
    rfl

theorem nameStep_sound : SoundStep (fun (p : List Identifier × Identifier) => do
    if ← atNameDot then
      let _ ← next
      return some (p.2 :: p.1, ← identifier)
    else
      return none) NextPart := by
  intro p s o s' hend h
  obtain ⟨b, s₁, hdot, h⟩ := bind_eq_ok.1 h
  obtain ⟨rfl, hkind⟩ := atNameDot_eq_ok hdot
  split at h
  · rename_i hb
    have kind := hkind hb
    obtain ⟨d, s₂, hn, h⟩ := bind_eq_ok.1 h
    obtain ⟨rfl, hc⟩ := next_eq_ok hend hn (by simp [Token.isEnd, kind])
    obtain ⟨i, s₃, hname, h⟩ := bind_eq_ok.1 h
    obtain ⟨rfl, rfl⟩ := pure_eq_ok.1 h
    obtain ⟨ts, hc', hi⟩ := identifier_sound hc.isEnd hname
    exact .inr ⟨_, _, rfl, hc.trans hc', rfl, .intro kind hi⟩
  · obtain ⟨rfl, rfl⟩ := pure_eq_ok.1 h
    exact .inl ⟨rfl, .refl hend⟩

theorem qualifiedName_sound : Sound qualifiedName IsName := by
  intro s n s' hend h
  obtain ⟨first, s₁, hfirst, h⟩ := bind_eq_ok.1 h
  obtain ⟨ts, hc, hi⟩ := identifier_sound hend hfirst
  obtain ⟨⟨before, base⟩, s₂, hloop, h⟩ := bind_eq_ok.1 h
  obtain ⟨rfl, rfl⟩ := pure_eq_ok.1 h
  obtain ⟨us, hc', hchain⟩ := iterate_sound nameStep_sound hc.isEnd hloop
  obtain ⟨is, hparts, his⟩ := parts_of_chain hchain
  refine ⟨ts ++ us, hc.trans hc', ?_, ?_⟩
  · show Separated _ _ _ (before.reverse ++ [base])
    rw [hparts]
    exact .intro hi his
  · show ∀ i ∈ (before.reverse ++ [base]).head?, _
    rw [hparts]
    rintro i ⟨⟩
    rfl

theorem qualifiedName_reads {ts : List Token} {n : QualifiedName} {before rest : List Token}
    (h : IsName ts n) (hrest : ¬ AtNameDot rest) : ReadsAfter before qualifiedName ts n rest := by
  obtain ⟨parts, span⟩ := h
  obtain ⟨nspan, qualifiers, base⟩ := n
  simp only [QualifiedName.parts] at parts span
  generalize hl : qualifiers ++ [base] = l at parts span
  obtain @⟨ts, us, first, is, hfirst, others⟩ := parts
  obtain rfl := span first rfl
  refine .bind (identifier_reads hfirst) (.bindLast (.after (iterate_reads
    (F := fun _ => True) trivial ?_ ?_ ?_ (chain_of_parts others ([], first) hl))) ?_)
  · rintro p ts q us ⟨-, part⟩
    obtain ⟨kind, part⟩ := part
    exact ⟨nofun, trivial⟩
  · rintro p ts ⟨_, i⟩ us ⟨rfl, part⟩ -
    obtain ⟨kind, part⟩ := part
    have name := part
    obtain ⟨ikind⟩ := part
    refine atNameDot_bind ?_
    rw [decide_eq_true ⟨kind, by simp [ikind]⟩]
    exact .bindToken (next_reads (by simp [Token.isEnd, kind]))
      (.bindLast (identifier_reads name) .pure)
  · intro p
    refine atNameDot_bind ?_
    rw [List.nil_append, decide_eq_false hrest]
    exact .pure
  · have same : qualifiers.reverse.reverse = qualifiers := List.reverse_reverse _
    simp only [same]
    exact .pure

theorem columnList_sound : Sound columnList IsColumnList :=
  parenthesized_sound (commaSeparated_sound identifier_sound)

theorem columnList_reads {ts : List Token} {cs : List Identifier} {rest : List Token}
    (h : IsColumnList ts cs) : Reads columnList ts cs rest :=
  parenthesized_reads (fun _ _ c _ hlist hc =>
    commaSeparated_reads (F := fun _ => True) (fun _ _ _ hi _ => identifier_reads hi)
      (fun _ _ _ => trivial) trivial (by simp [hc]) hlist) h

theorem alias?_sound : Sound alias? IsAlias := by
  intro s o s' hend h
  obtain ⟨k, s₁, has, h⟩ := bind_eq_ok.1 h
  rcases keyword?_eq_ok hend has with ⟨rfl, hc⟩ | ⟨t, ht, rfl, hc⟩
  · obtain ⟨u, s₂, hp, h⟩ := bind_eq_ok.1 h
    obtain ⟨rfl, rfl⟩ := peek_eq_ok hp
    split at h
    · obtain ⟨i, s₃, hname, h⟩ := bind_eq_ok.1 h
      obtain ⟨rfl, rfl⟩ := pure_eq_ok.1 h
      obtain ⟨ts, hc', hi⟩ := identifier_sound hc.isEnd hname
      exact ⟨_, hc.trans hc', .bare hi⟩
    · obtain ⟨_, s₃, hm, h⟩ := bind_eq_ok.1 h
      obtain ⟨rfl, rfl⟩ := pure_eq_ok.1 h
      exact ⟨[], hc.trans (note_eq_ok hc.isEnd hm), .none⟩
  · obtain ⟨i, s₂, hname, h⟩ := bind_eq_ok.1 h
    obtain ⟨rfl, rfl⟩ := pure_eq_ok.1 h
    obtain ⟨ts, hc', hi⟩ := identifier_sound hc.isEnd hname
    exact ⟨_, hc.trans hc', .announced (.intro ht hi)⟩

theorem alias?_reads {ts : List Token} {o : Option Identifier} {before rest : List Token}
    (h : IsAlias ts o) (has : headKind rest ≠ .keyword .AS)
    (hname : ∀ style, headKind rest ≠ .identifier style) : ReadsAfter before alias? ts o rest := by
  cases h with
  | none =>
    refine .bindNil (keyword?_absent has) (.bindPeek fun t ht _ => ?_)
    have no : ¬ t.isIdentifier := fun hi => by
      obtain ⟨style, kind⟩ := Token.isIdentifier_iff.1 hi
      exact hname style (ht.symm.trans kind)
    rw [if_neg no]
    exact .bindNil note_reads .pure
  | bare name =>
    have part := name
    obtain @⟨t, style, kind⟩ := name
    refine .bindNil (keyword?_absent (by simp [kind])) (.bindPeek fun u _ hu => ?_)
    obtain rfl := hu t rfl
    rw [if_pos (Token.isIdentifier_iff.2 ⟨style, kind⟩)]
    exact .bindLast (identifier_reads part) .pure
  | announced name =>
    obtain ⟨kind, part⟩ := name
    exact .bindToken (keyword?_reads kind) (.bindLast (identifier_reads part) .pure)

/-! ## Data types -/

theorem length_sound : Sound length IsLength := by
  intro s n s' hend h
  obtain ⟨t, s₁, hp, h⟩ := bind_eq_ok.1 h
  obtain ⟨rfl, rfl⟩ := peek_eq_ok hp
  split at h
  · rename_i ht
    have kind : (ahead s).kind = .number := by simpa using ht
    cases hm : Digits.valueUpTo maxLength (ahead s).text with
    | some m =>
      simp only [hm] at h
      obtain ⟨t, s₂, hn, h⟩ := bind_eq_ok.1 h
      obtain ⟨rfl, hc⟩ := next_eq_ok hend hn (by simp [Token.isEnd, kind])
      obtain ⟨rfl, rfl⟩ := pure_eq_ok.1 h
      exact ⟨_, hc, .intro kind hm⟩
    | none =>
      simp only [hm] at h
      exact absurd h failAt_ne_ok
  · obtain ⟨_, s₂, -, h⟩ := bind_eq_ok.1 h
    exact absurd h unexpected_ne_ok

theorem length_reads {ts : List Token} {n : Nat} {before rest : List Token} (h : IsLength ts n) :
    ReadsAfter before length ts n rest := by
  obtain @⟨t, n, kind, value⟩ := h
  refine .bindPeek fun u _ hu => ?_
  obtain rfl := hu t rfl
  rw [if_pos (by simp [kind])]
  simp only [value]
  exact .bindLast (next_reads (by simp [Token.isEnd, kind])) .pure

theorem typeTail_sound (form : TypeForm) : Sound (typeTail form) (IsTypeTail form) := by
  intro s type s' hend h
  cases form with
  | plain type =>
    obtain ⟨rfl, rfl⟩ := pure_eq_ok.1 h
    exact ⟨[], .refl hend, .plain type⟩
  | double =>
    obtain ⟨o, s₁, hw, h⟩ := bind_eq_ok.1 h
    obtain ⟨rfl, rfl⟩ := pure_eq_ok.1 h
    rcases word?_eq_ok hend hw with ⟨-, hc⟩ | ⟨t, kind, spelled, -, hc⟩
    · exact ⟨_, hc, .double⟩
    · exact ⟨_, hc, .doublePrecision (.intro kind spelled)⟩
  | decimal =>
    obtain ⟨o, s₁, ho, h⟩ := bind_eq_ok.1 h
    rcases punctuation?_eq_ok hend ho with ⟨rfl, hc⟩ | ⟨t, opening, rfl, hc₁⟩
    · obtain ⟨rfl, rfl⟩ := pure_eq_ok.1 h
      exact ⟨_, hc, .decimal⟩
    · obtain ⟨n, s₂, hn, h⟩ := bind_eq_ok.1 h
      obtain ⟨ns, hc₂, precision⟩ := length_sound hc₁.isEnd hn
      obtain ⟨k, s₃, hk, h⟩ := bind_eq_ok.1 h
      rcases punctuation?_eq_ok hc₂.isEnd hk with ⟨rfl, hc₃⟩ | ⟨u, comma, rfl, hc₃⟩
      · obtain ⟨_, s₄, hz, h⟩ := bind_eq_ok.1 h
        obtain ⟨rfl, rfl⟩ := pure_eq_ok.1 hz
        obtain ⟨_, s₅, hclose, h⟩ := bind_eq_ok.1 h
        obtain ⟨c, closing, -, hc₄⟩ := punctuation_eq_ok hc₃.isEnd hclose
        obtain ⟨rfl, rfl⟩ := pure_eq_ok.1 h
        exact ⟨_, hc₁.trans (hc₂.trans (hc₃.trans hc₄)),
          .decimalOf (.intro opening (.precision precision) closing)⟩
      · obtain ⟨m, s₄, hm, h⟩ := bind_eq_ok.1 h
        obtain ⟨ms, hc₄, scale⟩ := length_sound hc₃.isEnd hm
        obtain ⟨_, s₅, hz, h⟩ := bind_eq_ok.1 h
        obtain ⟨rfl, rfl⟩ := pure_eq_ok.1 hz
        obtain ⟨_, s₆, hclose, h⟩ := bind_eq_ok.1 h
        obtain ⟨c, closing, -, hc₅⟩ := punctuation_eq_ok hc₄.isEnd hclose
        obtain ⟨rfl, rfl⟩ := pure_eq_ok.1 h
        refine ⟨_, hc₁.trans ((hc₂.trans (hc₃.trans hc₄)).trans hc₅),
          .decimalOf (.intro opening (.scale precision (.intro comma scale)) closing)⟩
  | sized type =>
    obtain ⟨o, s₁, ho, h⟩ := bind_eq_ok.1 h
    rcases punctuation?_eq_ok hend ho with ⟨rfl, hc⟩ | ⟨t, opening, rfl, hc₁⟩
    · obtain ⟨rfl, rfl⟩ := pure_eq_ok.1 h
      exact ⟨_, hc, .sized type⟩
    · obtain ⟨n, s₂, hn, h⟩ := bind_eq_ok.1 h
      obtain ⟨ns, hc₂, length⟩ := length_sound hc₁.isEnd hn
      obtain ⟨_, s₃, hclose, h⟩ := bind_eq_ok.1 h
      obtain ⟨c, closing, -, hc₃⟩ := punctuation_eq_ok hc₂.isEnd hclose
      obtain ⟨rfl, rfl⟩ := pure_eq_ok.1 h
      exact ⟨_, hc₁.trans (hc₂.trans hc₃), .sizedOf type (.intro opening length closing)⟩

theorem dataType_sound : Sound dataType IsDataType := by
  intro s type s' hend h
  obtain ⟨t, s₁, hp, h⟩ := bind_eq_ok.1 h
  obtain ⟨rfl, rfl⟩ := peek_eq_ok hp
  by_cases kind : (ahead s).kind = .identifier .bare
  · simp only [kind, beq_self_eq_true, if_true] at h
    cases name : typeNamed? (capitals (ahead s).text) with
    | some form =>
      simp only [name] at h
      obtain ⟨t, s₂, hn, h⟩ := bind_eq_ok.1 h
      obtain ⟨rfl, hc⟩ := next_eq_ok hend hn (by simp [Token.isEnd, kind])
      obtain ⟨ts, hc', tail⟩ := typeTail_sound form hc.isEnd h
      exact ⟨_, hc.trans hc', .intro kind name tail⟩
    | none =>
      simp only [name] at h
      obtain ⟨_, s₂, -, h⟩ := bind_eq_ok.1 h
      exact absurd h unexpected_ne_ok
  · rw [if_neg (by simpa using kind)] at h
    obtain ⟨_, s₂, -, h⟩ := bind_eq_ok.1 h
    exact absurd h unexpected_ne_ok

/-- What can stand behind a data type. -/
def FollowsType (rest : List Token) : Prop :=
  headKind rest ≠ .punctuation .openParen ∧ headKind rest ≠ .identifier .bare

theorem typeTail_reads {form : TypeForm} {ts : List Token} {type : DataType}
    {before rest : List Token} (h : IsTypeTail form ts type) (hrest : FollowsType rest) :
    ReadsAfter before (typeTail form) ts type rest := by
  cases h with
  | plain => exact .pure
  | double => exact .bindLast (word?_absent hrest.2) .pure
  | doublePrecision word =>
    obtain ⟨kind, spelled⟩ := word
    exact .bindLast (word?_reads kind spelled) .pure
  | decimal => exact .bindLast (punctuation?_absent hrest.1) .pure
  | decimalOf size =>
    obtain @⟨o, c, ts, p, opening, part, closing⟩ := size
    refine .bindToken (punctuation?_reads opening) ?_
    cases part with
    | precision precision =>
      exact .bind (length_reads precision)
        (.bindNil (punctuation?_absent (by simp [closing]))
          (.bindNil .pure (.bindLast (punctuation_reads closing) .pure)))
    | @scale ts us n m precision scale =>
      obtain ⟨comma, scale⟩ := scale
      rw [List.append_assoc]
      exact .bind (length_reads precision) (.bindToken (punctuation?_reads comma)
        (.bind (length_reads scale)
          (.bindNil .pure (.bindLast (punctuation_reads closing) .pure))))
  | sized => exact .bindLast (punctuation?_absent hrest.1) .pure
  | sizedOf type size =>
    obtain ⟨opening, part, closing⟩ := size
    exact .bindToken (punctuation?_reads opening) (.bind (length_reads part)
      (.bindLast (punctuation_reads closing) .pure))

theorem dataType_reads {ts : List Token} {type : DataType} {before rest : List Token}
    (h : IsDataType ts type) (hrest : FollowsType rest) :
    ReadsAfter before dataType ts type rest := by
  obtain @⟨t, ts, form, type, kind, name, tail⟩ := h
  refine .bindPeek fun u _ hu => ?_
  obtain rfl := hu t rfl
  simp only [kind, beq_self_eq_true, if_true, name]
  exact .bindToken (next_reads (by simp [Token.isEnd, kind])) (typeTail_reads tail hrest)

end SqlSyntax.Parser
