import SqlSyntax.Proofs.Parser.Guidance.Basic

/-!
# Guidance of the parsers of names and data types

None of these notes anything that its phrase does not go on with.
-/

namespace SqlSyntax.Parser

open Grammar

variable {V : Beginnings} {before : List Token} {s : ParserState}

/-! ## Samples -/

theorem isIdentifier_sample :
    IsIdentifier [Expectation.identifier.sample]
      ⟨Expectation.identifier.sample.span, Expectation.identifier.sample.value⟩ :=
  .intro (show Expectation.identifier.sample.kind = .identifier .bare from rfl)

theorem isLength_sample : IsLength [Expectation.number.sample] 1 :=
  .intro rfl (by decide +kernel)

theorem isDataType_sample : IsDataType [Expectation.dataType.sample] .int := by
  have name : Parser.typeNamed? (capitals Expectation.dataType.sample.text) =
      some (.plain .int) := rfl
  exact .intro rfl name (.plain .int)

/-- Identifiers with dots between them are the parts of a name. -/
theorem exists_isName {ts : List Token} {is : List Identifier}
    (h : Separated (.punctuation .dot) IsIdentifier ts is) : ∃ n, IsName ts n := by
  have hne : is ≠ [] := by
    cases h
    simp
  have parts := List.dropLast_concat_getLast hne
  refine ⟨⟨(is.head hne).span.union (is.getLast hne).span, is.dropLast, is.getLast hne⟩, ?_, ?_⟩
  · rwa [QualifiedName.parts, parts]
  · intro i hi
    rw [QualifiedName.parts, parts, List.head?_eq_some_head hne] at hi
    obtain rfl := Option.some.inj hi
    rfl

/-- A list of one part. -/
theorem separated_one {α : Type} {k : TokenKind} {R : List Token → α → Prop} {ts : List Token}
    {a : α} (h : R ts a) : Separated k R ts [a] := by
  have one : Separated k R (ts ++ []) [a] := .intro h .nil
  rwa [List.append_nil] at one

theorem someName : ∃ ts n, IsName ts n :=
  ⟨_, exists_isName (separated_one isIdentifier_sample)⟩

theorem someColumnList : ∃ ts cs, IsColumnList ts cs :=
  ⟨_, _, .intro (Expectation.kind_punctuation .openParen) (separated_one isIdentifier_sample)
    (Expectation.kind_punctuation .closeParen)⟩

/-! ## Names -/

theorem offers_identifier (h : Fits V before IsIdentifier) : Offers V before [.identifier] :=
  .cons trivial (h isIdentifier_sample) .nil

theorem identifier_guides : GuidesTo V identifier IsIdentifier := by
  intro before s h ready
  refine .bindPeek ready ?_
  split
  · rename_i ht
    obtain ⟨style, kind⟩ := Token.isIdentifier_iff.1 ht
    exact .bindNext ready (by simp [Token.isEnd, kind]) fun _ _ ready' => .pure ready'
  · exact .noteUnexpected ready (offers_identifier h)

theorem atNameDot_guides (ready : Ready V before s) : Guides V before atNameDot s := by
  refine .bindPeek ready ?_
  split
  · exact .bindPeekAt ready (.pure ready)
  · exact .pure ready

theorem qualifiedName_guides : GuidesTo V qualifiedName IsName := by
  intro before s h ready
  have parts : ∀ {ts is}, Separated (.punctuation .dot) IsIdentifier ts is →
      V.holds (before ++ ts) := fun his => (exists_isName his).elim fun _ name => h name
  refine .bindSound ready identifier_sound
    (identifier_guides (fun ts i hi => V.of_prefix (parts (.intro hi .nil)) (by simp)) ready)
    fun first s₁ ts hc₁ ready₁ hfirst => ?_
  refine .map (iterate_guides
    (I := fun before _ => Fits V before (Many (Behind (.punctuation .dot) IsIdentifier)))
    nameStep_sound ?_ ?_ ?_ ready₁)
  · intro before p us q hp step vs is his
    rw [List.append_assoc]
    exact hp (.cons step.2 his)
  · intro before p s hp ready
    refine .bindLook ready (atNameDot_guides ready) (fun _ _ h => atNameDot_eq_ok h) fun b hdot => ?_
    split
    · rename_i hb
      have kind := hdot hb
      refine .bindNext ready (by simp [Token.isEnd, kind]) fun s' _ ready' => ?_
      exact .map (identifier_guides
        (fun us i hi => hp.part (.cons (.intro kind hi) .nil) (by simp)) ready')
    · exact .pure ready
  · intro us is his
    exact V.of_prefix (parts (.intro hfirst his)) (by simp)

theorem columnList_guides : GuidesTo V columnList IsColumnList :=
  parenthesized_guides (commaSeparated_sound identifier_sound)
    (commaSeparated_guides identifier_sound identifier_guides)
    ⟨_, _, .intro isIdentifier_sample .nil⟩

theorem alias?_guides : GuidesTo V alias? IsAlias := by
  intro before s h ready
  refine .keyword? ready
    (fun t kind => h.part (.announced (.intro kind isIdentifier_sample)) (by simp))
    (fun t s₁ kind hc₁ ready₁ => ?_) fun s₁ hc₁ ready₁ => .bindPeek ready₁ ?_
  · exact .map (identifier_guides
      (fun ts i hi => h.part (.announced (.intro kind hi)) (by simp)) ready₁)
  · have bare : Fits V before IsIdentifier := fun ts i hi => h (.bare hi)
    split
    · exact .map (identifier_guides bare ready₁)
    · exact .bindNote ready₁ (offers_identifier bare) fun _ _ ready₂ => .pure ready₂

/-! ## Data types -/

theorem length_guides : GuidesTo V length IsLength := by
  intro before s h ready
  refine .bindPeek ready ?_
  split
  · rename_i ht
    have kind : (ahead s).kind = .number := by simpa using ht
    split
    · exact .bindNext ready (by simp [Token.isEnd, kind]) fun _ _ ready' => .pure ready'
    · exact .failAt ready
  · exact .noteUnexpected ready (.cons trivial (h isLength_sample) .nil)

theorem typeTail_guides (form : TypeForm) : GuidesTo V (typeTail form) (IsTypeTail form) := by
  intro before s h ready
  have closing := Expectation.kind_punctuation .closeParen
  cases form with
  | plain type => exact .pure ready
  | double =>
    exact .word? ready (by simp [contextualWords])
      (fun t kind spelled => h (.doublePrecision (.intro kind spelled)))
      (fun _ _ _ _ _ ready₁ => .pure ready₁) fun _ _ ready₁ => .pure ready₁
  | decimal =>
    refine .punctuation? ready
      (fun t kind => h.part (.decimalOf (.intro kind (.precision isLength_sample) closing))
        (by simp)) (fun t s₁ opening hc₁ ready₁ => ?_) fun _ _ ready₁ => .pure ready₁
    refine .bindSound ready₁ length_sound (length_guides (fun ts n hn =>
      h.part (.decimalOf (.intro opening (.precision hn) closing)) (by simp)) ready₁)
      fun n s₂ ts hc₂ ready₂ precision => ?_
    have finish : ∀ {us s₃} {scale : Option Nat}, Ready V (before ++ [t] ++ us) s₃ →
        IsDecimalSize us (n, scale) → Guides V (before ++ [t] ++ us)
          (do
            let _ ← punctuation .closeParen
            return DataType.decimalOf n scale) s₃ := by
      intro us s₃ scale ready₃ size
      exact .punctuation ready₃
        (fun c closing => h.part (.decimalOf (.intro opening size closing)) (by simp))
        fun _ _ _ _ ready₄ => .pure ready₄
    refine .punctuation? ready₂
      (fun c comma => h.part (.decimalOf (.intro opening
        (.scale precision (.intro comma isLength_sample)) closing)) (by simp))
      (fun c s₃ comma hc₃ ready₃ => ?_) fun s₃ hc₃ ready₃ => ?_
    · refine .bindSound ready₃ length_sound (length_guides (fun ms m hm =>
        h.part (.decimalOf (.intro opening (.scale precision (.intro comma hm)) closing))
          (by simp)) ready₃) fun m s₄ ms hc₄ ready₄ scale => ?_
      have same : before ++ [t] ++ ts ++ [c] ++ ms = before ++ [t] ++ (ts ++ c :: ms) := by simp
      rw [same] at ready₄ ⊢
      exact finish ready₄ (.scale precision (.intro comma scale))
    · exact finish ready₃ (.precision precision)
  | sized type =>
    refine .punctuation? ready
      (fun t kind => h.part (.sizedOf type (.intro kind isLength_sample closing))
        (by simp)) (fun t s₁ opening hc₁ ready₁ => ?_) fun _ _ ready₁ => .pure ready₁
    refine .bindSound ready₁ length_sound (length_guides (fun ts n hn =>
      h.part (.sizedOf type (.intro opening hn closing)) (by simp)) ready₁)
      fun n s₂ ts hc₂ ready₂ size => ?_
    exact .punctuation ready₂
      (fun c closing => h.part (.sizedOf type (.intro opening size closing)) (by simp))
      fun _ _ _ _ ready₃ => .pure ready₃

theorem dataType_guides : GuidesTo V dataType IsDataType := by
  intro before s h ready
  have absent : Guides V before (do note [.dataType]; unexpected : Parser DataType) s :=
    .noteUnexpected ready (.cons trivial (h isDataType_sample) .nil)
  refine .bindPeek ready ?_
  by_cases kind : (ahead s).kind = .identifier .bare
  · simp only [kind, beq_self_eq_true, if_true]
    cases name : typeNamed? (capitals (ahead s).text) with
    | some form =>
      refine .bindNext ready (by simp [Token.isEnd, kind]) fun s' _ ready' => ?_
      exact typeTail_guides form (fun ts type tail => h.part (.intro kind name tail) (by simp))
        ready'
    | none => exact absent
  · rw [if_neg (by simpa using kind)]
    exact absent

end SqlSyntax.Parser
