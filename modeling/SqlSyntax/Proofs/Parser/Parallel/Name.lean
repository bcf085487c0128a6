import SqlSyntax.Proofs.Parser.Parallel.Basic

/-!
# Names and data types in parallel

A name consumes a token before anything else, so it leads from one stage of a
comparison to the next.
-/

namespace SqlSyntax.Parser

variable {f : Relocation} {R : ParserRelation} (h : Comparison f R) {m : Stage}

include h

/-! ## Names -/

theorem identifier_leads : Leads R .start (Identifier.mapSpans f.span) identifier identifier := by
  intro β w F G hF
  rw [identifier, bind_assoc, bind_assoc]
  refine h.peek_bind fun t => ?_
  rw [f.isIdentifier_token]
  split
  · rename_i found
    have inner : t.isEnd = false := by
      cases kind : t.kind <;> simp_all [Token.isIdentifier, Token.isEnd]
    have value : (f.token t).value = t.value := f.value_token
      (fun k kind => by simp [Token.isIdentifier, kind] at found)
      (fun o kind => by simp [Token.isIdentifier, kind] at found)
    refine .inr ⟨inner, ?_⟩
    rw [bind_assoc, bind_assoc]
    refine h.next_bind fun _ => ?_
    rw [pure_bind, pure_bind, f.span_token, value]
    exact hF _
  · rw [bind_assoc, bind_assoc]
    refine .inl (h.bind (by simp) (h.note _) fun _ => ?_)
    rw [unexpected_bind, unexpected_bind]
    exact unexpected_parallel h

theorem identifier_parallel : R m (Identifier.mapSpans f.span) identifier identifier :=
  (identifier_leads h).parallel h

theorem atNameDot_parallel : R m id atNameDot atNameDot := by
  refine h.weaken m (h.bind nofun (peek_parallel h) fun t => ?_)
  rw [f.kind_token]
  split
  · refine h.look 1 fun u => ?_
    rw [f.kind_token]
    exact h.pure rfl
  · exact h.pure rfl

theorem qualifiedName_leads :
    Leads R .start (QualifiedName.mapSpans f.span) qualifiedName qualifiedName := by
  refine (identifier_leads h).bind h fun first => ?_
  refine h.bind (v := Prod.map (List.map (·.mapSpans f.span)) (·.mapSpans f.span)) nofun
    (h.iterate nofun (fun p => ?_) pairedStep_progressive.advances rfl) fun p => pure_parallel h ?_
  · refine h.bind nofun (atNameDot_parallel h) fun dot => ?_
    cases dot with
    | false => exact pure_parallel h rfl
    | true =>
      exact h.bind nofun (h.weaken _ h.next) fun _ => h.bind nofun (identifier_parallel h)
        fun _ => pure_parallel h rfl
  · simp [QualifiedName.mapSpans, Identifier.mapSpans, f.span_union]

theorem qualifiedName_parallel : R m (QualifiedName.mapSpans f.span) qualifiedName qualifiedName :=
  (qualifiedName_leads h).parallel h

theorem columnList_parallel :
    R .free (List.map (Identifier.mapSpans f.span)) columnList columnList :=
  parenthesized_parallel h (commaSeparated_parallel h (identifier_parallel h) identifier_sound)

theorem alias?_parallel : R .free (Option.map (Identifier.mapSpans f.span)) alias? alias? := by
  refine h.bind nofun (keyword?_parallel h .AS) fun o => ?_
  cases o with
  | some _ => exact h.bind nofun (identifier_parallel h) fun _ => pure_parallel h rfl
  | none =>
    refine h.bind nofun (peek_parallel h) fun t => ?_
    rw [f.isIdentifier_token]
    split
    · exact h.bind nofun (identifier_parallel h) fun _ => pure_parallel h rfl
    · exact h.bind nofun (h.weaken _ (h.note _)) fun _ => pure_parallel h rfl

/-! ## Data types -/

theorem length_parallel : R .free id length length := by
  refine h.bind nofun (peek_parallel h) fun t => ?_
  rw [f.kind_token]
  split
  · rename_i number
    have kind : t.kind = .number := by simpa using number
    rw [f.text_token t (by simp [kind]) (by simp [kind])]
    cases Digits.valueUpTo maxLength t.text with
    | some n => exact h.bind nofun (h.weaken _ h.next) fun _ => pure_parallel h rfl
    | none => exact h.weaken _ (h.failAt _ t)
  · exact missing_parallel h _

theorem typeTail_parallel (form : TypeForm) : R .free id (typeTail form) (typeTail form) := by
  cases form with
  | plain type => exact pure_parallel h rfl
  | double => exact h.bind nofun (word?_parallel h _) fun _ => pure_parallel h rfl
  | decimal =>
    refine h.bind nofun (punctuation?_parallel h .openParen) fun o => ?_
    cases o with
    | none => exact pure_parallel h rfl
    | some _ =>
      refine h.bind nofun (length_parallel h) fun precision =>
        h.bind nofun (punctuation?_parallel h .comma) fun o => ?_
      have close (scale : Option Nat) : R .free id
          (do let _ ← punctuation .closeParen; return DataType.decimalOf precision scale)
          (do let _ ← punctuation .closeParen; return DataType.decimalOf precision scale) :=
        h.bind nofun (punctuation_parallel h .closeParen) fun _ => pure_parallel h rfl
      cases o with
      | none => exact h.bind (v := id) nofun (pure_parallel h rfl) close
      | some _ =>
        exact h.bind nofun (length_parallel h) fun n =>
          h.bind (v := id) nofun (pure_parallel h rfl) close
  | sized type =>
    refine h.bind nofun (punctuation?_parallel h .openParen) fun o => ?_
    cases o with
    | none => exact pure_parallel h rfl
    | some _ =>
      exact h.bind nofun (length_parallel h) fun _ => h.bind nofun
        (punctuation_parallel h .closeParen) fun _ => pure_parallel h rfl

theorem dataType_parallel : R .free id dataType dataType := by
  refine h.bind nofun (peek_parallel h) fun t => ?_
  have same : (if (f.token t).kind == .identifier .bare then typeNamed? (capitals (f.token t).text)
      else none) = if t.kind == .identifier .bare then typeNamed? (capitals t.text) else none := by
    rw [f.kind_token]
    by_cases kind : t.kind = .identifier .bare
    · rw [f.text_token_of_identifier kind]
    · simp [kind]
  dsimp only
  rw [same]
  split
  · exact h.bind nofun (h.weaken _ h.next) fun _ => typeTail_parallel h _
  · exact missing_parallel h _

end SqlSyntax.Parser
