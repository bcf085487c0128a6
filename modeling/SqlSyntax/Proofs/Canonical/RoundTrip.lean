import SqlSyntax.Proofs.Canonical.Rereading.Nesting
import SqlSyntax.Proofs.Canonical.Tidy
import SqlSyntax.Proofs.Interchange.Spans
import SqlSyntax.Proofs.Parser.Precedence

/-!
# Round trips

Canonical texts are parsed to the statements that they are the canonical texts
of, apart from spans.

## Main results

* `parseStatement_canonical` — the canonical text of an admissible statement is
  parsed with as many levels as the statement takes.
* `parseStatement_roundTrip` — a parsed text and its canonical text are parsed
  to the same statement.
* `parseStatement_complete_of_wellFormed` — every well-formed statement is
  parsed from its canonical text.
-/

namespace SqlSyntax

/-- The canonical text of an admissible statement is parsed to that statement. -/
theorem parseStatement_canonical {limits : Limits} {s : Statement}
    (admissible : (Node.statement s).Admissible limits.maxDepth)
    (hsize : s.canonical.utf8ByteSize ≤ limits.maxInputBytes) :
    ∃ t, parseStatement limits s.canonical = .ok t ∧ t.unplaced = s.unplaced := by
  obtain ⟨ts, t, stream, ht, spelled⟩ := Statement.ofString_canonical admissible.wellFormed
  obtain ⟨s', reading, same⟩ := (Node.statement s).rereads admissible spelled
  have stream : TokenStream.ofString s.canonical = ⟨ts ++ [] ++ [t], none⟩ := by
    rw [stream, List.append_nil]
  exact ⟨s', parseStatement_complete hsize stream ht reading .none, same⟩

/-- A parsed text and its canonical text are parsed to the same statement, apart
from spans, with the same limit on its depth. -/
theorem parseStatement_roundTrip {limits : Limits} {sql : String} {s : Statement}
    (h : parseStatement limits sql = .ok s) {bytes : Nat}
    (hsize : s.canonical.utf8ByteSize ≤ bytes) :
    ∃ t, parseStatement ⟨bytes, limits.maxDepth⟩ s.canonical = .ok t ∧
      t.unplaced = s.unplaced ∧ s.structurallyEqual t = true ∧ t.canonical = s.canonical := by
  have admissible := parseStatement_admissible h
  obtain ⟨t, parsed, same⟩ : ∃ t, parseStatement ⟨bytes, limits.maxDepth⟩ s.canonical = .ok t ∧
      t.unplaced = s.unplaced := parseStatement_canonical admissible hsize
  exact ⟨t, parsed, same, Statement.structurallyEqual_of_unplaced_eq same.symm,
    Statement.canonical_eq_of_unplaced_eq same⟩

/-- A text with noise words, an alias without `AS` and the old form of
`LIMIT`. -/
theorem roundTrip_of_noise_words :
    ∃ s t, parseStatement {} "select all a.b x, - -1e3 from \"t u\" limit 5, 10;" = .ok s ∧
      s.canonical = "SELECT a.b AS x, - -1e3 FROM \"t u\" LIMIT 10 OFFSET 5" ∧
      parseStatement {} s.canonical = .ok t ∧ t.unplaced = s.unplaced ∧
      s.structurallyEqual t = true ∧ t.canonical = s.canonical := by
  have parsed : (match parseStatement {} "select all a.b x, - -1e3 from \"t u\" limit 5, 10;" with
      | .ok s => s.canonical
      | .error _ => "") = "SELECT a.b AS x, - -1e3 FROM \"t u\" LIMIT 10 OFFSET 5" := by
    decide +kernel
  cases h : parseStatement {} "select all a.b x, - -1e3 from \"t u\" limit 5, 10;" with
  | error => simp [h] at parsed
  | ok s =>
    have canonical : s.canonical = "SELECT a.b AS x, - -1e3 FROM \"t u\" LIMIT 10 OFFSET 5" := by
      simpa only [h] using parsed
    have small : s.canonical.utf8ByteSize ≤ 1048576 := by
      rw [canonical]
      decide +kernel
    obtain ⟨t, again⟩ := parseStatement_roundTrip h small
    exact ⟨s, t, rfl, canonical, again⟩

/-- Every well-formed statement is parsed from its canonical text, if the limits
are large enough. -/
theorem parseStatement_complete_of_wellFormed {s : Statement} (h : s.WellFormed) :
    ∃ bytes depth, ∀ limits : Limits, bytes ≤ limits.maxInputBytes → depth ≤ limits.maxDepth →
      ∃ t, parseStatement limits s.canonical = .ok t ∧ t.unplaced = s.unplaced := by
  obtain ⟨depth, enough⟩ := h.admissible
  exact ⟨s.canonical.utf8ByteSize, depth, fun limits hbytes hdepth =>
    parseStatement_canonical (enough _ hdepth) hbytes⟩

/-- A product with a sum in parentheses and a sign. -/
theorem complete_of_product :
    let s : Statement := .query ⟨⟨0, 0⟩, .select ⟨⟨0, 0⟩, false, [.expr ⟨0, 0⟩
      ⟨⟨0, 0⟩, .binary .times
        ⟨⟨0, 0⟩, .nested ⟨⟨0, 0⟩, .binary .plus
          ⟨⟨0, 0⟩, .column ⟨⟨0, 0⟩, [], ⟨⟨0, 0⟩, "naïve \"name\""⟩⟩⟩
          ⟨⟨0, 0⟩, .literal (.number "1.5e3")⟩⟩⟩
        ⟨⟨0, 0⟩, .unary .minus ⟨⟨0, 0⟩, .literal (.string "it's")⟩⟩⟩ none],
      none, none, none, none⟩, none, none⟩
    s.WellFormed ∧ ∃ bytes depth, ∀ limits : Limits, bytes ≤ limits.maxInputBytes →
      depth ≤ limits.maxDepth →
      ∃ t, parseStatement limits s.canonical = .ok t ∧ t.unplaced = s.unplaced := by
  intro s
  have number : IsNumber "1.5e3" := by rfl
  have wellFormed : s.WellFormed := by
    simp [s, Statement.WellFormed, Statement.nodes, Node.preorder_eq, Node.children,
      Statement.children, Select.children, Expr.operands, Query.trailing, Expr.query?,
      Node.WellFormed, Expr.WellFormed, Expr.OperandsFit, Expr.FitsLeft, Expr.Above,
      Expr.leftLevels, Expr.level?, Expr.endsInNot, Statement.Complete, Literal.WellFormed, number]
  exact ⟨wellFormed, parseStatement_complete_of_wellFormed wellFormed⟩

end SqlSyntax
