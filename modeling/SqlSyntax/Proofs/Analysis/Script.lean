import SqlSyntax.Proofs.Parser.Division
import SqlSyntax.Proofs.Validation.Spans

/-!
# Analyses of scripts

A script is its statements. Its analyses are those of the pieces of its text that
the statements cover, and texts that are put together with semicolons on lines of
their own have the analyses that they have one by one, moved to where they stand.

## Main results

* `readFrom_intercalate` — texts that are put together are read as a script.
* `analyzeScript_statements` — the analyses of a script are those of its statements.
-/

namespace SqlSyntax

open Grammar

/-! ## Moves -/

/-- Statements are moved to where a text starts that stood at the start of an
input. -/
theorem Analysis.ofStatement_shift (o : AnalysisOptions) (n : Nat) (s : Statement) :
    ofStatement o (s.mapSpans (Span.shift 0 n)) = (ofStatement o s).mapSpans (Span.shift 0 n) := by
  refine ofStatement_mapSpans (fun s t => ?_) (fun s t => ?_) o s
  · simp only [Span.shift, Span.map, Span.union]
    congr 1 <;> omega
  · simp only [Span.shift, Span.map]
    omega

theorem analyze_eq_ok_iff {o : AnalysisOptions} {sql : String} {a : Analysis} :
    analyze o sql = .ok a ↔ ∃ s, parseStatement o.limits sql = .ok s ∧ a = .ofStatement o s := by
  unfold analyze
  cases parseStatement o.limits sql with
  | error e => exact ⟨nofun, nofun⟩
  | ok s => simp [Except.map, eq_comm]

theorem analyzeScript_eq_ok_iff {o : AnalysisOptions} {sql : String} {as : List Analysis} :
    analyzeScript o sql = .ok as ↔
      ∃ ss, parseScript o.limits sql = .ok ss ∧ as = ss.map (.ofStatement o) := by
  unfold analyzeScript
  cases parseScript o.limits sql with
  | error e => exact ⟨nofun, nofun⟩
  | ok ss => simp [Except.map, eq_comm]

theorem statements_of_analyses {o : AnalysisOptions} {texts : List String} {as : List Analysis}
    (h : List.Forall₂ (fun text a => analyze o text = .ok a) texts as) :
    ∃ ss, List.Forall₂ (fun text s => parseStatement o.limits text = .ok s) texts ss ∧
      as = ss.map (.ofStatement o) := by
  induction h with
  | nil => exact ⟨[], .nil, rfl⟩
  | cons analyzed _ ih =>
    obtain ⟨s, parsed, rfl⟩ := analyze_eq_ok_iff.1 analyzed
    obtain ⟨ss, others, rfl⟩ := ih
    exact ⟨s :: ss, .cons parsed others, rfl⟩

/-! ## Texts put together -/

/-- Where texts start, the first at `n` and the others three bytes behind the one
before. -/
def starts (n : Nat) : List String → List Nat
  | [] => []
  | text :: texts => n :: starts (n + text.utf8ByteSize + 3) texts

namespace Grammar

variable {P : Phrases} {us vs ws : List Token} {t : Token} {s : Statement} {ss : List Statement}

theorem IsScript.semicolon (kind : t.kind = .punctuation .semicolon) (h : IsScript P ws ss) :
    IsScript P (t :: ws) ss := by
  have more {us : List Token} (before : Semicolons us) : Semicolons (t :: us) :=
    List.forall_mem_cons.2 ⟨kind, before⟩
  cases h with
  | done before => exact .done (more before)
  | last before statement => exact .last (more before) statement
  | statement before statement closing others =>
    exact .statement (more before) statement closing others

/-- A statement with its closing alone. -/
theorem IsScript.single (statement : IsStatement P us s) (closing : IsClosing vs) :
    IsScript P (us ++ vs) [s] := by
  cases closing with
  | none =>
    rw [List.append_nil]
    exact .last .nil statement
  | semicolon kind => exact .statement .nil statement kind (.done .nil)

/-- A statement with its closing, a semicolon and the rest of a script. -/
theorem IsScript.cons (statement : IsStatement P us s) (closing : IsClosing vs)
    (kind : t.kind = .punctuation .semicolon) (others : IsScript P ws ss) :
    IsScript P (us ++ vs ++ t :: ws) (s :: ss) := by
  cases closing with
  | none =>
    rw [List.append_nil]
    exact .statement .nil statement kind others
  | @semicolon u kind' =>
    rw [List.append_assoc]
    have script := IsScript.statement .nil statement kind' (others.semicolon kind)
    exact script

theorem IsClosing.map (h : IsClosing us) (f : Relocation) : IsClosing (us.map f.token) := by
  cases h with
  | none => exact .none
  | semicolon kind => exact .semicolon (by rw [f.kind_token, kind])

end Grammar

/-- The tokens of a statement, wherever its text stands. -/
theorem readFrom_of_parseStatement {limits : Limits} {text : String} {s : Statement}
    (h : parseStatement limits text = .ok s) (p : Position) :
    ∃ us vs t, TokenStream.readFrom p text.toList = ⟨us ++ vs ++ [t], none⟩ ∧ t.isEnd ∧
      IsStatement (phrases True limits.maxDepth) us (s.mapSpans (Span.shift 0 p.offset)) ∧
      IsClosing vs := by
  obtain ⟨us, vs, t, stream, statement, closing⟩ := parseStatement_sound h
  have isEnd := (TokenStream.isEnd_of_eq stream).2
  let f := Relocation.ofPiece 0 p text.toList
  refine ⟨us.map f.token, vs.map f.token, f.token t, ?_, ?_, ?_, closing.map f⟩
  · have moved := (TokenStream.readFrom_moved stream).2 p
    rw [List.map_append, List.map_append] at moved
    exact moved
  · rw [f.isEnd_token, isEnd]
  · exact statement_relocate f statement

/-- Behind a text and a semicolon on a line of its own. -/
theorem readFrom_semicolon_line {p : Position} {cs : List Char} {ts : List Token} {t : Token}
    (h : TokenStream.readFrom p cs = ⟨ts ++ [t], none⟩) (rest : List Char) :
    ∃ u q, u.kind = .punctuation .semicolon ∧ q.offset = p.offset + byteLength cs + 3 ∧
      TokenStream.readFrom p (cs ++ "\n;\n".toList ++ rest) =
        (TokenStream.readFrom q rest).prepend (ts ++ [u]) := by
  let u := TokenStream.tokenAt (p.advanceAll (cs ++ ['\n'])) (.punctuation .semicolon) [';']
  have reads : Lexeme.ReadsAs [';'] (.punctuation .semicolon) (['\n'] ++ rest) :=
    Lexeme.readsAs_punctuation (p := .semicolon) nofun
  refine ⟨u, p.advanceAll (cs ++ "\n;\n".toList), rfl, ?_, ?_⟩
  · rw [Position.offset_advanceAll, byteLength_append]
    rfl
  · have lines : cs ++ "\n;\n".toList ++ rest = cs ++ '\n' :: ([';'] ++ (['\n'] ++ rest)) := by
      simp
    have feed : IsGap ['\n'] := .space (by decide) .nil
    have place : ((p.advanceAll (cs ++ ['\n'])).advanceAll [';']).advanceAll ['\n'] =
        p.advanceAll (cs ++ "\n;\n".toList) := by
      rw [← Position.advanceAll_append, ← Position.advanceAll_append]
      simp
    rw [lines, TokenStream.readFrom_append h, TokenStream.readFrom_lexeme reads,
      TokenStream.readFrom_gap_append feed, place]
    simp [TokenStream.prepend, u]

/-- Texts that are put together are read as a script of their statements. -/
theorem readFrom_intercalate {limits : Limits} {texts : List String} {ss : List Statement}
    (h : List.Forall₂ (fun text s => parseStatement limits text = .ok s) texts ss)
    (p : Position) :
    ∃ ts t, TokenStream.readFrom p ("\n;\n".toList.intercalate (texts.map String.toList)) =
        ⟨ts ++ [t], none⟩ ∧ t.isEnd ∧
      IsScript (phrases True limits.maxDepth) ts
        (List.zipWith (fun n s => s.mapSpans (Span.shift 0 n)) (starts p.offset texts) ss) := by
  induction h generalizing p with
  | nil =>
    refine ⟨[], _, TokenStream.readFrom_last (.complete .nil) p, rfl, .done .nil⟩
  | @cons text s texts ss parsed others ih =>
    obtain ⟨us, vs, t, stream, isEnd, statement, closing⟩ := readFrom_of_parseStatement parsed p
    cases others with
    | nil =>
      refine ⟨us ++ vs, t, ?_, isEnd, .single statement closing⟩
      simpa [List.intercalate] using stream
    | @cons text' s' texts ss parsed' others =>
      have split : "\n;\n".toList.intercalate
          ((text :: text' :: texts).map String.toList) = text.toList ++ "\n;\n".toList ++
            "\n;\n".toList.intercalate ((text' :: texts).map String.toList) := by
        simp [List.intercalate]
      obtain ⟨u, q, kind, offset, behind⟩ := readFrom_semicolon_line stream
        ("\n;\n".toList.intercalate ((text' :: texts).map String.toList))
      obtain ⟨ws, v, rest, isEnd', script⟩ := ih q
      refine ⟨us ++ vs ++ u :: ws, v, ?_, isEnd', ?_⟩
      · rw [split, behind, rest]
        simp [TokenStream.prepend]
      · rw [offset, ← utf8ByteSize_eq] at script
        exact .cons statement closing kind script

/-! ## Scripts -/

/-- A script is its statements. They divide its text, and the analysis of each is
that of the piece that it covers, moved to its place. Texts that are analyzed one by
one and put together have their analyses, each moved to where its text starts. -/
theorem analyzeScript_statements (o : AnalysisOptions) :
    (∀ sql as, analyzeScript o sql = .ok as →
      Divides 0 [] sql.toList (as.map fun a => a.statement.span) ∧
      (as.map fun a => a.statement.span).Pairwise (fun s t => s.stop ≤ t.start) ∧
      ∀ a ∈ as, ∃ b, analyze o (a.statement.span.slice sql) = .ok b ∧
        a = b.mapSpans (Span.shift 0 a.statement.span.start)) ∧
    ∀ texts as, List.Forall₂ (fun text a => analyze o text = .ok a) texts as →
      ("\n;\n".intercalate texts).utf8ByteSize ≤ o.limits.maxInputBytes →
      analyzeScript o ("\n;\n".intercalate texts) =
        .ok (List.zipWith (fun n a => a.mapSpans (Span.shift 0 n)) (starts 0 texts) as) := by
  refine ⟨fun sql as h => ?_, fun texts as h hsize => ?_⟩
  · obtain ⟨ss, parsed, rfl⟩ := analyzeScript_eq_ok_iff.1 h
    have spans : (ss.map (Analysis.ofStatement o)).map (fun a => a.statement.span) =
        ss.map Statement.span := by
      rw [List.map_map]
      rfl
    have divides := parseScript_divides parsed
    rw [spans]
    refine ⟨divides, divides.pairwise.2, fun a ha => ?_⟩
    obtain ⟨s, hs, rfl⟩ := List.mem_map.1 ha
    obtain ⟨b, alone, moved⟩ := parseScript_slice parsed hs
    refine ⟨.ofStatement o b, analyze_eq_ok_iff.2 ⟨b, alone, rfl⟩, ?_⟩
    rw [← Analysis.ofStatement_shift]
    exact congrArg (Analysis.ofStatement o) moved
  · obtain ⟨ss, parsed, rfl⟩ := statements_of_analyses h
    obtain ⟨ts, t, stream, isEnd, script⟩ := readFrom_intercalate parsed .origin
    rw [← String.toList_intercalate] at stream
    have whole := parseScript_complete hsize stream isEnd script
    refine analyzeScript_eq_ok_iff.2 ⟨_, whole, ?_⟩
    rw [List.map_zipWith, List.zipWith_map_right]
    simp only [Analysis.ofStatement_shift]
    rfl

/-- A script of two selections, taken apart and put together. -/
theorem script_of_selections :
    (∃ a b, analyzeScript {} "SELECT a; ; SELECT 1 -- c" = .ok [a, b] ∧
      Divides 0 [] "SELECT a; ; SELECT 1 -- c".toList [a.statement.span, b.statement.span]) ∧
    ∃ a b, analyze {} "SELECT a;" = .ok a ∧ analyze {} "SELECT 1 -- c" = .ok b ∧
      analyzeScript {} "SELECT a;\n;\nSELECT 1 -- c" =
        .ok [a.mapSpans (Span.shift 0 0), b.mapSpans (Span.shift 0 12)] := by
  obtain ⟨apart, together⟩ := analyzeScript_statements {}
  constructor
  · have parsed : ((parseScript {} "SELECT a; ; SELECT 1 -- c").toOption.any
        (·.length == 2)) = true := by decide +kernel
    cases h : parseScript {} "SELECT a; ; SELECT 1 -- c" with
    | error => simp [h, Except.toOption] at parsed
    | ok ss =>
      simp only [h, Except.toOption, Option.any_some, beq_iff_eq] at parsed
      obtain ⟨s, t, rfl⟩ := List.length_eq_two.1 parsed
      have analyzed := (analyzeScript_eq_ok_iff (o := {})).2 ⟨_, h, rfl⟩
      exact ⟨_, _, analyzed, (apart _ _ analyzed).1⟩
  · have parsed : (parseStatement {} "SELECT a;").isOk := by decide +kernel
    have parsed' : (parseStatement {} "SELECT 1 -- c").isOk := by decide +kernel
    cases h : parseStatement {} "SELECT a;" with
    | error => simp [h, Except.toBool] at parsed
    | ok s =>
      cases h' : parseStatement {} "SELECT 1 -- c" with
      | error => simp [h', Except.toBool] at parsed'
      | ok t =>
        have analyzed := (analyze_eq_ok_iff (o := {})).2 ⟨s, h, rfl⟩
        have analyzed' := (analyze_eq_ok_iff (o := {})).2 ⟨t, h', rfl⟩
        exact ⟨_, _, analyzed, analyzed',
          together _ _ (.cons analyzed (.cons analyzed' .nil)) (by decide +kernel)⟩

end SqlSyntax
