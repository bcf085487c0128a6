import SqlSyntax.Interchange.Query
import SqlSyntax.Proofs.Parser.Division
import SqlSyntax.Proofs.Parser.Fallbacks
import SqlSyntax.Proofs.Parser.Places
import SqlSyntax.Proofs.Parser.Precedence
import SqlSyntax.Proofs.Parser.Sessions
import SqlSyntax.Proofs.Token.Cursor

/-!
# No input leads to a crash

From the characters of a text to the documents made of its trees, there are few operations
that fail on some arguments: slices of the text, indexes into the queue of a buffer and into
the parts of a name, and cases that are taken to be impossible. Each is described with such a
failure in another module or below, and none of them fails on what comes from a text.

This holds for a parser that reads the text and for one that is given tokens of the text in any
order, any number of times; for any number of calls on it, whatever the earlier ones returned;
and at every limit.

## Main results

* `QualifiedName.indexed` — the parts of a name that are looked up by their index.
* `Parser.outcomes_wellFormed` — the trees that a session returns are well formed.
* `crashFree` — all of it, for every text.
-/

namespace SqlSyntax

open SqlSyntax.Parser (Call Fallbacks Parsed)

/-! ## Parts of a name by their index -/

/-- The first `n` elements of a list that has as many. -/
def upTo? {α : Type} (n : Nat) (as : List α) : Option (List α) :=
  if n ≤ as.length then some (as.take n) else none

namespace QualifiedName

/-- The last part. -/
def baseAt? (n : QualifiedName) : Option Identifier := n.parts[n.parts.length - 1]?

/-- The part before the last, if there are two parts or more. -/
def qualifierAt? (n : QualifiedName) : Option (Option Identifier) :=
  match n.parts.length with
  | 0 | 1 => some none
  | k + 2 => n.parts[k]?.map some

/-- The values of the parts before the last, joined by dots. -/
def qualifierDocumentUpTo? (n : QualifiedName) : Option Document :=
  match n.parts.length with
  | 0 | 1 => some Document.null
  | k + 2 => (upTo? (k + 1) n.parts).map fun front =>
    Document.string (".".intercalate (front.map (·.value)))

/-- A name has parts at all indexes at which they are looked up. -/
structure Indexed (n : QualifiedName) : Prop where
  nonempty : n.parts ≠ []
  base : n.baseAt? = some n.base
  qualifier : n.qualifierAt? = some n.qualifier?
  document : n.qualifierDocumentUpTo? = some n.qualifierDocument

theorem indexed (n : QualifiedName) : n.Indexed where
  nonempty := List.append_ne_nil_of_right_ne_nil _ (List.cons_ne_nil _ _)
  base := by simp [baseAt?, parts]
  qualifier := by
    rw [qualifierAt?, qualifier?, parts]
    rcases n.qualifiers.eq_nil_or_concat with none | ⟨front, q, some⟩
    · rw [none]
      rfl
    · rw [some]
      simp
  document := by
    rw [qualifierDocumentUpTo?, qualifierDocument, parts]
    cases qualifiers : n.qualifiers with
    | nil => rfl
    | cons q qs => simp [upTo?]

end QualifiedName

/-! ## Trees -/

namespace Parser

def Parsed.statements : Parsed → List Statement
  | .statement s => [s]
  | .script ss => ss

/-- The trees that a call returns are well formed if the number tokens are numbers. -/
theorem call_wellFormed {max : Nat} {call : Call} {s s' : ParserState} {parsed : Parsed}
    (isEnd : s.finish.isEnd) (lexed : Grammar.Lexed s.tokens)
    (h : call.parser max s = .ok parsed s') : ∀ x ∈ parsed.statements, x.WellFormed := by
  have wellFormed {ts : List Token} {x : Statement} (subset : ts ⊆ s.tokens)
      (statement : Grammar.IsStatement (Grammar.phrases True max) ts x) : x.WellFormed :=
    (statement.admissible (Grammar.phrases_admits ..) fun t ht => lexed t (subset ht)).wellFormed
  cases call with
  | statement =>
    obtain ⟨x, s₁, parse, h⟩ := bind_eq_ok.1 h
    obtain ⟨rfl, -⟩ := pure_eq_ok.1 h
    obtain ⟨ts, us, consumes, statement, -⟩ := wholeStatement_sound isEnd parse
    refine List.forall_mem_singleton.2 (wellFormed ?_ statement)
    rw [consumes.tokens, List.append_assoc]
    exact List.subset_append_left _ _
  | script =>
    obtain ⟨xs, s₁, parse, h⟩ := bind_eq_ok.1 h
    obtain ⟨rfl, -⟩ := pure_eq_ok.1 h
    obtain ⟨ts, consumes, script, -⟩ := script_sound isEnd parse
    intro x hx
    obtain ⟨us, vs, ws, rfl, statement⟩ := script.mem hx
    refine wellFormed (fun t ht => ?_) statement
    rw [consumes.tokens]
    simp [ht]

/-- The trees that the calls of a session return are well formed. -/
theorem outcomes_wellFormed {max : Nat} {calls : List Call} {s : ParserState} {parsed : Parsed}
    (isEnd : s.finish.isEnd) (lexed : Grammar.Lexed s.tokens)
    (h : .ok parsed ∈ outcomes max calls s) : ∀ x ∈ parsed.statements, x.WellFormed := by
  induction calls generalizing s with
  | nil => cases h
  | cons call calls ih =>
    rcases List.mem_cons.1 h with here | later
    · cases run : call.parser max s with
      | ok a s' =>
        rw [outcome_of_ok run] at here
        obtain rfl := Except.ok.inj here
        exact call_wellFormed isEnd lexed run
      | error e s' =>
        rw [outcome_of_error run] at here
        cases here
    · -- What is left of the tokens and of the end of the input is as good as they are.
      obtain ⟨program, implements⟩ := Buffered.exists_implements_call 0 max call
      have left := implements.leaves s
      exact ih (by rwa [left.finish]) (fun t ht => lexed t (left.tokens.subset ht)) later

end Parser

/-! ## Entry points -/

namespace Parser

theorem outcomes_singleton (max : Nat) (call : Call) (stream : TokenStream) :
    outcomes max [call] (.ofStream stream) = [(call.parser max).runOn stream] := by
  rw [runOn_eq_outcome]
  rfl

theorem runOn_map {α β : Type} (p : Parser α) (f : α → β) (stream : TokenStream) :
    (do return f (← p) : Parser β).runOn stream = (p.runOn stream).map f := by
  cases run : p (.ofStream stream) with
  | ok a s =>
    have mapped : (do return f (← p) : Parser β) (.ofStream stream) = .ok (f a) s := by
      rw [bind_of_ok run]
      rfl
    rw [runOn_eq_ok run, runOn_eq_ok mapped]
    rfl
  | error e s =>
    have mapped : (do return f (← p) : Parser β) (.ofStream stream) = .error e s := by
      rw [bind_of_error run]
    rw [runOn_eq_error run, runOn_eq_error mapped]
    rfl

end Parser

/-! ## Texts -/

/-- No crash on what comes from a text. -/
structure CrashFree (sql : String) : Prop where
  /-- The slices that the lexer takes exist, from the start of the text on and from each of
  its tokens on. -/
  lexing : ∀ n, sql.toList.length < n →
    Cursor.items sql.toList n .origin = some (TokenStream.ofString sql).items ∧
    ∀ t ∈ (TokenStream.ofString sql).tokens,
      Cursor.items sql.toList n t.position = some (TokenStream.resume sql t.position).items
  /-- So do the slices that the values of its tokens are taken from. -/
  values : ∀ t ∈ (TokenStream.ofString sql).tokens, t.value? = some t.value
  /-- A session is the same on a buffer, where it looks at indexes of the queue that exist
  and goes round its loops less often than there are tokens. -/
  sessions : ∀ (limit max : Nat) (stream : TokenStream), stream.tokens.length < limit →
    (∀ call : Call, ∃ c, Buffered.Implements limit c (call.parser max)) ∧
    ∀ program : Call → Buffered Parsed,
      (∀ call, Buffered.Implements limit (program call) (call.parser max)) →
      ∀ calls, Buffered.session program calls (.ofStream stream) =
        some (Parser.outcomes max calls (.ofStream stream))
  /-- To parse a text or tokens once is a session. -/
  entries : ∀ limits : Limits,
    (limits.checkInput sql = .ok () →
      Parser.outcomes limits.maxDepth [.statement] (.ofStream (.ofString sql)) =
        [(parseStatement limits sql).map .statement] ∧
      Parser.outcomes limits.maxDepth [.script] (.ofStream (.ofString sql)) =
        [(parseScript limits sql).map .script]) ∧
    ∀ picked, Parser.outcomes limits.maxDepth [.statement] (.ofStream ⟨picked, none⟩) =
      [(parseTokens limits picked).map .statement]
  /-- Infix operators are parsed without the fallbacks, which may be anything. -/
  operators : ∀ (F : Fallbacks) (max depth level : Nat) (left : Expr),
    Parser.foldAbove max depth level left =
      Parser.foldRound F max level left (Parser.deeper max depth level)
  /-- Names are parsed with a first part and a last one. -/
  listed : ∀ fallback, Parser.qualifiedName = Parser.listedName fallback
  /-- They have all parts that are looked up when they are printed, checked or encoded. -/
  names : ∀ n : QualifiedName, n.Indexed
  /-- A session on tokens of the text, in any order and any number of times, returns trees
  that have an element wherever the syntax wants one, as `Node.WellFormed` says for each kind
  of node. On the right of a set operation is a `Select` by its type. -/
  trees : ∀ (max : Nat) (stream : TokenStream),
    stream.tokens ⊆ (TokenStream.ofString sql).tokens →
    ∀ calls parsed, .ok parsed ∈ Parser.outcomes max calls (.ofStream stream) →
      ∀ x ∈ parsed.statements, x.WellFormed

/-- A cursor at a token of a text. -/
theorem Cursor.At.token {sql : String} {t : Token} (ht : t ∈ (TokenStream.ofString sql).tokens) :
    ∃ cs, Cursor.At sql.toList t.position cs ∧ dropBytes t.position.offset sql.toList = cs := by
  have item : .ok t ∈ (TokenStream.ofString sql).items :=
    List.mem_append_left _ (List.mem_map_of_mem ht)
  obtain ⟨front, rest, text, stands, -⟩ := (TokenStream.ofString_tiles sql).stands item
  have offset : t.position.offset = byteLength front := by rw [stands.position]; rfl
  refine ⟨t.text.toList ++ rest, ⟨front, text, offset⟩, ?_⟩
  rw [offset, ← List.nil_append sql.toList, text, dropBytes_append]

theorem Cursor.At.length_le {text cs : List Char} {p : Position} (at' : Cursor.At text p cs) :
    cs.length ≤ text.length := by
  obtain ⟨front, rfl, -⟩ := at'
  simp

/-- No text leads to a crash, and neither do its tokens, at any limit and in any session. -/
theorem crashFree (sql : String) : CrashFree sql where
  lexing n enough := by
    refine ⟨Cursor.items_eq ⟨[], rfl, rfl⟩ enough, fun t ht => ?_⟩
    obtain ⟨cs, at', behind⟩ := Cursor.At.token ht
    rw [TokenStream.resume, behind]
    exact Cursor.items_eq at' (Nat.lt_of_le_of_lt at'.length_le enough)
  values t ht := Token.value?_eq ht
  sessions limit max stream bounded :=
    ⟨Buffered.exists_implements_call limit max, fun program implements calls =>
      Buffered.session_eq implements calls (.ofStream stream bounded)⟩
  entries limits := by
    refine ⟨fun small => ⟨?_, ?_⟩, fun picked => ?_⟩
    · rw [Parser.outcomes_singleton, parseStatement, small, Call.parser, Parser.runOn_map]
      rfl
    · rw [Parser.outcomes_singleton, parseScript, small, Call.parser, Parser.runOn_map]
      rfl
    · rw [Parser.outcomes_singleton, parseTokens, Call.parser, Parser.runOn_map]
  operators := Parser.foldAbove_eq_foldRound
  listed := Parser.qualifiedName_eq_listed
  names := QualifiedName.indexed
  trees max stream subset calls parsed returned :=
    Parser.outcomes_wellFormed (Token.isEnd_endOf _)
      (fun t ht => TokenStream.isNumber_of_mem (subset ht)) returned

end SqlSyntax
