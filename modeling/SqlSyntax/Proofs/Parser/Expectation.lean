import SqlSyntax.Parser.Name

/-!
# What expectations stand for

A syntax error lists alternatives by their wording. Each stands for the tokens
that are accepted: those of a keyword or symbol, those of a class such as the
numbers, or those that spell a word with a meaning at one place only.

## Main results

* `Expectation.describe_injective` — no two expectations share a wording.
* `describes_iff` — so the wording of an expectation describes just the tokens
  that it accepts.
-/

namespace SqlSyntax

/-- The words with a meaning at one place only, the names of data types
aside. -/
def contextualWords : List String := ["PRECISION", "NULLS", "FIRST", "LAST"]

/-- A token of a kind with a text, wherever it stands. -/
def Token.sample (kind : TokenKind) (text : String) : Token :=
  ⟨kind, text, ⟨0, 0⟩, .origin⟩

namespace Expectation

/-- Whether a token is what is expected. -/
def Accepts : Expectation → Token → Prop
  | .keyword k, t => t.kind = .keyword k
  | .operator o, t => t.kind = .operator o
  | .punctuation p, t => t.kind = .punctuation p
  | .word text, t =>
    text ∈ contextualWords ∧ t.kind = .identifier .bare ∧ capitals t.text = text
  | .identifier, t => t.isIdentifier
  | .number, t => t.kind = .number
  | .string, t => t.kind = .string
  | .dataType, t =>
    t.kind = .identifier .bare ∧ (Parser.typeNamed? (capitals t.text)).isSome
  | .endOfInput, t => t.isEnd

/-- Whether an expectation has a meaning: a word has one at some place. -/
def Known : Expectation → Prop
  | .word text => text ∈ contextualWords
  | _ => True

theorem known_of_accepts {e : Expectation} {t : Token} (h : e.Accepts t) : e.Known := by
  cases e with
  | word text => exact h.1
  | _ => trivial

/-! ## Samples -/

/-- A token that is what is expected. -/
def sample : Expectation → Token
  | .keyword k => .sample (.keyword k) k.text
  | .operator o => .sample (.operator o) o.symbol
  | .punctuation p => .sample (.punctuation p) p.symbol
  | .word text => .sample (.identifier .bare) text
  | .identifier => .sample (.identifier .bare) "a"
  | .number => .sample .number "1"
  | .string => .sample .string "''"
  | .dataType => .sample (.identifier .bare) "INT"
  | .endOfInput => .sample .endOfInput ""

theorem kind_keyword (k : Keyword) : (keyword k).sample.kind = .keyword k := rfl

theorem kind_operator (o : Operator) : (operator o).sample.kind = .operator o := rfl

theorem kind_punctuation (p : Punctuation) : (punctuation p).sample.kind = .punctuation p := rfl

theorem accepts_sample {e : Expectation} (h : e.Known) : e.Accepts e.sample := by
  cases e with
  | word text =>
    have capital : ∀ text ∈ contextualWords, capitals text = text := by decide +kernel
    exact ⟨h, rfl, capital text h⟩
  | dataType => exact ⟨rfl, rfl⟩
  | _ => rfl

/-! ## Wordings -/

/-- Every expectation with a meaning. -/
def all : List Expectation :=
  Keyword.all.map .keyword ++
    [Operator.equal, .notEqual, .less, .lessEqual, .greater, .greaterEqual, .plus, .minus,
      .times, .divide, .modulo, .concat].map .operator ++
    [Punctuation.openParen, .closeParen, .comma, .semicolon, .dot].map .punctuation ++
    contextualWords.map .word ++ [.identifier, .number, .string, .dataType, .endOfInput]

theorem mem_all {e : Expectation} (h : e.Known) : e ∈ all := by
  unfold all
  cases e with
  | keyword k => simp [Keyword.mem_all]
  | operator o => cases o <;> simp
  | punctuation p => cases p <;> simp
  | word text =>
    simp only [List.mem_append, List.mem_map]
    exact .inl (.inr ⟨text, h, rfl⟩)
  | _ => simp

theorem describe_injective {e e' : Expectation} (h : e.Known) (h' : e'.Known)
    (same : e.describe = e'.describe) : e = e' := by
  have distinct : ∀ e ∈ all, ∀ e' ∈ all, e.describe = e'.describe → e = e' := by decide +kernel
  exact distinct e (mem_all h) e' (mem_all h') same

end Expectation

/-- Whether a token is what a text names in the list of an error. -/
def Describes (text : String) (t : Token) : Prop :=
  ∃ e : Expectation, e.describe = text ∧ e.Accepts t

theorem describes_iff {e : Expectation} {t : Token} (known : e.Known) :
    Describes e.describe t ↔ e.Accepts t := by
  refine ⟨?_, fun h => ⟨e, rfl, h⟩⟩
  rintro ⟨e', same, h⟩
  rwa [Expectation.describe_injective known (Expectation.known_of_accepts h) same.symm]

end SqlSyntax
