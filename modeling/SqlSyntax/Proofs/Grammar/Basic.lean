import SqlSyntax.Parser.Basic

/-!
# Readings

The grammar is a family of relations between lists of tokens and trees. A
*reading* of a list of tokens is a tree that it is related to, spans included.
Readings say what a phrase is made of and nothing about how it is found: there
is no lookahead, no state and no error in them.

This module has the relations that all phrases are built with, each over a
relation `R` for the parts: parts in a row, parts with a separator between
neighbours, a part in parentheses, behind a token, or perhaps absent.
-/

namespace SqlSyntax

/-- From the start of a span to the end of the last of some tokens. -/
def Span.through (start : Span) (tokens : List Token) : Span :=
  match tokens.getLast? with
  | some t => ⟨start.start, max t.span.stop start.stop⟩
  | none => start

/-- The kind of the first of some tokens, with the end of the input behind
them. -/
def headKind : List Token → TokenKind
  | [] => .endOfInput
  | t :: _ => t.kind

@[simp] theorem headKind_nil : headKind [] = .endOfInput := rfl

@[simp] theorem headKind_cons (t : Token) (ts : List Token) : headKind (t :: ts) = t.kind := rfl

namespace Grammar

variable {α : Type}

/-- Tokens of one part after the other. -/
inductive Many (R : List Token → α → Prop) : List Token → List α → Prop where
  | nil : Many R [] []
  | cons {ts us : List Token} {a : α} {as : List α} (head : R ts a) (tail : Many R us as) :
      Many R (ts ++ us) (a :: as)

/-- A part that may be absent. -/
inductive Optional (R : List Token → α → Prop) : List Token → Option α → Prop where
  | none : Optional R [] none
  | some {ts : List Token} {a : α} (part : R ts a) : Optional R ts (some a)

/-- A part behind a token of a kind. -/
inductive Behind (k : TokenKind) (R : List Token → α → Prop) : List Token → α → Prop where
  | intro {t : Token} {ts : List Token} {a : α} (kind : t.kind = k) (part : R ts a) :
      Behind k R (t :: ts) a

/-- One or more parts with a token of a kind between neighbours. -/
inductive Separated (k : TokenKind) (R : List Token → α → Prop) :
    List Token → List α → Prop where
  | intro {ts us : List Token} {a : α} {as : List α} (first : R ts a)
      (others : Many (Behind k R) us as) : Separated k R (ts ++ us) (a :: as)

/-- One or more parts with commas between neighbours. -/
abbrev CommaSeparated (R : List Token → α → Prop) : List Token → List α → Prop :=
  Separated (.punctuation .comma) R

/-- A part between parentheses. -/
inductive Parenthesized (R : List Token → α → Prop) : List Token → α → Prop where
  | intro {o c : Token} {ts : List Token} {a : α} (opening : o.kind = .punctuation .openParen)
      (part : R ts a) (closing : c.kind = .punctuation .closeParen) :
      Parenthesized R (o :: (ts ++ [c])) a

/-- A keyword that may be absent, read as whether it is there. -/
inductive Flag (k : Keyword) : List Token → Bool → Prop where
  | absent : Flag k [] false
  | present {t : Token} (kind : t.kind = .keyword k) : Flag k [t] true

/-- A keyword that may be absent and means nothing. -/
inductive Noise (k : Keyword) : List Token → Prop where
  | absent : Noise k []
  | present {t : Token} (kind : t.kind = .keyword k) : Noise k [t]

/-- Keywords in a row. -/
inductive Keywords : List Keyword → List Token → Prop where
  | nil : Keywords [] []
  | cons {k : Keyword} {ks : List Keyword} {t : Token} {ts : List Token}
      (kind : t.kind = .keyword k) (tail : Keywords ks ts) : Keywords (k :: ks) (t :: ts)

end Grammar

end SqlSyntax
