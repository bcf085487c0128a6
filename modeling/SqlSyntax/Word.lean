import SqlSyntax.Keyword
import SqlSyntax.Unicode.Alphabetic
import SqlSyntax.Unicode.Numeric

/-!
# Words

A word starts with a letter of any script or an underscore and goes on with
letters, digits of any script, underscores and dollar signs. A word that is
not a keyword is an identifier as it stands; any other text has to be quoted
to serve as one.
-/

namespace SqlSyntax

/-- Characters that a word can start with. -/
def isWordStart (c : Char) : Bool := Unicode.isAlphabetic c || c == '_'

/-- Characters that a word can go on with. -/
def isWordChar (c : Char) : Bool :=
  Unicode.isAlphabetic c || Unicode.isNumeric c || c == '_' || c == '$'

theorem isWordChar_of_isWordStart {c : Char} (h : isWordStart c) : isWordChar c := by
  simp only [isWordStart, isWordChar, Bool.or_eq_true] at h ⊢
  rcases h with h | h
  · exact .inl (.inl (.inl h))
  · exact .inl (.inr h)

/-- Whether a text is one word. -/
def isWord (text : String) : Bool :=
  match text.toList with
  | [] => false
  | c :: rest => isWordStart c && rest.all isWordChar

/-- Whether an identifier with this text has to be quoted: bare, it would not
be read as one identifier. -/
def needsQuotes (text : String) : Bool :=
  !isWord text || (Keyword.ofText? text).isSome

end SqlSyntax
