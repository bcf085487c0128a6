import SqlSyntax.Parser.Name
import SqlSyntax.Proofs.Grammar.Basic

/-!
# Readings of names and data types
-/

namespace SqlSyntax.Grammar

/-! ## Names -/

inductive IsIdentifier : List Token → Identifier → Prop where
  | intro {t : Token} {style : QuoteStyle} (kind : t.kind = .identifier style) :
      IsIdentifier [t] ⟨t.span, t.value⟩

/-- `name.name...` -/
structure IsName (ts : List Token) (n : QualifiedName) : Prop where
  parts : Separated (.punctuation .dot) IsIdentifier ts n.parts
  span : ∀ i ∈ n.parts.head?, n.span = i.span.union n.base.span

/-- `(name, ...)` -/
abbrev IsColumnList : List Token → List Identifier → Prop :=
  Parenthesized (CommaSeparated IsIdentifier)

/-- `[AS] alias`, if there is one. -/
inductive IsAlias : List Token → Option Identifier → Prop where
  | none : IsAlias [] none
  | bare {ts : List Token} {i : Identifier} (name : IsIdentifier ts i) : IsAlias ts (some i)
  | announced {ts : List Token} {i : Identifier}
      (name : Behind (.keyword .AS) IsIdentifier ts i) : IsAlias ts (some i)

/-! ## Data types -/

/-- A length, precision or scale. -/
inductive IsLength : List Token → Nat → Prop where
  | intro {t : Token} {n : Nat} (kind : t.kind = .number)
      (value : Digits.valueUpTo Parser.maxLength t.text = some n) : IsLength [t] n

/-- A bare identifier that spells `text`, which is in capitals. -/
inductive IsWord (text : String) : List Token → Prop where
  | intro {t : Token} (kind : t.kind = .identifier .bare) (spelled : capitals t.text = text) :
      IsWord text [t]

/-- `precision` or `precision, scale` -/
inductive IsDecimalSize : List Token → Nat × Option Nat → Prop where
  | precision {ts : List Token} {n : Nat} (length : IsLength ts n) : IsDecimalSize ts (n, none)
  | scale {ts us : List Token} {n m : Nat} (length : IsLength ts n)
      (scale : Behind (.punctuation .comma) IsLength us m) : IsDecimalSize (ts ++ us) (n, some m)

/-- What follows the name of a data type. -/
inductive IsTypeTail : Parser.TypeForm → List Token → DataType → Prop where
  | plain (type : DataType) : IsTypeTail (.plain type) [] type
  | double : IsTypeTail .double [] .double
  | doublePrecision {ts : List Token} (word : IsWord "PRECISION" ts) :
      IsTypeTail .double ts .double
  | decimal : IsTypeTail .decimal [] .decimal
  | decimalOf {ts : List Token} {precision : Nat} {scale : Option Nat}
      (size : Parenthesized IsDecimalSize ts (precision, scale)) :
      IsTypeTail .decimal ts (.decimalOf precision scale)
  | sized (type : Option Nat → DataType) : IsTypeTail (.sized type) [] (type none)
  | sizedOf {ts : List Token} {n : Nat} (type : Option Nat → DataType)
      (size : Parenthesized IsLength ts n) : IsTypeTail (.sized type) ts (type (some n))

inductive IsDataType : List Token → DataType → Prop where
  | intro {t : Token} {ts : List Token} {form : Parser.TypeForm} {type : DataType}
      (kind : t.kind = .identifier .bare)
      (name : Parser.typeNamed? (capitals t.text) = some form) (tail : IsTypeTail form ts type) :
      IsDataType (t :: ts) type

end SqlSyntax.Grammar
