import SqlSyntax.Source

/-!
# Leaves of the syntax tree

Names, literals, operators and the other parts of a tree that hold no
expression or query. Names and nodes carry the bytes of the source that they
were read from.

A qualified name has its last part apart from those before it, so it cannot be
empty.
-/

namespace SqlSyntax

/-! ## Names and literals -/

/-- A name without its quotes. -/
structure Identifier where
  span : Span
  value : String
deriving DecidableEq, Repr

/-- A dotted name such as `schema.table`: the last part and those before it. -/
structure QualifiedName where
  span : Span
  qualifiers : List Identifier
  base : Identifier
deriving DecidableEq, Repr

/-- All parts of a name, in order. -/
def QualifiedName.parts (n : QualifiedName) : List Identifier := n.qualifiers ++ [n.base]

/-- The part before the last, such as the table in `schema.table.column`. -/
def QualifiedName.qualifier? (n : QualifiedName) : Option Identifier := n.qualifiers.getLast?

inductive Literal where
  /-- A number as it was written, so that no precision is lost. -/
  | number (text : String)
  /-- A string without its quotes and escapes. -/
  | string (value : String)
  | boolean (value : Bool)
  | null
deriving DecidableEq, Repr

/-! ## Operators in expressions -/

inductive UnaryOperator where
  | not | minus | plus
deriving DecidableEq, Repr

/-- Operators between two operands. -/
inductive BinaryOperator where
  | or | and
  | equal | notEqual | less | lessEqual | greater | greaterEqual
  | plus | minus | concat
  | times | divide | modulo
deriving DecidableEq, Repr

/-- Whether an operator compares its operands. -/
def BinaryOperator.isComparison : BinaryOperator → Bool
  | .equal | .notEqual | .less | .lessEqual | .greater | .greaterEqual => true
  | _ => false

/-- What `IS` can be asked for. -/
inductive TruthTest where
  | null | true | false
deriving DecidableEq, Repr

/-! ## Parts of queries -/

inductive SetOperator where
  | union | intersect | except
deriving DecidableEq, Repr

inductive JoinKind where
  | inner | left | right | full | cross
deriving DecidableEq, Repr

inductive Direction where
  | ascending | descending
deriving DecidableEq, Repr

/-- Where the rows without a value go. -/
inductive NullsPlacement where
  | first | last
deriving DecidableEq, Repr

/-! ## Parts of definitions -/

inductive DataType where
  | int | bigInt | smallInt | float | double
  | decimal
  | decimalOf (precision : Nat) (scale : Option Nat)
  | char (length : Option Nat)
  | varchar (length : Option Nat)
  | text | boolean | date | time | timestamp
deriving DecidableEq, Repr

inductive ObjectKind where
  | table | index | database
deriving DecidableEq, Repr

end SqlSyntax
