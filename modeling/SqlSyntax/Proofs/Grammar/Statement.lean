import Mathlib.Data.List.Perm.Basic
import SqlSyntax.Parser.Statement
import SqlSyntax.Proofs.Grammar.Nesting

/-!
# Readings of statements
-/

namespace SqlSyntax.Grammar

section

variable (P : Phrases)

/-! ## Changes of the data -/

/-- Rows of values or a query without parentheses. -/
inductive IsInsertSource : List Token → InsertSource → Prop where
  | values {ts : List Token} {rows : List (List Expr)}
      (body : Behind (.keyword .VALUES)
        (CommaSeparated (Parenthesized (CommaSeparated P.wholeExpr))) ts rows) :
      IsInsertSource ts (.values rows)
  | query {ts : List Token} {q : Query} (query : P.query ts q) : IsInsertSource ts (.query q)

/-- The columns of an insertion, if they are listed. -/
inductive IsInsertColumns : List Token → List Identifier → Prop where
  | listed {ts : List Token} {cs : List Identifier} (columns : IsColumnList ts cs) :
      IsInsertColumns ts cs
  | none : IsInsertColumns [] []

inductive IsInsert : List Token → Insert → Prop where
  | plain {t u : Token} {ns cs ss : List Token} {n : QualifiedName} {is : List Identifier}
      {s : InsertSource} (insert : t.kind = .keyword .INSERT) (into : u.kind = .keyword .INTO)
      (table : IsName ns n) (columns : IsInsertColumns cs is)
      (source : IsInsertSource P ss s) :
      IsInsert (t :: u :: (ns ++ (cs ++ ss)))
        ⟨t.span.through (t :: u :: (ns ++ (cs ++ ss))), n, is, s⟩
  | parenthesized {t u : Token} {ns qs : List Token} {n : QualifiedName} {q : Query}
      (insert : t.kind = .keyword .INSERT) (into : u.kind = .keyword .INTO)
      (table : IsName ns n) (source : Parenthesized P.query qs q) :
      IsInsert (t :: u :: (ns ++ qs)) ⟨t.span.through (t :: u :: (ns ++ qs)), n, [], .query q⟩

/-- `column = value` -/
inductive IsAssignment : List Token → Assignment → Prop where
  | intro {cs vs : List Token} {c : Identifier} {v : Expr} (column : IsIdentifier cs c)
      (value : Behind (.operator .equal) P.wholeExpr vs v) :
      IsAssignment (cs ++ vs) ⟨c.span.through (cs ++ vs), c, v⟩

inductive IsUpdate : List Token → Update → Prop where
  | intro {t : Token} {ns ls as ws : List Token} {n : QualifiedName} {label : Option Identifier}
      {assignments : List Assignment} {w : Option Expr} (update : t.kind = .keyword .UPDATE)
      (table : IsName ns n) (name : IsAlias ls label)
      (set : Behind (.keyword .SET) (CommaSeparated (IsAssignment P)) as assignments)
      (condition : Optional (Behind (.keyword .WHERE) P.wholeExpr) ws w) :
      IsUpdate (t :: (ns ++ (ls ++ (as ++ ws))))
        ⟨t.span.through (t :: (ns ++ (ls ++ (as ++ ws)))), n, label, assignments, w⟩

inductive IsDelete : List Token → Delete → Prop where
  | intro {t u : Token} {ns ls ws : List Token} {n : QualifiedName} {label : Option Identifier}
      {w : Option Expr} (delete : t.kind = .keyword .DELETE) (source : u.kind = .keyword .FROM)
      (table : IsName ns n) (name : IsAlias ls label)
      (condition : Optional (Behind (.keyword .WHERE) P.wholeExpr) ws w) :
      IsDelete (t :: u :: (ns ++ (ls ++ ws)))
        ⟨t.span.through (t :: u :: (ns ++ (ls ++ ws))), n, label, w⟩

/-! ## Changes of the schema -/

inductive IsColumnOption : List Token → ColumnOption → Prop where
  | null {ts : List Token} (words : Keywords [.NULL] ts) : IsColumnOption ts .null
  | notNull {ts : List Token} (words : Keywords [.NOT, .NULL] ts) : IsColumnOption ts .notNull
  | primaryKey {ts : List Token} (words : Keywords [.PRIMARY, .KEY] ts) :
      IsColumnOption ts .primaryKey
  | unique {ts : List Token} (words : Keywords [.UNIQUE] ts) : IsColumnOption ts .unique
  | default {ts : List Token} {e : Expr} (value : Behind (.keyword .DEFAULT) P.wholeExpr ts e) :
      IsColumnOption ts (.default e)

inductive IsColumnDefinition : List Token → ColumnDefinition → Prop where
  | intro {ns ts os : List Token} {n : Identifier} {d : DataType} {list : List ColumnOption}
      (name : IsIdentifier ns n) (type : IsDataType ts d)
      (options : Many (IsColumnOption P) os list) :
      IsColumnDefinition (ns ++ (ts ++ os)) ⟨n.span.through (ns ++ (ts ++ os)), n, d, list⟩

inductive IsConstraint : List Token → TableConstraint → Prop where
  | primaryKey {t u : Token} {ts : List Token} {cs : List Identifier}
      (primary : t.kind = .keyword .PRIMARY) (key : u.kind = .keyword .KEY)
      (columns : IsColumnList ts cs) :
      IsConstraint (t :: u :: ts) (.primaryKey (t.span.through (t :: u :: ts)) cs)
  | unique {t : Token} {ts : List Token} {cs : List Identifier}
      (unique : t.kind = .keyword .UNIQUE) (columns : IsColumnList ts cs) :
      IsConstraint (t :: ts) (.unique (t.span.through (t :: ts)) cs)

/-- A constraint or a column of a new table. -/
inductive IsTableElement : List Token → TableConstraint ⊕ ColumnDefinition → Prop where
  | constraint {ts : List Token} {c : TableConstraint} (constraint : IsConstraint ts c) :
      IsTableElement ts (.inl c)
  | column {ts : List Token} {c : ColumnDefinition} (column : IsColumnDefinition P ts c) :
      IsTableElement ts (.inr c)

/-- A new table holds its columns first and then its constraints, in whatever
order they were declared. -/
theorem elements_perm (elements : List (TableConstraint ⊕ ColumnDefinition)) :
    elements.Perm ((elements.filterMap Sum.getRight?).map .inr ++
      (elements.filterMap Sum.getLeft?).map .inl) := by
  induction elements with
  | nil => exact .nil
  | cons e es ih =>
    cases e with
    | inl c => exact (ih.cons _).trans List.perm_middle.symm
    | inr c => exact ih.cons _

/-- Keywords that are there as a whole or not at all. -/
inductive IsGuard (ks : List Keyword) : List Token → Bool → Prop where
  | absent : IsGuard ks [] false
  | present {ts : List Token} (words : Keywords ks ts) : IsGuard ks ts true

inductive IsCreateTable : List Token → CreateTable → Prop where
  | intro {t u : Token} {gs ns es : List Token} {g : Bool} {n : QualifiedName}
      {elements : List (TableConstraint ⊕ ColumnDefinition)} (create : t.kind = .keyword .CREATE)
      (table : u.kind = .keyword .TABLE) (guard : IsGuard [.IF, .NOT, .EXISTS] gs g)
      (name : IsName ns n)
      (body : Parenthesized (CommaSeparated (IsTableElement P)) es elements) :
      IsCreateTable (t :: u :: (gs ++ (ns ++ es)))
        ⟨t.span.through (t :: u :: (gs ++ (ns ++ es))), g, n, elements.filterMap Sum.getRight?,
          elements.filterMap Sum.getLeft?⟩

inductive IsCreateDatabase : List Token → CreateDatabase → Prop where
  | intro {t u : Token} {ns : List Token} {n : Identifier} (create : t.kind = .keyword .CREATE)
      (database : u.kind = .keyword .DATABASE) (name : IsIdentifier ns n) :
      IsCreateDatabase (t :: u :: ns) ⟨t.span.through (t :: u :: ns), n⟩

inductive IsCreateIndex : List Token → CreateIndex → Prop where
  | intro {t u : Token} {fs ns ts cs : List Token} {unique : Bool} {n : Identifier}
      {table : QualifiedName} {is : List Identifier} (create : t.kind = .keyword .CREATE)
      (mark : Flag .UNIQUE fs unique) (index : u.kind = .keyword .INDEX)
      (name : IsIdentifier ns n) (on : Behind (.keyword .ON) IsName ts table)
      (columns : IsColumnList cs is) :
      IsCreateIndex (t :: (fs ++ u :: (ns ++ (ts ++ cs))))
        ⟨t.span.through (t :: (fs ++ u :: (ns ++ (ts ++ cs)))), unique, n, table, is⟩

inductive IsAlteration : List Token → Alteration → Prop where
  | addColumn {t : Token} {ns cs : List Token} {c : ColumnDefinition}
      (add : t.kind = .keyword .ADD) (noise : Noise .COLUMN ns)
      (column : IsColumnDefinition P cs c) : IsAlteration (t :: (ns ++ cs)) (.addColumn c)
  | dropColumn {t : Token} {ns cs : List Token} {c : Identifier}
      (drop : t.kind = .keyword .DROP) (noise : Noise .COLUMN ns) (column : IsIdentifier cs c) :
      IsAlteration (t :: (ns ++ cs)) (.dropColumn c)
  | renameTable {t : Token} {ns : List Token} {n : Identifier} (rename : t.kind = .keyword .RENAME)
      (name : Behind (.keyword .TO) IsIdentifier ns n) : IsAlteration (t :: ns) (.renameTable n)
  | renameColumn {t : Token} {ns os us : List Token} {i j : Identifier}
      (rename : t.kind = .keyword .RENAME) (noise : Noise .COLUMN ns) (old : IsIdentifier os i)
      (new : Behind (.keyword .TO) IsIdentifier us j) :
      IsAlteration (t :: (ns ++ (os ++ us))) (.renameColumn i j)

inductive IsAlterTable : List Token → AlterTable → Prop where
  | intro {t u : Token} {ns as : List Token} {n : QualifiedName} {a : Alteration}
      (alter : t.kind = .keyword .ALTER) (table : u.kind = .keyword .TABLE)
      (name : IsName ns n) (alteration : IsAlteration P as a) :
      IsAlterTable (t :: u :: (ns ++ as)) ⟨t.span.through (t :: u :: (ns ++ as)), n, a⟩

inductive IsDrop : List Token → Drop → Prop where
  | intro {t u : Token} {gs ns : List Token} {kind : ObjectKind} {g : Bool} {n : QualifiedName}
      (drop : t.kind = .keyword .DROP) (object : u.kind = .keyword kind.keyword)
      (guard : IsGuard [.IF, .EXISTS] gs g) (name : IsName ns n) :
      IsDrop (t :: u :: (gs ++ ns)) ⟨t.span.through (t :: u :: (gs ++ ns)), kind, g, n⟩

/-! ## Statements -/

inductive IsStatement : List Token → Statement → Prop where
  | query {ts : List Token} {s : Query} (body : P.query ts s) : IsStatement ts (.query s)
  | insert {ts : List Token} {s : Insert} (body : IsInsert P ts s) : IsStatement ts (.insert s)
  | update {ts : List Token} {s : Update} (body : IsUpdate P ts s) : IsStatement ts (.update s)
  | delete {ts : List Token} {s : Delete} (body : IsDelete P ts s) : IsStatement ts (.delete s)
  | createTable {ts : List Token} {s : CreateTable} (body : IsCreateTable P ts s) :
      IsStatement ts (.createTable s)
  | createIndex {ts : List Token} {s : CreateIndex} (body : IsCreateIndex ts s) :
      IsStatement ts (.createIndex s)
  | createDatabase {ts : List Token} {s : CreateDatabase} (body : IsCreateDatabase ts s) :
      IsStatement ts (.createDatabase s)
  | alterTable {ts : List Token} {s : AlterTable} (body : IsAlterTable P ts s) :
      IsStatement ts (.alterTable s)
  | drop {ts : List Token} {s : Drop} (body : IsDrop ts s) : IsStatement ts (.drop s)

end

/-- What can follow a single statement. -/
inductive IsClosing : List Token → Prop where
  | none : IsClosing []
  | semicolon {t : Token} (kind : t.kind = .punctuation .semicolon) : IsClosing [t]

end SqlSyntax.Grammar
