import SqlSyntax.Text.Ascii

/-!
# Keywords

The words that are reserved in every position. A keyword is recognised
whatever the case of its ASCII letters; letters outside ASCII never take part,
so `ſelect` is no keyword. Words with a meaning in one position only, such as
the names of data types or `NULLS`, are not listed: they are identifiers.

## Main results

* `Keyword.mem_all` — the list of keywords is complete.
* `Keyword.ofText?_eq_some_iff` — a word is read as the keyword that it spells
  in capitals.
-/

namespace SqlSyntax

/-- A reserved word. -/
inductive Keyword where
  | ADD | ALL | ALTER | AND | AS | ASC | BETWEEN | BY | CASE | CAST | COLUMN | CREATE |
  CROSS | DATABASE | DEFAULT | DELETE | DESC | DISTINCT | DROP | ELSE | END | EXCEPT |
  EXISTS | FALSE | FROM | FULL | GROUP | HAVING | IF | IN | INDEX | INNER | INSERT |
  INTERSECT | INTO | IS | JOIN | KEY | LEFT | LIKE | LIMIT | NOT | NULL | OFFSET | ON | OR |
  ORDER | OUTER | PRIMARY | RENAME | RIGHT | SELECT | SET | TABLE | THEN | TO | TRUE | UNION
  | UNIQUE | UPDATE | USING | VALUES | WHEN | WHERE
deriving DecidableEq, Repr

namespace Keyword

/-- The keyword in capitals. -/
def text : Keyword → String
  | .ADD => "ADD"
  | .ALL => "ALL"
  | .ALTER => "ALTER"
  | .AND => "AND"
  | .AS => "AS"
  | .ASC => "ASC"
  | .BETWEEN => "BETWEEN"
  | .BY => "BY"
  | .CASE => "CASE"
  | .CAST => "CAST"
  | .COLUMN => "COLUMN"
  | .CREATE => "CREATE"
  | .CROSS => "CROSS"
  | .DATABASE => "DATABASE"
  | .DEFAULT => "DEFAULT"
  | .DELETE => "DELETE"
  | .DESC => "DESC"
  | .DISTINCT => "DISTINCT"
  | .DROP => "DROP"
  | .ELSE => "ELSE"
  | .END => "END"
  | .EXCEPT => "EXCEPT"
  | .EXISTS => "EXISTS"
  | .FALSE => "FALSE"
  | .FROM => "FROM"
  | .FULL => "FULL"
  | .GROUP => "GROUP"
  | .HAVING => "HAVING"
  | .IF => "IF"
  | .IN => "IN"
  | .INDEX => "INDEX"
  | .INNER => "INNER"
  | .INSERT => "INSERT"
  | .INTERSECT => "INTERSECT"
  | .INTO => "INTO"
  | .IS => "IS"
  | .JOIN => "JOIN"
  | .KEY => "KEY"
  | .LEFT => "LEFT"
  | .LIKE => "LIKE"
  | .LIMIT => "LIMIT"
  | .NOT => "NOT"
  | .NULL => "NULL"
  | .OFFSET => "OFFSET"
  | .ON => "ON"
  | .OR => "OR"
  | .ORDER => "ORDER"
  | .OUTER => "OUTER"
  | .PRIMARY => "PRIMARY"
  | .RENAME => "RENAME"
  | .RIGHT => "RIGHT"
  | .SELECT => "SELECT"
  | .SET => "SET"
  | .TABLE => "TABLE"
  | .THEN => "THEN"
  | .TO => "TO"
  | .TRUE => "TRUE"
  | .UNION => "UNION"
  | .UNIQUE => "UNIQUE"
  | .UPDATE => "UPDATE"
  | .USING => "USING"
  | .VALUES => "VALUES"
  | .WHEN => "WHEN"
  | .WHERE => "WHERE"

/-- Every keyword, in alphabetical order. -/
def all : List Keyword :=
  [.ADD, .ALL, .ALTER, .AND, .AS, .ASC, .BETWEEN, .BY, .CASE, .CAST, .COLUMN, .CREATE,
    .CROSS, .DATABASE, .DEFAULT, .DELETE, .DESC, .DISTINCT, .DROP, .ELSE, .END, .EXCEPT,
    .EXISTS, .FALSE, .FROM, .FULL, .GROUP, .HAVING, .IF, .IN, .INDEX, .INNER, .INSERT,
    .INTERSECT, .INTO, .IS, .JOIN, .KEY, .LEFT, .LIKE, .LIMIT, .NOT, .NULL, .OFFSET, .ON,
    .OR, .ORDER, .OUTER, .PRIMARY, .RENAME, .RIGHT, .SELECT, .SET, .TABLE, .THEN, .TO,
    .TRUE, .UNION, .UNIQUE, .UPDATE, .USING, .VALUES, .WHEN, .WHERE]

/-- The keyword that a word spells, the case of ASCII letters aside. -/
def ofText? (word : String) : Option Keyword :=
  let spelled := capitals word
  all.find? fun keyword => keyword.text == spelled

theorem mem_all (k : Keyword) : k ∈ all := by
  cases k <;> decide

theorem text_injective {k l : Keyword} (h : k.text = l.text) : k = l := by
  have key : ∀ k ∈ all, ∀ l ∈ all, k.text = l.text → k = l := by decide +kernel
  exact key k (mem_all k) l (mem_all l) h

theorem ofText?_eq_some_iff {word : String} {k : Keyword} :
    ofText? word = some k ↔ capitals word = k.text := by
  unfold ofText?
  constructor
  · intro h
    have found := List.find?_some h
    exact (beq_iff_eq.1 found).symm
  · intro h
    cases hf : all.find? fun keyword => keyword.text == capitals word with
    | none =>
      have absent := List.find?_eq_none.1 hf k (mem_all k)
      exact absurd (beq_iff_eq.2 h.symm) absent
    | some l =>
      have found := List.find?_some hf
      rw [text_injective ((beq_iff_eq.1 found).trans h)]

end Keyword

end SqlSyntax
