import SqlSyntax.Proofs.Interchange.Links
import SqlSyntax.Proofs.Interchange.Texts

/-!
# How documents name a relation

Three documents name a relation: that of all its columns, that of one of its columns and
that of its entry in `FROM`. The last two join the values of the parts with dots. The first
one has the canonical form of the name, in which a part is in quotes if it has to be, so it
is another text as soon as one is.

## Main results

* `QualifiedName.canonical_eq_text_iff` — a canonical form is the values of the parts joined
  with dots exactly when no part needs quotes.
* `qualifiers_in_documents` — what the three documents of one relation say.
* `unlike_qualifiers` — so in one document a relation has two names.
-/

namespace SqlSyntax

open Document

/-! ## Names with dots -/

/-- The values of the parts with dots between them. -/
def QualifiedName.text (n : QualifiedName) : String := ".".intercalate n.values

theorem QualifiedName.values_eq (n : QualifiedName) :
    n.values = n.qualifiers.map (·.value) ++ [n.base.value] := by
  simp [values, parts]

theorem QualifiedName.values_ne_nil (n : QualifiedName) : n.values ≠ [] := by
  simp [values_eq]

/-- Between the parts before the last and the last one is a dot. -/
theorem QualifiedName.text_eq (n : QualifiedName) :
    n.text = match n.qualifierText? with
      | none => n.base.value
      | some qualifier => qualifier ++ "." ++ n.base.value := by
  rw [text, values_eq, qualifierText?]
  by_cases h : n.qualifiers = []
  · simp [h]
  · have ne : n.qualifiers.map (·.value) ≠ [] := by simpa using h
    have notEmpty : n.qualifiers.isEmpty = false := by simpa using h
    rw [String.intercalate_append_of_ne_nil ne (by simp)]
    simp [notEmpty]

theorem render_separated_dot (is : List Identifier) :
    render (Piece.separated [.punctuation .dot] (is.map Identifier.pieces)) =
      ".".intercalate (is.map fun i => quoteIdentifier i.value) := by
  induction is with
  | nil => rfl
  | cons i is ih =>
    cases is with
    | nil => simp [Piece.separated, Identifier.pieces, render, Piece.text]
    | cons j is =>
      have dot : Punctuation.dot.symbol = "." := rfl
      have first : Piece.separated [.punctuation .dot] ((i :: j :: is).map Identifier.pieces) =
          .identifier i.value :: .punctuation .dot ::
            Piece.separated [.punctuation .dot] ((j :: is).map Identifier.pieces) := rfl
      rw [first]
      simp only [List.map_cons, String.intercalate_cons_cons] at ih ⊢
      rw [← ih]
      simp [render, Piece.text, dot, String.append_assoc]

/-- A canonical form has the parts as they are written, with dots between them. -/
theorem QualifiedName.canonical_eq (n : QualifiedName) :
    n.canonical = ".".intercalate (n.values.map quoteIdentifier) := by
  rw [canonical, pieces, render_separated_dot, values, List.map_map]
  rfl

/-! ## Quotes -/

theorem length_le_length_double (q : Char) (cs : List Char) :
    cs.length ≤ (Quoted.double q cs).length := by
  induction cs with
  | nil => exact Nat.le_refl 0
  | cons c cs ih =>
    rw [Quoted.double, List.flatMap_cons, List.length_append, List.length_cons, Nat.add_comm]
    exact Nat.add_le_add (by split <;> simp) ih

/-- Quotes make a text longer. -/
theorem length_quoteIdentifier (v : String) :
    (quoteIdentifier v).length ≥ v.length + if needsQuotes v then 2 else 0 := by
  by_cases h : needsQuotes v
  · have inner := length_le_length_double '"' v.toList
    simp only [quoteIdentifier, h, if_true, String.length_ofList, List.length_cons,
      List.length_append, List.length_nil, String.length_toList] at inner ⊢
    omega
  · simp [quoteIdentifier, h]

theorem length_intercalate_quoteIdentifier (vs : List String) :
    (".".intercalate vs).length ≤ (".".intercalate (vs.map quoteIdentifier)).length := by
  induction vs with
  | nil => exact Nat.le_refl _
  | cons v vs ih =>
    have first := length_quoteIdentifier v
    cases vs with
    | nil =>
      simp only [List.map_cons, List.map_nil, String.intercalate_singleton]
      omega
    | cons u vs =>
      simp only [List.map_cons, String.intercalate_cons_cons, String.length_append] at ih ⊢
      omega

/-- Parts that are joined as they are written make the text of their values when none of
them is in quotes. -/
theorem intercalate_quoteIdentifier_eq_iff (vs : List String) :
    ".".intercalate (vs.map quoteIdentifier) = ".".intercalate vs ↔
      ∀ v ∈ vs, needsQuotes v = false := by
  constructor
  · intro same
    induction vs with
    | nil => simp
    | cons v vs ih =>
      have first := length_quoteIdentifier v
      cases vs with
      | nil =>
        have lengths := congrArg String.length same
        simp only [List.map_cons, List.map_nil, String.intercalate_singleton] at lengths
        by_cases h : needsQuotes v
        · simp only [h, if_true] at first
          omega
        · simpa using h
      | cons u vs =>
        have rest := length_intercalate_quoteIdentifier (u :: vs)
        have lengths := congrArg String.length same
        simp only [List.map_cons, String.intercalate_cons_cons, String.length_append]
          at rest lengths
        have bare : needsQuotes v = false := by
          by_contra h
          simp only [Bool.not_eq_false] at h
          simp only [h, if_true] at first
          omega
        rw [List.map_cons, List.map_cons, String.intercalate_cons_cons,
          String.intercalate_cons_cons, quoteIdentifier, if_neg (by simp [bare]),
          String.append_right_inj, ← List.map_cons] at same
        simpa [bare] using ih same
  · intro bare
    have written : vs.map quoteIdentifier = vs := by
      conv_rhs => rw [← List.map_id vs]
      exact List.map_congr_left fun v hv => by simp [quoteIdentifier, bare v hv]
    rw [written]

theorem QualifiedName.canonical_eq_text_iff (n : QualifiedName) :
    n.canonical = n.text ↔ ∀ v ∈ n.values, needsQuotes v = false := by
  rw [canonical_eq, text]
  exact intercalate_quoteIdentifier_eq_iff n.values

/-! ## Documents -/

/-- The text in a field, if the field has one. -/
def Document.text? (d : Document) (key : String) : Option String :=
  match d.field? key with
  | some (string text) => some text
  | _ => none

/-- The relation that an entry of `FROM` is about: its database, if it has one, and its
table. -/
def Document.source? (d : Document) : Option String :=
  match d.field? "db", d.text? "table" with
  | some null, some table => some table
  | some (string db), some table => some (db ++ "." ++ table)
  | _, _ => none

/-- The relation that the expression in an item of a projection belongs to. -/
def Document.itemTable? (d : Document) : Option String :=
  (d.field? "expr").bind (·.text? "table")

theorem Document.source?_congr {d d' : Document} (db : d.field? "db" = d'.field? "db")
    (table : d.field? "table" = d'.field? "table") : d.source? = d'.source? := by
  rw [source?, source?, text?, text?, db, table]

theorem Relation.isObject_document (spans : Bool) (r : Relation) :
    (r.document spans).IsObject := by
  cases r <;> simp [document, tableDocument]

/-- A relation is named in its entry as it is by itself, whatever it is joined to. -/
theorem sources_of_documents (spans : Bool) (f : From) :
    (JoinedTable.documents spans f.tables).map source? =
      f.relations.map fun r => (r.document spans).source? := by
  rw [JoinedTable.documents_eq, From.relations, List.map_flatMap, List.map_flatMap]
  refine List.flatMap_congr fun t _ => ?_
  have joined (j : Join) : (j.entry spans).source? = (j.relation.document spans).source? := by
    have isObject := j.relation.isObject_document spans
    apply source?_congr <;> simp [Join.entry, field?_spanned_eq, field?_set, isObject]
  simp [JoinedTable.entries, joined]

/-- A table in `FROM` is named by its values. -/
theorem source?_of_table (spans : Bool) (s : Span) (t : QualifiedName) (label : Option Identifier) :
    ((Relation.table s t label).document spans).source? = some t.text := by
  have isObject : (tableDocument t label).IsObject := trivial
  have db : (tableDocument t label).field? "db" = some t.qualifierDocument := rfl
  have table : (tableDocument t label).field? "table" = some (string t.base.value) := rfl
  rw [Relation.document, source?, text?, field?_spanned_eq isObject, field?_spanned_eq isObject,
    if_neg (by simp), if_neg (by simp), db, table, t.text_eq, t.qualifierDocument_eq]
  cases t.qualifierText? <;> rfl

/-- A column is named by the values before its own. -/
theorem text?_of_column (spans : Bool) (s : Span) (c : QualifiedName) :
    ((⟨s, .column c⟩ : Expr).document spans).text? "table" = c.qualifierText? := by
  have isObject : (columnDocument c.qualifierDocument c.base.value).IsObject := trivial
  have table : (columnDocument c.qualifierDocument c.base.value).field? "table" =
      some c.qualifierDocument := rfl
  rw [Expr.document, text?, field?_spanned_eq isObject, if_neg (by simp), table,
    c.qualifierDocument_eq]
  cases c.qualifierText? <;> rfl

/-- All columns of a relation are named by its canonical form. -/
theorem itemTable?_of_wildcard (spans : Bool) (s : Span) (w : QualifiedName) :
    ((SelectItem.qualifiedWildcard s w).document spans).itemTable? = some w.canonical := by
  have item := field?_spanned_eq (isObject_object
    [("expr", columnDocument (string w.canonical) "*"), ("as", null)]) spans s "expr"
  rw [if_neg (by simp)] at item
  rw [SelectItem.document, itemTable?, item]
  rfl

/-! ## One relation, three documents -/

/-- The column `c` is qualified by what all columns are taken of in `w`, and the table `t` in
`FROM` is called that as well. The column and the entry are then named by the same text, that
of the values. All columns are named by the canonical form, which is the same text exactly
when no part needs quotes. -/
theorem qualifiers_in_documents (spans : Bool) (wildcard column : Span) {w c t : QualifiedName}
    {f : From} {i : Nat} {table : Span} {label : Option Identifier}
    (qualified : c.qualifiers.map (·.value) = w.values) (called : t.values = w.values)
    (entry : f.relations[i]? = some (.table table t label)) :
    let all := ((SelectItem.qualifiedWildcard wildcard w).document spans).itemTable?
    let one := ((⟨column, .column c⟩ : Expr).document spans).text? "table"
    let source := ((JoinedTable.documents spans f.tables)[i]?).bind source?
    one = some w.text ∧ source = some w.text ∧ all = some w.canonical ∧
      (all = one ↔ ∀ v ∈ w.values, needsQuotes v = false) := by
  intro all one source
  have hone : one = some w.text := by
    have ne : c.qualifiers.isEmpty = false := by
      have := w.values_ne_nil
      rw [← qualified] at this
      simpa using this
    simp only [one, text?_of_column, QualifiedName.qualifierText?, ne, qualified,
      QualifiedName.text]
    rfl
  have hsource : source = some w.text := by
    have same : source = ((f.relations.map fun r => (r.document spans).source?)[i]?).join := by
      rw [← sources_of_documents, List.getElem?_map]
      cases h : (JoinedTable.documents spans f.tables)[i]? <;> simp [source, h]
    rw [same, List.getElem?_map, entry, Option.map_some, source?_of_table, Option.join_some,
      QualifiedName.text, QualifiedName.text, called]
  have hall : all = some w.canonical := itemTable?_of_wildcard spans wildcard w
  refine ⟨hone, hsource, hall, ?_⟩
  rw [hall, hone, Option.some.injEq]
  exact w.canonical_eq_text_iff

/-- The three documents of `s.t`, which needs no quotes, say the same. -/
theorem qualifiers_of_bare_name :
    let name (start : Nat) : Identifier × Identifier :=
      (⟨⟨start, start + 1⟩, "s"⟩, ⟨⟨start + 2, start + 3⟩, "t"⟩)
    let w : QualifiedName := ⟨⟨7, 10⟩, [(name 7).1], (name 7).2⟩
    let c : QualifiedName := ⟨⟨14, 19⟩, [(name 14).1, (name 14).2], ⟨⟨18, 19⟩, "a"⟩⟩
    let t : QualifiedName := ⟨⟨25, 28⟩, [(name 25).1], (name 25).2⟩
    let f : From := ⟨⟨20, 28⟩, [⟨⟨25, 28⟩, .table ⟨25, 28⟩ t none, []⟩]⟩
    (∃ s : Select, parseStatement {} "SELECT s.t.*, s.t.a FROM s.t" =
      .ok (.query ⟨⟨0, 28⟩, .select s, none, none⟩) ∧ s.source = some f ∧
      s.projection = [.qualifiedWildcard ⟨7, 12⟩ w, .expr ⟨14, 19⟩ ⟨⟨14, 19⟩, .column c⟩ none]) ∧
    ((SelectItem.qualifiedWildcard ⟨7, 12⟩ w).document true).itemTable? =
      ((⟨⟨14, 19⟩, .column c⟩ : Expr).document true).text? "table" := by
  intro name w c t f
  have qualified : c.qualifiers.map (·.value) = w.values := rfl
  have called : t.values = w.values := rfl
  have entry : f.relations[0]? = some (.table ⟨25, 28⟩ t none) := rfl
  obtain ⟨-, -, -, same⟩ := qualifiers_in_documents true ⟨7, 12⟩ ⟨14, 19⟩ qualified called entry
  exact ⟨⟨⟨⟨0, 28⟩, false, _, some f, none, none, none⟩, by decide +kernel, rfl, rfl⟩,
    same.2 (by decide +kernel)⟩

/-- A name that needs quotes is another one where all columns are taken of it than in a column
and in `FROM`. -/
theorem unlike_qualifiers : ∃ (s : Select) (f : From),
    parseStatement {} "SELECT \"A b\".*, \"A b\".c FROM \"A b\"" =
      .ok (.query ⟨⟨0, 34⟩, .select s, none, none⟩) ∧ s.source = some f ∧
    s.projection.map (fun i => (i.document false).itemTable?) = [some "\"A b\"", some "A b"] ∧
    (JoinedTable.documents false f.tables).map source? = [some "A b"] := by
  let name (start : Nat) : Identifier := ⟨⟨start, start + 5⟩, "A b"⟩
  let f : From := ⟨⟨24, 34⟩, [⟨⟨29, 34⟩, .table ⟨29, 34⟩ ⟨⟨29, 34⟩, [], name 29⟩ none, []⟩]⟩
  let s : Select := ⟨⟨0, 34⟩, false, [.qualifiedWildcard ⟨7, 14⟩ ⟨⟨7, 12⟩, [], name 7⟩,
    .expr ⟨16, 23⟩ ⟨⟨16, 23⟩, .column ⟨⟨16, 23⟩, [name 16], ⟨⟨22, 23⟩, "c"⟩⟩⟩ none],
    some f, none, none, none⟩
  exact ⟨s, f, by decide +kernel, rfl, by decide +kernel, by decide +kernel⟩

end SqlSyntax
