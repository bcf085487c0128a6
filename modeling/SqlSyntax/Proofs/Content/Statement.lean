import SqlSyntax.Proofs.Content.Nesting
import SqlSyntax.Proofs.Grammar.Statement

/-!
# Content of statements

Every statement yields the content of its tree, with the columns of a new table
before its constraints. What may be written in another order is noticed: limits
with a comma, and new tables always.

## Main results

* `IsCreateTable.yields`, `IsStatement.yields`
-/

namespace SqlSyntax

/-- Whether a statement creates a table. -/
def Statement.createsTable : Statement → Bool
  | .createTable _ => true
  | _ => false

namespace Grammar

open Content

section

variable {P : Phrases} (hP : P.Yielding) {R : Bool → Prop} (hR : P.comma → R true) {f : Frame}
  {o : List Frame} {K : TokenKind → Prop} {ts : List Token}

/-! ## Changes of the data -/

include hP hR in
theorem IsInsertSource.yields {s : InsertSource} (h : IsInsertSource P ts s) :
    Yields (Calm R .plain o Anything) (Ends R o) ts s.content := by
  cases h with
  | values body =>
    obtain ⟨kind, body⟩ := body
    have rows := body.yields (A := Calm R .plain o Opens) (B := Calm R .plain o Done)
      (fun _ _ row => row_yields hP hR (f := .plain) (K := Opens) nofun (fun _ h => h.1) row)
      fun _ kind => yields_comma kind nofun nofun ⟨nofun, rfl⟩
    exact (YieldsBefore.keyword kind rfl rows ⟨nofun, rfl⟩).mono (fun _ => id) fun _ => At.ends
  | query query => exact hP.query hR query

theorem IsInsertColumns.yields {is : List Identifier} (h : IsInsertColumns ts is) :
    Yields (Calm R .plain o Named) (Calm R .plain o Anything) ts
      (is.flatMap Identifier.content) := by
  cases h with
  | listed columns => exact columns.yields nofun (fun _ => Named.ne_cast) trivial
  | none => exact yields_nil fun _ hm => hm.imp fun _ _ => trivial

include hP hR in
theorem IsInsert.yields {s : Insert} (h : IsInsert P ts s) :
    Yields (Calm R .plain o Anything) (Ends R o) ts (Statement.insert s).content := by
  cases h with
  | plain insert into table columns source =>
    have table : Yields (Calm R .plain o Anything) _ _ _ := table.yields fun _ _ => nofun
    have behind := table.append (columns.yields.append (source.yields hP hR))
    exact .keyword (L := Anything) insert rfl (.keyword into rfl behind trivial) trivial
  | parenthesized insert into table source =>
    have table : Yields (Calm R .plain o Anything) _ _ _ := table.yields fun _ _ => nofun
    have source : Yields (Calm R .plain o Named) (Calm R .plain o Anything) _ _ :=
      source.yields nofun (fun _ => Named.ne_cast) trivial fun _ inner => hP.query hR inner
    have behind := (table.append source).mono (fun _ => id) fun _ => At.ends
    exact .keyword (L := Anything) insert rfl (.keyword into rfl behind trivial) trivial

include hP hR in
theorem IsAssignment.yields {a : Assignment} (h : IsAssignment P ts a) :
    Yields (Calm R .plain o Opens) (Calm R .plain o Anything) ts a.content := by
  obtain ⟨column, ⟨kind, value⟩⟩ := h
  have column : Yields (Calm R .plain o Opens) _ _ _ := column.yields fun _ => Opens.names
  have value := hP.expr (R := R) (f := .plain) (o := o) (K := Opens) hR nofun (fun _ => id) value
  exact column.append (Yields.append (yields_operator kind ⟨nofun, rfl⟩) value.forget)

include hP hR in
theorem IsUpdate.yields {s : Update} (h : IsUpdate P ts s) :
    Yields (Calm R .plain o Anything) (Calm R .plain o Anything) ts
      (Statement.update s).content := by
  obtain ⟨update, table, name, set, condition⟩ := h
  have table : Yields (Calm R .plain o Anything) _ _ _ := table.yields fun _ _ => nofun
  have set : Yields (Calm R .plain o Anything) (Calm R .plain o Anything) _ _ :=
    set.yields (L := Opens) rfl ⟨nofun, rfl⟩ fun _ list =>
      list.yields (fun _ _ part => part.yields hP hR)
        fun _ kind => yields_comma kind nofun nofun ⟨nofun, rfl⟩
  have condition := optional_expr_behind hP hR (o := o) condition rfl ⟨nofun, rfl⟩
  exact .keyword update rfl (table.append (name.yields.append (set.append condition))) trivial

include hP hR in
theorem IsDelete.yields {s : Delete} (h : IsDelete P ts s) :
    Yields (Calm R .plain o Anything) (Calm R .plain o Anything) ts
      (Statement.delete s).content := by
  obtain ⟨delete, source, table, name, condition⟩ := h
  have table : Yields (Calm R .plain o Anything) _ _ _ := table.yields fun _ _ => nofun
  have condition := optional_expr_behind hP hR (o := o) condition rfl ⟨nofun, rfl⟩
  have behind := table.append (name.yields.append condition)
  exact .keyword (L := Anything) delete rfl (.keyword source rfl behind trivial) trivial

/-! ## Columns and constraints -/

include hP hR in
theorem IsColumnOption.yields (hf : f ≠ .table) {c : ColumnOption} (h : IsColumnOption P ts c) :
    Yields (Calm R f o Anything) (Calm R f o Anything) ts c.content := by
  cases h with
  | default value => exact (expr_behind hP hR hf value rfl ⟨nofun, rfl⟩).forget
  | null words | notNull words | primaryKey words | unique words =>
    exact words.yields (by simp [isPlain])

theorem IsColumnOption.start {c : ColumnOption} (h : IsColumnOption P ts c) :
    ∃ t us k, ts = t :: us ∧ t.kind = .keyword k := by
  cases h with
  | default value =>
    obtain ⟨kind, -⟩ := value
    exact ⟨_, _, _, rfl, kind⟩
  | null words | notNull words | primaryKey words | unique words =>
    obtain _ | ⟨kind, -⟩ := words
    exact ⟨_, _, _, rfl, kind⟩

/-- A data type may stand in front of the options of a column. -/
theorem followsType_options {us rest : List Token} {cs : List ColumnOption}
    (h : Many (IsColumnOption P) us cs) (hrest : Parser.FollowsType rest) :
    Parser.FollowsType (us ++ rest) := by
  cases h with
  | nil => exact hrest
  | cons head _ =>
    obtain ⟨t, us, k, rfl, kind⟩ := head.start
    simp [Parser.FollowsType, kind]

include hP hR in
theorem IsColumnDefinition.yields (hf : f ≠ .table) (hf' : f ≠ .ordered) {c : ColumnDefinition}
    (h : IsColumnDefinition P ts c) :
    YieldsBefore Parser.FollowsType (At R f o .column K) (Calm R f o Anything) ts c.content := by
  obtain ⟨⟨kind⟩, type, options⟩ := h
  have type := yields_dataType (R := R) (f := f) (o := o) (K := Anything) type
  have behind := options.yields fun _ _ part => part.yields hP hR (o := o) hf
  have typed := type.append (behind.before fun _ _ => trivial) fun _ => followsType_options options
  exact Yields.append (yields_columnName kind hf') typed

theorem IsConstraint.yields (hf : f ≠ .table) {x : Expects} (hx : x ≠ .type)
    {c : TableConstraint} (h : IsConstraint ts c) :
    Yields (At R f o x K) (Calm R f o Anything) ts c.content := by
  cases h with
  | primaryKey primary key columns =>
    have columns : Yields (Calm R f o (· = .keyword .KEY)) (Calm R f o Anything) _ _ :=
      columns.yields hf (fun _ h => h ▸ nofun) trivial
    have behind := YieldsBefore.keyword (K := Anything) key rfl columns rfl
    exact Yields.append (yields_keyword primary rfl hx trivial) behind
  | unique unique columns =>
    have columns : Yields (Calm R f o (· = .keyword .UNIQUE)) (Calm R f o Anything) _ _ :=
      columns.yields hf (fun _ h => h ▸ nofun) trivial
    exact Yields.append (yields_keyword unique rfl hx (by rfl)) columns

/-- The content of an element of a new table. -/
abbrev elementContent : TableConstraint ⊕ ColumnDefinition → List Item :=
  Sum.elim TableConstraint.content ColumnDefinition.content

include hP hR in
theorem IsTableElement.yields {e : TableConstraint ⊕ ColumnDefinition}
    (h : IsTableElement P ts e) :
    YieldsBefore Parser.FollowsType (At R .columns o .column K) (Calm R .columns o Anything) ts
      (elementContent e) := by
  cases h with
  | constraint constraint =>
    exact (constraint.yields (f := .columns) (x := .column) nofun nofun).before fun _ _ => trivial
  | column column => exact column.yields hP hR (f := .columns) nofun nofun

/-- A new table says its columns first and then its constraints. -/
theorem elementContent_perm (elements : List (TableConstraint ⊕ ColumnDefinition)) :
    (elements.flatMap elementContent).Perm
      ((elements.filterMap Sum.getRight?).flatMap ColumnDefinition.content ++
        (elements.filterMap Sum.getLeft?).flatMap TableConstraint.content) := by
  simpa [List.flatMap_append, List.flatMap_map] using
    (elements_perm elements).flatMap_right elementContent

/-! ## Changes of the schema -/

theorem IsGuard.yields {ks : List Keyword} (plain : ∀ k ∈ ks, isPlain k) {g : Bool}
    (h : IsGuard ks ts g) :
    Yields (Calm R f o Anything) (Calm R f o Anything) ts (Content.guard ks g) := by
  cases h with
  | absent => exact yields_nil fun _ => id
  | present words => exact words.yields plain

include hP in
/-- That a table is created is always noticed. -/
theorem IsCreateTable.yields {s : CreateTable} (h : IsCreateTable P ts s) :
    Yields (Calm R .plain o Anything) (Ends (· = true) o) ts
      (Statement.createTable s).content := by
  obtain ⟨create, table, guard, name, ⟨opening, elements, closing⟩⟩ := h
  have table := yields_createdTable (R := R) (f := .plain) (o := o) table
  have guard := guard.yields (R := (· = true)) (f := .table) (o := o) (by simp [isPlain])
  have name : Yields (Calm (· = true) .table o Anything) _ _ _ := name.yields fun _ _ => nofun
  have opened := yields_openColumns (R := (· = true)) (o := o) (K := Named) opening
  have closed := yields_close (R := (· = true)) (f := .table) (o := o) (L := Anything) closing
    trivial
  have elements : YieldsBefore Parser.FollowsType
      (At (· = true) .columns (.table :: o) .column Anything)
      (Calm (· = true) .columns (.table :: o) Anything) _ _ :=
    elements.yieldsBefore (fun _ _ element => element.yields hP (R := (· = true)) fun _ => rfl)
      (fun _ kind => yields_columnComma kind)
      fun _ _ kind => ⟨by simp [kind], by simp [kind]⟩
  have list := (elements.perm (elementContent_perm _) fun _ hm => hm.reordered).mono (fun _ => id)
    fun _ => At.ends
  have body := opened.append (list.append closed fun _ _ => by simp [Parser.FollowsType, closing])
  have behind := table.append (guard.append (name.append body))
  exact ((YieldsBefore.keyword create rfl behind rfl).mono (fun _ => id) fun _ => At.ends).congr
    (by simp [Statement.content])

theorem IsCreateIndex.yields {s : CreateIndex} (h : IsCreateIndex ts s) :
    Yields (Calm R .plain o Anything) (Calm R .plain o Anything) ts
      (Statement.createIndex s).content := by
  obtain ⟨create, mark, index, name, on, columns⟩ := h
  have mark := mark.yields (R := R) (f := .plain) (o := o) (K := Anything) (L := Anything) rfl
    (fun _ => id) trivial
  have name : Yields (Calm R .plain o Anything) _ _ _ := name.yields fun _ _ => nofun
  have on : Yields (Calm R .plain o Named) (Calm R .plain o Named) _ _ :=
    on.yields (L := Anything) rfl trivial fun _ table => table.yields fun _ _ => nofun
  have columns : Yields (Calm R .plain o Named) (Calm R .plain o Anything) _ _ :=
    columns.yields nofun (fun _ => Named.ne_cast) trivial
  have behind := YieldsBefore.keyword (K := Anything) index rfl (name.append (on.append columns)) trivial
  exact .keyword create rfl (mark.append behind) trivial

theorem IsCreateDatabase.yields {s : CreateDatabase} (h : IsCreateDatabase ts s) :
    Yields (Calm R .plain o Anything) (Calm R .plain o Anything) ts
      (Statement.createDatabase s).content := by
  obtain ⟨create, database, name⟩ := h
  have name : Yields (Calm R .plain o Anything) _ _ _ := name.yields fun _ _ => nofun
  exact .keyword (L := Anything) create rfl (.keyword database rfl name.forget trivial) trivial

/-- The word `COLUMN`, whatever is expected behind it. -/
theorem noiseColumn_yields {x : Expects} (hx : x ≠ .type) (h : Noise .COLUMN ts) :
    Yields (At R f o x Anything) (At R f o x Anything) ts [] := by
  cases h with
  | absent => exact yields_nil fun _ => id
  | present kind => exact yields_column kind hx

include hP hR in
theorem IsAlteration.yields {a : Alteration} (h : IsAlteration P ts a) :
    YieldsBefore Parser.FollowsType (Calm R .plain o K) (Calm R .plain o Anything) ts
      a.content := by
  have identifier : ∀ {us i}, IsIdentifier us i →
      Yields (Calm R .plain o Anything) (Calm R .plain o Anything) us i.content :=
    fun name => (IsIdentifier.yields (f := .plain) name fun _ _ => nofun).forget
  have free : ∀ {us c} {A B : Mode → Prop}, Yields A B us c →
      YieldsBefore Parser.FollowsType A B us c := fun h => h.before fun _ _ => trivial
  cases h with
  | addColumn add noise column =>
    have column := column.yields hP hR (f := .plain) (o := o) (K := Anything) nofun nofun
    have behind := (noiseColumn_yields (x := .column) nofun noise).append column
    exact Yields.append (yields_add add) behind
  | dropColumn drop noise column =>
    have behind := (noiseColumn_yields (x := .nothing) nofun noise).append (identifier column)
    exact free (.keyword drop rfl behind trivial)
  | renameTable rename name =>
    have name := name.yields (K := Anything) rfl trivial fun _ part => identifier part
    exact free (.keyword rename rfl name trivial)
  | renameColumn rename noise old new =>
    have new := new.yields (K := Anything) rfl trivial fun _ part => identifier part
    have behind := (noiseColumn_yields (x := .nothing) nofun noise).append ((identifier old).append new)
    exact free (.keyword rename rfl behind trivial)

include hP hR in
theorem IsAlterTable.yields {s : AlterTable} (h : IsAlterTable P ts s) :
    YieldsBefore Parser.FollowsType (Calm R .plain o Anything) (Calm R .plain o Anything) ts
      (Statement.alterTable s).content := by
  obtain ⟨alter, table, name, alteration⟩ := h
  have table := yields_table (R := R) (f := .plain) (o := o) (K := (· = .keyword .ALTER)) table
    fun _ h => h ▸ nofun
  have name : Yields (Calm R .plain o Anything) _ _ _ := name.yields fun _ _ => nofun
  have behind := table.append (name.append (alteration.yields hP hR))
  exact .keyword alter rfl behind rfl

theorem IsDrop.yields {s : Drop} (h : IsDrop ts s) :
    Yields (Calm R .plain o Anything) (Calm R .plain o Anything) ts
      (Statement.drop s).content := by
  obtain @⟨t, u, gs, ns, kind, g, n, drop, object, guard, name⟩ := h
  have object : Yields (Calm R .plain o (· = .keyword .DROP)) (Calm R .plain o Anything) [u]
      [.keyword kind.keyword] := by
    cases kind with
    | table => exact yields_table object fun _ h => h ▸ nofun
    | index | database => exact yields_keyword object rfl nofun trivial
  have guard := guard.yields (R := R) (f := .plain) (o := o) (by simp [isPlain])
  have name : Yields (Calm R .plain o Anything) _ _ _ := name.yields fun _ _ => nofun
  exact .keyword drop rfl (object.append (guard.append name.forget)) rfl

/-! ## Statements -/

include hP hR in
/-- Every statement yields the content of its tree. -/
theorem IsStatement.yields {s : Statement} (h : IsStatement P ts s) (hs : R s.createsTable) :
    YieldsBefore Parser.FollowsType (· = .start) (Ends R []) ts s.content := by
  have start : R false → ∀ m, m = Mode.start → Calm R .plain [] Anything m := by
    rintro hs _ rfl
    exact ⟨rfl, rfl, rfl, rfl, trivial, hs⟩
  have free : ∀ {c} {B : Mode → Prop}, R false → Yields (Calm R .plain [] Anything) B ts c →
      (∀ m, B m → Ends R [] m) → YieldsBefore Parser.FollowsType (· = .start) (Ends R []) ts c :=
    fun hs h hB => (h.mono (start hs) hB).before fun _ _ => trivial
  cases h with
  | query body => exact free hs (hP.query hR body) fun _ => id
  | insert body => exact free hs (body.yields hP hR) fun _ => id
  | update body => exact free hs (body.yields hP hR) fun _ => At.ends
  | delete body => exact free hs (body.yields hP hR) fun _ => At.ends
  | createIndex body => exact free hs body.yields fun _ => At.ends
  | createDatabase body => exact free hs body.yields fun _ => At.ends
  | alterTable body => exact (body.yields hP hR).mono (start hs) fun _ => At.ends
  | drop body => exact free hs body.yields fun _ => At.ends
  | createTable body =>
    refine ((body.yields hP (R := fun _ => True) (o := [])).mono ?_ ?_).before
      fun _ _ => trivial
    · rintro _ rfl
      exact ⟨rfl, rfl, rfl, rfl, trivial, trivial⟩
    · intro m hm
      exact ⟨hm.outer, hm.expects, hm.skip, hm.reordered ▸ hs⟩

end

end Grammar

end SqlSyntax
