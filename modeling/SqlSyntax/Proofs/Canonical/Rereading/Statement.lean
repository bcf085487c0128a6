import SqlSyntax.Proofs.Canonical.Rereading.Query
import SqlSyntax.Proofs.Grammar.Statement

/-!
# Reading canonical statements again

The canonical form of a new table has its columns first, so its elements are
read again in that order; a list of constraints and a list of columns come out
of them either way.
-/

namespace SqlSyntax

open Grammar

variable {P : Phrases}

/-! ## Words -/

theorem Spelled.guard {ks : List Keyword} {b : Bool} {ps : List Piece} {ts : List Token}
    (h : Spelled ((if b then Piece.keywords ks ++ [.space] else []) ++ ps) ts) :
    ∃ us vs, ts = us ++ vs ∧ IsGuard ks us b ∧ Spelled ps vs := by
  cases b with
  | false => exact ⟨[], ts, rfl, .absent, h⟩
  | true =>
    rw [if_pos rfl, List.append_assoc] at h
    obtain ⟨us, vs, rfl, words, behind⟩ := append_iff.1 h
    exact ⟨us, vs, rfl, .present (keywords_iff.1 words), space_iff.1 behind⟩

theorem rereads_wherePieces {o : Option Expr} (h : ∀ e ∈ o, P.RereadsExpr 0 e) :
    Rereads (Optional (Behind (.keyword .WHERE) P.wholeExpr)) (Option.map (Expr.mapSpans .erase))
      (wherePieces o) o := by
  rw [wherePieces, Expr.piecesAfter_keyword]
  exact rereads_optionalBehind .WHERE h

/-! ## Changes of the data -/

theorem InsertSource.rereads_values {rows : List (List Expr)} (hne : rows ≠ [])
    (hrow : ∀ row ∈ rows, row ≠ []) (h : ∀ row ∈ rows, ∀ e ∈ row, P.RereadsExpr 0 e) :
    Rereads (IsInsertSource P) (InsertSource.mapSpans .erase) (pieces (.values rows))
      (.values rows) := by
  intro ts spelled
  have row : ∀ row ∈ rows, Rereads (Parenthesized (CommaSeparated P.wholeExpr))
      (List.map (Expr.mapSpans .erase))
      (Piece.parenthesized (Piece.commaSeparated (row.map Expr.pieces))) row := fun row hmem =>
    Rereads.parenthesized (Rereads.commaSeparated (hrow row hmem) (h row hmem))
  obtain ⟨rows', reading, same⟩ := (Rereads.commaSeparated hne row).behind .VALUES spelled
  exact ⟨.values rows', .values reading, congrArg InsertSource.values same⟩

theorem InsertSource.rereads_query {q : Query} (hq : P.RereadsQuery q) :
    Rereads (IsInsertSource P) (InsertSource.mapSpans .erase) (pieces (.query q)) (.query q) := by
  intro ts spelled
  obtain ⟨q', reading, same⟩ := hq spelled
  exact ⟨.query q', .query reading, congrArg InsertSource.query same⟩

theorem Insert.rereads {s : Insert}
    (source : Rereads (IsInsertSource P) (InsertSource.mapSpans .erase) s.source.pieces s.source) :
    Rereads (IsStatement P) (Statement.mapSpans .erase) s.pieces (.insert s) := by
  intro ts spelled
  rw [pieces, List.append_assoc, List.append_assoc, List.append_assoc] at spelled
  obtain ⟨t, u, us, rfl, insert, into, spelled⟩ := Spelled.keywords_two spelled
  obtain ⟨ns, vs, rfl, named, spelled⟩ := Spelled.append_iff.1 spelled
  obtain ⟨cs, ws, rfl, listed, spelled⟩ := Spelled.append_iff.1 spelled
  obtain ⟨n', name, same⟩ := s.table.rereads named
  obtain ⟨source', reading, same'⟩ := source (Spelled.space_iff.1 spelled)
  obtain ⟨columns', columns, sames⟩ : ∃ columns', IsInsertColumns cs columns' ∧
      List.map (Identifier.mapSpans .erase) columns' = s.columns.map (·.mapSpans .erase) := by
    cases hcolumns : s.columns with
    | nil =>
      rw [hcolumns] at listed
      obtain rfl := Spelled.nil_iff.1 listed
      exact ⟨[], .none, rfl⟩
    | cons c cs =>
      rw [hcolumns] at listed
      obtain ⟨columns', reading, sames⟩ :=
        rereads_columnPieces (List.cons_ne_nil c cs) (Spelled.space_iff.1 listed)
      exact ⟨columns', .listed reading, sames⟩
  exact ⟨_, .insert (.plain insert into name columns reading), by
    simp [Statement.mapSpans, same, same', sames]⟩

theorem Assignment.rereads {a : Assignment} (h : P.RereadsExpr 0 a.value) :
    Rereads (IsAssignment P) (Assignment.mapSpans .erase) a.pieces a := by
  intro ts spelled
  rw [pieces, List.append_assoc] at spelled
  obtain ⟨cs, us, rfl, named, spelled⟩ := Spelled.append_iff.1 spelled
  obtain ⟨t, vs, rfl, kind, spelled⟩ := Spelled.operator_iff.1 (Spelled.space_iff.1 spelled)
  obtain ⟨c', column, same⟩ := a.column.rereads named
  obtain ⟨e', value, same'⟩ := h (Spelled.space_iff.1 spelled)
  exact ⟨_, .intro column (.intro kind value), by simp [mapSpans, same, same']⟩

theorem Update.rereads {s : Update} (hne : s.assignments ≠ [])
    (set : ∀ a ∈ s.assignments, P.RereadsExpr 0 a.value)
    (condition : ∀ e ∈ s.condition, P.RereadsExpr 0 e) :
    Rereads (IsStatement P) (Statement.mapSpans .erase) s.pieces (.update s) := by
  intro ts spelled
  simp only [pieces, List.append_assoc, List.cons_append, List.nil_append] at spelled
  obtain ⟨t, us, rfl, update, spelled⟩ := Spelled.keyword_iff.1 spelled
  obtain ⟨ns, vs, rfl, named, spelled⟩ := Spelled.append_iff.1 (Spelled.space_iff.1 spelled)
  obtain ⟨ls, ws, rfl, labelled, spelled⟩ := Spelled.append_iff.1 spelled
  obtain ⟨u, xs, rfl, kind, spelled⟩ := Spelled.keyword_iff.1 (Spelled.space_iff.1 spelled)
  obtain ⟨as, ys, rfl, assigned, filtered⟩ := Spelled.append_iff.1 (Spelled.space_iff.1 spelled)
  obtain ⟨n', name, same⟩ := s.table.rereads named
  obtain ⟨label', alias?, same₁⟩ := rereads_aliasPieces s.alias? labelled
  obtain ⟨assignments', reading, same₂⟩ :=
    Rereads.commaSeparated hne (fun a ha => Assignment.rereads (set a ha)) assigned
  obtain ⟨condition', reading', same₃⟩ := rereads_wherePieces condition filtered
  exact ⟨_, .update (.intro update name alias? (.intro kind reading) reading'), by
    simp [Statement.mapSpans, same, same₁, same₂, same₃]⟩

theorem Delete.rereads {s : Delete} (condition : ∀ e ∈ s.condition, P.RereadsExpr 0 e) :
    Rereads (IsStatement P) (Statement.mapSpans .erase) s.pieces (.delete s) := by
  intro ts spelled
  rw [pieces, List.append_assoc, List.append_assoc] at spelled
  obtain ⟨t, u, us, rfl, delete, source, spelled⟩ := Spelled.keywords_two spelled
  obtain ⟨ns, vs, rfl, named, spelled⟩ := Spelled.append_iff.1 spelled
  obtain ⟨ls, ws, rfl, labelled, filtered⟩ := Spelled.append_iff.1 spelled
  obtain ⟨n', name, same⟩ := s.table.rereads named
  obtain ⟨label', alias?, same₁⟩ := rereads_aliasPieces s.alias? labelled
  obtain ⟨condition', reading, same₂⟩ := rereads_wherePieces condition filtered
  exact ⟨_, .delete (.intro delete source name alias? reading), by
    simp [Statement.mapSpans, same, same₁, same₂]⟩

/-! ## Changes of the schema -/

theorem ColumnOption.rereads {o : ColumnOption} (h : ∀ e, o = .default e → P.RereadsExpr 0 e) :
    Rereads (IsColumnOption P) (ColumnOption.mapSpans .erase) o.pieces o := by
  have word : ∀ {k : Keyword} {ts : List Token}, Spelled [.keyword k] ts → Keywords [k] ts :=
    fun spelled => Spelled.keywords_iff.1 spelled
  intro ts spelled
  cases o with
  | null => exact ⟨_, .null (word spelled), rfl⟩
  | notNull => exact ⟨_, .notNull (Spelled.keywords_iff.1 spelled), rfl⟩
  | primaryKey => exact ⟨_, .primaryKey (Spelled.keywords_iff.1 spelled), rfl⟩
  | unique => exact ⟨_, .unique (word spelled), rfl⟩
  | default e =>
    obtain ⟨e', reading, same⟩ := Rereads.behind .DEFAULT (h e rfl) spelled
    exact ⟨_, .default reading, congrArg ColumnOption.default same⟩

theorem ColumnDefinition.rereads {c : ColumnDefinition} (htype : c.type.WellFormed)
    (h : ∀ e, ColumnOption.default e ∈ c.options → P.RereadsExpr 0 e) :
    Rereads (IsColumnDefinition P) (ColumnDefinition.mapSpans .erase) c.pieces c := by
  have shape : c.pieces = c.name.pieces ++ .space :: (c.type.pieces ++
      c.options.flatMap fun o => .space :: o.pieces) := by
    rw [pieces, Piece.spaceSeparated_cons, List.flatMap_cons, List.flatMap_map, List.cons_append]
  intro ts spelled
  rw [shape] at spelled
  obtain ⟨ns, us, rfl, named, spelled⟩ := Spelled.append_iff.1 spelled
  obtain ⟨ts, os, rfl, typed, optioned⟩ := Spelled.append_iff.1 (Spelled.space_iff.1 spelled)
  obtain ⟨n', name, same⟩ := c.name.rereads named
  obtain ⟨_, type, rfl⟩ := DataType.rereads htype typed
  obtain ⟨options', options, sames⟩ :=
    Rereads.many (fun o ho => ColumnOption.rereads fun e he => h e (he ▸ ho)) optioned
  exact ⟨_, .intro name type options, by simp [mapSpans, same, sames]⟩

theorem TableConstraint.rereads {c : TableConstraint} (h : c.columns ≠ []) :
    Rereads IsConstraint (TableConstraint.mapSpans .erase) c.pieces c := by
  intro ts spelled
  cases c with
  | primaryKey s columns =>
    obtain ⟨t, u, us, rfl, primary, key, spelled⟩ := Spelled.keywords_two spelled
    obtain ⟨columns', reading, sames⟩ := rereads_columnPieces h spelled
    exact ⟨_, .primaryKey primary key reading, by simp [mapSpans, sames, TableConstraint.columns]⟩
  | unique s columns =>
    obtain ⟨t, us, rfl, unique, spelled⟩ := Spelled.keyword_iff.1 spelled
    obtain ⟨columns', reading, sames⟩ := rereads_columnPieces h (Spelled.space_iff.1 spelled)
    exact ⟨_, .unique unique reading, by simp [mapSpans, sames, TableConstraint.columns]⟩

/-- The elements of a new table as they are written. -/
def CreateTable.elements (s : CreateTable) : List (TableConstraint ⊕ ColumnDefinition) :=
  s.columns.map .inr ++ s.constraints.map .inl

theorem CreateTable.elements_getRight? (s : CreateTable) :
    s.elements.filterMap Sum.getRight? = s.columns := by
  simp [elements, List.filterMap_map, Function.comp_def]

theorem CreateTable.elements_getLeft? (s : CreateTable) :
    s.elements.filterMap Sum.getLeft? = s.constraints := by
  simp [elements, List.filterMap_map, Function.comp_def]

theorem CreateTable.rereads_elements {s : CreateTable} (h : (Statement.createTable s).Complete)
    (columns : ∀ c ∈ s.columns,
      Rereads (IsColumnDefinition P) (ColumnDefinition.mapSpans .erase) c.pieces c) :
    Rereads (CommaSeparated (IsTableElement P))
      (List.map (Sum.map (TableConstraint.mapSpans .erase) (ColumnDefinition.mapSpans .erase)))
      (Piece.commaSeparated
        (s.columns.map ColumnDefinition.pieces ++ s.constraints.map TableConstraint.pieces))
      s.elements := by
  have shape : s.columns.map ColumnDefinition.pieces ++ s.constraints.map TableConstraint.pieces =
      s.elements.map (Sum.elim TableConstraint.pieces ColumnDefinition.pieces) := by
    simp [elements, Function.comp_def]
  have nonempty : s.elements ≠ [] := by simpa [elements] using h.1
  rw [shape]
  refine Rereads.commaSeparated nonempty fun element hmem ts spelled => ?_
  rcases List.mem_append.1 hmem with hmem | hmem
  · obtain ⟨c, hc, rfl⟩ := List.mem_map.1 hmem
    obtain ⟨c', reading, same⟩ := columns c hc spelled
    exact ⟨.inr c', .column reading, congrArg Sum.inr same⟩
  · obtain ⟨c, hc, rfl⟩ := List.mem_map.1 hmem
    obtain ⟨c', reading, same⟩ := TableConstraint.rereads (h.2 c hc) spelled
    exact ⟨.inl c', .constraint reading, congrArg Sum.inl same⟩

theorem CreateTable.rereads {s : CreateTable} (h : (Statement.createTable s).Complete)
    (columns : ∀ c ∈ s.columns,
      Rereads (IsColumnDefinition P) (ColumnDefinition.mapSpans .erase) c.pieces c) :
    Rereads (IsStatement P) (Statement.mapSpans .erase) s.pieces (.createTable s) := by
  intro ts spelled
  rw [pieces, List.append_assoc, List.append_assoc, List.append_assoc] at spelled
  obtain ⟨t, u, us, rfl, create, table, spelled⟩ := Spelled.keywords_two spelled
  obtain ⟨gs, vs, rfl, guard, spelled⟩ := Spelled.guard spelled
  obtain ⟨ns, ws, rfl, named, spelled⟩ := Spelled.append_iff.1 spelled
  obtain ⟨n', name, same⟩ := s.name.rereads named
  obtain ⟨elements', body, sames⟩ :=
    (rereads_elements h columns).parenthesized (Spelled.space_iff.1 spelled)
  have rights := congrArg (List.filterMap Sum.getRight?) sames
  have lefts := congrArg (List.filterMap Sum.getLeft?) sames
  simp only [List.filterMap_map, Function.comp_def, Sum.getRight?_map, Sum.getLeft?_map,
    ← List.map_filterMap, elements_getRight?, elements_getLeft?] at rights lefts
  refine ⟨_, .createTable (.intro create table guard name body), ?_⟩
  simp [Statement.mapSpans, same, rights, lefts]

theorem CreateIndex.rereads {s : CreateIndex} (hne : s.columns ≠ []) :
    Rereads (IsStatement P) (Statement.mapSpans .erase) s.pieces (.createIndex s) := by
  intro ts spelled
  simp only [pieces, List.append_assoc, List.cons_append, List.nil_append] at spelled
  obtain ⟨t, us, rfl, create, spelled⟩ := Spelled.keyword_iff.1 spelled
  obtain ⟨fs, vs, rfl, mark, spelled⟩ := Spelled.flag_iff.1 (Spelled.space_iff.1 spelled)
  obtain ⟨u, ws, rfl, index, spelled⟩ := Spelled.keyword_iff.1 spelled
  obtain ⟨ns, xs, rfl, named, spelled⟩ := Spelled.append_iff.1 (Spelled.space_iff.1 spelled)
  obtain ⟨v, ys, rfl, on, spelled⟩ := Spelled.keyword_iff.1 (Spelled.space_iff.1 spelled)
  obtain ⟨ts, cs, rfl, table, listed⟩ := Spelled.append_iff.1 (Spelled.space_iff.1 spelled)
  obtain ⟨n', name, same⟩ := s.name.rereads named
  obtain ⟨table', reading, same₁⟩ := s.table.rereads table
  obtain ⟨columns', columns, same₂⟩ := rereads_columnPieces hne (Spelled.space_iff.1 listed)
  exact ⟨_, .createIndex (.intro create mark index name (.intro on reading) columns), by
    simp [Statement.mapSpans, same, same₁, same₂]⟩

theorem CreateDatabase.rereads (s : CreateDatabase) :
    Rereads (IsStatement P) (Statement.mapSpans .erase) s.pieces (.createDatabase s) := by
  intro ts spelled
  obtain ⟨t, u, us, rfl, create, database, named⟩ := Spelled.keywords_two spelled
  obtain ⟨n', name, same⟩ := s.name.rereads named
  exact ⟨_, .createDatabase (.intro create database name), by simp [Statement.mapSpans, same]⟩

theorem Alteration.rereads {a : Alteration}
    (h : ∀ c, a = .addColumn c →
      Rereads (IsColumnDefinition P) (ColumnDefinition.mapSpans .erase) c.pieces c) :
    Rereads (IsAlteration P) (Alteration.mapSpans .erase) a.pieces a := by
  intro ts spelled
  cases a with
  | addColumn c =>
    obtain ⟨t, u, us, rfl, add, column, spelled⟩ := Spelled.keywords_two spelled
    obtain ⟨c', reading, same⟩ := h c rfl spelled
    exact ⟨_, .addColumn add (.present column) reading, congrArg Alteration.addColumn same⟩
  | dropColumn i =>
    obtain ⟨t, u, us, rfl, drop, column, spelled⟩ := Spelled.keywords_two spelled
    obtain ⟨i', reading, same⟩ := i.rereads spelled
    exact ⟨_, .dropColumn drop (.present column) reading, congrArg Alteration.dropColumn same⟩
  | renameTable i =>
    obtain ⟨t, u, us, rfl, rename, toward, spelled⟩ := Spelled.keywords_two spelled
    obtain ⟨i', reading, same⟩ := i.rereads spelled
    exact ⟨_, .renameTable rename (.intro toward reading), congrArg Alteration.renameTable same⟩
  | renameColumn old new =>
    rw [pieces, List.append_assoc, List.append_assoc] at spelled
    obtain ⟨t, u, us, rfl, rename, column, spelled⟩ := Spelled.keywords_two spelled
    obtain ⟨os, vs, rfl, first, spelled⟩ := Spelled.append_iff.1 spelled
    obtain ⟨v, ws, rfl, toward, spelled⟩ := Spelled.keyword_iff.1 (Spelled.space_iff.1 spelled)
    obtain ⟨i', reading, same⟩ := old.rereads first
    obtain ⟨j', reading', same'⟩ := new.rereads (Spelled.space_iff.1 spelled)
    exact ⟨_, .renameColumn rename (.present column) reading (.intro toward reading'), by
      simp [mapSpans, same, same']⟩

theorem AlterTable.rereads {s : AlterTable}
    (h : ∀ c, s.alteration = .addColumn c →
      Rereads (IsColumnDefinition P) (ColumnDefinition.mapSpans .erase) c.pieces c) :
    Rereads (IsStatement P) (Statement.mapSpans .erase) s.pieces (.alterTable s) := by
  intro ts spelled
  rw [pieces, List.append_assoc, List.append_assoc] at spelled
  obtain ⟨t, u, us, rfl, alter, table, spelled⟩ := Spelled.keywords_two spelled
  obtain ⟨ns, vs, rfl, named, spelled⟩ := Spelled.append_iff.1 spelled
  obtain ⟨n', name, same⟩ := s.name.rereads named
  obtain ⟨a', alteration, same'⟩ := Alteration.rereads h (Spelled.space_iff.1 spelled)
  exact ⟨_, .alterTable (.intro alter table name alteration), by
    simp [Statement.mapSpans, same, same']⟩

theorem Drop.rereads (s : Drop) :
    Rereads (IsStatement P) (Statement.mapSpans .erase) s.pieces (.drop s) := by
  intro ts spelled
  rw [pieces, List.append_assoc] at spelled
  obtain ⟨t, u, us, rfl, drop, object, spelled⟩ := Spelled.keywords_two spelled
  obtain ⟨gs, ns, rfl, guard, named⟩ := Spelled.guard spelled
  obtain ⟨n', name, same⟩ := s.name.rereads named
  exact ⟨_, .drop (.intro drop object guard name), by simp [Statement.mapSpans, same]⟩

end SqlSyntax
