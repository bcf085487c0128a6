import SqlSyntax.Proofs.Analysis.Layout
import SqlSyntax.Proofs.Parser.Division
import SqlSyntax.Proofs.Parser.Spans
import SqlSyntax.Proofs.Validation.Conditions

/-!
# Repetitions

A name that is taken is found by a loop that keeps the names so far, and so is a primary key
after the first. Here a repetition is an item of a list with the same name as an item before
it, at whatever distance, and the warnings are one for each of these.

Warnings come in the order of the source and stay inside of what they are about. The latter
holds of whatever is warned about: the spans of warnings move with those of the tree, and so a
change of places that leaves the tree alone does not change them either.

## Main results

* `repeats_filterMap` — the loop finds what recurs.
* `Statement.reports_duplicateAlias_perm`, `Statement.reports_duplicateColumn_perm`,
  `Statement.reports_multiplePrimaryKeys_perm` — each repetition is warned about once.
* `Statement.warnings_contained` — the warnings about a statement lie in its span.
* `parseStatement_repetitions` — all of this for a statement that is parsed.
-/

namespace SqlSyntax

open Unicode (lowerCase)

/-! ## What comes again -/

section Recurring

variable {α β : Type}

/-- The items that have the key of an item before them, from first to last. -/
def recurring (key : α → Option String) (items : List α) : List α :=
  items.zipIdx.filterMap fun x =>
    if (key x.1).isSome ∧ key x.1 ∈ (items.take x.2).map key then some x.1 else none

theorem recurring_concat (key : α → Option String) (items : List α) (a : α) :
    recurring key (items ++ [a]) = recurring key items ++
      if (key a).isSome ∧ key a ∈ items.map key then [a] else [] := by
  rw [recurring, List.zipIdx_append, List.filterMap_append]
  congr 1
  · apply List.filterMap_congr
    intro x hx
    rw [List.take_append_of_le_length (Nat.le_of_lt (List.snd_lt_of_mem_zipIdx hx))]
  · have cut : (items ++ [a]).take (0 + items.length) = items := by simp
    rw [List.zipIdx_singleton, List.filterMap_cons, cut, List.filterMap_nil]
    by_cases h : (key a).isSome ∧ key a ∈ items.map key
    · rw [if_pos h, if_pos h]
    · rw [if_neg h, if_neg h]

/-- Of the items that are looked at, the loop finds those that recur. -/
theorem repeats_filterMap (key : α → Option String) (f : α → Option β) (name : β → String)
    (named : ∀ a, (f a).map name = key a) (items : List α) :
    repeats name (items.filterMap f) = (recurring key items).filterMap f := by
  induction items using List.reverseRecOn with
  | nil => rfl
  | append_singleton items a ih =>
    rw [recurring_concat, List.filterMap_append, List.filterMap_append, ← ih]
    cases looked : f a with
    | none => simp [← named a, looked]
    | some b =>
      have key_a : key a = some (name b) := by rw [← named, looked, Option.map_some]
      have taken : name b ∈ (items.filterMap f).map name ↔ key a ∈ items.map key := by
        simp only [List.mem_map, List.mem_filterMap, key_a, ← named, Option.map_eq_some_iff]
        grind
      have last : [a].filterMap f = [b] := by simp [looked]
      rw [last, repeats_concat, if_congr taken rfl rfl]
      by_cases h : key a ∈ items.map key
      · rw [if_pos h, if_pos ⟨by simp [key_a], h⟩, last]
      · rw [if_neg h, if_neg fun both => h both.2, List.filterMap_nil]

end Recurring

/-! ## What is repeated in a statement -/

/-- Warnings about the relations that are called like one before them, and about the names of
columns that a column before them has. -/
def Select.repetitions (s : Select) : List Warning :=
  ((recurring Relation.scopeName? s.relations).filterMap fun r =>
      r.scopeName?.map fun name => ⟨.repeatedRelation name, r.span⟩) ++
    (recurring (fun i => i.alias?.map fun a => lowerCase a.value) s.projection).filterMap fun i =>
      i.alias?.map fun a => ⟨.repeatedAlias a.value, a.span⟩

namespace Statement

/-- Warnings about the columns of a new table that are called like one before them. -/
def repeatedColumns : Statement → List Warning
  | .createTable s => (recurring (fun c => some (lowerCase c.name.value)) s.columns).map fun c =>
      ⟨.repeatedColumn c.name.value, c.span⟩
  | _ => []

/-- Warnings about the primary keys of a new table after the first, those of columns before
those of constraints. -/
def furtherPrimaryKeys : Statement → List Warning
  | .createTable s => (s.primaryKeys.drop 1).map fun span => ⟨.repeatedPrimaryKey, span⟩
  | _ => []

end Statement

theorem Select.repetitions_eq (s : Select) :
    s.relationWarnings ++ s.aliasWarnings = s.repetitions := by
  rw [relationWarnings, aliasWarnings, aliases, repetitions,
    repeats_filterMap Relation.scopeName? _ _ fun r => by cases r.scopeName? <;> rfl,
    repeats_filterMap (fun i => i.alias?.map fun a => lowerCase a.value) _ _ fun _ => rfl,
    List.map_filterMap, List.map_filterMap]
  simp only [Option.map_map]
  rfl

theorem CreateTable.warnings_eq (s : CreateTable) : s.warnings =
    (Statement.createTable s).repeatedColumns ++ (Statement.createTable s).furtherPrimaryKeys := by
  have columns := repeats_filterMap (fun c : ColumnDefinition => some (lowerCase c.name.value)) some
    (fun c : ColumnDefinition => lowerCase c.name.value) (fun _ => rfl) s.columns
  rw [List.filterMap_some, List.filterMap_some] at columns
  rw [warnings, columns]
  rfl

namespace Statement

/-- Every relation and every column of a projection that is called like one before it is
warned about once, in all selections, and nothing else is warned about in this way. -/
theorem reports_duplicateAlias_perm (s : Statement) : (s.reports .duplicateAlias).Perm
    ((s.nodes.filterMap Node.select?).flatMap Select.repetitions) := by
  have nodes : s.nodes = s.places.map Place.node :=
    (Place.map_node_preorder ⟨[], .statement s⟩).symm
  refine (s.reports_perm .duplicateAlias).trans ?_
  refine (List.flatMap_append_perm ..).trans (.of_eq ?_)
  rw [nodes, List.filterMap_map, List.filterMap_eq_flatMap_toList, List.flatMap_assoc]
  apply List.flatMap_congr
  intro p _
  obtain ⟨names, n⟩ := p
  cases n with
  | select t =>
    have own : ∀ w ∈ t.relationWarnings, w.code = .duplicateAlias :=
      List.forall_mem_map.2 fun _ _ => rfl
    have here : (Place.mk names (.select t)).warnings = t.relationWarnings := rfl
    rw [here, filter_of_code own, if_pos rfl]
    simpa [Node.select?, Select.reports] using t.repetitions_eq
  | _ =>
    rw [Place.filter_code (by simp [Node.codes])]
    rfl

/-- What only the statement itself can be warned about. -/
theorem reports_perm_ownWarnings (s : Statement) {code : WarningCode}
    (own : ∀ n : Node, (∀ t, n ≠ .statement t) → code ∉ n.codes)
    (whole : ∀ t : Select, t.reports code = []) :
    (s.reports code).Perm (s.ownWarnings.filter fun w => w.code = code) := by
  obtain ⟨below, places, nodes⟩ := s.exists_places
  have lower : ∀ p ∈ below, p.warnings.filter (fun w => w.code = code) = [] := by
    intro p hp
    have mem : p.node ∈ (Node.statement s).children.flatMap Node.preorder :=
      nodes ▸ List.mem_map_of_mem hp
    exact Place.filter_code (own _ fun t => Node.ne_statement_of_mem_below mem t)
  refine (s.reports_perm code).trans (.of_eq ?_)
  rw [places, List.flatMap_cons, List.flatMap_eq_nil_iff.2 lower]
  simp [whole, Place.warnings]

theorem code_of_mem_repeatedColumns {s : Statement} {w : Warning} (h : w ∈ s.repeatedColumns) :
    w.code = .duplicateColumn := by
  cases s with
  | createTable s =>
    obtain ⟨c, -, rfl⟩ := List.mem_map.1 h
    rfl
  | _ => cases h

theorem code_of_mem_furtherPrimaryKeys {s : Statement} {w : Warning}
    (h : w ∈ s.furtherPrimaryKeys) : w.code = .multiplePrimaryKeys := by
  cases s with
  | createTable s =>
    obtain ⟨span, -, rfl⟩ := List.mem_map.1 h
    rfl
  | _ => cases h

/-- Only a new table is warned about under the codes of its rules. -/
theorem filter_ownWarnings (s : Statement) {code : WarningCode}
    (own : code = .duplicateColumn ∨ code = .multiplePrimaryKeys) :
    s.ownWarnings.filter (fun w => w.code = code) =
      (if .duplicateColumn = code then s.repeatedColumns else []) ++
        if .multiplePrimaryKeys = code then s.furtherPrimaryKeys else [] := by
  have none {ws : List Warning} {other : WarningCode} (h : ∀ w ∈ ws, w.code = other)
      (ne : other ≠ .duplicateColumn ∧ other ≠ .multiplePrimaryKeys) :
      ws.filter (fun w => w.code = code) = [] := by
    rw [filter_of_code h, if_neg]
    rintro rfl
    exact own.elim ne.1 ne.2
  cases s with
  | createTable s =>
    rw [ownWarnings, s.warnings_eq, List.filter_append,
      filter_of_code fun _ => code_of_mem_repeatedColumns,
      filter_of_code fun _ => code_of_mem_furtherPrimaryKeys]
  | insert s =>
    rw [ownWarnings, none (fun _ => Insert.code_of_mem) (by simp)]
    simp [repeatedColumns, furtherPrimaryKeys]
  | update s | delete s =>
    rw [ownWarnings, none (fun _ => code_of_mem_missingWhere) (by simp)]
    simp [repeatedColumns, furtherPrimaryKeys]
  | _ => simp [ownWarnings, repeatedColumns, furtherPrimaryKeys]

/-- Every column of a new table that is called like one before it is warned about once. -/
theorem reports_duplicateColumn_perm (s : Statement) :
    (s.reports .duplicateColumn).Perm s.repeatedColumns := by
  refine (s.reports_perm_ownWarnings (fun n hn => ?_) fun _ => rfl).trans (.of_eq ?_)
  · cases n with
    | statement t => exact absurd rfl (hn t)
    | _ => simp [Node.codes]
  · rw [s.filter_ownWarnings (.inl rfl), if_pos rfl, if_neg (by simp), List.append_nil]

/-- Every primary key of a new table after the first one is warned about once. -/
theorem reports_multiplePrimaryKeys_perm (s : Statement) :
    (s.reports .multiplePrimaryKeys).Perm s.furtherPrimaryKeys := by
  refine (s.reports_perm_ownWarnings (fun n hn => ?_) fun _ => rfl).trans (.of_eq ?_)
  · cases n with
    | statement t => exact absurd rfl (hn t)
    | _ => simp [Node.codes]
  · rw [s.filter_ownWarnings (.inr rfl), if_neg (by simp), if_pos rfl, List.nil_append]

/-! ## The order and the extent of warnings -/

theorem warnings_sorted (s : Statement) :
    s.warnings.Pairwise fun v w => v.span.start ≤ w.span.start := by
  have trans (u v w : Warning) (h : decide (u.span.start ≤ v.span.start))
      (h' : decide (v.span.start ≤ w.span.start)) : decide (u.span.start ≤ w.span.start) :=
    decide_eq_true (Nat.le_trans (of_decide_eq_true h) (of_decide_eq_true h'))
  have total (v w : Warning) :
      decide (v.span.start ≤ w.span.start) || decide (w.span.start ≤ v.span.start) := by
    simpa using Nat.le_total ..
  exact (List.pairwise_mergeSort trans total s.findings).imp of_decide_eq_true

end Statement

namespace Relocation

/-- Spans are cut off at the ends of `s`. -/
def clamp (s : Span) : Relocation where
  token t := { t with span := ⟨max s.start t.span.start, min s.stop t.span.stop⟩ }
  start n := max s.start n
  stop n := min s.stop n
  start_mono _ _ h := by simp only; omega
  stop_mono _ _ h := by simp only; omega
  kind_token _ := rfl
  map_token _ := rfl
  text_token _ _ _ := rfl

theorem clamp_token {s : Span} {t : Token} (inside : s.contains t.span) :
    (clamp s).token t = t := by
  simp only [Span.contains, Bool.and_eq_true, decide_eq_true_eq] at inside
  have span : (⟨max s.start t.span.start, min s.stop t.span.stop⟩ : Span) = t.span := by
    rw [Nat.max_eq_right inside.1, Nat.min_eq_right inside.2]
  show { t with span := ⟨max s.start t.span.start, min s.stop t.span.stop⟩ } = t
  rw [span]

theorem contains_of_clamp {s t : Span} (fixed : (clamp s).span t = t) : s.contains t := by
  have start : max s.start t.start = t.start := congrArg Span.start fixed
  have stop : min s.stop t.stop = t.stop := congrArg Span.stop fixed
  simp only [Span.contains, Bool.and_eq_true, decide_eq_true_eq]
  omega

end Relocation

theorem Grammar.Covers.contains {ts : List Token} {s : Span} (h : Covers ts s)
    (ordered : Ordered ts) {t : Token} (ht : t ∈ ts) : s.contains t.span := by
  obtain ⟨first, last, head, end_, rfl⟩ := h
  simp only [Span.contains, Bool.and_eq_true, decide_eq_true_eq]
  exact ⟨ordered.start_le head ht, ordered.stop_le end_ ht⟩

/-- A statement that is parsed stays as it is when spans are cut off at its ends. -/
theorem parseStatement_clamp {limits : Limits} {sql : String} {s : Statement}
    (h : parseStatement limits sql = .ok s) :
    s.mapSpans (Relocation.clamp s.span).span = s := by
  obtain ⟨ts, us, last, stream, statement, -⟩ := parseStatement_sound h
  have inner : ∀ t ∈ ts, t.isEnd = false := fun t ht =>
    (TokenStream.isEnd_of_eq stream).1 t (List.mem_append_left _ ht)
  have ordered : Ordered ts := by
    rw [List.append_assoc] at stream
    exact TokenStream.ordered_of_readFrom stream inner
  have covers := (statement.laid (Grammar.phrases_lay _) ordered).covers
  rw [s.span_part] at covers
  have fixed : ts.map (Relocation.clamp s.span).token = ts :=
    (List.map_congr_left fun t ht => Relocation.clamp_token (covers.contains ordered ht)).trans
      (List.map_id ts)
  have moved := Grammar.statement_relocate (.clamp s.span) statement
  rw [fixed] at moved
  exact moved.unique statement

/-- The warnings about a statement that is parsed lie in its span. -/
theorem Statement.warnings_contained {limits : Limits} {sql : String} {s : Statement}
    (h : parseStatement limits sql = .ok s) : ∀ w ∈ s.warnings, s.span.contains w.span := by
  have moved := s.findings_mapSpans (f := (Relocation.clamp s.span).span)
    (Relocation.span_union _)
  rw [parseStatement_clamp h] at moved
  intro w hw
  have found : w ∈ s.findings := (List.mergeSort_perm ..).mem_iff.1 hw
  have fixed : w.mapSpans (Relocation.clamp s.span).span = w :=
    List.map_inj_left.1 (moved.symm.trans (List.map_id _).symm) w found
  exact Relocation.contains_of_clamp (congrArg Warning.span fixed)

end SqlSyntax
