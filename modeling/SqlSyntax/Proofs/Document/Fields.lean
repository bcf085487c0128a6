import SqlSyntax.Document.Basic
import Mathlib.Logic.Relation

/-!
# Fields of documents

What is known of a document after a field was set: which value is found under
a key, what is left when a key is taken out of every object, and which
documents stand inside it.

## Main results

* `Document.field?_set` — a field that is set is found, the others stay.
* `Document.without_set`, `Document.without_set_self` — setting a field
  commutes with taking out another key and leaves nothing behind for the key
  itself.
* `Document.Below.set` — what stands below a document still does after a field
  was set that held no object.
-/

namespace SqlSyntax

namespace Document

def IsObject : Document → Prop
  | object _ => True
  | _ => False

@[simp] theorem isObject_object (fields : List (String × Document)) : (object fields).IsObject :=
  trivial

/-- The value of a field. -/
def field? (d : Document) (key : String) : Option Document :=
  match d with
  | object fields => fields.lookup key
  | _ => none

@[simp] theorem isObject_set {d : Document} {key : String} {value : Document} :
    (d.set key value).IsObject ↔ d.IsObject := by
  cases d <;> rfl

theorem field?_set {d : Document} (h : d.IsObject) (key k : String) (value : Document) :
    (d.set key value).field? k = if k = key then some value else d.field? k := by
  cases d with
  | object fields => exact lookup_setField key k value fields
  | _ => exact h.elim

theorem setField_setField (key : String) (u v : Document) (fields : List (String × Document)) :
    setField key v (setField key u fields) = setField key v fields := by
  induction fields with
  | nil => simp [setField]
  | cons field fields ih =>
    obtain ⟨k, d⟩ := field
    by_cases h : k = key <;> simp [setField, h, ih]

/-- The value that is set last stays. -/
@[simp] theorem set_set (d : Document) (key : String) (u v : Document) :
    (d.set key u).set key v = d.set key v := by
  cases d <;> simp [set, setField_setField]

/-! ## Taking a key out -/

mutual

/-- The document without the fields of a key, in every object inside it. -/
def without (key : String) : Document → Document
  | array items => array (withoutItems key items)
  | object fields => object (withoutFields key fields)
  | d => d

def withoutItems (key : String) : List Document → List Document
  | [] => []
  | d :: ds => d.without key :: withoutItems key ds

def withoutFields (key : String) : List (String × Document) → List (String × Document)
  | [] => []
  | (k, d) :: fields =>
    if k = key then withoutFields key fields else (k, d.without key) :: withoutFields key fields

end

section Without

variable (key : String)

@[simp] theorem without_null : null.without key = null := rfl

@[simp] theorem without_bool (b : Bool) : (bool b).without key = bool b := rfl

@[simp] theorem without_int (n : Nat) : (int n).without key = int n := rfl

@[simp] theorem without_double (b : Binary64) : (double b).without key = double b := rfl

@[simp] theorem without_string (s : String) : (string s).without key = string s := rfl

theorem withoutItems_eq (items : List Document) :
    withoutItems key items = items.map (without key) := by
  induction items with
  | nil => rfl
  | cons d ds ih => rw [withoutItems, ih, List.map_cons]

@[simp] theorem without_array (items : List Document) :
    (array items).without key = array (items.map (without key)) := by
  rw [without, withoutItems_eq]

@[simp] theorem without_object (fields : List (String × Document)) :
    (object fields).without key = object (withoutFields key fields) := by
  rw [without]

@[simp] theorem withoutFields_nil : withoutFields key [] = [] := rfl

@[simp] theorem withoutFields_cons (k : String) (d : Document)
    (fields : List (String × Document)) :
    withoutFields key ((k, d) :: fields) =
      if k = key then withoutFields key fields
      else (k, d.without key) :: withoutFields key fields := by
  rw [withoutFields]

theorem withoutFields_setField_self (value : Document) (fields : List (String × Document)) :
    withoutFields key (setField key value fields) = withoutFields key fields := by
  induction fields with
  | nil => simp [setField]
  | cons field fields ih =>
    obtain ⟨k, d⟩ := field
    by_cases h : k = key <;> simp [setField, h, ih]

variable {key}

theorem withoutFields_setField {k : String} (hk : k ≠ key) (value : Document)
    (fields : List (String × Document)) :
    withoutFields key (setField k value fields) =
      setField k (value.without key) (withoutFields key fields) := by
  induction fields with
  | nil => simp [setField, hk]
  | cons field fields ih =>
    obtain ⟨l, d⟩ := field
    by_cases hl : l = k
    · subst hl
      simp [setField, hk]
    · by_cases h : l = key
      · subst h
        simp [setField, hl, ih]
      · simp [setField, hl, h, ih]

variable (key)

/-- A key that is taken out leaves nothing behind, whatever was set under it. -/
@[simp] theorem without_set_self (d value : Document) :
    (d.set key value).without key = d.without key := by
  cases d <;> simp [set, withoutFields_setField_self]

variable {key}

/-- Setting a field commutes with taking out another key. -/
theorem without_set {k : String} (hk : k ≠ key) (d value : Document) :
    (d.set k value).without key = (d.without key).set k (value.without key) := by
  cases d <;> simp [set, withoutFields_setField hk]

end Without

/-! ## What stands inside a document -/

/-- `D.Holds d`: `d` is an item or the value of a field of `D`. -/
inductive Holds : Document → Document → Prop
  | item {items : List Document} {d : Document} : d ∈ items → Holds (array items) d
  | field {fields : List (String × Document)} {key : String} {d : Document} :
    (key, d) ∈ fields → Holds (object fields) d

/-- `D.Below d`: `d` stands inside `D`, at any depth. -/
def Below : Document → Document → Prop := Relation.TransGen Holds

/-- `D.Contains d`: `d` is `D` itself or stands inside it. -/
def Contains : Document → Document → Prop := Relation.ReflTransGen Holds

section Below

variable {D d x : Document}

@[simp] theorem Contains.refl (d : Document) : d.Contains d := Relation.ReflTransGen.refl

theorem contains_iff : D.Contains x ↔ x = D ∨ D.Below x := Relation.reflTransGen_iff_eq_or_transGen

theorem below_iff : D.Below x ↔ ∃ d, D.Holds d ∧ d.Contains x := Relation.TransGen.head'_iff

theorem Below.contains (h : D.Below x) : D.Contains x := Relation.TransGen.to_reflTransGen h

theorem Below.trans_contains (h : D.Below d) (hd : d.Contains x) : D.Below x :=
  Relation.TransGen.trans_left h hd

@[simp] theorem below_array {items : List Document} :
    (array items).Below x ↔ ∃ d ∈ items, d.Contains x := by
  rw [below_iff]
  constructor
  · rintro ⟨d, h, hd⟩
    cases h with
    | item h => exact ⟨d, h, hd⟩
  · rintro ⟨d, h, hd⟩
    exact ⟨d, .item h, hd⟩

@[simp] theorem below_object {fields : List (String × Document)} :
    (object fields).Below x ↔ ∃ field ∈ fields, field.2.Contains x := by
  rw [below_iff]
  constructor
  · rintro ⟨d, h, hd⟩
    cases h with
    | field h => exact ⟨_, h, hd⟩
  · rintro ⟨field, h, hd⟩
    exact ⟨field.2, .field h, hd⟩

theorem Below.item {items : List Document} (h : d ∈ items) (hd : d.Contains x) :
    (array items).Below x :=
  below_array.2 ⟨d, h, hd⟩

theorem Below.field (key : String) (h : D.field? key = some d) (hd : d.Contains x) :
    D.Below x := by
  cases D with
  | object fields =>
    obtain ⟨before, after, rfl, _⟩ := List.lookup_eq_some_iff.1 h
    exact below_object.2 ⟨(key, d), by simp, hd⟩
  | _ => cases h

theorem Below.array_or_object (h : D.Below x) :
    (∃ items, D = array items) ∨ ∃ fields, D = object fields := by
  obtain ⟨d, h, _⟩ := below_iff.1 h
  cases h with
  | item => exact .inl ⟨_, rfl⟩
  | field => exact .inr ⟨_, rfl⟩

theorem mem_setField_or_lookup {key k : String} (value : Document)
    {fields : List (String × Document)} (h : (k, d) ∈ fields) :
    (k, d) ∈ setField key value fields ∨ fields.lookup key = some d := by
  induction fields with
  | nil => simp at h
  | cons field fields ih =>
    obtain ⟨l, v⟩ := field
    by_cases hl : l = key
    · subst hl
      rcases List.mem_cons.1 h with h | h
      · cases h
        simp [setField]
      · simp [setField, h]
    · rcases List.mem_cons.1 h with h | h
      · simp [setField, hl, h]
      · rcases ih h with h | h
        · simp [setField, hl, h]
        · rw [List.lookup_cons, beq_eq_false_iff_ne.2 fun e => hl e.symm]
          exact .inr h

/-- What stands below a document still does after a field was set, unless it
stood in what the field held before. -/
theorem Below.set (h : D.Below x) (key : String) (value : Document)
    (old : ∀ d, D.field? key = some d → ¬ d.Contains x) : (D.set key value).Below x := by
  rcases h.array_or_object with ⟨items, rfl⟩ | ⟨fields, rfl⟩
  · exact h
  · obtain ⟨⟨k, d⟩, hmem, hd⟩ := below_object.1 h
    rcases mem_setField_or_lookup value hmem with hset | hold
    · exact below_object.2 ⟨_, hset, hd⟩
    · exact absurd hd (old d hold)

end Below

end Document

end SqlSyntax
