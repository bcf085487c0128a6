import SqlSyntax.Number.Binary64

/-!
# Documents

A tree of plain data: null, truth values, numbers, strings, arrays and objects.
Integers and floating point numbers are different values even where they are
equal in size. An object is a list of fields in the order in which their keys
were first set, and no key occurs twice in what `set` builds.

## Main results

* `Document.lookup_setField` — a field that is set is the one that is found,
  and every other field stays.
-/

namespace SqlSyntax

inductive Document where
  | null
  | bool (value : Bool)
  | int (value : Nat)
  | double (value : Binary64)
  | string (value : String)
  | array (items : List Document)
  | object (fields : List (String × Document))

namespace Document

/-- Sets a field: a key that is there keeps its place, a new one goes last. -/
def setField (key : String) (value : Document) :
    List (String × Document) → List (String × Document)
  | [] => [(key, value)]
  | (k, v) :: fields =>
    if k = key then (k, value) :: fields else (k, v) :: setField key value fields

/-- Sets a field of an object; what is not an object stays as it is. -/
def set (d : Document) (key : String) (value : Document) : Document :=
  match d with
  | object fields => object (setField key value fields)
  | d => d

theorem lookup_setField (key k : String) (value : Document) (fields : List (String × Document)) :
    (setField key value fields).lookup k =
      if k = key then some value else fields.lookup k := by
  have cons (l : String) (v : Document) (rest : List (String × Document)) :
      ((l, v) :: rest).lookup k = if k = l then some v else rest.lookup k := by
    rw [List.lookup_cons]
    by_cases h : k = l
    · simp [h]
    · rw [if_neg h, beq_eq_false_iff_ne.2 h]
  induction fields with
  | nil => rw [setField, cons]
  | cons field fields ih =>
    obtain ⟨l, v⟩ := field
    by_cases hl : l = key
    · rw [setField, if_pos hl, cons, cons]
      by_cases h : k = key <;> simp [h, hl]
    · rw [setField, if_neg hl, cons, cons, ih]
      by_cases h : k = l
      · rw [if_pos h, if_pos h, if_neg (h ▸ hl)]
      · rw [if_neg h, if_neg h]

/-! ## Equality -/

mutual

/-- Whether two documents are equal, the order of the fields included. -/
def same : Document → Document → Bool
  | null, null => true
  | bool a, bool b => a == b
  | int a, int b => a == b
  | double a, double b => a == b
  | string a, string b => a == b
  | array a, array b => sameItems a b
  | object a, object b => sameFields a b
  | _, _ => false

def sameItems : List Document → List Document → Bool
  | [], [] => true
  | a :: as, b :: bs => a.same b && sameItems as bs
  | _, _ => false

def sameFields : List (String × Document) → List (String × Document) → Bool
  | [], [] => true
  | (k, a) :: as, (l, b) :: bs => k == l && a.same b && sameFields as bs
  | _, _ => false

end

mutual

theorem same_iff (a b : Document) : a.same b ↔ a = b := by
  cases a <;> cases b <;> simp [same]
  case array a b => exact sameItems_iff a b
  case object a b => exact sameFields_iff a b

theorem sameItems_iff (as bs : List Document) : sameItems as bs ↔ as = bs := by
  cases as with
  | nil => cases bs <;> simp [sameItems]
  | cons a as =>
    cases bs with
    | nil => simp [sameItems]
    | cons b bs => simp [sameItems, same_iff a b, sameItems_iff as bs]

theorem sameFields_iff (as bs : List (String × Document)) : sameFields as bs ↔ as = bs := by
  cases as with
  | nil => cases bs <;> simp [sameFields]
  | cons field as =>
    obtain ⟨k, a⟩ := field
    cases bs with
    | nil => simp [sameFields]
    | cons field bs =>
      obtain ⟨l, b⟩ := field
      simp [sameFields, same_iff a b, sameFields_iff as bs]

end

instance : DecidableEq Document := fun a b =>
  decidable_of_iff (a.same b = true) (same_iff a b)

end Document

end SqlSyntax
