/-
# JSON values

What a program hands to `json.dumps` and a column of type `jsonb` gives back.  A
text with sorted keys tells values apart up to the order of the keys of their
objects; the column keeps a value, but not how a number was spelled.
-/

import Mathlib.Algebra.Ring.Int.Defs
import Mathlib.Algebra.Ring.Nat
import Mathlib.Data.List.Sort

/-- A finite floating point number, by the digits of its shortest representation:
`digits * 10 ^ exponent`, with its sign. -/
structure JsonFloat where
  negative : Bool
  digits : ℕ
  exponent : ℤ
  deriving DecidableEq

inductive Json
  | null
  | bool (value : Bool)
  | int (value : ℤ)
  | float (value : JsonFloat)
  | text (value : String)
  | array (values : List Json)
  | object (fields : List (String × Json))

/-- The fields of an object, each key once. -/
abbrev JsonObject := List (String × Json)

namespace Json

def get (fields : JsonObject) (key : String) : Option Json := fields.lookup key

/-- Whether a value is this text. -/
def isText (expected : String) : Json → Bool
  | .text value => value = expected
  | _ => false

theorem isText_iff {expected : String} {value : Json} :
    value.isText expected = true ↔ value = .text expected := by
  cases value with
  | text value => simp [isText]
  | null => simp [isText]
  | bool value => simp [isText]
  | int value => simp [isText]
  | float value => simp [isText]
  | array values => simp [isText]
  | object fields => simp [isText]

/-- Whether Python takes a value for true. -/
def isTruthy : Json → Bool
  | .null => false
  | .bool value => value
  | .int value => value ≠ 0
  | .float value => value.digits ≠ 0
  | .text value => value ≠ ""
  | .array values => !values.isEmpty
  | .object fields => !fields.isEmpty

/-! ## The order of keys -/

mutual

/-- `sort_keys=True`, at every depth. -/
def sorted : Json → Json
  | .null => .null
  | .bool value => .bool value
  | .int value => .int value
  | .float value => .float value
  | .text value => .text value
  | .array values => .array (sortedValues values)
  | .object fields => .object ((sortedFields fields).insertionSort
      fun first second => first.1 ≤ second.1)

def sortedValues : List Json → List Json
  | [] => []
  | value :: rest => value.sorted :: sortedValues rest

def sortedFields : List (String × Json) → List (String × Json)
  | [] => []
  | (key, value) :: rest => (key, value.sorted) :: sortedFields rest

end

/-- Equal but for the order of keys. -/
def Same (first second : Json) : Prop := first.sorted = second.sorted

theorem Same.refl (value : Json) : value.Same value := rfl

/-! ## Columns of type `jsonb` -/

/-- What a number that was written with a fraction or an exponent is read as.  The
column has no negative zero, and it writes no exponents: what is printed without a
fraction is read as a whole number. -/
def floatJsonb (value : JsonFloat) : Json :=
  if value.digits = 0 then .float { value with negative := false }
  else if 0 ≤ value.exponent ∧ 10 ^ 16 ≤ value.digits * 10 ^ value.exponent.toNat then
    let magnitude : ℤ := value.digits * 10 ^ value.exponent.toNat
    .int (if value.negative then -magnitude else magnitude)
  else .float value

mutual

/-- A value as it is read back from the column. -/
def jsonb : Json → Json
  | .null => .null
  | .bool value => .bool value
  | .int value => .int value
  | .float value => floatJsonb value
  | .text value => .text value
  | .array values => .array (jsonbValues values)
  | .object fields => .object (jsonbFields fields)

def jsonbValues : List Json → List Json
  | [] => []
  | value :: rest => value.jsonb :: jsonbValues rest

def jsonbFields : List (String × Json) → List (String × Json)
  | [] => []
  | (key, value) :: rest => (key, value.jsonb) :: jsonbFields rest

end

/-! ## What the column keeps -/

mutual

/-- The numbers in a value that were written with a fraction or an exponent. -/
def floats : Json → List JsonFloat
  | .null | .bool _ | .int _ | .text _ => []
  | .float value => [value]
  | .array values => floatsOfValues values
  | .object fields => floatsOfFields fields

def floatsOfValues : List Json → List JsonFloat
  | [] => []
  | value :: rest => value.floats ++ floatsOfValues rest

def floatsOfFields : List (String × Json) → List JsonFloat
  | [] => []
  | (_, value) :: rest => value.floats ++ floatsOfFields rest

end

/-- The column writes this number as another one: it is a negative zero, or so large that it
is written without a fraction. -/
def Respelled (value : JsonFloat) : Prop :=
  (value.digits = 0 ∧ value.negative = true) ∨
    (value.digits ≠ 0 ∧ 0 ≤ value.exponent ∧ 10 ^ 16 ≤ value.digits * 10 ^ value.exponent.toNat)

instance (value : JsonFloat) : Decidable (Respelled value) :=
  inferInstanceAs (Decidable (_ ∨ _))

theorem floatJsonb_of_not_respelled {value : JsonFloat} (h : ¬ Respelled value) :
    floatJsonb value = .float value := by
  unfold Respelled at h
  unfold floatJsonb
  by_cases hzero : value.digits = 0
  · have hpositive : value.negative = false := by
      rw [← Bool.not_eq_true]
      exact fun hnegative => h (Or.inl ⟨hzero, hnegative⟩)
    rw [if_pos hzero, ← hpositive]
  · rw [if_neg hzero, if_neg]
    exact fun hlarge => h (Or.inr ⟨hzero, hlarge⟩)

theorem floatJsonb_sorted (value : JsonFloat) : (floatJsonb value).sorted = floatJsonb value := by
  unfold floatJsonb
  split
  · rfl
  · split <;> rfl

theorem floatJsonb_ne_of_respelled {value : JsonFloat} (h : Respelled value) :
    floatJsonb value ≠ .float value := by
  rcases h with ⟨hzero, hnegative⟩ | ⟨hzero, hlarge⟩
  · rw [floatJsonb, if_pos hzero]
    intro hsame
    have hsame := congrArg JsonFloat.negative (Json.float.inj hsame)
    rw [hnegative] at hsame
    cases hsame
  · rw [floatJsonb, if_neg hzero, if_pos hlarge]
    intro hsame
    cases hsame

mutual

/-- A value without respelled numbers comes back as it is. -/
theorem jsonb_eq_self : ∀ value : Json, (∀ number ∈ value.floats, ¬ Respelled number) →
    value.jsonb = value
  | .null, _ | .bool _, _ | .int _, _ | .text _, _ => rfl
  | .float value, h => floatJsonb_of_not_respelled (h value (List.mem_singleton_self value))
  | .array values, h => congrArg Json.array (jsonbValues_eq_self values h)
  | .object fields, h => congrArg Json.object (jsonbFields_eq_self fields h)

theorem jsonbValues_eq_self : ∀ values : List Json,
    (∀ number ∈ floatsOfValues values, ¬ Respelled number) → jsonbValues values = values
  | [], _ => rfl
  | value :: rest, h => by
      rw [jsonbValues, jsonb_eq_self value fun number hmem => h number (List.mem_append_left _ hmem),
        jsonbValues_eq_self rest fun number hmem => h number (List.mem_append_right _ hmem)]

theorem jsonbFields_eq_self : ∀ fields : List (String × Json),
    (∀ number ∈ floatsOfFields fields, ¬ Respelled number) → jsonbFields fields = fields
  | [], _ => rfl
  | (key, value) :: rest, h => by
      rw [jsonbFields, jsonb_eq_self value fun number hmem => h number (List.mem_append_left _ hmem),
        jsonbFields_eq_self rest fun number hmem => h number (List.mem_append_right _ hmem)]

end

theorem sortedFields_eq_map (fields : List (String × Json)) :
    sortedFields fields = fields.map fun field => (field.1, field.2.sorted) := by
  induction fields with
  | nil => rfl
  | cons field rest ih => rw [sortedFields, ih, List.map_cons]

theorem jsonbFields_eq_map (fields : List (String × Json)) :
    jsonbFields fields = fields.map fun field => (field.1, field.2.jsonb) := by
  induction fields with
  | nil => rfl
  | cons field rest ih => rw [jsonbFields, ih, List.map_cons]

/-- Sorting by keys does not look at the values. -/
theorem insertionSort_map (g : Json → Json) (fields : List (String × Json)) :
    (fields.map fun field => (field.1, g field.2)).insertionSort
        (fun first second => first.1 ≤ second.1) =
      (fields.insertionSort fun first second => first.1 ≤ second.1).map
        fun field => (field.1, g field.2) := by
  symm
  exact List.map_insertionSort _ _ _ _ (fun _ _ _ _ => Iff.rfl)

/-- Two objects with these values at the same keys are the same exactly when the values are. -/
theorem sorted_object_map_eq_iff (g g' : Json → Json) (fields : List (String × Json)) :
    (fields.map fun field => (field.1, g field.2)).insertionSort
        (fun first second => first.1 ≤ second.1) =
      (fields.map fun field => (field.1, g' field.2)).insertionSort
        (fun first second => first.1 ≤ second.1) ↔
    ∀ field ∈ fields, g field.2 = g' field.2 := by
  rw [insertionSort_map, insertionSort_map, List.map_inj_left]
  simp only [List.mem_insertionSort, Prod.mk.injEq, true_and]

mutual

/-- A value that comes back the same has no respelled numbers. -/
theorem not_respelled_of_jsonb_same : ∀ value : Json, value.jsonb.Same value →
    ∀ number ∈ value.floats, ¬ Respelled number
  | .null, _, _, hmem | .bool _, _, _, hmem | .int _, _, _, hmem | .text _, _, _, hmem => by
      cases hmem
  | .float value, h, number, hmem => by
      rw [List.mem_singleton.mp hmem]
      intro hrespelled
      apply floatJsonb_ne_of_respelled hrespelled
      rw [← floatJsonb_sorted]
      exact h
  | .array values, h, number, hmem =>
      not_respelled_of_jsonbValues_same values (Json.array.inj h) number hmem
  | .object fields, h, number, hmem => by
      refine not_respelled_of_jsonbFields_same fields ?_ number hmem
      have hsorted := Json.object.inj h
      rw [sortedFields_eq_map, sortedFields_eq_map, jsonbFields_eq_map, List.map_map] at hsorted
      exact (sorted_object_map_eq_iff (fun value => value.jsonb.sorted) sorted fields).mp hsorted

theorem not_respelled_of_jsonbValues_same : ∀ values : List Json,
    sortedValues (jsonbValues values) = sortedValues values →
    ∀ number ∈ floatsOfValues values, ¬ Respelled number
  | [], _, _, hmem => by cases hmem
  | value :: rest, h, number, hmem => by
      rw [jsonbValues, sortedValues, sortedValues, List.cons.injEq] at h
      rcases List.mem_append.mp hmem with hmem | hmem
      · exact not_respelled_of_jsonb_same value h.1 number hmem
      · exact not_respelled_of_jsonbValues_same rest h.2 number hmem

theorem not_respelled_of_jsonbFields_same : ∀ fields : List (String × Json),
    (∀ field ∈ fields, field.2.jsonb.sorted = field.2.sorted) →
    ∀ number ∈ floatsOfFields fields, ¬ Respelled number
  | [], _, _, hmem => by cases hmem
  | (_, value) :: rest, h, number, hmem => by
      rcases List.mem_append.mp hmem with hmem | hmem
      · exact not_respelled_of_jsonb_same value (h _ List.mem_cons_self) number hmem
      · exact not_respelled_of_jsonbFields_same rest
          (fun field hfield => h field (List.mem_cons_of_mem _ hfield)) number hmem

end

/-- The column keeps a value exactly when it has no respelled numbers. -/
theorem jsonb_same_iff (value : Json) :
    value.jsonb.Same value ↔ ∀ number ∈ value.floats, ¬ Respelled number := by
  constructor
  · exact not_respelled_of_jsonb_same value
  · intro h
    rw [jsonb_eq_self value h]
    exact .refl value

end Json
