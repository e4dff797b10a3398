/-
# Compaction of results

A result of a tool that is not read page by page is compacted until it fits: long texts are
clipped, then the last items of lists are dropped, and then the longest text of an object is halved,
one step after another.  Each step leaves less to drop or to shorten.
-/

import Mathlib.Data.List.MinMax
import Mathlib.Logic.Relation
import VTrade.Lib.JsonText
import VTrade.Lib.Places

namespace VTrade

structure ToolContextUnavailable where
  message : String
  deriving DecidableEq

/-- `_output_tokens`. -/
def outputTokens (value : Json) : ℤ :=
  max 1 ((JsonText.byteLength (JsonText.dumps false value.sorted) + 3) / 4 : ℕ)

namespace Compaction

open Json

/-- `raw[: length - 3] + "..."`. -/
def clipped (raw : String) (length : ℕ) : String :=
  String.ofList (raw.toList.take (length - 3)) ++ "..."

mutual

/-- `_clip_strings`, with its `maximum_length` of 512. -/
def clipStrings : Json → Json
  | .null => .null
  | .bool value => .bool value
  | .int value => .int value
  | .float value => .float value
  | .text value => .text value
  | .array values => .array (clipValues values)
  | .object fields => .object (clipFields fields)

def clipValues : List Json → List Json
  | [] => []
  | value :: rest => clipStrings value :: clipValues rest

def clipFields : JsonObject → JsonObject
  | [] => []
  | (key, .text value) :: rest =>
      (key, .text (if 512 < value.length then clipped value 512 else value)) :: clipFields rest
  | (key, value) :: rest => (key, clipStrings value) :: clipFields rest

end

/-! ## What `collect` collects -/

mutual

/-- The lists that are not empty, each before the lists in it. -/
def lists : Json → List (Place Json (List Json))
  | .null | .bool _ | .int _ | .float _ | .text _ => []
  | .array values =>
      (if values.isEmpty then [] else [⟨values, .array⟩]) ++
        (listsOfValues values).map fun place => place.within .array
  | .object fields => (listsOfFields fields).map fun place => place.within .object

def listsOfValues : List Json → List (Place (List Json) (List Json))
  | [] => []
  | value :: rest =>
      ((lists value).map fun place => place.within (· :: rest)) ++
        (listsOfValues rest).map fun place => place.within (value :: ·)

def listsOfFields : JsonObject → List (Place JsonObject (List Json))
  | [] => []
  | (key, value) :: rest =>
      ((lists value).map fun place => place.within fun value => (key, value) :: rest) ++
        (listsOfFields rest).map fun place => place.within ((key, value) :: ·)

end

mutual

/-- The texts of objects. -/
def strings : Json → List (Place Json String)
  | .null | .bool _ | .int _ | .float _ | .text _ => []
  | .array values => (stringsOfValues values).map fun place => place.within .array
  | .object fields => (stringsOfFields fields).map fun place => place.within .object

def stringsOfValues : List Json → List (Place (List Json) String)
  | [] => []
  | value :: rest =>
      ((strings value).map fun place => place.within (· :: rest)) ++
        (stringsOfValues rest).map fun place => place.within (value :: ·)

def stringsOfFields : JsonObject → List (Place JsonObject String)
  | [] => []
  | (key, .text value) :: rest =>
      ⟨value, fun value => (key, .text value) :: rest⟩ ::
        (stringsOfFields rest).map fun place => place.within ((key, .text value) :: ·)
  | (key, value) :: rest =>
      ((strings value).map fun place => place.within fun value => (key, value) :: rest) ++
        (stringsOfFields rest).map fun place => place.within ((key, value) :: ·)

end

/-! ## One step -/

def isObject : Json → Bool
  | .object _ => true
  | .null | .bool _ | .int _ | .float _ | .text _ | .array _ => false

/-- By which the list to shorten is chosen: the largest of its objects, or its length. -/
def rowsKey (rows : List Json) : ℤ :=
  (((rows.filter isObject).map outputTokens).max?).getD rows.length

/-- The texts that are longer than 32 characters. -/
def shrinkable (copied : JsonObject) : List (Place JsonObject String) :=
  (stringsOfFields copied).filter fun place => 32 < place.value.length

/-- The first item of the largest rank. -/
def largest {α β : Type} [LinearOrder β] (rank : α → β) (items : List α) : Option α :=
  items.argmax rank

theorem largest_mem {α β : Type} [LinearOrder β] {rank : α → β} {items : List α} {item : α}
    (h : largest rank items = some item) : item ∈ items :=
  List.argmax_mem h

theorem largest_eq_none {α β : Type} [LinearOrder β] {rank : α → β} {items : List α} :
    largest rank items = none ↔ items = [] :=
  List.argmax_eq_none

/-- One round of the loop, unless nothing is left to drop or to shorten. -/
def compactOnce (copied : JsonObject) : Option JsonObject :=
  match largest (fun place => rowsKey place.value) (listsOfFields copied) with
  | some target => some (target.put target.value.dropLast)
  | none =>
      match largest (fun place => place.value.length) (shrinkable copied) with
      | some target =>
          some (target.put (clipped target.value (max 32 (target.value.length / 2))))
      | none => none

/-! ## What is left to drop or to shorten -/

mutual

/-- The items of lists and the characters of texts. -/
def weight : Json → ℕ
  | .null | .bool _ | .int _ | .float _ => 0
  | .text value => value.length
  | .array values => weightOfValues values
  | .object fields => weightOfFields fields

def weightOfValues : List Json → ℕ
  | [] => 0
  | value :: rest => 1 + weight value + weightOfValues rest

def weightOfFields : JsonObject → ℕ
  | [] => 0
  | (_, value) :: rest => weight value + weightOfFields rest

end

open Place in
mutual

theorem lists_weigh (value : Json) :
    ∀ place ∈ lists value, Weighs weight weightOfValues value place := by
  cases value with
  | null => simp [lists]
  | bool value => simp [lists]
  | int value => simp [lists]
  | float value => simp [lists]
  | text value => simp [lists]
  | array values =>
      intro place hplace
      rcases List.mem_append.mp hplace with hself | hinner
      · split at hself
        · cases hself
        · rw [List.mem_singleton.mp hself]
          intro other
          exact Nat.add_comm _ _
      · obtain ⟨inner, hmem, rfl⟩ := List.mem_map.mp hinner
        exact (listsOfValues_weigh values inner hmem).within fun _ => (Nat.add_zero _).symm
  | object fields =>
      intro place hplace
      obtain ⟨inner, hinner, rfl⟩ := List.mem_map.mp hplace
      exact (listsOfFields_weigh fields inner hinner).within fun _ => (Nat.add_zero _).symm

theorem listsOfValues_weigh (values : List Json) :
    ∀ place ∈ listsOfValues values, Weighs weightOfValues weightOfValues values place := by
  cases values with
  | nil => simp [listsOfValues]
  | cons value rest =>
      intro place hplace
      rcases List.mem_append.mp hplace with hfirst | hrest
      · obtain ⟨inner, hinner, rfl⟩ := List.mem_map.mp hfirst
        apply (lists_weigh value inner hinner).within
        intro part
        rw [weightOfValues, Nat.add_comm 1, Nat.add_assoc]
      · obtain ⟨inner, hinner, rfl⟩ := List.mem_map.mp hrest
        apply (listsOfValues_weigh rest inner hinner).within
        intro part
        rw [weightOfValues, Nat.add_comm]

theorem listsOfFields_weigh (fields : JsonObject) :
    ∀ place ∈ listsOfFields fields, Weighs weightOfFields weightOfValues fields place := by
  cases fields with
  | nil => simp [listsOfFields]
  | cons field rest =>
      obtain ⟨key, value⟩ := field
      intro place hplace
      rcases List.mem_append.mp hplace with hfirst | hrest
      · obtain ⟨inner, hinner, rfl⟩ := List.mem_map.mp hfirst
        apply (lists_weigh value inner hinner).within
        intro part
        rfl
      · obtain ⟨inner, hinner, rfl⟩ := List.mem_map.mp hrest
        apply (listsOfFields_weigh rest inner hinner).within
        intro part
        rw [weightOfFields, Nat.add_comm]

end

open Place in
mutual

theorem strings_weigh (value : Json) :
    ∀ place ∈ strings value, Weighs weight String.length value place := by
  cases value with
  | null => simp [strings]
  | bool value => simp [strings]
  | int value => simp [strings]
  | float value => simp [strings]
  | text value => simp [strings]
  | array values =>
      intro place hplace
      obtain ⟨inner, hinner, rfl⟩ := List.mem_map.mp hplace
      exact (stringsOfValues_weigh values inner hinner).within fun _ => (Nat.add_zero _).symm
  | object fields =>
      intro place hplace
      obtain ⟨inner, hinner, rfl⟩ := List.mem_map.mp hplace
      exact (stringsOfFields_weigh fields inner hinner).within fun _ => (Nat.add_zero _).symm

theorem stringsOfValues_weigh (values : List Json) :
    ∀ place ∈ stringsOfValues values, Weighs weightOfValues String.length values place := by
  cases values with
  | nil => simp [stringsOfValues]
  | cons value rest =>
      intro place hplace
      rcases List.mem_append.mp hplace with hfirst | hrest
      · obtain ⟨inner, hinner, rfl⟩ := List.mem_map.mp hfirst
        apply (strings_weigh value inner hinner).within
        intro part
        rw [weightOfValues, Nat.add_comm 1, Nat.add_assoc]
      · obtain ⟨inner, hinner, rfl⟩ := List.mem_map.mp hrest
        apply (stringsOfValues_weigh rest inner hinner).within
        intro part
        rw [weightOfValues, Nat.add_comm]

theorem stringsOfFields_weigh (fields : JsonObject) :
    ∀ place ∈ stringsOfFields fields, Weighs weightOfFields String.length fields place := by
  cases fields with
  | nil => simp [stringsOfFields]
  | cons field rest =>
      obtain ⟨key, value⟩ := field
      have hrest (first : String × Json) : ∀ place ∈
          (stringsOfFields rest).map fun place => place.within (first :: ·),
          Weighs weightOfFields String.length (first :: rest) place := by
        intro place hplace
        obtain ⟨inner, hinner, rfl⟩ := List.mem_map.mp hplace
        apply (stringsOfFields_weigh rest inner hinner).within
        intro part
        rw [weightOfFields, Nat.add_comm]
      have hfirst : ∀ place ∈
          (strings value).map fun place => place.within fun value => (key, value) :: rest,
          Weighs weightOfFields String.length ((key, value) :: rest) place := by
        intro place hplace
        obtain ⟨inner, hinner, rfl⟩ := List.mem_map.mp hplace
        apply (strings_weigh value inner hinner).within
        intro part
        rfl
      intro place hplace
      cases value with
      | text value =>
          rcases List.mem_cons.mp hplace with rfl | hplace
          · intro other
            show other.length + weightOfFields rest + value.length =
              value.length + weightOfFields rest + other.length
            omega
          · exact hrest _ place hplace
      | null => exact (List.mem_append.mp hplace).elim (hfirst place) (hrest _ place)
      | bool value => exact (List.mem_append.mp hplace).elim (hfirst place) (hrest _ place)
      | int value => exact (List.mem_append.mp hplace).elim (hfirst place) (hrest _ place)
      | float value => exact (List.mem_append.mp hplace).elim (hfirst place) (hrest _ place)
      | array values => exact (List.mem_append.mp hplace).elim (hfirst place) (hrest _ place)
      | object fields => exact (List.mem_append.mp hplace).elim (hfirst place) (hrest _ place)

end

mutual

theorem lists_ne_nil (value : Json) : ∀ place ∈ lists value, place.value ≠ [] := by
  cases value with
  | null => simp [lists]
  | bool value => simp [lists]
  | int value => simp [lists]
  | float value => simp [lists]
  | text value => simp [lists]
  | array values =>
      intro place hplace
      rcases List.mem_append.mp hplace with hself | hinner
      · split at hself
        · cases hself
        next hempty =>
          rw [List.mem_singleton.mp hself]
          simpa using hempty
      · obtain ⟨inner, hmem, rfl⟩ := List.mem_map.mp hinner
        exact listsOfValues_ne_nil values inner hmem
  | object fields =>
      intro place hplace
      obtain ⟨inner, hinner, rfl⟩ := List.mem_map.mp hplace
      exact listsOfFields_ne_nil fields inner hinner

theorem listsOfValues_ne_nil (values : List Json) :
    ∀ place ∈ listsOfValues values, place.value ≠ [] := by
  cases values with
  | nil => simp [listsOfValues]
  | cons value rest =>
      intro place hplace
      rcases List.mem_append.mp hplace with hfirst | hrest
      · obtain ⟨inner, hinner, rfl⟩ := List.mem_map.mp hfirst
        exact lists_ne_nil value inner hinner
      · obtain ⟨inner, hinner, rfl⟩ := List.mem_map.mp hrest
        exact listsOfValues_ne_nil rest inner hinner

theorem listsOfFields_ne_nil (fields : JsonObject) :
    ∀ place ∈ listsOfFields fields, place.value ≠ [] := by
  cases fields with
  | nil => simp [listsOfFields]
  | cons field rest =>
      obtain ⟨key, value⟩ := field
      intro place hplace
      rcases List.mem_append.mp hplace with hfirst | hrest
      · obtain ⟨inner, hinner, rfl⟩ := List.mem_map.mp hfirst
        exact lists_ne_nil value inner hinner
      · obtain ⟨inner, hinner, rfl⟩ := List.mem_map.mp hrest
        exact listsOfFields_ne_nil rest inner hinner

end

theorem weightOfValues_append (first second : List Json) :
    weightOfValues (first ++ second) = weightOfValues first + weightOfValues second := by
  induction first with
  | nil => simp [weightOfValues]
  | cons value rest ih =>
      rw [List.cons_append, weightOfValues, weightOfValues, ih]
      omega

/-- A list without its last item weighs less. -/
theorem weightOfValues_dropLast_lt {rows : List Json} (h : rows ≠ []) :
    weightOfValues rows.dropLast < weightOfValues rows := by
  calc weightOfValues rows.dropLast
      < weightOfValues rows.dropLast + weightOfValues [rows.getLast h] := by
        simp only [weightOfValues]
        omega
    _ = weightOfValues rows := by
        rw [← weightOfValues_append, List.dropLast_append_getLast]

theorem length_clipped (raw : String) {length : ℕ} (h : 3 ≤ length) (hle : length ≤ raw.length + 3) :
    (clipped raw length).length = length := by
  unfold clipped
  rw [String.length_append, String.length_ofList, List.length_take, String.length_toList]
  show min (length - 3) raw.length + 3 = length
  omega

/-- Each step leaves less to drop or to shorten. -/
theorem compactOnce_lt {copied next : JsonObject} (h : compactOnce copied = some next) :
    weightOfFields next < weightOfFields copied := by
  unfold compactOnce at h
  split at h
  next target htarget =>
    have hmem : target ∈ listsOfFields copied := largest_mem htarget
    rw [← Option.some.inj h]
    exact (listsOfFields_weigh copied target hmem).lt
      (weightOfValues_dropLast_lt (listsOfFields_ne_nil copied target hmem))
  · split at h
    next target htarget =>
      obtain ⟨hmem, hlong⟩ := List.mem_filter.mp (largest_mem htarget)
      have hlong : 32 < target.value.length := of_decide_eq_true hlong
      rw [← Option.some.inj h]
      apply (stringsOfFields_weigh copied target hmem).lt
      rw [length_clipped _ (by omega) (by omega)]
      omega
    · cases h

/-- A step is taken unless no list has an item and no text is longer than 32 characters. -/
theorem compactOnce_eq_none_iff {copied : JsonObject} : compactOnce copied = none ↔
    listsOfFields copied = [] ∧
      ∀ place ∈ stringsOfFields copied, place.value.length ≤ 32 := by
  unfold compactOnce
  cases hlists : largest (fun place => rowsKey place.value) (listsOfFields copied) with
  | some target =>
      refine ⟨fun h => (by cases h), fun ⟨hnil, _⟩ => ?_⟩
      have hmem : target ∈ listsOfFields copied := largest_mem hlists
      rw [hnil] at hmem
      cases hmem
  | none =>
      have hnil : listsOfFields copied = [] := largest_eq_none.mp hlists
      cases hstrings : largest (fun place => place.value.length) (shrinkable copied) with
      | some target =>
          obtain ⟨hmem, hlong⟩ := List.mem_filter.mp (largest_mem hstrings)
          refine ⟨fun h => (by cases h), fun ⟨_, hshort⟩ => ?_⟩
          exact absurd (hshort target hmem) (not_le.mpr (of_decide_eq_true hlong))
      | none =>
          refine ⟨fun _ => ⟨hnil, fun place hplace => ?_⟩, fun _ => rfl⟩
          by_contra hlong
          have hmem : place ∈ shrinkable copied :=
            List.mem_filter.mpr ⟨hplace, decide_eq_true (not_le.mp hlong)⟩
          rw [largest_eq_none.mp hstrings] at hmem
          cases hmem

/-! ## Parts of a result -/

/-- A value is a part of another one, at any depth. -/
inductive Part (inner : Json) : Json → Prop
  | refl : Part inner inner
  | item {value : Json} {values : List Json} : value ∈ values → Part inner value →
      Part inner (.array values)
  | field {key : String} {value : Json} {fields : JsonObject} : (key, value) ∈ fields →
      Part inner value → Part inner (.object fields)

theorem exists_listsOfValues {value : Json} {values : List Json} {rows : List Json}
    (hvalue : value ∈ values) (h : ∃ place ∈ lists value, place.value = rows) :
    ∃ place ∈ listsOfValues values, place.value = rows := by
  induction values with
  | nil => cases hvalue
  | cons first rest ih =>
      rcases List.mem_cons.mp hvalue with rfl | hrest
      · obtain ⟨place, hplace, hrows⟩ := h
        exact ⟨_, List.mem_append_left _ (List.mem_map_of_mem hplace), hrows⟩
      · obtain ⟨place, hplace, hrows⟩ := ih hrest
        exact ⟨_, List.mem_append_right _ (List.mem_map_of_mem hplace), hrows⟩

theorem exists_listsOfFields {key : String} {value : Json} {fields : JsonObject}
    {rows : List Json} (hfield : (key, value) ∈ fields)
    (h : ∃ place ∈ lists value, place.value = rows) :
    ∃ place ∈ listsOfFields fields, place.value = rows := by
  induction fields with
  | nil => cases hfield
  | cons first rest ih =>
      rcases List.mem_cons.mp hfield with rfl | hrest
      · obtain ⟨place, hplace, hrows⟩ := h
        exact ⟨_, List.mem_append_left _ (List.mem_map_of_mem hplace), hrows⟩
      · obtain ⟨place, hplace, hrows⟩ := ih hrest
        exact ⟨_, List.mem_append_right _ (List.mem_map_of_mem hplace), hrows⟩

/-- Every list with an item is collected. -/
theorem exists_lists_of_part {value : Json} {rows : List Json} (hrows : rows ≠ [])
    (h : Part (.array rows) value) : ∃ place ∈ lists value, place.value = rows := by
  induction h with
  | refl =>
      refine ⟨⟨rows, .array⟩, List.mem_append_left _ ?_, rfl⟩
      rw [if_neg (by simpa using hrows)]
      exact List.mem_singleton_self _
  | item hvalue _ ih =>
      obtain ⟨place, hplace, hsame⟩ := exists_listsOfValues hvalue ih
      exact ⟨_, List.mem_append_right _ (List.mem_map_of_mem hplace), hsame⟩
  | field hfield _ ih =>
      obtain ⟨place, hplace, hsame⟩ := exists_listsOfFields hfield ih
      exact ⟨_, List.mem_map_of_mem hplace, hsame⟩

theorem exists_stringsOfValues {value : Json} {values : List Json} {raw : String}
    (hvalue : value ∈ values) (h : ∃ place ∈ strings value, place.value = raw) :
    ∃ place ∈ stringsOfValues values, place.value = raw := by
  induction values with
  | nil => cases hvalue
  | cons first rest ih =>
      rcases List.mem_cons.mp hvalue with rfl | hrest
      · obtain ⟨place, hplace, hraw⟩ := h
        exact ⟨_, List.mem_append_left _ (List.mem_map_of_mem hplace), hraw⟩
      · obtain ⟨place, hplace, hraw⟩ := ih hrest
        exact ⟨_, List.mem_append_right _ (List.mem_map_of_mem hplace), hraw⟩

/-- What is collected of the other fields is collected. -/
theorem exists_stringsOfFields_of_rest {field : String × Json} {rest : JsonObject} {raw : String}
    (h : ∃ place ∈ stringsOfFields rest, place.value = raw) :
    ∃ place ∈ stringsOfFields (field :: rest), place.value = raw := by
  obtain ⟨key, value⟩ := field
  obtain ⟨place, hplace, hraw⟩ := h
  have hmem : place.within ((key, value) :: ·) ∈
      (stringsOfFields rest).map fun place => place.within ((key, value) :: ·) :=
    List.mem_map_of_mem hplace
  cases value with
  | text value => exact ⟨_, List.mem_cons_of_mem _ hmem, hraw⟩
  | null => exact ⟨_, List.mem_append_right _ hmem, hraw⟩
  | bool value => exact ⟨_, List.mem_append_right _ hmem, hraw⟩
  | int value => exact ⟨_, List.mem_append_right _ hmem, hraw⟩
  | float value => exact ⟨_, List.mem_append_right _ hmem, hraw⟩
  | array values => exact ⟨_, List.mem_append_right _ hmem, hraw⟩
  | object fields => exact ⟨_, List.mem_append_right _ hmem, hraw⟩

theorem exists_stringsOfFields {key : String} {value : Json} {fields : JsonObject} {raw : String}
    (hfield : (key, value) ∈ fields)
    (h : value = .text raw ∨ ∃ place ∈ strings value, place.value = raw) :
    ∃ place ∈ stringsOfFields fields, place.value = raw := by
  induction fields with
  | nil => cases hfield
  | cons first rest ih =>
      rcases List.mem_cons.mp hfield with rfl | hrest
      · rcases h with rfl | ⟨place, hplace, hraw⟩
        · exact ⟨_, List.mem_cons_self, rfl⟩
        · have hmem := List.mem_append_left
            ((stringsOfFields rest).map fun place => place.within ((key, value) :: ·))
            (List.mem_map_of_mem (f := fun place =>
              place.within fun value => (key, value) :: rest) hplace)
          cases value with
          | text value => cases hplace
          | null => exact ⟨_, hmem, hraw⟩
          | bool value => exact ⟨_, hmem, hraw⟩
          | int value => exact ⟨_, hmem, hraw⟩
          | float value => exact ⟨_, hmem, hraw⟩
          | array values => exact ⟨_, hmem, hraw⟩
          | object fields => exact ⟨_, hmem, hraw⟩
      · exact exists_stringsOfFields_of_rest (ih hrest)

/-- Every text of an object is collected. -/
theorem exists_strings_of_part {value : Json} {fields : JsonObject} {key raw : String}
    (hfield : (key, .text raw) ∈ fields) (h : Part (.object fields) value) :
    ∃ place ∈ strings value, place.value = raw := by
  induction h with
  | refl =>
      obtain ⟨place, hplace, hraw⟩ := exists_stringsOfFields hfield (.inl rfl)
      exact ⟨_, List.mem_map_of_mem hplace, hraw⟩
  | item hvalue _ ih =>
      obtain ⟨place, hplace, hraw⟩ := exists_stringsOfValues hvalue ih
      exact ⟨_, List.mem_map_of_mem hplace, hraw⟩
  | field hmem _ ih =>
      obtain ⟨place, hplace, hraw⟩ := exists_stringsOfFields hmem (.inr ih)
      exact ⟨_, List.mem_map_of_mem hplace, hraw⟩

/-- Nothing is left to drop or to shorten: no list has an item, and no text of an object is longer
than 32 characters. -/
structure Spent (left : JsonObject) : Prop where
  lists : ∀ rows, Part (.array rows) (.object left) → rows = []
  texts : ∀ fields, Part (.object fields) (.object left) →
    ∀ key raw, (key, .text raw) ∈ fields → raw.length ≤ 32

/-- No step is taken only where nothing is left to drop or to shorten. -/
theorem Spent.of_compactOnce_eq_none {left : JsonObject} (h : compactOnce left = none) :
    Spent left := by
  obtain ⟨hlists, hstrings⟩ := compactOnce_eq_none_iff.mp h
  constructor
  · intro rows hpart
    by_contra hrows
    obtain ⟨place, hplace, -⟩ := exists_lists_of_part hrows hpart
    obtain ⟨inner, hinner, -⟩ := List.mem_map.mp hplace
    rw [hlists] at hinner
    cases hinner
  · intro fields hpart key raw hfield
    obtain ⟨place, hplace, rfl⟩ := exists_strings_of_part hfield hpart
    obtain ⟨inner, hinner, rfl⟩ := List.mem_map.mp hplace
    exact hstrings inner hinner

/-! ## The loop -/

/-- Compact until it fits. -/
def compact (maximumTokens : ℤ) (copied : JsonObject) : Except ToolContextUnavailable JsonObject :=
  if outputTokens (.object copied) ≤ maximumTokens then .ok copied
  else
    match h : compactOnce copied with
    | some next => compact maximumTokens next
    | none => .error ⟨"tool result cannot fit its configured token ceiling"⟩
termination_by weightOfFields copied
decreasing_by exact compactOnce_lt h

/-- `_bounded_output` of a JSON object. -/
def boundedOutput (value : JsonObject) (maximumTokens : ℤ) :
    Except ToolContextUnavailable JsonObject :=
  if outputTokens (.object value) ≤ maximumTokens then .ok value
  else compact maximumTokens (clipFields value)

/-- A round of the loop. -/
structure Round (maximumTokens : ℤ) (copied next : JsonObject) : Prop where
  exceeds : maximumTokens < outputTokens (.object copied)
  once : compactOnce copied = some next

/-- The rounds come to an end. -/
theorem Round.wellFounded (maximumTokens : ℤ) :
    WellFounded fun next copied => Round maximumTokens copied next := by
  apply Subrelation.wf _ (measure weightOfFields).wf
  intro next copied hround
  exact compactOnce_lt hround.once

variable {maximumTokens : ℤ} {copied : JsonObject}

theorem compact_of_le (h : outputTokens (.object copied) ≤ maximumTokens) :
    compact maximumTokens copied = .ok copied := by
  rw [compact, if_pos h]

theorem compact_of_round {next : JsonObject} (h : Round maximumTokens copied next) :
    compact maximumTokens copied = compact maximumTokens next := by
  rw [compact, if_neg (not_le.mpr h.exceeds)]
  split
  next found hfound =>
    rw [Option.some.inj (h.once.symm.trans hfound)]
  next hnone =>
    rw [h.once] at hnone
    cases hnone

theorem compact_of_none (hexceeds : maximumTokens < outputTokens (.object copied))
    (hnone : compactOnce copied = none) : compact maximumTokens copied =
      .error ⟨"tool result cannot fit its configured token ceiling"⟩ := by
  rw [compact, if_neg (not_le.mpr hexceeds)]
  split
  next found hfound =>
    rw [hnone] at hfound
    cases hfound
  · rfl

/-- The loop ends at what fits or where nothing is left to drop or to shorten. -/
theorem compact_ends (maximumTokens : ℤ) (copied : JsonObject) :
    ∃ left, Relation.ReflTransGen (Round maximumTokens) copied left ∧
      (outputTokens (.object left) ≤ maximumTokens ∧ compact maximumTokens copied = .ok left ∨
        (maximumTokens < outputTokens (.object left) ∧ compactOnce left = none) ∧
          compact maximumTokens copied =
            .error ⟨"tool result cannot fit its configured token ceiling"⟩) := by
  induction copied using (Round.wellFounded maximumTokens).induction with
  | h copied ih =>
    by_cases hfits : outputTokens (.object copied) ≤ maximumTokens
    · exact ⟨copied, .refl, .inl ⟨hfits, compact_of_le hfits⟩⟩
    have hexceeds : maximumTokens < outputTokens (.object copied) := not_le.mp hfits
    cases honce : compactOnce copied with
    | none => exact ⟨copied, .refl, .inr ⟨⟨hexceeds, honce⟩, compact_of_none hexceeds honce⟩⟩
    | some next =>
        have hround : Round maximumTokens copied next := ⟨hexceeds, honce⟩
        obtain ⟨left, hrounds, hends⟩ := ih next hround
        rw [← compact_of_round hround] at hends
        exact ⟨left, .head hround hrounds, hends⟩

/-- The rounds come to an end, and the result fits unless nothing is left to drop or to shorten; a
result that fits is returned as it is. -/
theorem boundedOutput_spec (value : JsonObject) (maximumTokens : ℤ) :
    (WellFounded fun next copied => Round maximumTokens copied next) ∧
      (outputTokens (.object value) ≤ maximumTokens → boundedOutput value maximumTokens = .ok value) ∧
      ((∃ output, boundedOutput value maximumTokens = .ok output ∧
          outputTokens (.object output) ≤ maximumTokens) ∨
        ∃ left, boundedOutput value maximumTokens =
            .error ⟨"tool result cannot fit its configured token ceiling"⟩ ∧
          Relation.ReflTransGen (Round maximumTokens) (clipFields value) left ∧ Spent left) := by
  refine ⟨Round.wellFounded maximumTokens, fun hfits => if_pos hfits, ?_⟩
  by_cases hfits : outputTokens (.object value) ≤ maximumTokens
  · exact .inl ⟨value, if_pos hfits, hfits⟩
  unfold boundedOutput
  rw [if_neg hfits]
  obtain ⟨left, hrounds, ⟨hleft, hcompact⟩ | ⟨⟨-, hnone⟩, hcompact⟩⟩ :=
    compact_ends maximumTokens (clipFields value)
  · exact .inl ⟨left, hcompact, hleft⟩
  · exact .inr ⟨left, hcompact, hrounds, .of_compactOnce_eq_none hnone⟩

end Compaction

end VTrade
