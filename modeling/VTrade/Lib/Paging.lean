/-
# Reading page by page

A server gives a page of items and a cursor for the next page, or raises.  A reader asks for page
after page until there is no cursor.  If each page starts what its cursor leaves to be read and has
an item whenever another page follows, the reader ends, with every item once and in order or with
what the server raised.  A page that gives back its own cursor is asked for again and again.
-/

import Mathlib.Data.List.Basic
import Mathlib.Order.Lattice

universe u v w

namespace Paging

variable {ε : Type u} {α : Type v} {κ : Type w}

structure Page (α : Type v) (κ : Type w) where
  items : List α
  next : Option κ

/-- The items a reader got, and what was raised in the end. -/
structure Reading (α : Type v) (ε : Type u) where
  items : List α
  error : Option ε

/-- Ask for page after page, from a cursor on, which may differ in what they ask for. -/
def follow (serve : ℕ → Option κ → Except ε (Page α κ)) :
    ℕ → ℕ → Option κ → Option (Reading α ε)
  | 0, _, _ => none
  | fuel + 1, step, cursor =>
      match serve step cursor with
      | .error error => some ⟨[], some error⟩
      | .ok page =>
          match page.next with
          | none => some ⟨page.items, none⟩
          | some next =>
              (follow serve fuel (step + 1) (some next)).map fun reading =>
                ⟨page.items ++ reading.items, reading.error⟩

variable {serve : ℕ → Option κ → Except ε (Page α κ)} {fuel step : ℕ} {cursor : Option κ}
  {page : Page α κ}

theorem follow_of_error {error : ε} (h : serve step cursor = .error error) :
    follow serve (fuel + 1) step cursor = some ⟨[], some error⟩ := by
  rw [follow, h]

theorem follow_of_last (h : serve step cursor = .ok page) (hlast : page.next = none) :
    follow serve (fuel + 1) step cursor = some ⟨page.items, none⟩ := by
  rw [follow, h]
  simp only [hlast]

theorem follow_of_next {next : κ} (h : serve step cursor = .ok page)
    (hnext : page.next = some next) :
    follow serve (fuel + 1) step cursor =
      (follow serve fuel (step + 1) (some next)).map fun reading =>
        ⟨page.items ++ reading.items, reading.error⟩ := by
  rw [follow, h]
  simp only [hnext]

/-- The pages from the cursors that are known tile what these leave to be read. -/
structure Tiles (serve : ℕ → Option κ → Except ε (Page α κ)) (known : Option κ → Prop)
    (rest : Option κ → List α) : Prop where
  last : ∀ step cursor page, known cursor → serve step cursor = .ok page → page.next = none →
    page.items = rest cursor
  next : ∀ step cursor page next, known cursor → serve step cursor = .ok page →
    page.next = some next →
      known (some next) ∧ page.items ≠ [] ∧ rest cursor = page.items ++ rest (some next)

/-- A reader ends with all that was left to be read, or with what was raised where it came to. -/
inductive Ends (serve : ℕ → Option κ → Except ε (Page α κ)) (known : Option κ → Prop)
    (rest : Option κ → List α) (cursor : Option κ) : Reading α ε → Prop
  | all : Ends serve known rest cursor ⟨rest cursor, none⟩
  | raised {items : List α} {error : ε} {step : ℕ} {stop : Option κ} : known stop →
      serve step stop = .error error → rest cursor = items ++ rest stop →
      Ends serve known rest cursor ⟨items, some error⟩

variable {known : Option κ → Prop} {rest : Option κ → List α}

/-- Pages that tile are read to the end. -/
theorem Tiles.follow_ends (h : Tiles serve known rest) (step : ℕ) (hknown : known cursor)
    (hfuel : (rest cursor).length < fuel) :
    ∃ reading, follow serve fuel step cursor = some reading ∧
      Ends serve known rest cursor reading := by
  induction fuel generalizing step cursor with
  | zero => omega
  | succ fuel ih =>
      cases hserve : serve step cursor with
      | error error =>
          exact ⟨_, follow_of_error hserve, .raised hknown hserve (List.nil_append _).symm⟩
      | ok page =>
          cases hnext : page.next with
          | none =>
              rw [follow_of_last hserve hnext, h.last step cursor page hknown hserve hnext]
              exact ⟨_, rfl, .all⟩
          | some next =>
              obtain ⟨hlater, hitems, hrest⟩ := h.next step cursor page next hknown hserve hnext
              have hlength : (rest (some next)).length < fuel := by
                have hpositive : 0 < page.items.length := List.length_pos_of_ne_nil hitems
                rw [hrest, List.length_append] at hfuel
                omega
              obtain ⟨reading, hreading, hends⟩ := ih (step + 1) hlater hlength
              rw [follow_of_next hserve hnext, hreading]
              refine ⟨_, rfl, ?_⟩
              cases hends with
              | all =>
                  show Ends serve known rest cursor ⟨page.items ++ rest (some next), none⟩
                  rw [← hrest]
                  exact .all
              | raised hstop herror hleft =>
                  refine .raised hstop herror ?_
                  rw [hrest, hleft, List.append_assoc]

/-! ## What comes after an item -/

/-- In the order of a key, what comes after the last of the first items is the rest. -/
theorem filter_after {ι : Type*} [LinearOrder ι] (key : α → ι) {first later : List α} {item : α}
    (hsorted : (first ++ later).Pairwise fun one other => key one < key other)
    (hlast : first.getLast? = some item) :
    (first ++ later).filter (fun other => key item < key other) = later := by
  obtain ⟨start, rfl⟩ := List.getLast?_eq_some_iff.mp hlast
  obtain ⟨hfirst, -, hacross⟩ := List.pairwise_append.mp hsorted
  obtain ⟨-, -, hstart⟩ := List.pairwise_append.mp hfirst
  rw [List.filter_append]
  have hnone : (start ++ [item]).filter (fun other => key item < key other) = [] := by
    rw [List.filter_eq_nil_iff]
    intro other hother
    rw [decide_eq_true_iff, not_lt]
    rcases List.mem_append.mp hother with hmem | hmem
    · exact (hstart other hmem item (List.mem_singleton_self item)).le
    · exact (congrArg key (List.mem_singleton.mp hmem)).le
  have hall : later.filter (fun other => key item < key other) = later := by
    rw [List.filter_eq_self]
    intro other hother
    exact decide_eq_true (hacross item (List.mem_append_right _ (List.mem_singleton_self item))
      other hother)
  rw [hnone, hall, List.nil_append]

/-! ## As many items as fit -/

/-- Take items while what is taken fits. -/
def fitting (fits : List α → Bool) (selected : List α) : List α → List α
  | [] => selected
  | item :: rest =>
      if fits (selected ++ [item]) then fitting fits (selected ++ [item]) rest else selected

variable (fits : List α → Bool)

/-- What is taken is where the items start. -/
theorem fitting_prefix (selected items : List α) : selected ++ items =
    fitting fits selected items ++ (selected ++ items).drop (fitting fits selected items).length := by
  induction items generalizing selected with
  | nil => simp [fitting]
  | cons item rest ih =>
      rw [fitting]
      split
      · have hrest := ih (selected ++ [item])
        simpa using hrest
      · simp

/-- What is taken from the start on is where the items start. -/
theorem fitting_nil_prefix (items : List α) :
    items = fitting fits [] items ++ items.drop (fitting fits [] items).length := by
  have h := fitting_prefix fits [] items
  rwa [List.nil_append] at h

/-- What is taken fits, unless nothing more was taken. -/
theorem fitting_fits (selected items : List α) :
    fitting fits selected items = selected ∨ fits (fitting fits selected items) = true := by
  induction items generalizing selected with
  | nil => exact .inl rfl
  | cons item rest ih =>
      rw [fitting]
      split
      next hfits =>
        rcases ih (selected ++ [item]) with hsame | hlater
        · rw [hsame]
          exact .inr hfits
        · exact .inr hlater
      · exact .inl rfl

/-- What is taken only grows. -/
theorem length_le_fitting (selected items : List α) :
    selected.length ≤ (fitting fits selected items).length := by
  induction items generalizing selected with
  | nil => exact Nat.le_refl _
  | cons item rest ih =>
      rw [fitting]
      split
      · have hrest := ih (selected ++ [item])
        rw [List.length_append] at hrest
        omega
      · exact Nat.le_refl _

variable {fits}

/-- Nothing is taken only if the first item does not fit alone. -/
theorem fitting_eq_nil {item : α} {items : List α} (h : fitting fits [] (item :: items) = []) :
    fits [item] = false := by
  rw [fitting] at h
  split at h
  · have hlength := length_le_fitting fits ([] ++ [item]) items
    rw [h] at hlength
    simp at hlength
  next hfits => simpa using hfits

end Paging
