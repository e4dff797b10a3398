/-
# Lists of rows with unique keys

A table, a dictionary and a tuple of records that are told apart by a key are
all lists whose keys do not repeat.  Reading is `lookup`, removing is `erase`
and writing is `upsert`, which replaces the row of its key in place and appends
it otherwise.

Everything a writer can do is, up to the order of the rows, one of two things:
the row of a key goes (`erase`), or it goes and another row of that key comes
(`row :: erase`).  The lemmas are stated about these two lists, and
`lookup_eq_of_perm` and `List.Perm` carry them to every concrete order.
-/

import Mathlib.Algebra.BigOperators.Group.List.Basic
import Mathlib.Data.List.Induction
import Mathlib.Data.List.Nodup
import Mathlib.Data.List.Perm.Basic

universe u v w

namespace KeyedList

variable {α : Type u} {κ : Type v} [DecidableEq κ] (key : α → κ)

/-- The first row of a key. -/
def lookup (k : κ) (rows : List α) : Option α :=
  rows.find? fun row => key row = k

/-- All rows but those of a key. -/
def erase (k : κ) (rows : List α) : List α :=
  rows.filter fun row => key row ≠ k

/-- Replace the row of the same key in place, or append. -/
def upsert (row : α) : List α → List α
  | [] => [row]
  | first :: rest =>
      if key first = key row then row :: rest else first :: upsert row rest

theorem upsert_nil (row : α) : upsert key row [] = [row] := rfl

theorem upsert_cons (row first : α) (rest : List α) : upsert key row (first :: rest) =
    if key first = key row then row :: rest else first :: upsert key row rest :=
  rfl

@[simp]
theorem lookup_nil (k : κ) : lookup key k [] = none := rfl

theorem lookup_cons (k : κ) (row : α) (rows : List α) :
    lookup key k (row :: rows) = if key row = k then some row else lookup key k rows := by
  by_cases h : key row = k <;> simp [lookup, h]

@[simp]
theorem lookup_cons_self (row : α) (rows : List α) :
    lookup key (key row) (row :: rows) = some row := by
  simp [lookup_cons]

theorem lookup_cons_of_ne {k : κ} {row : α} (h : key row ≠ k) (rows : List α) :
    lookup key k (row :: rows) = lookup key k rows := by
  simp [lookup_cons, h]

theorem lookup_append (k : κ) (first second : List α) :
    lookup key k (first ++ second) = (lookup key k first).or (lookup key k second) :=
  List.find?_append

variable {key}

theorem mem_of_lookup_eq_some {k : κ} {rows : List α} {row : α}
    (h : lookup key k rows = some row) : row ∈ rows :=
  List.mem_of_find?_eq_some h

theorem key_of_lookup_eq_some {k : κ} {rows : List α} {row : α}
    (h : lookup key k rows = some row) : key row = k := by
  simpa using List.find?_some h

theorem lookup_eq_none_iff {k : κ} {rows : List α} :
    lookup key k rows = none ↔ ∀ row ∈ rows, key row ≠ k := by
  simp [lookup]

theorem isSome_lookup_iff {k : κ} {rows : List α} :
    (lookup key k rows).isSome = true ↔ ∃ row ∈ rows, key row = k := by
  simp [lookup]

/-- With unique keys, looking a key up is being its row. -/
theorem lookup_eq_some_iff {rows : List α} (unique : (rows.map key).Nodup) {k : κ} {row : α} :
    lookup key k rows = some row ↔ row ∈ rows ∧ key row = k := by
  constructor
  · intro h
    exact ⟨mem_of_lookup_eq_some h, key_of_lookup_eq_some h⟩
  · rintro ⟨hmem, rfl⟩
    cases hfound : lookup key (key row) rows with
    | none => exact absurd rfl (lookup_eq_none_iff.mp hfound row hmem)
    | some other =>
        have hsame : other = row := List.inj_on_of_nodup_map unique
          (mem_of_lookup_eq_some hfound) hmem (key_of_lookup_eq_some hfound)
        rw [hsame]

/-- The order of rows with unique keys does not matter to a lookup. -/
theorem lookup_eq_of_perm {first second : List α} (hperm : first.Perm second)
    (unique : (first.map key).Nodup) (k : κ) : lookup key k first = lookup key k second := by
  have unique' : (second.map key).Nodup := (hperm.map key).nodup_iff.mp unique
  apply Option.ext
  intro row
  rw [lookup_eq_some_iff unique, lookup_eq_some_iff unique', hperm.mem_iff]

@[simp]
theorem mem_erase {k : κ} {rows : List α} {row : α} :
    row ∈ erase key k rows ↔ row ∈ rows ∧ key row ≠ k := by
  simp [erase]

theorem erase_sublist (k : κ) (rows : List α) : (erase key k rows).Sublist rows :=
  List.filter_sublist

theorem nodup_erase {rows : List α} (unique : (rows.map key).Nodup) (k : κ) :
    ((erase key k rows).map key).Nodup :=
  unique.sublist ((erase_sublist k rows).map key)

theorem erase_eq_self {k : κ} {rows : List α} (h : lookup key k rows = none) :
    erase key k rows = rows := by
  rw [lookup_eq_none_iff] at h
  exact List.filter_eq_self.mpr fun row hmem => by simpa using h row hmem

@[simp]
theorem lookup_erase_self (k : κ) (rows : List α) : lookup key k (erase key k rows) = none :=
  lookup_eq_none_iff.mpr fun _ hmem => (mem_erase.mp hmem).2

theorem lookup_erase_of_ne {k other : κ} (h : other ≠ k) (rows : List α) :
    lookup key other (erase key k rows) = lookup key other rows := by
  induction rows with
  | nil => rfl
  | cons row rows ih =>
      by_cases hrow : key row = k
      · have hother : key row ≠ other := fun hkey => h (hkey.symm.trans hrow)
        have hskip : erase key k (row :: rows) = erase key k rows := by simp [erase, hrow]
        rw [hskip, ih, lookup_cons_of_ne key hother]
      · have hkeep : erase key k (row :: rows) = row :: erase key k rows := by
          simp [erase, hrow]
        rw [hkeep, lookup_cons, lookup_cons, ih]

/-- Rows that are built from others are looked up through what they are built from. -/
theorem lookup_map {β : Type w} (build : β → α) (k : κ) (rows : List β) :
    lookup key k (rows.map build) = (lookup (key ∘ build) k rows).map build := by
  rw [lookup, List.find?_map]
  rfl

/-- Among rows with unique keys, those that pass a test are looked up like all of
them. -/
theorem lookup_filter {rows : List α} (unique : (rows.map key).Nodup) (test : α → Bool) (k : κ) :
    lookup key k (rows.filter test) = (lookup key k rows).filter test := by
  have hfiltered : ((rows.filter test).map key).Nodup :=
    unique.sublist (List.filter_sublist.map key)
  apply Option.ext
  intro row
  rw [lookup_eq_some_iff hfiltered, Option.filter_eq_some_iff, lookup_eq_some_iff unique,
    List.mem_filter]
  exact and_right_comm

/-- The keys stay unique when a row takes the place of the row of its key. -/
theorem nodup_cons_erase {rows : List α} (unique : (rows.map key).Nodup) (row : α) :
    ((row :: erase key (key row) rows).map key).Nodup := by
  rw [List.map_cons, List.nodup_cons]
  refine ⟨?_, nodup_erase unique _⟩
  intro hmem
  obtain ⟨other, hother, hkey⟩ := List.mem_map.mp hmem
  exact (mem_erase.mp hother).2 hkey

theorem lookup_cons_erase_of_ne {k : κ} {row : α} (h : k ≠ key row) (rows : List α) :
    lookup key k (row :: erase key (key row) rows) = lookup key k rows := by
  rw [lookup_cons_of_ne key (Ne.symm h), lookup_erase_of_ne h]

/-- An upsert is the replacement of the row of its key, up to order. -/
theorem upsert_perm {rows : List α} (unique : (rows.map key).Nodup) (row : α) :
    (upsert key row rows).Perm (row :: erase key (key row) rows) := by
  induction rows with
  | nil => simp [upsert_nil, erase]
  | cons first rest ih =>
      rw [List.map_cons, List.nodup_cons] at unique
      by_cases hkey : key first = key row
      · have hrest : lookup key (key row) rest = none := lookup_eq_none_iff.mpr
          fun other hother hsame => unique.1
            (List.mem_map.mpr ⟨other, hother, hsame.trans hkey.symm⟩)
        have herase : erase key (key row) (first :: rest) = rest := by
          rw [show erase key (key row) (first :: rest) = erase key (key row) rest by
            simp [erase, hkey], erase_eq_self hrest]
        simp only [upsert_cons, if_pos hkey, herase, List.Perm.refl]
      · have herase : erase key (key row) (first :: rest) =
            first :: erase key (key row) rest := by simp [erase, hkey]
        rw [herase, upsert_cons, if_neg hkey]
        exact ((ih unique.2).cons first).trans (List.Perm.swap _ _ _)

theorem nodup_upsert {rows : List α} (unique : (rows.map key).Nodup) (row : α) :
    ((upsert key row rows).map key).Nodup :=
  ((upsert_perm unique row).map key).nodup_iff.mpr (nodup_cons_erase unique row)

@[simp]
theorem lookup_upsert_self (row : α) (rows : List α) :
    lookup key (key row) (upsert key row rows) = some row := by
  induction rows with
  | nil => simp [upsert_nil]
  | cons first rest ih =>
      by_cases hkey : key first = key row
      · simp [upsert_cons, hkey]
      · rw [upsert_cons, if_neg hkey, lookup_cons_of_ne key hkey, ih]

theorem lookup_upsert_of_ne {k : κ} {row : α} (h : k ≠ key row) (rows : List α) :
    lookup key k (upsert key row rows) = lookup key k rows := by
  induction rows with
  | nil => simp [upsert_nil, lookup_cons, Ne.symm h]
  | cons first rest ih =>
      by_cases hkey : key first = key row
      · have hfirst : key first ≠ k := fun hsame => h (hsame.symm.trans hkey)
        rw [upsert_cons, if_pos hkey, lookup_cons_of_ne key (Ne.symm h), lookup_cons_of_ne key hfirst]
      · rw [upsert_cons, if_neg hkey, lookup_cons, lookup_cons, ih]

theorem mem_upsert {rows : List α} {row other : α} (h : other ∈ upsert key row rows) :
    other = row ∨ other ∈ rows := by
  induction rows with
  | nil => exact Or.inl (by simpa [upsert_nil] using h)
  | cons first rest ih =>
      by_cases hkey : key first = key row
      · rw [upsert_cons, if_pos hkey] at h
        exact (List.mem_cons.mp h).imp id (List.mem_cons_of_mem _)
      · rw [upsert_cons, if_neg hkey] at h
        rcases List.mem_cons.mp h with rfl | hrest
        · exact Or.inr List.mem_cons_self
        · exact (ih hrest).imp id (List.mem_cons_of_mem _)

/-- Writing a row leaves the rows that no row of its key is among. -/
theorem filter_upsert {row : α} {test : α → Bool}
    (h : ∀ other, key other = key row → test other = false) (rows : List α) :
    (upsert key row rows).filter test = rows.filter test := by
  have hrow : test row = false := h row rfl
  induction rows with
  | nil => simp [upsert_nil, hrow]
  | cons first rest ih =>
      by_cases hkey : key first = key row
      · rw [upsert_cons, if_pos hkey]
        simp [hrow, h first hkey]
      · rw [upsert_cons, if_neg hkey, List.filter_cons, List.filter_cons, ih]

/-- A row of a new key goes to the end. -/
theorem upsert_eq_append {rows : List α} {row : α} (h : ∀ other ∈ rows, key other ≠ key row) :
    upsert key row rows = rows ++ [row] := by
  induction rows with
  | nil => rfl
  | cons first rest ih =>
      rw [upsert_cons, if_neg (h first List.mem_cons_self),
        ih fun other hmem => h other (List.mem_cons_of_mem _ hmem), List.cons_append]

omit [DecidableEq κ] in
/-- A row of a new key leaves the keys unique. -/
theorem nodup_concat {rows : List α} {row : α} (unique : (rows.map key).Nodup)
    (hnew : ∀ other ∈ rows, key other ≠ key row) : ((rows ++ [row]).map key).Nodup := by
  rw [List.map_append, List.map_singleton]
  refine List.nodup_append.mpr ⟨unique, List.nodup_singleton _, ?_⟩
  intro first hfirst second hsecond
  obtain ⟨other, hother, rfl⟩ := List.mem_map.mp hfirst
  rw [List.mem_singleton.mp hsecond]
  exact hnew other hother

/-- Writing over a row what agrees with it. -/
theorem map_upsert_of_lookup {β : Type w} {rows : List α} {row old : α} {f : α → β}
    (hold : lookup key (key row) rows = some old) (hsame : f row = f old) :
    (upsert key row rows).map f = rows.map f := by
  induction rows with
  | nil => cases hold
  | cons first rest ih =>
      by_cases hkey : key first = key row
      · rw [lookup_cons, if_pos hkey] at hold
        obtain rfl := Option.some.inj hold
        rw [upsert_cons, if_pos hkey, List.map_cons, List.map_cons, hsame]
      · rw [lookup_cons, if_neg hkey] at hold
        rw [upsert_cons, if_neg hkey, List.map_cons, List.map_cons, ih hold]

/-- Writing a row that is there. -/
theorem upsert_eq_self {rows : List α} {row : α} (h : lookup key (key row) rows = some row) :
    upsert key row rows = rows := by
  have hkept : (upsert key row rows).map id = rows.map id := map_upsert_of_lookup h rfl
  rwa [List.map_id, List.map_id] at hkept

/-- Rows with unique keys, written one by one, are the rows. -/
theorem foldl_upsert_eq {rows : List α} (unique : (rows.map key).Nodup) :
    rows.foldl (fun written row => upsert key row written) [] = rows := by
  induction rows using List.reverseRecOn with
  | nil => rfl
  | append_singleton rows row ih =>
      rw [List.map_append, List.map_singleton, List.nodup_append] at unique
      rw [List.foldl_concat, ih unique.1, upsert_eq_append]
      intro other hmem
      exact unique.2.2 _ (List.mem_map_of_mem hmem) _ (List.mem_singleton_self _)

/-- Of what the rows of unique keys come to, the part of one of them. -/
theorem filter_flatMap {β : Type w} {rows : List α} (unique : (rows.map key).Nodup)
    (made : α → List β) (keyOf : β → κ) (hkey : ∀ row, ∀ item ∈ made row, keyOf item = key row)
    {row : α} (hrow : row ∈ rows) :
    (rows.flatMap made).filter (fun item => keyOf item = key row) = made row := by
  induction rows with
  | nil => cases hrow
  | cons first rest ih =>
      rw [List.map_cons, List.nodup_cons] at unique
      rw [List.flatMap_cons, List.filter_append]
      rcases List.mem_cons.mp hrow with rfl | hrow
      · have hfirst : (made row).filter (fun item => keyOf item = key row) = made row :=
          List.filter_eq_self.mpr fun item hitem => decide_eq_true (hkey row item hitem)
        have hrest : (rest.flatMap made).filter (fun item => keyOf item = key row) = [] := by
          rw [List.filter_eq_nil_iff]
          intro item hitem hsame
          obtain ⟨other, hother, hmade⟩ := List.mem_flatMap.mp hitem
          apply unique.1
          rw [← of_decide_eq_true hsame, hkey other item hmade]
          exact List.mem_map_of_mem hother
        rw [hfirst, hrest, List.append_nil]
      · have hfirst : (made first).filter (fun item => keyOf item = key row) = [] := by
          rw [List.filter_eq_nil_iff]
          intro item hitem hsame
          apply unique.1
          rw [← hkey first item hitem, of_decide_eq_true hsame]
          exact List.mem_map_of_mem hrow
        rw [hfirst, List.nil_append]
        exact ih unique.2 hrow

section Firsts

variable (key)

/-- The rows with the first of each key (`setdefault`). -/
def firsts (rows : List α) : List α :=
  rows.foldl (fun kept row => if (lookup key (key row) kept).isSome then kept else kept ++ [row]) []

theorem firsts_concat (rows : List α) (row : α) :
    firsts key (rows ++ [row]) =
      if (lookup key (key row) (firsts key rows)).isSome then firsts key rows
      else firsts key rows ++ [row] := by
  unfold firsts
  rw [List.foldl_append]
  rfl

variable {key}

/-- The first row of a key is kept. -/
theorem lookup_firsts (k : κ) (rows : List α) : lookup key k (firsts key rows) = lookup key k rows := by
  induction rows using List.reverseRecOn with
  | nil => rfl
  | append_singleton rows row ih =>
      have happend : lookup key k (rows ++ [row]) =
          (lookup key k rows).or (if key row = k then some row else none) := by
        rw [lookup_append, lookup_cons, lookup_nil]
      rw [firsts_concat, happend]
      by_cases hkey : key row = k
      · subst hkey
        rw [ih]
        cases hfound : lookup key (key row) rows with
        | some first => rw [Option.isSome_some, if_pos rfl, ih, hfound, Option.some_or]
        | none =>
            rw [Option.isSome_none, if_neg Bool.false_ne_true, lookup_append, ih, hfound, lookup_cons,
              lookup_nil]
      · rw [if_neg hkey, Option.or_none]
        split
        · exact ih
        · rw [lookup_append, ih, lookup_cons, if_neg hkey, lookup_nil, Option.or_none]

theorem nodup_firsts (rows : List α) : ((firsts key rows).map key).Nodup := by
  induction rows using List.reverseRecOn with
  | nil => exact List.nodup_nil
  | append_singleton rows row ih =>
      rw [firsts_concat]
      split
      · exact ih
      next hnone =>
        rw [Option.not_isSome_iff_eq_none, lookup_eq_none_iff] at hnone
        rw [List.map_append, List.map_singleton, List.nodup_append]
        refine ⟨ih, List.nodup_singleton _, ?_⟩
        intro k hk other hother heq
        obtain ⟨first, hfirst, hkey⟩ := List.mem_map.mp hk
        exact hnone first hfirst (hkey.trans (heq.trans (List.mem_singleton.mp hother)))

theorem mem_of_mem_firsts {row : α} {rows : List α} (h : row ∈ firsts key rows) : row ∈ rows := by
  have hlookup : lookup key (key row) (firsts key rows) = some row :=
    (lookup_eq_some_iff (nodup_firsts rows)).mpr ⟨h, rfl⟩
  rw [lookup_firsts] at hlookup
  exact mem_of_lookup_eq_some hlookup

/-- Append a row unless its key has one. -/
def insertNew (key : α → κ) (row : α) (rows : List α) : List α :=
  if (lookup key (key row) rows).isSome then rows else rows ++ [row]

/-- What is appended of rows whose keys have none yet. -/
theorem foldl_insertNew {start rows : List α}
    (hnew : ∀ old ∈ start, ∀ row ∈ rows, key old ≠ key row) :
    rows.foldl (fun kept row => insertNew key row kept) start = start ++ firsts key rows := by
  induction rows using List.reverseRecOn with
  | nil => exact (List.append_nil start).symm
  | append_singleton rows row ih =>
      have hearlier := ih fun old hold other hother =>
        hnew old hold other (List.mem_append_left _ hother)
      have hstart : lookup key (key row) start = none :=
        lookup_eq_none_iff.mpr fun old hold =>
          hnew old hold row (List.mem_append_right _ (List.mem_singleton_self row))
      have happend : lookup key (key row) (start ++ firsts key rows) =
          lookup key (key row) (firsts key rows) := by
        rw [lookup_append, hstart, Option.none_or]
      rw [List.foldl_append, List.foldl_cons, List.foldl_nil, hearlier, insertNew, happend,
        firsts_concat]
      split
      · rfl
      · rw [List.append_assoc]

theorem lookup_insertNew (k : κ) (row : α) (rows : List α) :
    lookup key k (insertNew key row rows) = (lookup key k rows).or (lookup key k [row]) := by
  unfold insertNew
  split
  next hpresent =>
    by_cases hkey : key row = k
    · subst hkey
      rw [Option.or_of_isSome hpresent]
    · rw [lookup_cons_of_ne key hkey, lookup_nil, Option.or_none]
  next => exact lookup_append key k rows [row]

/-- The first row of a key stays, and a key without one gets the first that is written. -/
theorem lookup_foldl_insertNew (k : κ) (rows start : List α) :
    lookup key k (rows.foldl (fun kept row => insertNew key row kept) start) =
      (lookup key k start).or (lookup key k rows) := by
  induction rows generalizing start with
  | nil => rw [List.foldl_nil, lookup_nil, Option.or_none]
  | cons row rest ih =>
      rw [List.foldl_cons, ih, lookup_insertNew, Option.or_assoc, ← lookup_append,
        List.singleton_append]

theorem firsts_map {β : Type w} (build : β → α) (rows : List β) :
    firsts key (rows.map build) = (firsts (key ∘ build) rows).map build := by
  induction rows using List.reverseRecOn with
  | nil => rfl
  | append_singleton rows row ih =>
      rw [List.map_append, List.map_singleton, firsts_concat, firsts_concat, ih, lookup_map]
      cases hfound : lookup (key ∘ build) (key (build row)) (firsts (key ∘ build) rows) with
      | none => simp [hfound]
      | some first => simp [hfound]

end Firsts

section Sum

variable {M : Type w} [AddCommMonoid M]

/-- A total over the rows is the row of one key and the total over the others. -/
theorem sum_eq_erase_add {rows : List α} (unique : (rows.map key).Nodup) (k : κ) (f : α → M) :
    (rows.map f).sum = ((erase key k rows).map f).sum + (lookup key k rows).elim 0 f := by
  induction rows with
  | nil => simp [erase]
  | cons row rows ih =>
      rw [List.map_cons, List.nodup_cons] at unique
      by_cases hkey : key row = k
      · have hrest : lookup key k rows = none := lookup_eq_none_iff.mpr
          fun other hother hsame => unique.1
            (List.mem_map.mpr ⟨other, hother, hsame.trans hkey.symm⟩)
        have herase : erase key k (row :: rows) = rows := by
          rw [show erase key k (row :: rows) = erase key k rows by simp [erase, hkey],
            erase_eq_self hrest]
        rw [herase, lookup_cons, if_pos hkey, List.map_cons, List.sum_cons, Option.elim_some,
          add_comm]
      · have herase : erase key k (row :: rows) = row :: erase key k rows := by
          simp [erase, hkey]
        rw [herase, lookup_cons, if_neg hkey, List.map_cons, List.sum_cons, List.map_cons,
          List.sum_cons, ih unique.2, add_assoc]

/-- What replacing the row of a key does to a total. -/
theorem sum_replace {rows written : List α} {row : α} (unique : (rows.map key).Nodup)
    (hperm : written.Perm (row :: erase key (key row) rows)) (f : α → M) :
    (written.map f).sum + (lookup key (key row) rows).elim 0 f = (rows.map f).sum + f row := by
  rw [(hperm.map f).sum_eq, sum_eq_erase_add unique (key row) f, List.map_cons, List.sum_cons,
    add_assoc, add_comm]

end Sum

end KeyedList
