/-
# Totals by key

A dictionary that amounts are added up in, each under its key: what a loop makes that reads the
total of a key, zero if there is none, and writes it back with an amount added.  The amounts are
those of any commutative monoid, so a total may also be one that an unknown amount makes unknown.
-/

import VTrade.Lib.KeyedList

universe u v

namespace Tally

variable {κ : Type u} [DecidableEq κ] {M : Type v} [AddCommMonoid M]

/-- The total of a key. -/
def get (totals : List (κ × M)) (k : κ) : M :=
  (KeyedList.lookup Prod.fst k totals).elim 0 Prod.snd

/-- Add an amount under its key. -/
def add (totals : List (κ × M)) (row : κ × M) : List (κ × M) :=
  KeyedList.upsert Prod.fst (row.1, get totals row.1 + row.2) totals

/-- Add up amounts by key. -/
def ofRows (rows : List (κ × M)) : List (κ × M) := rows.foldl add []

variable {totals rows : List (κ × M)} {row : κ × M} {k : κ}

theorem lookup_add (totals : List (κ × M)) (row : κ × M) (k : κ) :
    KeyedList.lookup Prod.fst k (add totals row) =
      if row.1 = k then some (k, get totals k + row.2)
      else KeyedList.lookup Prod.fst k totals := by
  obtain ⟨first, amount⟩ := row
  generalize hwritten : (first, get totals first + amount) = written
  have hadd : add totals (first, amount) = KeyedList.upsert Prod.fst written totals := by
    rw [← hwritten]
    rfl
  have hfirst : written.1 = first := by rw [← hwritten]
  rw [hadd]
  by_cases hk : first = k
  · subst hk
    rw [if_pos rfl, hwritten]
    nth_rewrite 1 [← hfirst]
    exact KeyedList.lookup_upsert_self written totals
  · rw [if_neg hk]
    exact KeyedList.lookup_upsert_of_ne (by rw [hfirst]; exact Ne.symm hk) totals

theorem get_add (totals : List (κ × M)) (row : κ × M) (k : κ) :
    get (add totals row) k = get totals k + if row.1 = k then row.2 else 0 := by
  rw [get, lookup_add]
  split
  · rfl
  · exact (add_zero _).symm

theorem nodup_add (unique : (totals.map Prod.fst).Nodup) (row : κ × M) :
    ((add totals row).map Prod.fst).Nodup :=
  KeyedList.nodup_upsert unique _

omit [AddCommMonoid M] in
theorem mem_keys_iff :
    k ∈ totals.map Prod.fst ↔ (KeyedList.lookup Prod.fst k totals).isSome = true := by
  rw [KeyedList.isSome_lookup_iff, List.mem_map]

theorem mem_keys_add (totals : List (κ × M)) (row : κ × M) (k : κ) :
    k ∈ (add totals row).map Prod.fst ↔ k ∈ totals.map Prod.fst ∨ row.1 = k := by
  rw [mem_keys_iff, mem_keys_iff, lookup_add]
  split
  next hk => exact iff_of_true rfl (.inr hk)
  next hk => exact ⟨.inl, fun h => h.resolve_right hk⟩

theorem sum_add (totals : List (κ × M)) (row : κ × M) :
    ((add totals row).map Prod.snd).sum = (totals.map Prod.snd).sum + row.2 := by
  obtain ⟨k, amount⟩ := row
  induction totals with
  | nil => simp [add, get, KeyedList.upsert_nil]
  | cons first rest ih =>
      rw [add, KeyedList.upsert_cons]
      by_cases hfirst : first.1 = k
      · have hget : get (first :: rest) k = first.2 := by
          rw [get, KeyedList.lookup_cons, if_pos hfirst]
          rfl
        rw [if_pos hfirst, List.map_cons, List.sum_cons, List.map_cons, List.sum_cons, hget,
          add_right_comm]
      · have hget : get (first :: rest) k = get rest k := by
          rw [get, KeyedList.lookup_cons, if_neg hfirst]
          rfl
        rw [if_neg hfirst, List.map_cons, List.sum_cons, List.map_cons, List.sum_cons, hget,
          add_assoc, ← ih]
        rfl

/-- What adding up rows makes of totals. -/
structure Adds (rows totals after : List (κ × M)) : Prop where
  unique : (after.map Prod.fst).Nodup
  keys : ∀ k, k ∈ after.map Prod.fst ↔ k ∈ totals.map Prod.fst ∨ k ∈ rows.map Prod.fst
  total : ∀ k, get after k = get totals k + ((rows.filter fun row => row.1 = k).map Prod.snd).sum
  sum : (after.map Prod.snd).sum = (totals.map Prod.snd).sum + (rows.map Prod.snd).sum

theorem adds_foldl (rows totals : List (κ × M)) (unique : (totals.map Prod.fst).Nodup) :
    Adds rows totals (rows.foldl add totals) := by
  induction rows generalizing totals with
  | nil =>
      refine ⟨unique, fun k => by simp, fun k => ?_, ?_⟩
      · exact (add_zero _).symm
      · exact (add_zero _).symm
  | cons row rest ih =>
      obtain ⟨hunique, hkeys, htotal, hsum⟩ := ih _ (nodup_add unique row)
      refine ⟨hunique, fun k => ?_, fun k => ?_, ?_⟩
      · rw [List.foldl_cons, hkeys, mem_keys_add, List.map_cons, List.mem_cons, or_assoc, eq_comm]
      · rw [List.foldl_cons, htotal, get_add, List.filter_cons]
        by_cases hk : row.1 = k
        · rw [if_pos hk, if_pos (by simpa using hk), List.map_cons, List.sum_cons, add_assoc]
        · rw [if_neg hk, if_neg (by simpa using hk), add_zero]
      · rw [List.foldl_cons, hsum, sum_add, List.map_cons, List.sum_cons, add_assoc]

theorem nodup_ofRows (rows : List (κ × M)) : ((ofRows rows).map Prod.fst).Nodup :=
  (adds_foldl rows [] List.nodup_nil).unique

theorem mem_keys_ofRows (rows : List (κ × M)) (k : κ) :
    k ∈ (ofRows rows).map Prod.fst ↔ k ∈ rows.map Prod.fst := by
  rw [ofRows, (adds_foldl rows [] List.nodup_nil).keys]
  exact or_iff_right (List.not_mem_nil)

theorem get_ofRows (rows : List (κ × M)) (k : κ) :
    get (ofRows rows) k = ((rows.filter fun row => row.1 = k).map Prod.snd).sum := by
  rw [ofRows, (adds_foldl rows [] List.nodup_nil).total]
  exact zero_add _

theorem sum_ofRows (rows : List (κ × M)) :
    ((ofRows rows).map Prod.snd).sum = (rows.map Prod.snd).sum := by
  rw [ofRows, (adds_foldl rows [] List.nodup_nil).sum]
  exact zero_add _

/-- The rows of a dictionary of totals. -/
theorem mem_ofRows {rows : List (κ × M)} {row : κ × M} :
    row ∈ ofRows rows ↔ row.1 ∈ rows.map Prod.fst ∧
      row.2 = ((rows.filter fun other => other.1 = row.1).map Prod.snd).sum := by
  rw [← mem_keys_ofRows, ← get_ofRows, mem_keys_iff, get]
  constructor
  · intro h
    have hlookup := (KeyedList.lookup_eq_some_iff (nodup_ofRows rows)).mpr ⟨h, rfl⟩
    exact ⟨by rw [hlookup]; rfl, by rw [hlookup]; rfl⟩
  · rintro ⟨hkey, hvalue⟩
    obtain ⟨found, hfound⟩ := Option.isSome_iff_exists.mp hkey
    obtain ⟨hmem, hk⟩ := (KeyedList.lookup_eq_some_iff (nodup_ofRows rows)).mp hfound
    rw [hfound] at hvalue
    have heq : row = found := Prod.ext hk.symm hvalue
    rw [heq]
    exact hmem

end Tally
