/-
# Bounded selection

Of items that come one after the other, keep the `k` best: while there is room an item is
kept, and after that it replaces the worst one that is kept, if it is better.  In the end
the best of all items are kept, in whatever order they came.
-/

import Mathlib.Data.List.MinMax
import Mathlib.Data.List.Sort

namespace Selection

universe u v

open scoped List

variable {α : Type u} {β : Type v} [LinearOrder β]

/-- Look at one more item. -/
def keep (rank : α → β) (k : ℕ) (kept : List α) (item : α) : List α :=
  if kept.length < k then kept ++ [item]
  else
    match kept.argmax rank with
    | none => kept
    | some worst =>
        if rank item < rank worst then
          (kept.eraseP fun other => decide (rank other = rank worst)) ++ [item]
        else kept

/-- The chosen items are as many as there can be, and none of the rest is better. -/
structure Splits (rank : α → β) (k : ℕ) (chosen rest all : List α) : Prop where
  perm : (chosen ++ rest).Perm all
  length_eq : chosen.length = min k all.length
  le : ∀ item ∈ chosen, ∀ other ∈ rest, rank item ≤ rank other

/-- The `k` best of some items, or all of them. -/
def Best (rank : α → β) (k : ℕ) (chosen all : List α) : Prop :=
  ∃ rest, Splits rank k chosen rest all

section Keep

variable {rank : α → β} {k : ℕ} {chosen rest all kept : List α}

theorem best_nil : Best rank k [] ([] : List α) :=
  ⟨[], .nil, by simp, fun _ hmem => by cases hmem⟩

/-- While there is room, nothing has been left out. -/
theorem Splits.rest_eq_nil (h : Splits rank k chosen rest all) (hroom : chosen.length < k) :
    rest = [] := by
  have htotal := h.perm.length_eq
  rw [List.length_append] at htotal
  have hlength := h.length_eq
  apply List.eq_nil_of_length_eq_zero
  omega

theorem Splits.append_of_room (h : Splits rank k kept rest all) (hroom : kept.length < k)
    (item : α) : Splits rank k (kept ++ [item]) [] (all ++ [item]) := by
  have hrest := h.rest_eq_nil hroom
  subst hrest
  have hperm := h.perm
  rw [List.append_nil] at hperm
  refine ⟨?_, ?_, fun _ _ _ hmem => by cases hmem⟩
  · rw [List.append_nil]
    exact hperm.append_right [item]
  · rw [List.length_append, List.length_append, List.length_singleton, ← hperm.length_eq]
    omega

/-- An item that is not better than the worst one is left out. -/
theorem Splits.leave (h : Splits rank k kept rest all) (hfull : ¬ kept.length < k) {item : α}
    (hworse : ∀ other ∈ kept, rank other ≤ rank item) :
    Splits rank k kept (item :: rest) (all ++ [item]) := by
  refine ⟨?_, ?_, ?_⟩
  · calc kept ++ item :: rest
      _ ~ item :: (kept ++ rest) := List.perm_middle
      _ ~ item :: all := h.perm.cons item
      _ ~ all ++ [item] := List.perm_append_singleton item all |>.symm
  · have hlength := h.length_eq
    rw [List.length_append, List.length_singleton]
    omega
  · intro other hkept left hleft
    rcases List.mem_cons.mp hleft with rfl | hleft
    · exact hworse other hkept
    · exact h.le other hkept left hleft

/-- An item that is better than the worst one takes its place. -/
theorem Splits.replace (h : Splits rank k kept rest all) (hfull : ¬ kept.length < k)
    {item worst : α} {others : List α} (hkept : kept.Perm (worst :: others))
    (hworst : ∀ other ∈ kept, rank other ≤ rank worst) (hbetter : rank item < rank worst) :
    Splits rank k (others ++ [item]) (worst :: rest) (all ++ [item]) := by
  have hothers : ∀ other ∈ others, other ∈ kept := fun other hmem =>
    hkept.mem_iff.mpr (List.mem_cons_of_mem worst hmem)
  have hmem : worst ∈ kept := hkept.mem_iff.mpr List.mem_cons_self
  refine ⟨?_, ?_, ?_⟩
  · calc others ++ [item] ++ worst :: rest
      _ ~ worst :: (others ++ [item] ++ rest) := List.perm_middle
      _ = worst :: (others ++ item :: rest) := by simp
      _ ~ worst :: item :: (others ++ rest) := List.perm_middle.cons worst
      _ ~ item :: worst :: (others ++ rest) := .swap _ _ _
      _ ~ item :: (kept ++ rest) := ((hkept.append_right rest).symm).cons item
      _ ~ item :: all := h.perm.cons item
      _ ~ all ++ [item] := List.perm_append_singleton item all |>.symm
  · have hlength := h.length_eq
    have hsame := hkept.length_eq
    rw [List.length_cons] at hsame
    rw [List.length_append, List.length_append, List.length_singleton]
    omega
  · intro chosen hchosen left hleft
    have hle : rank chosen ≤ rank worst := by
      rcases List.mem_append.mp hchosen with hchosen | hchosen
      · exact hworst chosen (hothers chosen hchosen)
      · obtain rfl := List.mem_singleton.mp hchosen
        exact hbetter.le
    rcases List.mem_cons.mp hleft with rfl | hleft
    · exact hle
    · exact hle.trans (h.le worst hmem left hleft)

theorem best_keep (h : Best rank k kept all) (item : α) :
    Best rank k (keep rank k kept item) (all ++ [item]) := by
  obtain ⟨rest, h⟩ := h
  unfold keep
  by_cases hroom : kept.length < k
  · rw [if_pos hroom]
    exact ⟨[], h.append_of_room hroom item⟩
  rw [if_neg hroom]
  cases hworst : kept.argmax rank with
  | none =>
      have hnil := List.argmax_eq_none.mp hworst
      subst hnil
      exact ⟨item :: rest, h.leave hroom fun _ hmem => by cases hmem⟩
  | some worst =>
      have hle : ∀ other ∈ kept, rank other ≤ rank worst := fun other hmem =>
        List.le_of_mem_argmax hmem hworst
      dsimp only
      by_cases hbetter : rank item < rank worst
      · rw [if_pos hbetter]
        obtain ⟨first, before, after, -, hsame, hsplit, herase⟩ :=
          @List.exists_of_eraseP _ (fun other => decide (rank other = rank worst)) kept worst
            (List.argmax_mem hworst) (decide_eq_true rfl)
        have hrank : rank first = rank worst := of_decide_eq_true hsame
        refine ⟨first :: rest, h.replace hroom ?_ ?_ ?_⟩
        · rw [herase, hsplit]
          exact List.perm_middle
        · rw [hrank]
          exact hle
        · rw [hrank]
          exact hbetter
      · rw [if_neg hbetter]
        refine ⟨item :: rest, h.leave hroom fun other hmem => ?_⟩
        exact (hle other hmem).trans (not_lt.mp hbetter)

end Keep

section Ranks

variable {rank : α → β} {k : ℕ} {chosen all : List α}

theorem Best.subperm (h : Best rank k chosen all) : chosen.Subperm all := by
  obtain ⟨rest, h⟩ := h
  exact (List.sublist_append_left chosen rest).subperm.trans h.perm.subperm

theorem Best.perm {others : List α} (h : Best rank k chosen all) (hperm : chosen.Perm others) :
    Best rank k others all := by
  obtain ⟨rest, h⟩ := h
  refine ⟨rest, (hperm.symm.append_right rest).trans h.perm, ?_, fun item hmem => ?_⟩
  · rw [← hperm.length_eq]
    exact h.length_eq
  · exact h.le item (hperm.mem_iff.mpr hmem)

/-- Selecting by what an item is seen as. -/
theorem Best.map {γ : Type v} (view : α → γ) {rank : γ → β}
    (h : Best (fun item => rank (view item)) k chosen all) :
    Best rank k (chosen.map view) (all.map view) := by
  obtain ⟨rest, h⟩ := h
  refine ⟨rest.map view, ?_, ?_, fun item hitem other hother => ?_⟩
  · rw [← List.map_append]
    exact h.perm.map view
  · rw [List.length_map, List.length_map]
    exact h.length_eq
  · obtain ⟨chosen', hchosen, rfl⟩ := List.mem_map.mp hitem
    obtain ⟨left, hleft, rfl⟩ := List.mem_map.mp hother
    exact h.le chosen' hchosen left hleft

/-- The ranks of the best are the first of all ranks in order. -/
theorem Best.ranks_eq (h : Best rank k chosen all) :
    (chosen.map rank).insertionSort (· ≤ ·) =
      ((all.map rank).insertionSort (· ≤ ·)).take k := by
  obtain ⟨rest, h⟩ := h
  have hperm : ((chosen.map rank).insertionSort (· ≤ ·) ++
      (rest.map rank).insertionSort (· ≤ ·)).Perm ((all.map rank).insertionSort (· ≤ ·)) := by
    refine ((List.perm_insertionSort _ _).append (List.perm_insertionSort _ _)).trans ?_
    rw [← List.map_append]
    exact (h.perm.map rank).trans (List.perm_insertionSort _ _).symm
  have hsorted : List.Pairwise (· ≤ ·) ((chosen.map rank).insertionSort (· ≤ ·) ++
      (rest.map rank).insertionSort (· ≤ ·)) := by
    rw [List.pairwise_append]
    refine ⟨List.pairwise_insertionSort _ _, List.pairwise_insertionSort _ _, ?_⟩
    intro first hfirst second hsecond
    obtain ⟨item, hitem, rfl⟩ := List.mem_map.mp ((List.mem_insertionSort _).mp hfirst)
    obtain ⟨other, hother, rfl⟩ := List.mem_map.mp ((List.mem_insertionSort _).mp hsecond)
    exact h.le item hitem other hother
  have heq := hperm.eq_of_pairwise' hsorted (List.pairwise_insertionSort _ _)
  rw [← heq]
  have hlength : ((chosen.map rank).insertionSort (· ≤ ·)).length = min k all.length := by
    rw [List.length_insertionSort, List.length_map, h.length_eq]
  have htotal := h.perm.length_eq
  rw [List.length_append] at htotal
  by_cases hk : k ≤ all.length
  · rw [min_eq_left hk] at hlength
    rw [List.take_left' hlength]
  · have hrest : rest = [] := by
      apply List.eq_nil_of_length_eq_zero
      have := h.length_eq
      omega
    subst hrest
    rw [List.map_nil, List.insertionSort_nil, List.append_nil, List.take_of_length_le]
    rw [hlength]
    omega

/-- Two selections of the best from the same items have the same ranks. -/
theorem Best.ranks_unique {others alls : List α} (h : Best rank k chosen all)
    (h' : Best rank k others alls) (hperm : all.Perm alls)
    (hsorted : (chosen.map rank).Pairwise (· ≤ ·))
    (hsorted' : (others.map rank).Pairwise (· ≤ ·)) : chosen.map rank = others.map rank := by
  have hall : (all.map rank).insertionSort (· ≤ ·) = (alls.map rank).insertionSort (· ≤ ·) := by
    refine List.Perm.eq_of_pairwise' (List.pairwise_insertionSort _ _)
      (List.pairwise_insertionSort _ _) ?_
    exact ((List.perm_insertionSort _ _).trans (hperm.map rank)).trans
      (List.perm_insertionSort _ _).symm
  rw [← hsorted.insertionSort_eq, h.ranks_eq, hall, ← h'.ranks_eq, hsorted'.insertionSort_eq]

end Ranks

end Selection
