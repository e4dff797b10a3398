/-
# The newest items

A list of the `n` newest of some items, the newest first.  Items that come in parts may be cut to
the newest ones of every part before they are put together, as long as no part is cut to fewer
than `n`: an item is among the `n` newest exactly if fewer than `n` are newer than it.
-/

import Mathlib.Data.List.Nodup
import Mathlib.Data.List.Sort
import Mathlib.Order.Basic

namespace Newest

universe u v w x

variable {α : Type u} {β : Type v} {γ : Type w} {β' : Type x} [LinearOrder β] [LinearOrder β']
  (rank : α → β)

/-- Items in descending order. -/
def descending (items : List α) : List α :=
  items.insertionSort fun first second => rank second ≤ rank first

/-- The `n` newest items, the newest first. -/
def newest (n : ℕ) (items : List α) : List α := (descending rank items).take n

/-- How many items are newer than one. -/
def newer (item : α) (items : List α) : ℕ := items.countP fun other => rank item < rank other

variable {rank} {items others : List α} {item : α} {m n : ℕ}

theorem descending_perm (items : List α) : (descending rank items).Perm items :=
  List.perm_insertionSort _ items

theorem length_newest (n : ℕ) (items : List α) :
    (newest rank n items).length = min n items.length := by
  rw [newest, List.length_take, (descending_perm items).length_eq]

theorem newer_cons (first : α) (rest : List α) :
    newer rank item (first :: rest) =
      newer rank item rest + if rank item < rank first then 1 else 0 := by
  simp [newer, List.countP_cons]

theorem newer_eq_zero (h : ∀ other ∈ items, rank other ≤ rank item) :
    newer rank item items = 0 :=
  List.countP_eq_zero.mpr fun other hother => by simpa using h other hother

theorem newer_append (item : α) (first second : List α) :
    newer rank item (first ++ second) = newer rank item first + newer rank item second :=
  List.countP_append

theorem newer_perm (item : α) (h : items.Perm others) :
    newer rank item items = newer rank item others :=
  h.countP_eq _

theorem mem_of_mem_newest (h : item ∈ newest rank n items) : item ∈ items :=
  (descending_perm items).mem_iff.mp (List.mem_of_mem_take h)

/-- Of ranks that are all different, the order is strict. -/
theorem descending_pairwise (unique : (items.map rank).Nodup) :
    (descending rank items).Pairwise fun first second => rank second < rank first := by
  have hsorted := List.pairwise_insertionSort (fun first second => rank second ≤ rank first) items
  have hunique : ((descending rank items).map rank).Nodup :=
    ((descending_perm items).map rank).nodup_iff.mpr unique
  have hne : (descending rank items).Pairwise fun first second => rank first ≠ rank second :=
    List.pairwise_map.mp hunique
  exact (hsorted.and hne).imp fun h => lt_of_le_of_ne h.1 (Ne.symm h.2)

theorem newest_pairwise (unique : (items.map rank).Nodup) (n : ℕ) :
    (newest rank n items).Pairwise fun first second => rank second < rank first :=
  (descending_pairwise unique).sublist (List.take_sublist n _)

/-- Of items in descending order, those after which fewer than `n` come. -/
theorem mem_take_iff (h : items.Pairwise fun first second => rank second < rank first) (n : ℕ) :
    item ∈ items.take n ↔ item ∈ items ∧ newer rank item items < n := by
  induction items generalizing n with
  | nil => simp
  | cons first rest ih =>
      obtain ⟨hfirst, hrest⟩ := List.pairwise_cons.mp h
      cases n with
      | zero => simp
      | succ n =>
          rw [List.take_succ_cons, List.mem_cons, List.mem_cons, ih hrest, newer_cons]
          constructor
          · rintro (rfl | ⟨hmem, hcount⟩)
            · rw [newer_eq_zero fun later hlater => (hfirst later hlater).le,
                if_neg (lt_irrefl _)]
              exact ⟨.inl rfl, Nat.succ_pos n⟩
            · refine ⟨.inr hmem, ?_⟩
              split
              · omega
              · omega
          · rintro ⟨rfl | hmem, hcount⟩
            · exact .inl rfl
            · rw [if_pos (hfirst item hmem)] at hcount
              exact .inr ⟨hmem, by omega⟩

/-- An item is among the `n` newest exactly if fewer than `n` are newer. -/
theorem mem_newest_iff (unique : (items.map rank).Nodup) (n : ℕ) :
    item ∈ newest rank n items ↔ item ∈ items ∧ newer rank item items < n := by
  rw [newest, mem_take_iff (descending_pairwise unique), (descending_perm items).mem_iff,
    newer_perm item (descending_perm items)]

/-- The newest item, which no other is newer than. -/
theorem head?_newest_one (unique : (items.map rank).Nodup) (hmem : item ∈ items)
    (h : ∀ other ∈ items, rank other ≤ rank item) :
    (newest rank 1 items).head? = some item := by
  have hlength : (newest rank 1 items).length ≤ 1 := by
    rw [length_newest]
    exact Nat.min_le_left 1 _
  have hnewest : item ∈ newest rank 1 items :=
    (mem_newest_iff unique 1).mpr ⟨hmem, by rw [newer_eq_zero h]; exact Nat.one_pos⟩
  match hitems : newest rank 1 items with
  | [] => rw [hitems] at hnewest; cases hnewest
  | [first] =>
      rw [hitems] at hnewest
      rw [List.mem_singleton.mp hnewest]
      rfl
  | first :: second :: rest =>
      rw [hitems, List.length_cons, List.length_cons] at hlength
      omega

/-- Two lists in a strict order that have the same items are the same. -/
theorem eq_of_mem_iff {precedes : α → α → Prop}
    (asymm : ∀ first second, precedes first second → ¬ precedes second first)
    (h : items.Pairwise precedes) (h' : others.Pairwise precedes)
    (hmem : ∀ item, item ∈ items ↔ item ∈ others) : items = others := by
  have hne {first second : α} (hfirst : precedes first second) : first ≠ second := by
    rintro rfl
    exact asymm first first hfirst hfirst
  have hperm : items.Perm others :=
    (List.perm_ext_iff_of_nodup (h.imp hne) (h'.imp hne)).mpr hmem
  refine hperm.eq_of_pairwise (fun first second _ _ hlt hgt => ?_) h h'
  exact absurd hgt (asymm first second hlt)

/-- Ranks that order the items of a list alike choose alike. -/
theorem newest_map (rank : γ → β) (other : α → β') (f : α → γ)
    (alike : ∀ first ∈ items, ∀ second ∈ items,
      other first ≤ other second ↔ rank (f first) ≤ rank (f second)) (n : ℕ) :
    newest rank n (items.map f) = (newest other n items).map f := by
  rw [newest, newest, List.map_take, descending, descending,
    ← List.map_insertionSort _ _ f items fun first hfirst second hsecond =>
      alike second hsecond first hfirst]

/-- What is newer than an item is cut with the others only if there are many of them. -/
theorem newer_newest (unique : (items.map rank).Nodup) (m : ℕ) (item : α) :
    newer rank item (newest rank m items) = min m (newer rank item items) := by
  have hsorted := descending_pairwise unique
  have hperm : (descending rank items).Perm items := descending_perm items
  rw [← newer_perm item hperm, newest]
  clear hperm
  generalize descending rank items = sorted at hsorted
  induction sorted generalizing m with
  | nil => simp [newer]
  | cons first rest ih =>
      obtain ⟨hfirst, hrest⟩ := List.pairwise_cons.mp hsorted
      cases m with
      | zero => simp [newer]
      | succ m =>
          have hcut := ih m hrest
          rw [List.take_succ_cons, newer_cons, newer_cons, hcut]
          by_cases hless : rank item < rank first
          · rw [if_pos hless]
            omega
          · have hzero : newer rank item rest = 0 :=
              newer_eq_zero fun later hlater =>
                (hfirst later hlater).le.trans (not_lt.mp hless)
            rw [if_neg hless, hzero]
            omega

/-- The `n` newest items of two parts are the `n` newest of their `m` newest. -/
theorem newest_append (unique : ((items ++ others).map rank).Nodup) (hcut : n ≤ m) :
    newest rank n (newest rank m items ++ newest rank m others) =
      newest rank n (items ++ others) := by
  have hparts := unique
  rw [List.map_append] at hparts
  obtain ⟨hitems, hothers, hapart⟩ := List.nodup_append.mp hparts
  have hunique : ((newest rank m items ++ newest rank m others).map rank).Nodup := by
    rw [List.map_append]
    refine List.nodup_append.mpr ⟨?_, ?_, ?_⟩
    · exact List.pairwise_map.mpr ((newest_pairwise hitems m).imp fun h => h.ne')
    · exact List.pairwise_map.mpr ((newest_pairwise hothers m).imp fun h => h.ne')
    · intro value hvalue other hother
      obtain ⟨first, hfirst, rfl⟩ := List.mem_map.mp hvalue
      obtain ⟨second, hsecond, rfl⟩ := List.mem_map.mp hother
      exact hapart _ (List.mem_map_of_mem (mem_of_mem_newest hfirst)) _
        (List.mem_map_of_mem (mem_of_mem_newest hsecond))
  refine eq_of_mem_iff (fun _ _ h => lt_asymm h) (newest_pairwise hunique n)
    (newest_pairwise unique n) fun item => ?_
  rw [mem_newest_iff hunique, mem_newest_iff unique, List.mem_append, List.mem_append,
    mem_newest_iff hitems, mem_newest_iff hothers, newer_append, newer_append,
    newer_newest hitems, newer_newest hothers]
  constructor
  · rintro ⟨⟨hmem, -⟩ | ⟨hmem, -⟩, hcount⟩
    · exact ⟨.inl hmem, by omega⟩
    · exact ⟨.inr hmem, by omega⟩
  · rintro ⟨hmem | hmem, hcount⟩
    · exact ⟨.inl ⟨hmem, by omega⟩, by omega⟩
    · exact ⟨.inr ⟨hmem, by omega⟩, by omega⟩

end Newest
