/-
# Logs of changes

Every change of a target is logged with the state before it and the state after it.  While each
entry is made of the state that it meets, the entries of a target link up, and its state is the one
that the latest of them says.
-/

import Mathlib.Data.List.Chain

namespace AuditLog

universe u v w

variable {ε : Type u} {τ : Type v} {φ : Type w} [DecidableEq τ] (target : ε → τ)
  (before after : ε → φ)

/-- The entries on a target. -/
def entriesOn (log : List ε) (place : τ) : List ε := log.filter fun entry => target entry = place

/-- The state of a target that a log leads to. -/
def latest (initial : τ → φ) (log : List ε) (place : τ) : φ :=
  (entriesOn target log place).getLast?.elim (initial place) after

/-- The states are those that the log leads to, and its entries link up. -/
structure Faithful (initial current : τ → φ) (log : List ε) : Prop where
  current_eq : ∀ place, current place = latest target after initial log place
  linked : ∀ place, (entriesOn target log place).IsChain fun earlier later =>
    before later = after earlier

variable {target before after} {initial current next : τ → φ} {log : List ε} {entry : ε}

theorem entriesOn_concat (place : τ) :
    entriesOn target (log ++ [entry]) place =
      if target entry = place then entriesOn target log place ++ [entry]
      else entriesOn target log place := by
  unfold entriesOn
  rw [List.filter_append]
  by_cases hplace : target entry = place
  · rw [if_pos hplace, List.filter_cons_of_pos (by simpa using hplace), List.filter_nil]
  · rw [if_neg hplace, List.filter_cons_of_neg (by simpa using hplace), List.filter_nil,
      List.append_nil]

theorem faithful_nil : Faithful target before after initial initial [] where
  current_eq _ := rfl
  linked _ := List.isChain_nil

/-- An entry of the state that it meets and the state that it leaves. -/
theorem Faithful.concat (h : Faithful target before after initial current log)
    (hbefore : before entry = current (target entry))
    (hafter : next (target entry) = after entry)
    (hothers : ∀ place, place ≠ target entry → next place = current place) :
    Faithful target before after initial next (log ++ [entry]) where
  current_eq place := by
    unfold latest
    rw [entriesOn_concat]
    by_cases hplace : target entry = place
    · rw [if_pos hplace, List.getLast?_concat, Option.elim_some, ← hplace, hafter]
    · rw [if_neg hplace, hothers place (Ne.symm hplace)]
      exact h.current_eq place
  linked place := by
    rw [entriesOn_concat]
    by_cases hplace : target entry = place
    · rw [if_pos hplace, List.isChain_append]
      refine ⟨h.linked place, List.isChain_singleton entry, ?_⟩
      intro earlier hearlier later hlater
      have hsame : entry = later := by simpa using hlater
      rw [← hsame, hbefore, hplace, h.current_eq place, latest, Option.mem_def.mp hearlier,
        Option.elim_some]
    · rw [if_neg hplace]
      exact h.linked place

end AuditLog
