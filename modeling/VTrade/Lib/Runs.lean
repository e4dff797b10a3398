/-
# Runs of a machine

A machine takes a call in a state, moves to another state and gives an answer; it
always answers, be it with an error.  A run is a list of calls.  What a run keeps
is what each of its calls keeps, and what a run keeps under a condition on its
calls and the states they meet is what each call keeps under it.
-/

import Mathlib.Data.List.Induction

namespace Runs

universe u v w

variable {σ : Type u} {α : Type v} {β : Type w} (step : σ → α → σ × β)

/-- The state that a run leads to. -/
def final (start : σ) (calls : List α) : σ :=
  calls.foldl (fun state call => (step state call).1) start

/-- The calls of a run with their answers. -/
def trace : σ → List α → List (α × β)
  | _, [] => []
  | state, call :: rest => (call, (step state call).2) :: trace (step state call).1 rest

/-- A condition on every call of a run and the state it meets. -/
def Along (condition : σ → α → Prop) : σ → List α → Prop
  | _, [] => True
  | state, call :: rest => condition state call ∧ Along condition (step state call).1 rest

/-- A property of every state of a run, the first and the last included. -/
def Always (property : σ → Prop) : σ → List α → Prop
  | state, [] => property state
  | state, call :: rest => property state ∧ Always property (step state call).1 rest

instance Along.decidable (condition : σ → α → Prop)
    [decidable : ∀ state call, Decidable (condition state call)] :
    (state : σ) → (calls : List α) → Decidable (Along step condition state calls)
  | _, [] => isTrue trivial
  | state, call :: rest =>
      @instDecidableAnd _ _ (decidable state call)
        (Along.decidable condition (step state call).1 rest)

/-- A property of every entry of a history and of the entries before it. -/
def Each {γ : Type u} (property : List γ → γ → Prop) (history : List γ) : Prop :=
  ∀ before entry after, history = before ++ entry :: after → property before entry

@[simp]
theorem each_nil {γ : Type u} {property : List γ → γ → Prop} : Each property [] := by
  intro before entry after h
  simp at h

theorem each_concat {γ : Type u} {property : List γ → γ → Prop} {history : List γ} {entry : γ} :
    Each property (history ++ [entry]) ↔ Each property history ∧ property history entry := by
  constructor
  · intro h
    constructor
    · rintro before earlier after rfl
      exact h before earlier (after ++ [entry]) (by simp)
    · exact h history entry [] rfl
  · rintro ⟨h, hentry⟩ before other after hsplit
    induction after using List.reverseRecOn with
    | nil =>
        obtain ⟨rfl, hlast⟩ := List.append_inj' hsplit rfl
        cases hlast
        exact hentry
    | append_singleton after last _ =>
        rw [← List.cons_append, ← List.append_assoc] at hsplit
        exact h before other after (List.append_inj' hsplit rfl).1

/-- The same of the entries that follow some others. -/
def EachFrom {γ : Type u} (property : List γ → γ → Prop) (seen : List γ) : List γ → Prop
  | [] => True
  | entry :: rest => property seen entry ∧ EachFrom property (seen ++ [entry]) rest

theorem eachFrom_iff {γ : Type u} {property : List γ → γ → Prop} {seen history : List γ} :
    EachFrom property seen history ↔ ∀ before entry after, history = before ++ entry :: after →
      property (seen ++ before) entry := by
  induction history generalizing seen with
  | nil => simp [EachFrom]
  | cons first rest ih =>
      rw [EachFrom, ih]
      constructor
      · rintro ⟨hfirst, hrest⟩ before entry after hsplit
        cases before with
        | nil =>
            obtain ⟨rfl, rfl⟩ := List.cons.inj hsplit
            rw [List.append_nil]
            exact hfirst
        | cons _ before =>
            obtain ⟨rfl, rfl⟩ := List.cons.inj hsplit
            rw [List.append_cons]
            exact hrest before entry after rfl
      · intro h
        constructor
        · simpa using h [] first rest rfl
        · rintro before entry after rfl
          rw [← List.append_cons]
          exact h (first :: before) entry after rfl

theorem each_iff_eachFrom {γ : Type u} {property : List γ → γ → Prop} {history : List γ} :
    Each property history ↔ EachFrom property [] history := by
  rw [eachFrom_iff]
  rfl

instance EachFrom.decidable {γ : Type u} (property : List γ → γ → Prop)
    [decidable : ∀ seen entry, Decidable (property seen entry)] :
    (seen history : List γ) → Decidable (EachFrom property seen history)
  | _, [] => isTrue trivial
  | seen, entry :: rest =>
      @instDecidableAnd _ _ (decidable seen entry)
        (EachFrom.decidable property (seen ++ [entry]) rest)

instance Each.decidable {γ : Type u} (property : List γ → γ → Prop)
    [∀ seen entry, Decidable (property seen entry)] (history : List γ) :
    Decidable (Each property history) :=
  decidable_of_iff' _ each_iff_eachFrom

@[simp]
theorem final_nil (start : σ) : final step start [] = start := rfl

@[simp]
theorem final_cons (start : σ) (call : α) (rest : List α) :
    final step start (call :: rest) = final step (step start call).1 rest := rfl

theorem final_append (start : σ) (first second : List α) :
    final step start (first ++ second) = final step (final step start first) second :=
  List.foldl_append

theorem final_concat (start : σ) (calls : List α) (call : α) :
    final step start (calls ++ [call]) = (step (final step start calls) call).1 := by
  rw [final_append, final_cons, final_nil]

theorem trace_append (start : σ) (first second : List α) :
    trace step start (first ++ second) =
      trace step start first ++ trace step (final step start first) second := by
  induction first generalizing start with
  | nil => rfl
  | cons call rest ih => rw [List.cons_append, trace, ih, trace, final_cons, List.cons_append]

theorem trace_concat (start : σ) (calls : List α) (call : α) :
    trace step start (calls ++ [call]) =
      trace step start calls ++ [(call, (step (final step start calls) call).2)] := by
  rw [trace_append, trace, trace]

@[simp]
theorem trace_map_fst (start : σ) (calls : List α) :
    (trace step start calls).map Prod.fst = calls := by
  induction calls generalizing start with
  | nil => rfl
  | cons call rest ih => rw [trace, List.map_cons, ih]

theorem along_append {condition : σ → α → Prop} (start : σ) (first second : List α) :
    Along step condition start (first ++ second) ↔
      Along step condition start first ∧
        Along step condition (final step start first) second := by
  induction first generalizing start with
  | nil => rw [List.nil_append, Along, final_nil, true_and]
  | cons call rest ih => rw [List.cons_append, Along, ih, Along, and_assoc, final_cons]

/-- An invariant of the calls holds where a run leads.  It may mention the trace so far. -/
theorem final_invariant (invariant : List (α × β) → σ → Prop) {start : σ}
    (hstart : invariant [] start)
    (preserved : ∀ seen state call, invariant seen state →
      invariant (seen ++ [(call, (step state call).2)]) (step state call).1) (calls : List α) :
    invariant (trace step start calls) (final step start calls) := by
  induction calls using List.reverseRecOn with
  | nil => exact hstart
  | append_singleton calls call ih =>
      rw [trace_concat, final_concat]
      exact preserved _ _ _ ih

/-- A property that calls keep under a condition holds where a run leads that meets it. -/
theorem final_of_along {condition : σ → α → Prop} {property : σ → Prop}
    (preserved : ∀ state call, property state → condition state call → property (step state call).1)
    {start : σ} {calls : List α} (hstart : property start) (h : Along step condition start calls) :
    property (final step start calls) := by
  induction calls generalizing start with
  | nil => exact hstart
  | cons call rest ih => exact ih (preserved start call hstart h.1) h.2

/-- A property that a call keeps exactly under a condition holds in every state of
exactly the runs that meet it. -/
theorem always_iff_along {condition : σ → α → Prop} {invariant property : σ → Prop}
    (preserved : ∀ state call, invariant state → invariant (step state call).1)
    (keeps : ∀ state call, invariant state → property state →
      (property (step state call).1 ↔ condition state call))
    {start : σ} (calls : List α) (hstart : invariant start) (hproperty : property start) :
    Always step property start calls ↔ Along step condition start calls := by
  induction calls generalizing start with
  | nil => exact iff_of_true hproperty trivial
  | cons call rest ih =>
      have hkeeps := keeps start call hstart hproperty
      have hnext := preserved start call hstart
      constructor
      · rintro ⟨-, hrest⟩
        have hproperty' : property (step start call).1 := by
          cases rest with
          | nil => exact hrest
          | cons _ _ => exact hrest.1
        exact ⟨hkeeps.mp hproperty', (ih hnext hproperty').mp hrest⟩
      · rintro ⟨hcondition, hrest⟩
        exact ⟨hproperty, (ih hnext (hkeeps.mpr hcondition)).mpr hrest⟩

/-- A condition along a run, call by call. -/
theorem along_iff {condition : σ → α → Prop} {start : σ} {calls : List α} :
    Along step condition start calls ↔
      ∀ before call after, calls = before ++ call :: after →
        condition (final step start before) call := by
  constructor
  · rintro h before call after rfl
    exact ((along_append step start before _).mp h).2.1
  · intro h
    induction calls generalizing start with
    | nil => trivial
    | cons call rest ih =>
        refine ⟨h [] call rest rfl, ih fun before next after hrest => ?_⟩
        exact h (call :: before) next after (by rw [hrest, List.cons_append])

/-- Two conditions that agree while an invariant holds that either of them keeps hold along
the same runs. -/
theorem along_congr {first second : σ → α → Prop} {invariant : σ → Prop}
    (agree : ∀ state call, invariant state → (first state call ↔ second state call))
    (keeps : ∀ state call, invariant state → first state call → invariant (step state call).1)
    {start : σ} (calls : List α) (hstart : invariant start) :
    Along step first start calls ↔ Along step second start calls := by
  induction calls generalizing start with
  | nil => exact Iff.rfl
  | cons call rest ih =>
      rw [Along, Along, ← agree start call hstart]
      apply and_congr_right
      intro hfirst
      exact ih (keeps start call hstart hfirst)

/-- A relation that a call brings about exactly under a condition, and that composes,
holds between any state of a run and any later one exactly when the run meets the
condition. -/
theorem related_iff_along {condition : σ → α → Prop} {relation : σ → σ → Prop}
    (refl : ∀ state, relation state state)
    (trans : ∀ {first second third}, relation first second → relation second third →
      relation first third)
    {invariant : σ → Prop}
    (preserved : ∀ state call, invariant state → invariant (step state call).1)
    (keeps : ∀ state call, invariant state →
      (relation state (step state call).1 ↔ condition state call))
    {start : σ} (calls : List α) (hstart : invariant start) :
    (∀ before during after, calls = before ++ during ++ after →
      relation (final step start before) (final step start (before ++ during))) ↔
      Along step condition start calls := by
  have hreach (before : List α) : invariant (final step start before) :=
    final_invariant step (fun _ state => invariant state) hstart
      (fun _ state call => preserved state call) before
  rw [along_iff]
  constructor
  · rintro h before call after rfl
    have hrelated := h before [call] after (by rw [List.append_assoc, List.singleton_append])
    rw [final_concat] at hrelated
    exact (keeps _ call (hreach before)).mp hrelated
  · rintro h before during after rfl
    induction during using List.reverseRecOn generalizing after with
    | nil => rw [List.append_nil]; exact refl _
    | append_singleton during call ih =>
        have hsplit : before ++ (during ++ [call]) ++ after =
            before ++ during ++ call :: after := by simp
        rw [← List.append_assoc, final_concat]
        refine trans (ih (call :: after) fun first next rest hrest =>
          h first next rest (hsplit.trans hrest)) ?_
        exact (keeps _ call (hreach _)).mpr (h (before ++ during) call after hsplit)

end Runs
