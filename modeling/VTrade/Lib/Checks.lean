/-
# Ordered validation checks and fallible folds

A value type that validates itself lists its checks in order and raises the
error of the first one that is violated.  `raiseFirst` is that reading of a
list of checks, and a value is well formed exactly when no check is violated.

The second half is about loops that may raise: a fold in `Except` keeps an
invariant that every successful step keeps, and the invariant may speak about
the list of items consumed so far.
-/

import Mathlib.Data.List.Forall2

universe u v

namespace Checks

variable {ε : Type u} {α β : Type v}

/-- Raise the error of the first violated check. -/
def raiseFirst : List (Bool × ε) → Except ε Unit
  | [] => .ok ()
  | (violated, error) :: rest => if violated then .error error else raiseFirst rest

@[simp]
theorem raiseFirst_nil : raiseFirst ([] : List (Bool × ε)) = .ok () := rfl

@[simp]
theorem raiseFirst_cons_eq_ok {violated : Bool} {error : ε} {rest : List (Bool × ε)} :
    raiseFirst ((violated, error) :: rest) = .ok () ↔
      violated = false ∧ raiseFirst rest = .ok () := by
  cases violated <;> simp [raiseFirst]

/-- No check is violated exactly when nothing is raised. -/
theorem raiseFirst_eq_ok_iff {checks : List (Bool × ε)} :
    raiseFirst checks = .ok () ↔ ∀ check ∈ checks, check.1 = false := by
  induction checks with
  | nil => simp
  | cons check rest ih =>
      obtain ⟨violated, error⟩ := check
      simp [ih]

/-- What is raised is the error of one of the violated checks. -/
theorem exists_mem_of_raiseFirst_eq_error {checks : List (Bool × ε)} {error : ε}
    (h : raiseFirst checks = .error error) : (true, error) ∈ checks := by
  induction checks with
  | nil => simp at h
  | cons check rest ih =>
      obtain ⟨violated, first⟩ := check
      cases violated with
      | false => exact List.mem_cons_of_mem _ (ih (by simpa [raiseFirst] using h))
      | true =>
          have hfirst : first = error := by simpa [raiseFirst] using h
          subst hfirst
          exact List.mem_cons_self

/-- Build a value that carries its own well-formedness, or raise what its checks
raise. -/
def build (checks : Except ε Unit) (make : checks = .ok () → α) : Except ε α :=
  match checks, make with
  | .ok (), make => .ok (make rfl)
  | .error error, _ => .error error

theorem build_eq_ok {checks : Except ε Unit} (h : checks = .ok ()) (make : checks = .ok () → α) :
    build checks make = .ok (make h) := by
  subst h
  rfl

/-- What is built is what the well-formedness proof gives. -/
theorem build_eq_ok_iff {checks : Except ε Unit} {make : checks = .ok () → α} {value : α} :
    build checks make = .ok value ↔ ∃ h, make h = value := by
  cases checks with
  | ok _ => exact ⟨fun h => ⟨rfl, by simpa [build] using h⟩, fun ⟨_, h⟩ => by simp [build, h]⟩
  | error error => exact ⟨fun h => by simp [build] at h, fun ⟨h, _⟩ => by simp at h⟩

/-- A value that is its fields and the proof of their checks is built exactly from
its fields. -/
theorem build_fields_eq_ok_iff {γ : Type v} (checks : γ → Except ε Unit)
    (make : (fields : γ) → checks fields = .ok () → α) (toFields : α → γ)
    (fields_make : ∀ fields h, toFields (make fields h) = fields)
    (make_fields : ∀ value, ∃ h, make (toFields value) h = value) {fields : γ} {value : α} :
    build (checks fields) (make fields) = .ok value ↔ toFields value = fields := by
  rw [build_eq_ok_iff]
  constructor
  · rintro ⟨h, rfl⟩
    exact fields_make fields h
  · rintro rfl
    exact make_fields value

theorem build_eq_error_iff {checks : Except ε Unit} {make : checks = .ok () → α} {error : ε} :
    build checks make = .error error ↔ checks = .error error := by
  cases checks <;> simp [build]

/-- A bind returns exactly when both of its parts do. -/
theorem bind_eq_ok {x : Except ε α} {f : α → Except ε β} {b : β} :
    x >>= f = .ok b ↔ ∃ a, x = .ok a ∧ f a = .ok b := by
  cases x with
  | error e => simp [bind, Except.bind]
  | ok a => simp [bind, Except.bind]

/-- A guarded computation returns exactly when its guard lets it and it does. -/
theorem ite_error_eq_ok {condition : Prop} [Decidable condition] {error : ε} {x : Except ε α}
    {a : α} : (if condition then .error error else x) = .ok a ↔ ¬ condition ∧ x = .ok a := by
  by_cases h : condition <;> simp [h]

/-- A bind raises what its first part raises, or its second. -/
theorem bind_eq_error {x : Except ε α} {f : α → Except ε β} {error : ε} :
    x >>= f = .error error ↔ x = .error error ∨ ∃ a, x = .ok a ∧ f a = .error error := by
  cases x with
  | error e => simp [bind, Except.bind]
  | ok a => simp [bind, Except.bind]

/-- A mapped computation returns exactly the image of what it returns. -/
theorem map_eq_ok {x : Except ε α} {f : α → β} {b : β} :
    x.map f = .ok b ↔ ∃ a, x = .ok a ∧ f a = b := by
  cases x with
  | error e => simp [Except.map]
  | ok a => simp [Except.map]

/-- A computation whose result passes a test returns that result. -/
theorem exists_ok_of_any (x : Except ε α) (test : α → Bool) (h : x.toOption.any test = true) :
    ∃ a, x = .ok a ∧ test a = true := by
  cases x with
  | error error => simp [Except.toOption] at h
  | ok a => exact ⟨a, rfl, by simpa [Except.toOption] using h⟩

/-- Whether a computation raises an error. -/
def raises [DecidableEq ε] (x : Except ε α) (error : ε) : Bool :=
  match x with
  | .error other => other = error
  | .ok _ => false

theorem eq_error_of_raises [DecidableEq ε] {x : Except ε α} {error : ε}
    (h : raises x error = true) : x = .error error := by
  cases x with
  | error other => exact congrArg Except.error (of_decide_eq_true h)
  | ok a => cases h

/-- A traversal returns exactly the results of its items, in order. -/
theorem mapM_eq_ok_iff {f : α → Except ε β} {items : List α} {results : List β} :
    items.mapM f = .ok results ↔ List.Forall₂ (fun item result => f item = .ok result) items
      results := by
  induction items generalizing results with
  | nil =>
      rw [List.mapM_nil, List.forall₂_nil_left_iff]
      exact ⟨fun h => (Except.ok.inj h).symm, fun h => congrArg Except.ok h.symm⟩
  | cons item items ih =>
      rw [List.mapM_cons, bind_eq_ok, List.forall₂_cons_left_iff]
      constructor
      · rintro ⟨result, hfirst, hbind⟩
        obtain ⟨rest, hrest, hresults⟩ := bind_eq_ok.mp hbind
        exact ⟨result, rest, hfirst, ih.mp hrest, (Except.ok.inj hresults).symm⟩
      · rintro ⟨result, rest, hfirst, hrest, rfl⟩
        exact ⟨result, hfirst, bind_eq_ok.mpr ⟨rest, ih.mpr hrest, rfl⟩⟩

/-- A result of a traversal is the result of one of its items. -/
theorem exists_of_mapM_eq_ok {f : α → Except ε β} {items : List α} {results : List β} {result : β}
    (h : items.mapM f = .ok results) (hmem : result ∈ results) :
    ∃ item, item ∈ items ∧ f item = .ok result := by
  rw [mapM_eq_ok_iff] at h
  induction h with
  | nil => cases hmem
  | cons hfirst _ ih =>
      rcases List.mem_cons.mp hmem with rfl | hmem
      · exact ⟨_, List.mem_cons_self, hfirst⟩
      · obtain ⟨item, hitem, hresult⟩ := ih hmem
        exact ⟨item, List.mem_cons_of_mem _ hitem, hresult⟩

/-- A traversal returns when every one of its items does. -/
theorem mapM_isOk_iff {f : α → Except ε β} {items : List α} :
    (∃ results, items.mapM f = .ok results) ↔ ∀ item ∈ items, ∃ result, f item = .ok result := by
  simp only [mapM_eq_ok_iff]
  induction items with
  | nil => exact ⟨fun _ => by simp, fun _ => ⟨[], .nil⟩⟩
  | cons item items ih =>
      rw [List.forall_mem_cons, ← ih]
      simp only [List.forall₂_cons_left_iff]
      constructor
      · rintro ⟨_, result, rest, hfirst, hrest, -⟩
        exact ⟨⟨result, hfirst⟩, rest, hrest⟩
      · rintro ⟨⟨result, hfirst⟩, rest, hrest⟩
        exact ⟨result :: rest, result, rest, hfirst, hrest, rfl⟩

/-- Values built one by one have the fields they were built from. -/
theorem mapM_build_eq_ok_iff {γ : Type v} {make : γ → Except ε α} {toFields : α → γ}
    (make_iff : ∀ {fields value}, make fields = .ok value ↔ toFields value = fields)
    {fields : List γ} {values : List α} :
    fields.mapM make = .ok values ↔ values.map toFields = fields := by
  have hmake : (fun fields value => make fields = .ok value) =
      fun fields value => fields = toFields value := by
    funext fields value
    exact propext (make_iff.trans eq_comm)
  rw [mapM_eq_ok_iff, hmake, ← List.forall₂_map_right_iff, List.forall₂_eq_eq_eq, eq_comm]

/-! ## What a computation raises -/

/-- Whatever the computation raises is among `errors`. -/
def RaisesOnly (errors : ε → Prop) (x : Except ε α) : Prop :=
  ∀ error, x = .error error → errors error

section RaisesOnly

variable {errors : ε → Prop}

theorem raisesOnly_ok (a : α) : RaisesOnly errors (.ok a : Except ε α) := by
  intro error h
  cases h

theorem raisesOnly_error {error : ε} (h : errors error) :
    RaisesOnly errors (.error error : Except ε α) := by
  rintro _ ⟨⟩
  exact h

theorem raisesOnly_ite {condition : Prop} [Decidable condition] {x y : Except ε α}
    (hx : RaisesOnly errors x) (hy : RaisesOnly errors y) :
    RaisesOnly errors (if condition then x else y) := by
  split
  · exact hx
  · exact hy

theorem raisesOnly_bind {x : Except ε α} {f : α → Except ε β} (hx : RaisesOnly errors x)
    (hf : ∀ a, x = .ok a → RaisesOnly errors (f a)) : RaisesOnly errors (x >>= f) := by
  cases x with
  | error error => exact raisesOnly_error (hx error rfl)
  | ok a => exact hf a rfl

theorem raisesOnly_raiseFirst {checks : List (Bool × ε)} (h : ∀ check ∈ checks, errors check.2) :
    RaisesOnly errors (raiseFirst checks) :=
  fun error hraised => h (true, error) (exists_mem_of_raiseFirst_eq_error hraised)

theorem raisesOnly_build {checks : Except ε Unit} {make : checks = .ok () → α}
    (h : RaisesOnly errors checks) : RaisesOnly errors (build checks make) :=
  fun error hraised => h error (build_eq_error_iff.mp hraised)

theorem raisesOnly_mapM {f : α → Except ε β} {items : List α}
    (h : ∀ item, RaisesOnly errors (f item)) : RaisesOnly errors (items.mapM f) := by
  induction items with
  | nil => exact raisesOnly_ok []
  | cons item items ih =>
      rw [List.mapM_cons]
      exact raisesOnly_bind (h item) fun result _ =>
        raisesOnly_bind ih fun rest _ => raisesOnly_ok (result :: rest)

theorem raisesOnly_foldlM {step : β → α → Except ε β} {items : List α} {start : β}
    (h : ∀ state item, RaisesOnly errors (step state item)) :
    RaisesOnly errors (items.foldlM step start) := by
  induction items generalizing start with
  | nil => exact raisesOnly_ok start
  | cons item items ih =>
      rw [List.foldlM_cons]
      exact raisesOnly_bind (h start item) fun _ _ => ih

end RaisesOnly

section Fold

variable {σ : Type v} {step : σ → α → Except ε σ}

@[simp]
theorem foldlM_nil_eq_ok {start final : σ} :
    ([] : List α).foldlM step start = .ok final ↔ start = final := by
  simp [List.foldlM, pure, Except.pure]

theorem foldlM_cons_eq_ok {item : α} {items : List α} {start final : σ} :
    (item :: items).foldlM step start = .ok final ↔
      ∃ next, step start item = .ok next ∧ items.foldlM step next = .ok final := by
  rw [List.foldlM_cons, bind_eq_ok]

theorem foldlM_append_eq_ok {first second : List α} {start final : σ} :
    (first ++ second).foldlM step start = .ok final ↔
      ∃ middle, first.foldlM step start = .ok middle ∧
        second.foldlM step middle = .ok final := by
  rw [List.foldlM_append, bind_eq_ok]

/-- A loop that checks each item and writes what the check returns is all of its checks and then
all of its writes. -/
theorem foldlM_check {σ : Type v} (check : α → Except ε β) (write : σ → α → β → σ)
    (items : List α) (start : σ) :
    items.foldlM (fun state item => (check item).map (write state item)) start =
      (items.mapM fun item => (check item).map (Prod.mk item)).map
        (List.foldl (fun state checked => write state checked.1 checked.2) start) := by
  induction items generalizing start with
  | nil => rfl
  | cons item rest ih =>
      rw [List.foldlM_cons, List.mapM_cons]
      cases hcheck : check item with
      | error error => rfl
      | ok result =>
          rw [show (Except.ok result : Except ε β).map (write start item) =
            .ok (write start item result) from rfl]
          refine (ih _).trans ?_
          cases rest.mapM fun item => (check item).map (Prod.mk item) with
          | error error => rfl
          | ok results => rfl

/-- A loop that returns keeps an invariant that its successful steps keep.  The
invariant may mention the items consumed so far. -/
theorem foldlM_invariant (invariant : List α → σ → Prop) (consumed : List α)
    {items : List α} {start final : σ}
    (preserved : ∀ seen state item next, item ∈ items → invariant seen state →
      step state item = .ok next → invariant (seen ++ [item]) next)
    (hrun : items.foldlM step start = .ok final)
    (hstart : invariant consumed start) : invariant (consumed ++ items) final := by
  induction items generalizing consumed start with
  | nil =>
      rw [foldlM_nil_eq_ok] at hrun
      simpa [hrun] using hstart
  | cons item items ih =>
      obtain ⟨next, hstep, hrest⟩ := foldlM_cons_eq_ok.mp hrun
      have hnext := preserved consumed start item next List.mem_cons_self hstart hstep
      have hfinal := ih (consumed ++ [item])
        (fun seen state item' next' hmem => preserved seen state item' next'
          (List.mem_cons_of_mem _ hmem)) hrest hnext
      simpa using hfinal

/-- A loop keeps an invariant to its end, or it raises at an item that fails. -/
theorem foldlM_returns_or_fails (invariant : List α → σ → Prop) (fails : α → Prop)
    {items : List α} {start : σ}
    (each : ∀ seen item rest state, items = seen ++ item :: rest → invariant seen state →
      (∃ next, step state item = .ok next ∧ invariant (seen ++ [item]) next) ∨
        ((∃ error, step state item = .error error) ∧ fails item))
    (hstart : invariant [] start) :
    (∃ final, items.foldlM step start = .ok final ∧ invariant items final) ∨
      ((∃ error, items.foldlM step start = .error error) ∧ ∃ item ∈ items, fails item) := by
  suffices hrest : ∀ rest seen state, items = seen ++ rest → invariant seen state →
      (∃ final, rest.foldlM step state = .ok final ∧ invariant items final) ∨
        ((∃ error, rest.foldlM step state = .error error) ∧ ∃ item ∈ items, fails item) from
    hrest items [] start rfl hstart
  intro rest
  induction rest with
  | nil =>
      intro seen state hitems hstate
      rw [List.append_nil] at hitems
      exact Or.inl ⟨state, foldlM_nil_eq_ok.mpr rfl, by rw [hitems]; exact hstate⟩
  | cons item rest ih =>
      intro seen state hitems hstate
      rcases each seen item rest state hitems hstate with ⟨next, hstep, hnext⟩ | ⟨herror, hfails⟩
      · have hnow := ih (seen ++ [item]) next (by rw [hitems, List.append_assoc]; rfl) hnext
        rw [List.foldlM_cons, hstep]
        exact hnow
      · obtain ⟨error, hstep⟩ := herror
        refine Or.inr ⟨⟨error, by rw [List.foldlM_cons, hstep]; rfl⟩, item, ?_, hfails⟩
        rw [hitems]
        exact List.mem_append_right _ List.mem_cons_self

/-- A condition on every item of a loop and the state it meets. -/
def Along (step : σ → α → Except ε σ) (condition : σ → α → Prop) : σ → List α → Prop
  | _, [] => True
  | state, item :: rest => condition state item ∧
      match step state item with
      | .ok next => Along step condition next rest
      | .error _ => True

instance Along.decidable (condition : σ → α → Prop)
    [decidable : ∀ state item, Decidable (condition state item)] :
    (state : σ) → (items : List α) → Decidable (Along step condition state items)
  | _, [] => isTrue trivial
  | state, item :: rest =>
      @instDecidableAnd _ _ (decidable state item)
        (match step state item with
        | .ok next => Along.decidable condition next rest
        | .error _ => isTrue trivial)

theorem along_cons_of_ok {condition : σ → α → Prop} {state next : σ} {item : α} {rest : List α}
    (h : step state item = .ok next) :
    Along step condition state (item :: rest) ↔
      condition state item ∧ Along step condition next rest := by
  rw [Along, h]

/-- A condition along a loop holds along its first part, and along the rest from
where that leads. -/
theorem along_append_of_ok {condition : σ → α → Prop} {start middle : σ} {first second : List α}
    (h : first.foldlM step start = .ok middle) :
    Along step condition start (first ++ second) ↔
      Along step condition start first ∧ Along step condition middle second := by
  induction first generalizing start with
  | nil =>
      rw [foldlM_nil_eq_ok] at h
      subst h
      exact ⟨fun hsecond => ⟨trivial, hsecond⟩, fun hboth => hboth.2⟩
  | cons item first ih =>
      obtain ⟨next, hstep, hrest⟩ := foldlM_cons_eq_ok.mp h
      rw [List.cons_append, along_cons_of_ok hstep, along_cons_of_ok hstep, ih hrest, and_assoc]

/-- A loop whose items meet a condition keeps an invariant that every step under
the condition keeps. -/
theorem foldlM_invariant_along {condition : σ → α → Prop} (invariant : List α → σ → Prop)
    (consumed : List α) {items : List α} {start final : σ}
    (preserved : ∀ seen state item next, condition state item → invariant seen state →
      step state item = .ok next → invariant (seen ++ [item]) next)
    (halong : Along step condition start items)
    (hrun : items.foldlM step start = .ok final)
    (hstart : invariant consumed start) : invariant (consumed ++ items) final := by
  induction items generalizing consumed start with
  | nil =>
      rw [foldlM_nil_eq_ok] at hrun
      simpa [hrun] using hstart
  | cons item items ih =>
      obtain ⟨next, hstep, hrest⟩ := foldlM_cons_eq_ok.mp hrun
      obtain ⟨hcondition, halong⟩ := (along_cons_of_ok hstep).mp halong
      have hnext := preserved consumed start item next hcondition hstart hstep
      simpa using ih (consumed ++ [item]) halong hrest hnext

end Fold

end Checks
