/-
# Exa's monthly quota

A search reserves one request and ten credits before it is made, and is recorded with the credits
it has used.  The quota of a month caps what is recorded and what is pending together, in requests
and in credits.  The credits of a month are stored in hundredths: a sum is rounded, but never past
a cap of whole hundredths.

While every search reports at most the credits that it has reserved, and no cost, both sums stay
within the quota.  That a halted month stays halted does not depend on what is reported.
-/

import VTrade.BudgetMonths

namespace VTrade

/-! ## Hundredths -/

/-- A value of two decimals. -/
def IsHundredths (value : ℚ) : Prop := ∃ hundredths : ℤ, value = hundredths / 100

theorem isHundredths_toNumeric (value : ℚ) : IsHundredths (toNumeric value) := ⟨_, rfl⟩

theorem isHundredths_zero : IsHundredths 0 := ⟨0, by simp⟩

theorem IsHundredths.add {first second : ℚ} (h : IsHundredths first) (h' : IsHundredths second) :
    IsHundredths (first + second) := by
  obtain ⟨n, rfl⟩ := h
  obtain ⟨m, rfl⟩ := h'
  exact ⟨n + m, by push_cast; ring⟩

/-- Rounding to hundredths does not pass a bound of whole hundredths. -/
theorem toNumeric_le {value bound : ℚ} (hbound : IsHundredths bound) (h : value ≤ bound) :
    toNumeric value ≤ bound := by
  obtain ⟨n, rfl⟩ := hbound
  have hfloor : ⌊value * 100 + 1 / 2⌋ ≤ n := by
    rw [← Int.lt_add_one_iff, Int.floor_lt]
    push_cast
    linarith
  unfold toNumeric
  have hcast : (⌊value * 100 + 1 / 2⌋ : ℚ) ≤ n := Int.cast_le.mpr hfloor
  linarith

/-! ## What a month has used -/

namespace BudgetTables

variable (tables : BudgetTables)

theorem isHundredths_exaMaxCredits : IsHundredths exaMaxCreditsPerSearch :=
  ⟨1000, by norm_num [exaMaxCreditsPerSearch]⟩

/-- The requests and the credits that are recorded in a month. -/
def exaRecorded (month : Month) : ℤ × ℚ :=
  (tables.quota? month).elim 0 fun quota => (quota.requestCount, quota.creditCount)

/-- What is recorded and what is pending in a month stay within its quota. -/
structure WithinExaQuota (month : Month) : Prop where
  requests : (tables.exaRecorded month).1 + (tables.pendingExa month).1 ≤ 18000
  credits : (tables.exaRecorded month).2 + (tables.pendingExa month).2 ≤ 18000

/-- No search is made in the month any more. -/
def ExaHalted (month : Month) : Prop :=
  ∃ quota, tables.quota? month = some quota ∧ quota.halted = true

/-- What a reservation adds to what is pending in a month. -/
def pendingSearch (month : Month) (row : ExaQuotaReservation) : ℤ × ℚ :=
  if row.monthStart = month ∧ row.status = .reserved then
    (row.reservedRequestCount, row.reservedCreditCount)
  else 0

variable {tables} {month : Month} {reservation : BudgetReservation} {after : BudgetTables}

theorem pendingExa_eq_sum :
    tables.pendingExa month = (tables.exaReservations.map (pendingSearch month)).sum := by
  unfold pendingExa
  induction tables.exaReservations with
  | nil => rfl
  | cons row rest ih =>
      rw [List.map_cons, List.sum_cons, ← ih]
      by_cases h : row.monthStart = month ∧ row.status = .reserved
      · rw [List.filter_cons_of_pos (by simp [h.1, h.2]), pendingSearch, if_pos h]
        simp
      · rw [List.filter_cons_of_neg (by simpa using fun hmonth hstatus => h ⟨hmonth, hstatus⟩),
          pendingSearch, if_neg h, zero_add]

theorem pendingExa_congr (h : after.exaReservations = tables.exaReservations) (month : Month) :
    after.pendingExa month = tables.pendingExa month := by
  rw [pendingExa_eq_sum, pendingExa_eq_sum, h]

theorem exaRecorded_congr (h : after.exaQuotas = tables.exaQuotas) (month : Month) :
    after.exaRecorded month = tables.exaRecorded month := by
  unfold exaRecorded
  rw [quota?_of_exaQuotas h]

theorem exaRecorded_eq {quota : MonthlyExaQuota} (h : tables.quota? month = some quota) :
    tables.exaRecorded month = (quota.requestCount, quota.creditCount) := by
  unfold exaRecorded
  rw [h, Option.elim_some]

/-- What writing a row does to what is pending. -/
theorem pendingExa_replaced
    (unique : (tables.exaReservations.map ExaQuotaReservation.id).Nodup)
    (row : ExaQuotaReservation)
    (h : after.exaReservations = KeyedList.upsert ExaQuotaReservation.id row tables.exaReservations)
    (month : Month) :
    after.pendingExa month +
      (KeyedList.lookup ExaQuotaReservation.id row.id tables.exaReservations).elim 0
        (pendingSearch month) = tables.pendingExa month + pendingSearch month row := by
  rw [pendingExa_eq_sum, pendingExa_eq_sum, h]
  exact KeyedList.sum_replace unique (KeyedList.upsert_perm unique row) (pendingSearch month)

/-! ## The two transactions -/

theorem ensureExaQuotaRow_of_some {quota : MonthlyExaQuota} (h : tables.quota? month = some quota) :
    tables.ensureExaQuotaRow month = tables := by
  unfold ensureExaQuotaRow
  rw [h]

/-- The row of a month that has none records nothing. -/
theorem exaRecorded_ensured (tables : BudgetTables) (month other : Month) :
    (tables.ensureExaQuotaRow month).exaRecorded other = tables.exaRecorded other := by
  cases hquota : tables.quota? month with
  | some quota => rw [ensureExaQuotaRow_of_some hquota]
  | none =>
      unfold ensureExaQuotaRow exaRecorded
      rw [hquota]
      dsimp only
      rw [quota?_setQuota]
      split
      next h => rw [h, hquota]; rfl
      next => rfl

/-- What a search that is granted leaves room for. -/
theorem reserveExa_within (h : tables.reserveExa reservation month = .ok after) :
    (tables.exaRecorded month).1 + (tables.pendingExa month).1 + 1 ≤ 18000 ∧
      (tables.exaRecorded month).2 + (tables.pendingExa month).2 + exaMaxCreditsPerSearch ≤ 18000 ∧
      (∀ other, after.exaRecorded other = tables.exaRecorded other) ∧
      ∀ other quota, tables.quota? other = some quota → after.quota? other = some quota := by
  have hrecorded := exaRecorded_ensured tables month
  obtain ⟨-, hothers, hexa, -, -⟩ := ensureExaQuotaRow_spec tables month
  unfold reserveExa at h
  obtain ⟨-, h⟩ := Checks.ite_error_eq_ok.mp h
  dsimp only at h
  split at h
  · cases h
  next row hrow =>
    obtain ⟨-, h⟩ := Checks.ite_error_eq_ok.mp h
    obtain ⟨hcaps, h⟩ := Checks.ite_error_eq_ok.mp h
    obtain ⟨-, -, h⟩ := Checks.bind_eq_ok.mp h
    obtain ⟨-, hcaps⟩ := not_or.mp hcaps
    obtain ⟨hrequests, hcredits⟩ := not_or.mp hcaps
    cases h
    rw [← hrecorded month, exaRecorded_eq hrow, ← pendingExa_congr hexa month]
    refine ⟨not_lt.mp hrequests, not_lt.mp hcredits, fun other => hrecorded other, ?_⟩
    intro other quota hquota
    by_cases hmonth : other = month
    · subst hmonth
      rw [ensureExaQuotaRow_of_some hquota]
      exact hquota
    · exact (hothers other hmonth).trans hquota

/-- What a search that is recorded leaves in its month. -/
theorem reconcileExa_records {billed nominal requests : ℤ} {credits : ℚ} {halted : Bool}
    (h : tables.reconcileExa reservation month billed nominal requests credits =
      .ok (after, halted)) :
    requests = 1 ∧ ∃ row quota updated, tables.exaReservation? reservation.id month = some row ∧
      row.status = .reserved ∧ MatchesExa row reservation nominal ∧
      tables.quota? month = some quota ∧ after.quota? month = some updated ∧
      updated.requestCount = quota.requestCount + requests ∧
      updated.creditCount = toNumeric (quota.creditCount + credits) ∧
      (quota.halted = true → updated.halted = true) ∧
      ReconciledExa tables row quota month billed requests credits after := by
  have hmade := h
  unfold reconcileExa at h
  obtain ⟨hone, h⟩ := Checks.ite_error_eq_ok.mp h
  refine ⟨not_not.mp hone, ?_⟩
  obtain ⟨overrun, -, h⟩ := Checks.bind_eq_ok.mp h
  obtain ⟨row, quota, hrow, hstatus, hquota, hreconciled⟩ := reconcileExa_eq_ok hmade
  rw [hrow] at h
  obtain ⟨-, h⟩ := Checks.ite_error_eq_ok.mp h
  obtain ⟨hmatches, h⟩ := Checks.ite_error_eq_ok.mp h
  dsimp only at h
  have hkept (written : ExaQuotaReservation) :
      (tables.setExaReservation written).quota? month = some quota := hquota
  rw [hkept] at h
  obtain ⟨-, h⟩ := Checks.ite_error_eq_ok.mp h
  have hstart : quota.monthStart = month := KeyedList.key_of_lookup_eq_some hquota
  obtain ⟨rfl, -⟩ := Prod.mk.inj (Except.ok.inj h)
  refine ⟨row, quota, _, hrow, hstatus, ?_, hquota,
    (quota?_setQuota _ month).trans (if_pos hstart.symm), rfl, rfl, ?_, hreconciled⟩
  · simpa [MatchesExa, not_or, and_assoc] using hmatches
  · intro hquotaHalted
    simp [hquotaHalted]

end BudgetTables

/-! ## The calls of a guard -/

/-- A search that is reconciled reports at most the credits that it has reserved, and no cost. -/
def BudgetCall.ReportsWithin : BudgetCall → Prop
  | .reserve _ _ _ _ => True
  | .reconcile reservation billedCostMicros _ _ creditCount =>
      reservation.provider = "exa" → billedCostMicros = 0 ∧
        ∀ credits reserved, creditCount = .finite credits →
          reservation.reservedCreditCount = .finite reserved → credits ≤ reserved

namespace PostgresBudgetGuard

variable {terms : GuardTerms} {ids : RandomIds} {clock : ℕ → Datetime}
  {guard : PostgresBudgetGuard} {tables : BudgetTables} {month : Month}

/-- What a call of a guard can do to the tables of Exa. -/
inductive Searched (ids : RandomIds) (guard : PostgresBudgetGuard) :
    BudgetCall → BudgetTables → Prop
  | kept (call : BudgetCall) (tables : BudgetTables)
      (hquotas : tables.exaQuotas = guard.tables.exaQuotas)
      (hreservations : tables.exaReservations = guard.tables.exaReservations) :
      Searched ids guard call tables
  | reserved (call : BudgetCall) (reservation : BudgetReservation) (month : Month)
      (tables : BudgetTables) (hid : reservation.id = ids.hex guard.drawn)
      (h : guard.tables.reserveExa reservation month = .ok tables) :
      Searched ids guard call tables
  | reconciled (reservation : BudgetReservation) (month : Month) (billed nominal requests : ℤ)
      (credits : ℚ) (tables : BudgetTables) (halted : Bool) (hexa : reservation.provider = "exa")
      (h : guard.tables.reconcileExa reservation month billed nominal requests credits =
        .ok (tables, halted)) :
      Searched ids guard (.reconcile reservation billed nominal requests (.finite credits)) tables

theorem reserve_searched (provider : String) (estimate requests : ℤ) (credits : DecimalValue) :
    Searched ids guard (.reserve provider estimate requests credits)
      (guard.reserve terms ids clock provider estimate requests credits).1.tables := by
  unfold PostgresBudgetGuard.reserve
  split
  next failure hfailure => exact .kept _ _ rfl rfl
  next value month hchecks =>
    dsimp only
    by_cases hexa : provider = "exa"
    · rw [if_pos hexa]
      split
      next failure hfailure => exact .kept _ _ rfl rfl
      next tables htables => exact .reserved _ _ month tables rfl htables
    · rw [if_neg hexa]
      split
      next failure hfailure => exact .kept _ _ rfl rfl
      next tables htables =>
        obtain ⟨-, htables⟩ := Checks.ite_error_eq_ok.mp htables
        have hgranted := BudgetTables.reserveDollars_eq_ok htables
        exact .kept _ _ hgranted.exaQuotas hgranted.exaReservations

theorem Coherent.reconcile_searched (hcoherent : guard.Coherent ids)
    (reservation : BudgetReservation) (billed nominal requests : ℤ) (credits : DecimalValue) :
    Searched ids guard (.reconcile reservation billed nominal requests credits)
      (guard.reconcile terms clock reservation billed nominal requests credits).1.tables := by
  rw [reconcile_eq]
  cases hresult : reconcileTables terms clock guard reservation billed nominal requests credits with
  | error failure => exact .kept _ _ rfl rfl
  | ok result =>
      obtain ⟨tables, halted⟩ := result
      dsimp only
      unfold reconcileTables at hresult
      by_cases hargs : billed < 0 ∨ nominal < 0
      · rw [if_pos hargs] at hresult
        cases hresult
      rw [if_neg hargs] at hresult
      obtain ⟨value, husage, hresult⟩ := Checks.bind_eq_ok.mp hresult
      obtain ⟨month, -, hresult⟩ := Checks.bind_eq_ok.mp hresult
      split at hresult
      next hexa =>
        rw [checkUsage_eq_ok husage]
        exact .reconciled reservation month billed nominal requests value tables halted hexa hresult
      next hexa =>
        obtain ⟨-, hresult⟩ := Checks.ite_error_eq_ok.mp hresult
        obtain ⟨row, account, -, -, -, hreconciled, -⟩ :=
          BudgetTables.reconcileDollars_eq_ok hcoherent.keyed.unique hresult
        exact .kept _ _ hreconciled.exaQuotas hreconciled.exaReservations

theorem Coherent.step_searched (terms : GuardTerms) (hcoherent : guard.Coherent ids)
    (timed : TimedCall) :
    Searched ids guard timed.call (guard.step terms ids timed).1.tables := by
  unfold PostgresBudgetGuard.step
  cases timed.call with
  | reserve provider estimate requests credits =>
      exact reserve_searched provider estimate requests credits
  | reconcile reservation billed nominal requests credits =>
      exact hcoherent.reconcile_searched reservation billed nominal requests credits

/-! ## Within the quota -/

/-- The searches are reserved alike, each once, and every month stays within its quota. -/
structure Metered (guard : PostgresBudgetGuard) : Prop where
  unique : (guard.tables.exaReservations.map ExaQuotaReservation.id).Nodup
  searches : ∀ row ∈ guard.tables.exaReservations, row.reservedRequestCount = 1 ∧
    row.reservedCreditCount = BudgetTables.exaMaxCreditsPerSearch
  hundredths : ∀ month, IsHundredths (guard.tables.exaRecorded month).2
  within : ∀ month, guard.tables.WithinExaQuota month

theorem start_metered : start.Metered where
  unique := List.nodup_nil
  searches row hrow := by cases hrow
  hundredths _ := isHundredths_zero
  within month := by
    have hpending : start.tables.pendingExa month = 0 := rfl
    have hrecorded : start.tables.exaRecorded month = 0 := rfl
    refine ⟨?_, ?_⟩
    · rw [hpending, hrecorded]
      norm_num
    · rw [hpending, hrecorded]
      norm_num

/-- Tables with the same rows of Exa. -/
theorem Metered.kept (h : guard.Metered) (hquotas : tables.exaQuotas = guard.tables.exaQuotas)
    (hreservations : tables.exaReservations = guard.tables.exaReservations) (drawn : ℕ) :
    Metered ⟨tables, drawn⟩ where
  unique := by rw [hreservations]; exact h.unique
  searches := by rw [hreservations]; exact h.searches
  hundredths other := by
    rw [BudgetTables.exaRecorded_congr hquotas]
    exact h.hundredths other
  within other := by
    refine ⟨?_, ?_⟩
    · rw [BudgetTables.exaRecorded_congr hquotas, BudgetTables.pendingExa_congr hreservations]
      exact (h.within other).requests
    · rw [BudgetTables.exaRecorded_congr hquotas, BudgetTables.pendingExa_congr hreservations]
      exact (h.within other).credits

/-- A search that is granted takes its request and its credits from the room that is left. -/
theorem Metered.reserved (h : guard.Metered) (hcoherent : guard.Coherent ids)
    {reservation : BudgetReservation} (hid : reservation.id = ids.hex guard.drawn)
    (hreserved : guard.tables.reserveExa reservation month = .ok tables) (drawn : ℕ) :
    Metered ⟨tables, drawn⟩ := by
  obtain ⟨hrequests, hcredits, hrecorded, -⟩ := BudgetTables.reserveExa_within hreserved
  obtain ⟨-, -, hgranted⟩ := BudgetTables.reserveExa_eq_ok hreserved
  have hpending (other : Month) := BudgetTables.pendingExa_replaced h.unique _
    hgranted.exaReservations other
  dsimp only at hpending
  rw [hid, hcoherent.fresh] at hpending
  refine ⟨?_, ?_, ?_, ?_⟩
  · dsimp only
    rw [hgranted.exaReservations]
    exact KeyedList.nodup_upsert h.unique _
  · intro row hrow
    dsimp only at hrow
    rw [hgranted.exaReservations] at hrow
    rcases KeyedList.mem_upsert hrow with rfl | hrow
    · exact ⟨rfl, rfl⟩
    · exact h.searches row hrow
  · intro other
    dsimp only
    rw [hrecorded other]
    exact h.hundredths other
  · intro other
    have hkept := hpending other
    rw [Option.elim_none, add_zero] at hkept
    unfold BudgetTables.pendingSearch at hkept
    by_cases hmonth : month = other
    · subst hmonth
      rw [if_pos ⟨rfl, rfl⟩] at hkept
      refine ⟨?_, ?_⟩
      · rw [hrecorded, hkept, Prod.fst_add, ← add_assoc]
        exact hrequests
      · rw [hrecorded, hkept, Prod.snd_add, ← add_assoc]
        exact hcredits
    · rw [if_neg (fun hsame => hmonth hsame.1), add_zero] at hkept
      refine ⟨?_, ?_⟩
      · rw [hrecorded, hkept]
        exact (h.within other).requests
      · rw [hrecorded, hkept]
        exact (h.within other).credits

/-- A search that is recorded gives its request and its credits back before they are counted. -/
theorem Metered.reconciled (h : guard.Metered) {reservation : BudgetReservation}
    {billed nominal requests : ℤ} {credits : ℚ} {halted : Bool}
    (hreconciled : guard.tables.reconcileExa reservation month billed nominal requests credits =
      .ok (tables, halted))
    (hwithin : ∀ reserved, reservation.reservedCreditCount = .finite reserved →
      credits ≤ reserved) (drawn : ℕ) : Metered ⟨tables, drawn⟩ := by
  obtain ⟨rfl, row, quota, updated, hrow, hstatus, hmatches, hquota, hupdated, hcount, hsum, -,
    hwritten⟩ := BudgetTables.reconcileExa_records hreconciled
  obtain ⟨hlookup, hmonth⟩ := BudgetTables.exaReservation?_eq_some.mp hrow
  have hid := KeyedList.key_of_lookup_eq_some hlookup
  obtain ⟨hone, hten⟩ := h.searches row (KeyedList.mem_of_lookup_eq_some hlookup)
  have hcredits : credits ≤ BudgetTables.exaMaxCreditsPerSearch := by
    rw [← hten]
    exact hwithin _ hmatches.2.1.symm
  have hpending (other : Month) := BudgetTables.pendingExa_replaced h.unique _
    hwritten.exaReservations other
  have hrecorded : guard.tables.exaRecorded month = (quota.requestCount, quota.creditCount) :=
    BudgetTables.exaRecorded_eq hquota
  have hrecorded' : tables.exaRecorded month =
      (quota.requestCount + 1, toNumeric (quota.creditCount + credits)) := by
    rw [BudgetTables.exaRecorded_eq hupdated, hcount, hsum]
  have hothers (other : Month) (hother : other ≠ month) :
      tables.exaRecorded other = guard.tables.exaRecorded other := by
    unfold BudgetTables.exaRecorded
    rw [hwritten.others other hother]
  have hhundredths : IsHundredths quota.creditCount := by
    have hstored := h.hundredths month
    rw [hrecorded] at hstored
    exact hstored
  refine ⟨?_, ?_, ?_, ?_⟩
  · dsimp only
    rw [hwritten.exaReservations]
    exact KeyedList.nodup_upsert h.unique _
  · intro other hother
    dsimp only at hother
    rw [hwritten.exaReservations] at hother
    rcases KeyedList.mem_upsert hother with rfl | hother
    · exact ⟨hone, hten⟩
    · exact h.searches other hother
  · intro other
    dsimp only
    by_cases hother : other = month
    · rw [hother, hrecorded']
      exact isHundredths_toNumeric _
    · rw [hothers other hother]
      exact h.hundredths other
  · intro other
    have hgone (actual : Option ℤ) (used : Option ℚ) (cost : Option ℤ) :
        BudgetTables.pendingSearch other { row with
          status := .reconciled
          actualRequestCount := actual
          actualCreditCount := used
          billedCostMicros := cost } = 0 :=
      if_neg fun hsame => by cases hsame.2
    have hkept := hpending other
    rw [hgone] at hkept
    dsimp only at hkept
    rw [hid, hlookup, Option.elim_some, BudgetTables.pendingSearch, hmonth, hone, hten,
      add_zero] at hkept
    have hbefore := h.within other
    by_cases hother : other = month
    · subst hother
      rw [if_pos ⟨rfl, hstatus⟩] at hkept
      have hrequests := hbefore.requests
      have hsums := hbefore.credits
      rw [hrecorded, ← hkept] at hrequests hsums
      dsimp only [Prod.fst_add, Prod.snd_add] at hrequests hsums
      refine ⟨?_, ?_⟩
      · rw [hrecorded']
        dsimp only
        omega
      · rw [hrecorded']
        -- The credits were reserved at ten, and the sum is rounded below a whole hundredth.
        have hrounded : toNumeric (quota.creditCount + credits) ≤
            quota.creditCount + BudgetTables.exaMaxCreditsPerSearch :=
          toNumeric_le (hhundredths.add BudgetTables.isHundredths_exaMaxCredits)
            (add_le_add_right hcredits _)
        calc toNumeric (quota.creditCount + credits) + (tables.pendingExa other).2
            ≤ quota.creditCount + BudgetTables.exaMaxCreditsPerSearch +
                (tables.pendingExa other).2 := by linarith only [hrounded]
          _ = quota.creditCount + ((tables.pendingExa other).2 +
                BudgetTables.exaMaxCreditsPerSearch) := by ring
          _ ≤ 18000 := hsums
    · rw [if_neg (fun hsame => hother hsame.1.symm), add_zero] at hkept
      refine ⟨?_, ?_⟩
      · rw [hothers other hother, hkept]
        exact hbefore.requests
      · rw [hothers other hother, hkept]
        exact hbefore.credits

theorem Metered.step (terms : GuardTerms) (h : guard.Metered) (hcoherent : guard.Coherent ids)
    {timed : TimedCall} (hwithin : timed.call.ReportsWithin) :
    Metered (guard.step terms ids timed).1 := by
  have hstep := hcoherent.step_searched terms timed
  generalize timed.call = call at hstep hwithin
  have hsplit : (guard.step terms ids timed).1 =
      ⟨(guard.step terms ids timed).1.tables, (guard.step terms ids timed).1.drawn⟩ := rfl
  rw [hsplit]
  generalize (guard.step terms ids timed).1.tables = after at hstep ⊢
  cases hstep with
  | kept _ _ hquotas hreservations => exact h.kept hquotas hreservations _
  | reserved _ reservation month _ hid hreserved => exact h.reserved hcoherent hid hreserved _
  | reconciled reservation month billed nominal requests credits _ halted hexa hreconciled =>
      exact h.reconciled hreconciled (fun reserved => (hwithin hexa).2 credits reserved rfl) _

/-- A halted month stays halted, whatever a call reports. -/
theorem Coherent.exaHalted_step (hcoherent : guard.Coherent ids) (terms : GuardTerms)
    (timed : TimedCall) (hhalted : guard.tables.ExaHalted month) :
    (guard.step terms ids timed).1.tables.ExaHalted month := by
  have hstep := hcoherent.step_searched terms timed
  generalize timed.call = call at hstep
  generalize (guard.step terms ids timed).1.tables = after at hstep ⊢
  obtain ⟨quota, hquota, hflag⟩ := hhalted
  cases hstep with
  | kept _ _ hquotas _ =>
      exact ⟨quota, (BudgetTables.quota?_of_exaQuotas hquotas month).trans hquota, hflag⟩
  | reserved _ reservation reserved _ hid hreserved =>
      obtain ⟨-, -, -, hkept⟩ := BudgetTables.reserveExa_within hreserved
      exact ⟨quota, hkept month quota hquota, hflag⟩
  | reconciled reservation recorded billed nominal requests credits _ halted hexa hreconciled =>
      obtain ⟨-, row, found, updated, -, -, -, hfound, hupdated, -, -, hstays, hwritten⟩ :=
        BudgetTables.reconcileExa_records hreconciled
      by_cases hmonth : month = recorded
      · subst hmonth
        rw [hquota] at hfound
        cases hfound
        exact ⟨updated, hupdated, hstays hflag⟩
      · exact ⟨quota, (hwritten.others month hmonth).trans hquota, hflag⟩

theorem Coherent.exaHalted_run (hcoherent : guard.Coherent ids) (terms : GuardTerms)
    (calls : List TimedCall) (hhalted : guard.tables.ExaHalted month) :
    (Runs.final (PostgresBudgetGuard.step terms ids) guard calls).tables.ExaHalted month := by
  induction calls generalizing guard with
  | nil => exact hhalted
  | cons timed rest ih =>
      exact ih (hcoherent.step terms timed).2 (hcoherent.exaHalted_step terms timed hhalted)

/-- While the searches report within what they have reserved, every month stays within its
quota. -/
theorem metered_run (terms : GuardTerms) (ids : RandomIds) {calls : List TimedCall}
    (hwithin : ∀ timed ∈ calls, timed.call.ReportsWithin) :
    Metered (Runs.final (step terms ids) start calls) := by
  induction calls using List.reverseRecOn with
  | nil => exact start_metered
  | append_singleton calls timed ih =>
      rw [Runs.final_concat]
      apply Metered.step terms
      · exact ih fun other hother => hwithin other (List.mem_append_left _ hother)
      · exact (settled_run terms ids calls).1
      · exact hwithin timed (List.mem_append_right _ (List.mem_singleton_self timed))

/-- Over a run of searches that report within what they have reserved, every state keeps to the
quota of every month, no reservation is recorded twice, and a month that is halted stays so. -/
theorem exaQuota_kept (terms : GuardTerms) (ids : RandomIds) (month : Month)
    (calls : List TimedCall) :
    (∀ before after, calls = before ++ after → (∀ timed ∈ before, timed.call.ReportsWithin) →
      (Runs.final (step terms ids) start before).tables.WithinExaQuota month) ∧
    ((Runs.trace (step terms ids) start calls).filterMap countedId).Nodup ∧
    ∀ before after, calls = before ++ after →
      (Runs.final (step terms ids) start before).tables.ExaHalted month →
        (Runs.final (step terms ids) start calls).tables.ExaHalted month := by
  refine ⟨?_, (settled_run terms ids calls).2.1, ?_⟩
  · intro before after _ hwithin
    exact (metered_run terms ids hwithin).within month
  · rintro before after rfl hhalted
    rw [Runs.final_append]
    exact (settled_run terms ids before).1.exaHalted_run terms after hhalted

end PostgresBudgetGuard

namespace Sample

/-- A search that is reserved, and recorded with half a hundredth of a credit. -/
def searchCalls : List TimedCall :=
  [⟨.reserve "exa" 5000 1 (.finite 10), fun _ => moment⟩,
    ⟨.reconcile ⟨randomIds.hex 0, 5000, "exa", 1, .finite 10⟩ 0 5000 1 (.finite (1 / 200)),
      fun _ => moment⟩]

theorem searchCalls_reportWithin : ∀ timed ∈ searchCalls, timed.call.ReportsWithin := by
  intro timed hmem
  simp only [searchCalls, List.mem_cons, List.not_mem_nil, or_false] at hmem
  rcases hmem with rfl | rfl
  · trivial
  · rintro -
    refine ⟨rfl, ?_⟩
    rintro credits reserved ⟨⟩ ⟨⟩
    norm_num

/-- The search is recorded as a hundredth of a credit. -/
theorem exaQuota_search :
    (Runs.final (PostgresBudgetGuard.step guardTerms randomIds) .start
        searchCalls).tables.WithinExaQuota (2026, 1) ∧
      (Runs.final (PostgresBudgetGuard.step guardTerms randomIds) .start
        searchCalls).tables.exaRecorded (2026, 1) = (1, 1 / 100) :=
  ⟨(PostgresBudgetGuard.exaQuota_kept guardTerms randomIds (2026, 1) searchCalls).1 searchCalls []
    (List.append_nil _).symm searchCalls_reportWithin, by decide +kernel⟩

end Sample

end VTrade
