/-
# What a call does to the budget tables

Of a reservation the tables tell which month it is of, what was reserved, and whether it has been
reconciled; of a month they tell what has been recorded as spent in it.  A call that is granted
books a new reservation, a reconciliation that is recorded settles one of its own month and adds
its cost to what the month has spent, and any other call changes neither.
-/

import VTrade.BudgetGuard

namespace VTrade

/-- A reservation as a table keeps it. -/
structure Booking where
  month : Month
  exa : Bool
  estimatedCostMicros : ℤ
  requestCount : ℤ
  creditCount : DecimalValue
  status : ReservationStatus
  deriving DecidableEq

def ProviderBudgetReservation.booking (row : ProviderBudgetReservation) : Booking :=
  ⟨row.monthStart, false, row.estimatedCostMicros, 0, .finite 0, row.status⟩

def ExaQuotaReservation.booking (row : ExaQuotaReservation) : Booking :=
  ⟨row.monthStart, true, row.nominalCostMicros, row.reservedRequestCount,
    .finite row.reservedCreditCount, row.status⟩

/-- The booking of a reservation that has just been granted. -/
def BudgetReservation.booking (reservation : BudgetReservation) (month : Month) : Booking :=
  ⟨month, decide (reservation.provider = "exa"), reservation.estimatedCostMicros,
    reservation.reservedRequestCount, reservation.reservedCreditCount, .reserved⟩

namespace BudgetTables

variable (tables : BudgetTables)

/-- The booking of an identifier, in either table. -/
def booking? (id : String) : Option Booking :=
  ((KeyedList.lookup ProviderBudgetReservation.id id tables.reservations).map
      ProviderBudgetReservation.booking).or
    ((KeyedList.lookup ExaQuotaReservation.id id tables.exaReservations).map
      ExaQuotaReservation.booking)

/-- What is recorded as spent in a month: the dollars billed, and what Exa has billed against
expectation. -/
def spentIn (month : Month) : ℤ :=
  (tables.account? month).elim 0 MonthAccount.billedCostMicros +
    (tables.quota? month).elim 0 MonthlyExaQuota.unexpectedBilledCostMicros

variable {tables} {terms : GuardTerms} {month : Month} {reservation : BudgetReservation}

/-! ## Exa -/

/-- What a granted search changes. -/
structure GrantedExa (tables : BudgetTables) (reservation : BudgetReservation) (month : Month)
    (after : BudgetTables) : Prop where
  exaReservations : after.exaReservations = KeyedList.upsert ExaQuotaReservation.id
    ⟨reservation.id, month, "exa:" ++ reservation.id, 1, 1, exaMaxCreditsPerSearch,
      reservation.estimatedCostMicros, .reserved, none, none, none⟩ tables.exaReservations
  quota : ∃ quota, after.quota? month = some quota ∧ quota.unexpectedBilledCostMicros =
    (tables.quota? month).elim 0 MonthlyExaQuota.unexpectedBilledCostMicros
  others : ∀ other, other ≠ month → after.quota? other = tables.quota? other
  budgets : after.budgets = tables.budgets
  reservations : after.reservations = tables.reservations

theorem quota?_setQuota (row : MonthlyExaQuota) (month : Month) :
    (tables.setQuota row).quota? month =
      if month = row.monthStart then some row else tables.quota? month := by
  unfold quota? setQuota
  split
  next h =>
    subst h
    exact KeyedList.lookup_upsert_self row tables.exaQuotas
  next h => exact KeyedList.lookup_upsert_of_ne h tables.exaQuotas

theorem ensureExaQuotaRow_spec (tables : BudgetTables) (month : Month) :
    (∃ quota, (tables.ensureExaQuotaRow month).quota? month = some quota ∧
      quota.unexpectedBilledCostMicros =
        (tables.quota? month).elim 0 MonthlyExaQuota.unexpectedBilledCostMicros) ∧
    (∀ other, other ≠ month →
      (tables.ensureExaQuotaRow month).quota? other = tables.quota? other) ∧
    (tables.ensureExaQuotaRow month).exaReservations = tables.exaReservations ∧
    (tables.ensureExaQuotaRow month).budgets = tables.budgets ∧
    (tables.ensureExaQuotaRow month).reservations = tables.reservations := by
  unfold ensureExaQuotaRow
  cases hquota : tables.quota? month with
  | some quota => exact ⟨⟨quota, hquota, rfl⟩, fun _ _ => rfl, rfl, rfl, rfl⟩
  | none =>
      refine ⟨⟨_, (quota?_setQuota _ month).trans (if_pos rfl), rfl⟩, ?_, rfl, rfl, rfl⟩
      intro other hother
      exact (quota?_setQuota _ other).trans (if_neg hother)

theorem reserveExa_eq_ok {after : BudgetTables}
    (h : tables.reserveExa reservation month = .ok after) :
    reservation.reservedRequestCount = 1 ∧
      reservation.reservedCreditCount = .finite exaMaxCreditsPerSearch ∧
      GrantedExa tables reservation month after := by
  obtain ⟨hquota, hothers, hexa, hbudgets, hreservations⟩ :=
    ensureExaQuotaRow_spec tables month
  unfold reserveExa at h
  obtain ⟨hcounts, h⟩ := Checks.ite_error_eq_ok.mp h
  obtain ⟨hrequests, hcredits⟩ := not_or.mp hcounts
  refine ⟨not_not.mp hrequests, not_not.mp hcredits, ?_⟩
  dsimp only at h
  split at h
  · cases h
  · obtain ⟨-, h⟩ := Checks.ite_error_eq_ok.mp h
    obtain ⟨-, h⟩ := Checks.ite_error_eq_ok.mp h
    obtain ⟨-, -, h⟩ := Checks.bind_eq_ok.mp h
    cases h
    refine ⟨?_, hquota, hothers, hbudgets, hreservations⟩
    rw [← hexa]
    rfl

/-- What a reconciled search changes. -/
structure ReconciledExa (tables : BudgetTables) (row : ExaQuotaReservation)
    (quota : MonthlyExaQuota) (month : Month) (billed requests : ℤ) (credits : ℚ)
    (after : BudgetTables) : Prop where
  exaReservations : after.exaReservations = KeyedList.upsert ExaQuotaReservation.id
    { row with
      status := .reconciled
      actualRequestCount := some requests
      actualCreditCount := some (toNumeric credits)
      billedCostMicros := some billed } tables.exaReservations
  quota : ∃ updated, after.quota? month = some updated ∧
    updated.unexpectedBilledCostMicros = quota.unexpectedBilledCostMicros + billed
  others : ∀ other, other ≠ month → after.quota? other = tables.quota? other
  budgets : after.budgets = tables.budgets
  reservations : after.reservations = tables.reservations

theorem exaReservation?_eq_some {id : String} {row : ExaQuotaReservation} :
    tables.exaReservation? id month = some row ↔
      KeyedList.lookup ExaQuotaReservation.id id tables.exaReservations = some row ∧
        row.monthStart = month := by
  unfold exaReservation?
  rw [Option.filter_eq_some_iff, decide_eq_true_eq]

section reconcileExa

variable {billed nominal requests : ℤ} {credits : ℚ}

/-- A row is the one of a reservation, at its nominal cost. -/
def MatchesExa (row : ExaQuotaReservation) (reservation : BudgetReservation) (nominal : ℤ) : Prop :=
  row.reservedRequestCount = reservation.reservedRequestCount ∧
    .finite row.reservedCreditCount = reservation.reservedCreditCount ∧
    row.nominalCostMicros = reservation.estimatedCostMicros ∧
    nominal = reservation.estimatedCostMicros

theorem reconcileExa_eq_ok {after : BudgetTables} {halted : Bool}
    (h : tables.reconcileExa reservation month billed nominal requests credits =
      .ok (after, halted)) :
    ∃ row quota, tables.exaReservation? reservation.id month = some row ∧
      row.status = .reserved ∧ tables.quota? month = some quota ∧
      ReconciledExa tables row quota month billed requests credits after := by
  unfold reconcileExa at h
  obtain ⟨-, h⟩ := Checks.ite_error_eq_ok.mp h
  obtain ⟨overrun, -, h⟩ := Checks.bind_eq_ok.mp h
  split at h
  · cases h
  next row hrow =>
    obtain ⟨hstatus, h⟩ := Checks.ite_error_eq_ok.mp h
    obtain ⟨-, h⟩ := Checks.ite_error_eq_ok.mp h
    dsimp only at h
    split at h
    · cases h
    next quota hquota =>
      obtain ⟨-, h⟩ := Checks.ite_error_eq_ok.mp h
      have hstart : quota.monthStart = month := KeyedList.key_of_lookup_eq_some hquota
      obtain ⟨rfl, -⟩ := Prod.mk.inj (Except.ok.inj h)
      refine ⟨row, quota, hrow, not_not.mp hstatus, hquota, rfl,
        ⟨_, (quota?_setQuota _ month).trans (if_pos hstart.symm), rfl⟩, ?_, rfl, rfl⟩
      intro other hother
      exact (quota?_setQuota _ other).trans (if_neg (by rw [hstart]; exact hother))

/-- Only the guard raises that the quota is exceeded, after its transaction. -/
theorem reconcileExa_not_exceeded {failure : BudgetFailure}
    (h : tables.reconcileExa reservation month billed nominal requests credits = .error failure) :
    failure.isExceeded = false := by
  unfold reconcileExa at h
  split at h
  · cases h
    rfl
  rcases Checks.bind_eq_error.mp h with h | ⟨overrun, -, h⟩
  · unfold creditOverrun at h
    split at h
    · cases h
    · cases h
    · cases h
      rfl
  split at h
  · cases h
    rfl
  split at h
  · cases h
    rfl
  split at h
  · cases h
    rfl
  dsimp only at h
  split at h
  · cases h
    rfl
  split at h
  · cases h
    rfl
  · cases h

/-- A search that is pending in the month is reconciled, unless an amount does not fit. -/
theorem reconcileExa_of_pending (billed : ℤ) (credits : ℚ) {row : ExaQuotaReservation}
    {quota : MonthlyExaQuota}
    (hrow : tables.exaReservation? reservation.id month = some row)
    (hstatus : row.status = .reserved) (hmatches : MatchesExa row reservation nominal)
    (hquota : tables.quota? month = some quota) :
    (quota.Overflows credits billed nominal →
      ∃ message, tables.reconcileExa reservation month billed nominal 1 credits =
        .error (.databaseError message)) ∧
    (¬ quota.Overflows credits billed nominal →
      ∃ result, tables.reconcileExa reservation month billed nominal 1 credits = .ok result) := by
  obtain ⟨hrequests, hcredits, hestimate, hnominal⟩ := hmatches
  have hoverrun : creditOverrun credits reservation.reservedCreditCount =
      .ok (decide (row.reservedCreditCount < credits)) := by
    rw [← hcredits]
    rfl
  unfold reconcileExa
  rw [if_neg (by decide), hoverrun]
  dsimp only [bind, Except.bind]
  rw [hrow]
  dsimp only
  rw [if_neg (fun hne => hne hstatus), if_neg (by simp [hrequests, hcredits, hestimate, hnominal])]
  have hkept (written : ExaQuotaReservation) :
      (tables.setExaReservation written).quota? month = some quota := hquota
  rw [hkept]
  dsimp only
  exact ⟨fun h => ⟨_, if_pos h⟩, fun h => ⟨_, if_neg h⟩⟩

end reconcileExa

/-! ## Dollars -/

theorem reserveDollars_eq_ok {after : BudgetTables}
    (h : tables.reserveDollars terms reservation month = .ok after) :
    Granted terms tables reservation month after := by
  have hmade := h
  unfold reserveDollars at h
  obtain ⟨ensured', hensured', h⟩ := Checks.bind_eq_ok.mp h
  by_cases hfits : FitsBigint terms.limitMicros
  swap
  · rw [reserveDollars_of_overflow hfits] at hmade
    cases hmade
  obtain ⟨ensured, row, hensured, hrow, haccount, -, hreservations, -, -⟩ :=
    ensureBudgetRow_spec tables hfits month
  rw [hensured] at hensured'
  cases hensured'
  rw [hrow] at h
  obtain ⟨hlimit, h⟩ := Checks.ite_error_eq_ok.mp h
  obtain ⟨hwithin, h⟩ := Checks.ite_error_eq_ok.mp h
  obtain ⟨_, hestimate, -⟩ := Checks.bind_eq_ok.mp h
  have hcap : (tables.accountIn terms month).limitMicros = terms.limitMicros := by
    rw [← haccount]
    exact not_not.mp hlimit
  have hnot : ¬ tables.Refuses terms month reservation.estimatedCostMicros := by
    unfold Refuses
    rw [← haccount, ← pendingMicros_congr hreservations]
    exact hwithin
  have hfits' : FitsBigint reservation.estimatedCostMicros := by
    by_contra hnofit
    rw [requireBigint_of_not hnofit] at hestimate
    cases hestimate
  obtain ⟨after', hafter, hgranted⟩ := reserveDollars_of_not_refuses reservation month hfits hcap
    hnot hfits'
  rw [hmade] at hafter
  cases hafter
  exact hgranted

/-! ## Bookings -/

theorem booking?_cases {id : String} {booking : Booking} (h : tables.booking? id = some booking) :
    (∃ row, KeyedList.lookup ProviderBudgetReservation.id id tables.reservations = some row ∧
      row.booking = booking) ∨
    ∃ row, KeyedList.lookup ExaQuotaReservation.id id tables.exaReservations = some row ∧
      row.booking = booking := by
  unfold booking? at h
  rcases Option.or_eq_some_iff.mp h with h | ⟨-, h⟩
  · exact .inl (Option.map_eq_some_iff.mp h)
  · exact .inr (Option.map_eq_some_iff.mp h)

theorem booking?_of_reservations {after : BudgetTables} {row : ProviderBudgetReservation}
    (hreservations : after.reservations =
      KeyedList.upsert ProviderBudgetReservation.id row tables.reservations)
    (hexa : after.exaReservations = tables.exaReservations) (id : String) :
    after.booking? id = if id = row.id then some row.booking else tables.booking? id := by
  unfold booking?
  rw [hreservations, hexa]
  split
  next h =>
    subst h
    rw [KeyedList.lookup_upsert_self]
    rfl
  next h => rw [KeyedList.lookup_upsert_of_ne h]

theorem booking?_of_exaReservations {after : BudgetTables} {row : ExaQuotaReservation}
    (hexa : after.exaReservations = KeyedList.upsert ExaQuotaReservation.id row
      tables.exaReservations)
    (hreservations : after.reservations = tables.reservations)
    (hnone : KeyedList.lookup ProviderBudgetReservation.id row.id tables.reservations = none)
    (id : String) :
    after.booking? id = if id = row.id then some row.booking else tables.booking? id := by
  unfold booking?
  rw [hreservations, hexa]
  split
  next h =>
    subst h
    rw [KeyedList.lookup_upsert_self, hnone]
    rfl
  next h => rw [KeyedList.lookup_upsert_of_ne h]

theorem account?_of_budgets {after : BudgetTables} (h : after.budgets = tables.budgets)
    (month : Month) : after.account? month = tables.account? month := by
  unfold account? budget?
  rw [h]

theorem quota?_of_exaQuotas {after : BudgetTables} (h : after.exaQuotas = tables.exaQuotas)
    (month : Month) : after.quota? month = tables.quota? month := by
  unfold quota?
  rw [h]

end BudgetTables

/-! ## The steps of a guard -/

/-- The tables of a guard hold together: the reservations are of identifiers drawn, each in one
table, and the months of the reservations have their rows. -/
structure PostgresBudgetGuard.Coherent (ids : RandomIds) (guard : PostgresBudgetGuard) : Prop where
  keyed : guard.tables.Keyed ids guard.drawn
  drawnExa : ∀ row ∈ guard.tables.exaReservations, ∃ n < guard.drawn, row.id = ids.hex n
  apart : ∀ row ∈ guard.tables.reservations, ∀ other ∈ guard.tables.exaReservations,
    row.id ≠ other.id
  accounts : ∀ row ∈ guard.tables.reservations, (guard.tables.account? row.monthStart).isSome
  quotas : ∀ row ∈ guard.tables.exaReservations, (guard.tables.quota? row.monthStart).isSome

namespace PostgresBudgetGuard

/-- What a call of a guard can do, at what the clock says. -/
inductive Stepped (ids : RandomIds) (guard : PostgresBudgetGuard) (clock : ℕ → Datetime) :
    BudgetCall → PostgresBudgetGuard → BudgetAnswer → Prop
  | raised (call : BudgetCall) (drawn : ℕ) (failure : BudgetFailure) (hdrawn : guard.drawn ≤ drawn)
      (h : call.reconciles.isSome → failure.isExceeded = false) :
      Stepped ids guard clock call ⟨guard.tables, drawn⟩ (.error failure)
  | granted (provider : String) (estimate requests : ℤ) (credits : DecimalValue) (month : Month)
      (tables : BudgetTables) (hclock : awareMonth (clock 0) = .ok month)
      (hbookings : ∀ id, tables.booking? id = if id = ids.hex guard.drawn then
        some (BudgetReservation.booking ⟨ids.hex guard.drawn, estimate, provider, requests, credits⟩
          month) else guard.tables.booking? id)
      (hspent : ∀ other, tables.spentIn other = guard.tables.spentIn other) :
      Stepped ids guard clock (.reserve provider estimate requests credits)
        ⟨tables, guard.drawn + 1⟩
        (.ok (some ⟨ids.hex guard.drawn, estimate, provider, requests, credits⟩))
  | reconciled (reservation : BudgetReservation) (billed nominal requests : ℤ)
      (credits : DecimalValue) (booking : Booking) (tables : BudgetTables) (answer : BudgetAnswer)
      (hclock : awareMonth (clock 0) = .ok booking.month)
      (hbooking : guard.tables.booking? reservation.id = some booking)
      (hstatus : booking.status = .reserved)
      (hbookings : ∀ id, tables.booking? id = if id = reservation.id then
        some { booking with status := .reconciled } else guard.tables.booking? id)
      (hspent : ∀ other, tables.spentIn other = if other = booking.month then
        guard.tables.spentIn other + billed else guard.tables.spentIn other)
      (hanswer : answer = .ok none ∨ ∃ message, answer = .error (.exceeded message)) :
      Stepped ids guard clock (.reconcile reservation billed nominal requests credits)
        ⟨tables, guard.drawn⟩ answer

variable {terms : GuardTerms} {ids : RandomIds} {clock : ℕ → Datetime}
  {guard : PostgresBudgetGuard} {reservation : BudgetReservation} {month : Month}
  {tables : BudgetTables}

/-- An identifier that has not been drawn is in neither table. -/
theorem Coherent.fresh (h : guard.Coherent ids) :
    KeyedList.lookup ExaQuotaReservation.id (ids.hex guard.drawn)
      guard.tables.exaReservations = none := by
  rw [KeyedList.lookup_eq_none_iff]
  intro row hrow hid
  obtain ⟨n, hn, hdrawn⟩ := h.drawnExa row hrow
  exact absurd (ids.injective (hdrawn.symm.trans hid)) (by omega)

theorem start_coherent : start.Coherent ids where
  keyed := BudgetTables.keyed_empty
  drawnExa row hrow := by cases hrow
  apart row hrow := by cases hrow
  accounts row hrow := by cases hrow
  quotas row hrow := by cases hrow

theorem Coherent.drawMore (h : guard.Coherent ids) {drawn : ℕ} (hdrawn : guard.drawn ≤ drawn) :
    Coherent ids ⟨guard.tables, drawn⟩ where
  keyed := h.keyed.mono hdrawn
  drawnExa row hrow := by
    obtain ⟨n, hn, hid⟩ := h.drawnExa row hrow
    exact ⟨n, hn.trans_le hdrawn, hid⟩
  apart := h.apart
  accounts := h.accounts
  quotas := h.quotas

/-- A granted reservation of dollars. -/
theorem Coherent.granted (h : guard.Coherent ids) (hid : reservation.id = ids.hex guard.drawn)
    (hestimate : 0 ≤ reservation.estimatedCostMicros)
    (hgranted : BudgetTables.Granted terms guard.tables reservation month tables) :
    Coherent ids ⟨tables, guard.drawn + 1⟩ where
  keyed := h.keyed.granted hid hestimate hgranted
  drawnExa row hrow := by
    dsimp only at hrow
    rw [hgranted.exaReservations] at hrow
    obtain ⟨n, hn, hdrawn⟩ := h.drawnExa row hrow
    exact ⟨n, hn.trans (Nat.lt_succ_self _), hdrawn⟩
  apart row hrow other hother := by
    dsimp only at hrow hother
    rw [hgranted.reservations] at hrow
    rw [hgranted.exaReservations] at hother
    rcases KeyedList.mem_upsert hrow with rfl | hrow
    · rw [hid]
      exact fun heq => KeyedList.lookup_eq_none_iff.mp h.fresh other hother heq.symm
    · exact h.apart row hrow other hother
  accounts row hrow := by
    dsimp only at hrow ⊢
    by_cases hmonth : row.monthStart = month
    · rw [hmonth, hgranted.account]
      rfl
    · rw [hgranted.others _ hmonth]
      rw [hgranted.reservations] at hrow
      rcases KeyedList.mem_upsert hrow with rfl | hrow
      · exact absurd rfl hmonth
      · exact h.accounts row hrow
  quotas row hrow := by
    dsimp only at hrow ⊢
    rw [BudgetTables.quota?_of_exaQuotas hgranted.exaQuotas]
    rw [hgranted.exaReservations] at hrow
    exact h.quotas row hrow

theorem isSome_quota?_of_others {after : BudgetTables} {quota : MonthlyExaQuota}
    (hquota : after.quota? month = some quota)
    (hothers : ∀ other, other ≠ month → after.quota? other = guard.tables.quota? other)
    {other : Month} (h : other = month ∨ (guard.tables.quota? other).isSome) :
    (after.quota? other).isSome := by
  by_cases hmonth : other = month
  · rw [hmonth, hquota]
    rfl
  · rw [hothers other hmonth]
    exact h.resolve_left hmonth

/-- A granted search. -/
theorem Coherent.grantedExa (h : guard.Coherent ids) (hid : reservation.id = ids.hex guard.drawn)
    (hgranted : BudgetTables.GrantedExa guard.tables reservation month tables) :
    Coherent ids ⟨tables, guard.drawn + 1⟩ where
  keyed := by
    have hkeyed := h.keyed.mono (Nat.le_succ guard.drawn)
    dsimp only
    refine ⟨?_, ?_, ?_⟩ <;> rw [hgranted.reservations]
    · exact hkeyed.unique
    · exact hkeyed.drawn
    · exact hkeyed.estimates_nonneg
  drawnExa row hrow := by
    dsimp only at hrow
    rw [hgranted.exaReservations] at hrow
    rcases KeyedList.mem_upsert hrow with rfl | hrow
    · exact ⟨guard.drawn, Nat.lt_succ_self _, hid⟩
    · obtain ⟨n, hn, hdrawn⟩ := h.drawnExa row hrow
      exact ⟨n, hn.trans (Nat.lt_succ_self _), hdrawn⟩
  apart row hrow other hother := by
    dsimp only at hrow hother
    rw [hgranted.reservations] at hrow
    rw [hgranted.exaReservations] at hother
    rcases KeyedList.mem_upsert hother with rfl | hother
    · rw [hid]
      exact KeyedList.lookup_eq_none_iff.mp h.keyed.lookup_fresh row hrow
    · exact h.apart row hrow other hother
  accounts row hrow := by
    dsimp only at hrow ⊢
    rw [BudgetTables.account?_of_budgets hgranted.budgets]
    rw [hgranted.reservations] at hrow
    exact h.accounts row hrow
  quotas row hrow := by
    dsimp only at hrow ⊢
    obtain ⟨quota, hquota, -⟩ := hgranted.quota
    rw [hgranted.exaReservations] at hrow
    refine isSome_quota?_of_others hquota hgranted.others ?_
    rcases KeyedList.mem_upsert hrow with rfl | hrow
    · exact .inl rfl
    · exact .inr (h.quotas row hrow)

/-- A reconciled reservation of dollars. -/
theorem Coherent.reconciled (h : guard.Coherent ids) {row : ProviderBudgetReservation}
    {account : MonthAccount} {billed nominal : ℤ} (hrow : row ∈ guard.tables.reservations)
    (hreconciled : BudgetTables.Reconciled guard.tables row account month billed nominal tables) :
    Coherent ids ⟨tables, guard.drawn⟩ := by
  have hmem : ∀ other ∈ tables.reservations, ∃ old ∈ guard.tables.reservations,
      other.id = old.id ∧ other.monthStart = old.monthStart := by
    intro other hother
    rw [hreconciled.reservations] at hother
    rcases KeyedList.mem_upsert hother with rfl | hother
    · exact ⟨row, hrow, rfl, rfl⟩
    · exact ⟨other, hother, rfl, rfl⟩
  constructor
  case keyed => exact h.keyed.reconciled hrow hreconciled
  case drawnExa =>
    dsimp only
    rw [hreconciled.exaReservations]
    exact h.drawnExa
  case apart =>
    intro other hother exa hexa
    dsimp only at hother hexa
    obtain ⟨old, hold, hid, -⟩ := hmem other hother
    rw [hreconciled.exaReservations] at hexa
    rw [hid]
    exact h.apart old hold exa hexa
  case accounts =>
    intro other hother
    dsimp only at hother ⊢
    obtain ⟨old, hold, -, hstart⟩ := hmem other hother
    by_cases hmonth : other.monthStart = month
    · rw [hmonth, hreconciled.account]
      rfl
    · rw [hreconciled.others _ hmonth, hstart]
      exact h.accounts old hold
  case quotas =>
    intro exa hexa
    dsimp only at hexa ⊢
    rw [BudgetTables.quota?_of_exaQuotas hreconciled.exaQuotas]
    rw [hreconciled.exaReservations] at hexa
    exact h.quotas exa hexa

/-- A reconciled search. -/
theorem Coherent.reconciledExa (h : guard.Coherent ids) {row : ExaQuotaReservation}
    {quota : MonthlyExaQuota} {billed requests : ℤ} {credits : ℚ}
    (hrow : row ∈ guard.tables.exaReservations)
    (hreconciled : BudgetTables.ReconciledExa guard.tables row quota month billed requests credits
      tables) : Coherent ids ⟨tables, guard.drawn⟩ := by
  have hmem : ∀ other ∈ tables.exaReservations, ∃ old ∈ guard.tables.exaReservations,
      other.id = old.id ∧ other.monthStart = old.monthStart := by
    intro other hother
    rw [hreconciled.exaReservations] at hother
    rcases KeyedList.mem_upsert hother with rfl | hother
    · exact ⟨row, hrow, rfl, rfl⟩
    · exact ⟨other, hother, rfl, rfl⟩
  constructor
  case keyed =>
    dsimp only
    refine ⟨?_, ?_, ?_⟩ <;> rw [hreconciled.reservations]
    · exact h.keyed.unique
    · exact h.keyed.drawn
    · exact h.keyed.estimates_nonneg
  case drawnExa =>
    intro other hother
    obtain ⟨old, hold, hid, -⟩ := hmem other hother
    rw [hid]
    exact h.drawnExa old hold
  case apart =>
    intro dollar hdollar other hother
    dsimp only at hdollar hother
    obtain ⟨old, hold, hid, -⟩ := hmem other hother
    rw [hreconciled.reservations] at hdollar
    rw [hid]
    exact h.apart dollar hdollar old hold
  case accounts =>
    intro dollar hdollar
    dsimp only at hdollar ⊢
    rw [BudgetTables.account?_of_budgets hreconciled.budgets]
    rw [hreconciled.reservations] at hdollar
    exact h.accounts dollar hdollar
  case quotas =>
    intro other hother
    dsimp only at hother ⊢
    obtain ⟨old, hold, -, hstart⟩ := hmem other hother
    obtain ⟨updated, hupdated, -⟩ := hreconciled.quota
    refine isSome_quota?_of_others hupdated hreconciled.others (.inr ?_)
    rw [hstart]
    exact h.quotas old hold

/-! ## Every call -/

theorem Coherent.lookup_none_of_exa (h : guard.Coherent ids) {row : ExaQuotaReservation}
    (hrow : row ∈ guard.tables.exaReservations) :
    KeyedList.lookup ProviderBudgetReservation.id row.id guard.tables.reservations = none :=
  KeyedList.lookup_eq_none_iff.mpr fun other hother => h.apart other hother row hrow

theorem spentIn_granted (hgranted : BudgetTables.Granted terms guard.tables reservation month tables)
    (other : Month) : tables.spentIn other = guard.tables.spentIn other := by
  unfold BudgetTables.spentIn
  rw [BudgetTables.quota?_of_exaQuotas hgranted.exaQuotas]
  by_cases hmonth : other = month
  · subst hmonth
    rw [hgranted.account, BudgetTables.accountIn]
    cases guard.tables.account? other with
    | none => rfl
    | some account => rfl
  · rw [hgranted.others other hmonth]

theorem spentIn_grantedExa (hgranted : BudgetTables.GrantedExa guard.tables reservation month tables)
    (other : Month) : tables.spentIn other = guard.tables.spentIn other := by
  unfold BudgetTables.spentIn
  rw [BudgetTables.account?_of_budgets hgranted.budgets]
  by_cases hmonth : other = month
  · subst hmonth
    obtain ⟨quota, hquota, hsame⟩ := hgranted.quota
    rw [hquota, Option.elim_some, hsame]
  · rw [hgranted.others other hmonth]

theorem spentIn_reconciled {row : ProviderBudgetReservation} {account : MonthAccount}
    {billed nominal : ℤ} (haccount : guard.tables.account? month = some account)
    (hreconciled : BudgetTables.Reconciled guard.tables row account month billed nominal tables)
    (other : Month) : tables.spentIn other =
      if other = month then guard.tables.spentIn other + billed
      else guard.tables.spentIn other := by
  unfold BudgetTables.spentIn
  rw [BudgetTables.quota?_of_exaQuotas hreconciled.exaQuotas]
  split
  next hmonth =>
    subst hmonth
    rw [hreconciled.account, haccount, Option.elim_some, Option.elim_some,
      MonthAccount.reconciled, add_right_comm]
  next hmonth => rw [hreconciled.others other hmonth]

theorem spentIn_reconciledExa {row : ExaQuotaReservation} {quota : MonthlyExaQuota}
    {billed requests : ℤ} {credits : ℚ} (hquota : guard.tables.quota? month = some quota)
    (hreconciled : BudgetTables.ReconciledExa guard.tables row quota month billed requests credits
      tables) (other : Month) : tables.spentIn other =
      if other = month then guard.tables.spentIn other + billed
      else guard.tables.spentIn other := by
  unfold BudgetTables.spentIn
  rw [BudgetTables.account?_of_budgets hreconciled.budgets]
  split
  next hmonth =>
    subst hmonth
    obtain ⟨updated, hupdated, hsum⟩ := hreconciled.quota
    rw [hupdated, hquota, Option.elim_some, Option.elim_some, hsum, add_assoc]
  next hmonth => rw [hreconciled.others other hmonth]

theorem checkUsage_eq_ok {requests : ℤ} {credits : DecimalValue} {message : String} {value : ℚ}
    (h : checkUsage requests credits message = .ok value) : credits = .finite value := by
  cases credits with
  | finite credits =>
      unfold checkUsage at h
      obtain ⟨-, h⟩ := Checks.ite_error_eq_ok.mp h
      cases h
      rfl
  | infinity negative => cases h
  | nan => cases h

/-- Reserving does one of the steps, and keeps the tables coherent. -/
theorem Coherent.reserve (h : guard.Coherent ids) (provider : String) (estimate requests : ℤ)
    (credits : DecimalValue) :
    Stepped ids guard clock (.reserve provider estimate requests credits)
        (guard.reserve terms ids clock provider estimate requests credits).1
        ((guard.reserve terms ids clock provider estimate requests credits).2.map some) ∧
      Coherent ids (guard.reserve terms ids clock provider estimate requests credits).1 := by
  unfold PostgresBudgetGuard.reserve
  split
  next failure hfailure => exact ⟨.raised _ _ failure (le_refl _) nofun, h⟩
  next value month hchecks =>
    have hparts : ¬ (provider = "" ∨ estimate < 0) ∧ credits = .finite value ∧
        awareMonth (clock 0) = .ok month := by
      by_cases hargs : provider = "" ∨ estimate < 0
      · rw [if_pos hargs] at hchecks
        cases hchecks
      · rw [if_neg hargs] at hchecks
        obtain ⟨usage, husage, hchecks⟩ := Checks.bind_eq_ok.mp hchecks
        obtain ⟨_, hmonth, hchecks⟩ := Checks.bind_eq_ok.mp hchecks
        cases hchecks
        exact ⟨hargs, checkUsage_eq_ok husage, hmonth⟩
    obtain ⟨hargs, rfl, hmonth⟩ := hparts
    dsimp only
    by_cases hexa : provider = "exa"
    · rw [if_pos hexa]
      split
      next failure hfailure =>
        exact ⟨.raised _ _ failure (Nat.le_succ _) nofun, h.drawMore (Nat.le_succ _)⟩
      next tables htables =>
        obtain ⟨hrequests, hcredits, hgranted⟩ := BudgetTables.reserveExa_eq_ok htables
        refine ⟨.granted provider estimate requests (.finite value) month tables hmonth ?_
          (spentIn_grantedExa hgranted), h.grantedExa rfl hgranted⟩
        intro id
        rw [BudgetTables.booking?_of_exaReservations hgranted.exaReservations hgranted.reservations
          h.keyed.lookup_fresh]
        dsimp only at hrequests hcredits
        rw [ExaQuotaReservation.booking, BudgetReservation.booking, hrequests, hcredits,
          decide_eq_true hexa]
    · rw [if_neg hexa]
      split
      next failure hfailure =>
        exact ⟨.raised _ _ failure (Nat.le_succ _) nofun, h.drawMore (Nat.le_succ _)⟩
      next tables htables =>
        obtain ⟨hcounts, htables⟩ := Checks.ite_error_eq_ok.mp htables
        obtain ⟨hrequests, hcredits⟩ := not_or.mp hcounts
        have hgranted := BudgetTables.reserveDollars_eq_ok htables
        refine ⟨.granted provider estimate requests (.finite value) month tables hmonth ?_
          (spentIn_granted hgranted), h.granted rfl (by dsimp only; omega) hgranted⟩
        intro id
        rw [BudgetTables.booking?_of_reservations hgranted.reservations hgranted.exaReservations,
          ProviderBudgetReservation.booking, BudgetReservation.booking, not_not.mp hrequests,
          not_not.mp hcredits, decide_eq_false hexa]

theorem checkUsage_not_exceeded {requests : ℤ} {credits : DecimalValue} {message : String}
    {failure : BudgetFailure} (h : checkUsage requests credits message = .error failure) :
    failure.isExceeded = false := by
  unfold checkUsage at h
  split at h
  · split at h
    · cases h
      rfl
    · cases h
  · cases h
    rfl
  · cases h
    rfl

theorem awareMonth_not_exceeded {now : Datetime} {failure : BudgetFailure}
    (h : awareMonth now = .error failure) : failure.isExceeded = false := by
  unfold awareMonth at h
  split at h
  · cases h
    rfl
  · split at h
    · cases h
      rfl
    · cases h

/-- The reconciliation of a guard up to what it raises after its transaction. -/
def reconcileTables (terms : GuardTerms) (clock : ℕ → Datetime) (guard : PostgresBudgetGuard)
    (reservation : BudgetReservation) (billed nominal requests : ℤ) (credits : DecimalValue) :
    Except BudgetFailure (BudgetTables × Bool) := do
  if billed < 0 ∨ nominal < 0 then .error (.valueError "provider costs cannot be negative")
  let value ← checkUsage requests credits "provider usage cannot be negative"
  let month ← awareMonth (clock 0)
  if reservation.provider = "exa" then
    guard.tables.reconcileExa reservation month billed nominal requests value
  else if requests ≠ 0 ∨ value ≠ 0 then
    .error (.valueError "only Exa has request and credit reconciliation")
  else guard.tables.reconcileDollars terms reservation month billed nominal

section reconcile

variable {billed nominal requests : ℤ} {credits : DecimalValue}

theorem reconcile_eq :
    guard.reconcile terms clock reservation billed nominal requests credits =
      match reconcileTables terms clock guard reservation billed nominal requests credits with
      | .error failure => (guard, .error failure)
      | .ok (tables, halted) => ({ guard with tables := tables },
          if halted then .error (.exceeded (if reservation.provider = "exa" then
              "Exa usage recorded; the monthly Exa circuit is halted"
            else "actual cost recorded; monthly circuit is now halted"))
          else .ok ()) :=
  rfl

theorem reconcileTables_not_exceeded {failure : BudgetFailure}
    (h : reconcileTables terms clock guard reservation billed nominal requests credits =
      .error failure) : failure.isExceeded = false := by
  unfold reconcileTables at h
  by_cases hargs : billed < 0 ∨ nominal < 0
  · rw [if_pos hargs] at h
    cases h
    rfl
  rw [if_neg hargs] at h
  rcases Checks.bind_eq_error.mp h with h | ⟨value, -, h⟩
  · exact checkUsage_not_exceeded h
  rcases Checks.bind_eq_error.mp h with h | ⟨month, -, h⟩
  · exact awareMonth_not_exceeded h
  split at h
  · exact BudgetTables.reconcileExa_not_exceeded h
  · split at h
    · cases h
      rfl
    · exact BudgetTables.reconcileDollars_not_exceeded h

/-- What a reconciliation that is recorded has found and done. -/
theorem Coherent.reconcileTables_eq_ok (h : guard.Coherent ids) {halted : Bool}
    (hok : reconcileTables terms clock guard reservation billed nominal requests credits =
      .ok (tables, halted)) :
    ∃ booking, awareMonth (clock 0) = .ok booking.month ∧
      guard.tables.booking? reservation.id = some booking ∧ booking.status = .reserved ∧
      (∀ id, tables.booking? id = if id = reservation.id then
        some { booking with status := .reconciled } else guard.tables.booking? id) ∧
      (∀ other, tables.spentIn other = if other = booking.month then
        guard.tables.spentIn other + billed else guard.tables.spentIn other) ∧
      Coherent ids ⟨tables, guard.drawn⟩ := by
  unfold reconcileTables at hok
  by_cases hargs : billed < 0 ∨ nominal < 0
  · rw [if_pos hargs] at hok
    cases hok
  rw [if_neg hargs] at hok
  obtain ⟨value, -, hok⟩ := Checks.bind_eq_ok.mp hok
  obtain ⟨month, hmonth, hok⟩ := Checks.bind_eq_ok.mp hok
  split at hok
  · obtain ⟨row, quota, hrow, hstatus, hquota, hreconciled⟩ :=
      BudgetTables.reconcileExa_eq_ok hok
    obtain ⟨hlookup, hstart⟩ := BudgetTables.exaReservation?_eq_some.mp hrow
    have hid : row.id = reservation.id := KeyedList.key_of_lookup_eq_some hlookup
    have hmem := KeyedList.mem_of_lookup_eq_some hlookup
    have hnone := h.lookup_none_of_exa hmem
    subst hstart
    refine ⟨row.booking, hmonth, ?_, hstatus, ?_, spentIn_reconciledExa hquota hreconciled,
      h.reconciledExa hmem hreconciled⟩
    · rw [BudgetTables.booking?, hlookup, ← hid, hnone]
      rfl
    · rw [← hid]
      exact BudgetTables.booking?_of_exaReservations hreconciled.exaReservations
        hreconciled.reservations hnone
  · obtain ⟨-, hok⟩ := Checks.ite_error_eq_ok.mp hok
    obtain ⟨row, account, hrow, hstatus, haccount, hreconciled, -⟩ :=
      BudgetTables.reconcileDollars_eq_ok h.keyed.unique hok
    obtain ⟨hlookup, hstart⟩ := BudgetTables.reservation?_eq_some.mp hrow
    have hid : row.id = reservation.id := KeyedList.key_of_lookup_eq_some hlookup
    have hmem := KeyedList.mem_of_lookup_eq_some hlookup
    subst hstart
    refine ⟨row.booking, hmonth, ?_, hstatus, ?_, spentIn_reconciled haccount hreconciled,
      h.reconciled hmem hreconciled⟩
    · rw [BudgetTables.booking?, hlookup]
      rfl
    · rw [← hid]
      exact BudgetTables.booking?_of_reservations hreconciled.reservations
        hreconciled.exaReservations

/-- Reconciling does one of the steps, and keeps the tables coherent. -/
theorem Coherent.reconcile (h : guard.Coherent ids) :
    Stepped ids guard clock (.reconcile reservation billed nominal requests credits)
        (guard.reconcile terms clock reservation billed nominal requests credits).1
        ((guard.reconcile terms clock reservation billed nominal requests credits).2.map
          fun _ => none) ∧
      Coherent ids (guard.reconcile terms clock reservation billed nominal requests credits).1 := by
  rw [reconcile_eq]
  cases hresult : reconcileTables terms clock guard reservation billed nominal requests credits with
  | error failure =>
      exact ⟨.raised _ _ failure (le_refl _) fun _ => reconcileTables_not_exceeded hresult, h⟩
  | ok result =>
      obtain ⟨tables, halted⟩ := result
      obtain ⟨booking, hclock, hbooking, hstatus, hbookings, hspent, hcoherent⟩ :=
        h.reconcileTables_eq_ok hresult
      refine ⟨.reconciled reservation billed nominal requests credits booking tables _ hclock hbooking
        hstatus hbookings hspent ?_, hcoherent⟩
      cases halted with
      | false => exact .inl rfl
      | true => exact .inr ⟨_, rfl⟩

end reconcile

theorem Coherent.step (terms : GuardTerms) (h : guard.Coherent ids) (timed : TimedCall) :
    Stepped ids guard timed.clock timed.call (guard.step terms ids timed).1
        (guard.step terms ids timed).2 ∧
      Coherent ids (guard.step terms ids timed).1 := by
  unfold PostgresBudgetGuard.step
  cases timed.call with
  | reserve provider estimate requests credits =>
      exact h.reserve provider estimate requests credits
  | reconcile reservation billed nominal requests credits => exact h.reconcile

end PostgresBudgetGuard

end VTrade
