/-
# The monthly budget in the database

The guard of the production workers keeps a row for every month and a row for every
reservation, and looks at them in one transaction for each call.  A month in which a
reconciliation has exceeded the limit is halted for good.  Exa's searches are counted against a
monthly quota of requests and credits, in tables of their own.

A call that raises inside its transaction leaves the tables as they were.  A reconciliation that
exceeds the limit raises only after its transaction.
-/

import VTrade.Budget
import VTrade.Schema
import Mathlib.Algebra.Order.Floor.Ring
import Mathlib.Data.Rat.Floor

namespace VTrade

/-! ## Tables -/

/-- The limit and the thresholds that a guard is built with. -/
structure GuardTerms where
  limitMicros : ℤ
  thresholds : ℤ × ℤ × ℤ
  limit_pos : 0 < limitMicros
  thresholds_sorted : thresholds.1 ≤ thresholds.2.1 ∧ thresholds.2.1 ≤ thresholds.2.2

/-- A row of `monthly_provider_budgets`. -/
structure MonthlyProviderBudget where
  monthStart : Month
  limitMicros : ℤ
  billedCostMicros : ℤ
  nominalCostMicros : ℤ
  halted : Bool
  /-- `alerted_20`, `alerted_32` and `alerted_40`. -/
  alerted : Bool × Bool × Bool
  deriving DecidableEq

/-- What a month's row says, apart from the alerts. -/
structure MonthAccount where
  limitMicros : ℤ
  billedCostMicros : ℤ
  nominalCostMicros : ℤ
  halted : Bool
  deriving DecidableEq

def MonthlyProviderBudget.account (row : MonthlyProviderBudget) : MonthAccount :=
  ⟨row.limitMicros, row.billedCostMicros, row.nominalCostMicros, row.halted⟩

/-- An amount of a reconciliation does not fit its column.  The sum with what is pending is not
computed once the month is halted. -/
def MonthAccount.Overflows (account : MonthAccount) (billed nominal pending : ℤ) : Prop :=
  ¬ FitsBigint billed ∨ ¬ FitsBigint nominal ∨
    (account.halted = false ∧ ¬ FitsBigint (account.billedCostMicros + billed + pending)) ∨
    ¬ FitsBigint (account.billedCostMicros + billed) ∨
    ¬ FitsBigint (account.nominalCostMicros + nominal)

instance (account : MonthAccount) (billed nominal pending : ℤ) :
    Decidable (account.Overflows billed nominal pending) :=
  inferInstanceAs (Decidable (_ ∨ _))

inductive ReservationStatus
  | reserved | reconciled
  deriving DecidableEq

/-- A row of `provider_budget_reservations`. -/
structure ProviderBudgetReservation where
  id : String
  monthStart : Month
  provider : String
  estimatedCostMicros : ℤ
  status : ReservationStatus
  billedCostMicros : Option ℤ
  nominalCostMicros : Option ℤ
  deriving DecidableEq

/-- A row of `monthly_exa_quotas`. -/
structure MonthlyExaQuota where
  monthStart : Month
  requestLimit : ℤ
  creditLimit : ℚ
  requestCount : ℤ
  creditCount : ℚ
  nominalCostMicros : ℤ
  unexpectedBilledCostMicros : ℤ
  halted : Bool
  deriving DecidableEq

/-- A row of `exa_quota_reservations`. -/
structure ExaQuotaReservation where
  id : String
  monthStart : Month
  requestKey : String
  estimatedUnits : ℤ
  reservedRequestCount : ℤ
  reservedCreditCount : ℚ
  nominalCostMicros : ℤ
  status : ReservationStatus
  actualRequestCount : Option ℤ
  actualCreditCount : Option ℚ
  billedCostMicros : Option ℤ
  deriving DecidableEq

/-- An alert that a guard opens. -/
inductive BudgetNotice
  | threshold (month : Month) (threshold projectedMicros : ℤ) (critical : Bool)
  | exaUnexpectedBilledCost (month : Month) (billedCostMicros : ℤ) (reservationId : String)
  | exaCreditReservationExceeded (month : Month) (actual reserved : DecimalValue)
      (reservationId : String)
  | exaMonthlyQuotaExceeded (month : Month) (requestCount : ℤ) (creditCount : ℚ)
  deriving DecidableEq

structure BudgetTables where
  budgets : List MonthlyProviderBudget
  reservations : List ProviderBudgetReservation
  exaQuotas : List MonthlyExaQuota
  exaReservations : List ExaQuotaReservation
  notices : List BudgetNotice

/-- What a `bigint` column takes. -/
def requireBigint (value : ℤ) : Except BudgetFailure Unit :=
  if FitsBigint value then .ok () else .error (.databaseError "bigint out of range")

theorem requireBigint_of_not {value : ℤ} (h : ¬ FitsBigint value) :
    requireBigint value = .error (.databaseError "bigint out of range") :=
  if_neg h

/-- A value as a `numeric(18, 2)` column stores it. -/
def toNumeric (value : ℚ) : ℚ := ⌊value * 100 + 1 / 2⌋ / 100

/-- An amount of a reconciled search does not fit its column. -/
def MonthlyExaQuota.Overflows (quota : MonthlyExaQuota) (creditCount : ℚ)
    (billed nominal : ℤ) : Prop :=
  ¬ FitsBigint billed ∨ 10 ^ 16 ≤ toNumeric creditCount ∨
    10 ^ 16 ≤ toNumeric (quota.creditCount + creditCount) ∨
    ¬ FitsBigint (quota.nominalCostMicros + nominal) ∨
    ¬ FitsBigint (quota.unexpectedBilledCostMicros + billed)

instance (quota : MonthlyExaQuota) (creditCount : ℚ) (billed nominal : ℤ) :
    Decidable (quota.Overflows creditCount billed nominal) :=
  inferInstanceAs (Decidable (_ ∨ _))

namespace BudgetTables

/-- No rows. -/
def empty : BudgetTables := ⟨[], [], [], [], []⟩

variable (tables : BudgetTables)

def budget? (month : Month) : Option MonthlyProviderBudget :=
  KeyedList.lookup MonthlyProviderBudget.monthStart month tables.budgets

def quota? (month : Month) : Option MonthlyExaQuota :=
  KeyedList.lookup MonthlyExaQuota.monthStart month tables.exaQuotas

/-- The reservation of an identifier and a month. -/
def reservation? (id : String) (month : Month) : Option ProviderBudgetReservation :=
  (KeyedList.lookup ProviderBudgetReservation.id id tables.reservations).filter
    fun row => decide (row.monthStart = month)

def exaReservation? (id : String) (month : Month) : Option ExaQuotaReservation :=
  (KeyedList.lookup ExaQuotaReservation.id id tables.exaReservations).filter
    fun row => decide (row.monthStart = month)

def setBudget (row : MonthlyProviderBudget) : BudgetTables :=
  { tables with budgets := KeyedList.upsert MonthlyProviderBudget.monthStart row tables.budgets }

def setQuota (row : MonthlyExaQuota) : BudgetTables :=
  { tables with exaQuotas := KeyedList.upsert MonthlyExaQuota.monthStart row tables.exaQuotas }

def setReservation (row : ProviderBudgetReservation) : BudgetTables :=
  { tables with
    reservations := KeyedList.upsert ProviderBudgetReservation.id row tables.reservations }

def setExaReservation (row : ExaQuotaReservation) : BudgetTables :=
  { tables with
    exaReservations := KeyedList.upsert ExaQuotaReservation.id row tables.exaReservations }

/-- The estimates that are reserved in a month. -/
def pendingMicros (month : Month) : ℤ :=
  ((tables.reservations.filter fun row =>
    decide (row.monthStart = month) && decide (row.status = .reserved)).map
      ProviderBudgetReservation.estimatedCostMicros).sum

/-- The requests and the credits that are reserved in a month. -/
def pendingExa (month : Month) : ℤ × ℚ :=
  let rows := tables.exaReservations.filter fun row =>
    decide (row.monthStart = month) && decide (row.status = .reserved)
  ((rows.map ExaQuotaReservation.reservedRequestCount).sum,
    (rows.map ExaQuotaReservation.reservedCreditCount).sum)

/-- `_ensure_budget_row`. -/
def ensureBudgetRow (month : Month) (limit : ℤ) : Except BudgetFailure BudgetTables := do
  requireBigint limit
  match tables.budget? month with
  | some _ => .ok tables
  | none => .ok (tables.setBudget {
      monthStart := month
      limitMicros := limit
      billedCostMicros := 0
      nominalCostMicros := 0
      halted := false
      alerted := (false, false, false) })

/-- `_ensure_exa_quota_row`. -/
def ensureExaQuotaRow (month : Month) : BudgetTables :=
  match tables.quota? month with
  | some _ => tables
  | none => tables.setQuota {
      monthStart := month
      requestLimit := 18000
      creditLimit := 18000
      requestCount := 0
      creditCount := 0
      nominalCostMicros := 0
      unexpectedBilledCostMicros := 0
      halted := false }

/-- `_open_budget_alerts`, for the row of a month. -/
def openBudgetAlerts (terms : GuardTerms) (row : MonthlyProviderBudget) (projected : ℤ) :
    BudgetTables :=
  let (low, middle, high) := terms.thresholds
  let (lowAlerted, middleAlerted, highAlerted) := row.alerted
  let notice (threshold : ℤ) (flagged : Bool) : List BudgetNotice :=
    if threshold ≤ projected ∧ flagged = false then
      [.threshold row.monthStart threshold projected (decide (threshold = high))]
    else []
  { tables.setBudget { row with
      alerted := (lowAlerted || decide (low ≤ projected),
        middleAlerted || decide (middle ≤ projected),
        highAlerted || decide (high ≤ projected)) } with
    notices := tables.notices ++ notice low lowAlerted ++ notice middle middleAlerted ++
      notice high highAlerted }

/-! ## Dollars -/

/-- The transaction of `reserve`. -/
def reserveDollars (terms : GuardTerms) (reservation : BudgetReservation) (month : Month) :
    Except BudgetFailure BudgetTables := do
  let ensured ← tables.ensureBudgetRow month terms.limitMicros
  match ensured.budget? month with
  | none => .error (.runtimeError "monthly budget row disappeared")
  | some row =>
      if row.limitMicros ≠ terms.limitMicros then
        .error (.valueError "monthly budget limit differs from frozen configuration")
      else
        let projected := row.billedCostMicros + ensured.pendingMicros month +
          reservation.estimatedCostMicros
        if row.halted = true ∨ terms.limitMicros < projected then
          .error (.exceeded "pre-request estimate exceeds the monthly circuit breaker")
        else do
          requireBigint reservation.estimatedCostMicros
          .ok ((ensured.setReservation {
              id := reservation.id
              monthStart := month
              provider := reservation.provider
              estimatedCostMicros := reservation.estimatedCostMicros
              status := .reserved
              billedCostMicros := none
              nominalCostMicros := none }).openBudgetAlerts terms row projected)

/-- The transaction of `reconcile`, with whether the month is halted after it. -/
def reconcileDollars (terms : GuardTerms) (reservation : BudgetReservation) (month : Month)
    (billedCostMicros nominalCostMicros : ℤ) : Except BudgetFailure (BudgetTables × Bool) :=
  match tables.reservation? reservation.id month with
  | none => .error (.valueError "unknown or already reconciled budget reservation")
  | some row =>
      if row.status ≠ .reserved then
        .error (.valueError "unknown or already reconciled budget reservation")
      else if row.estimatedCostMicros ≠ reservation.estimatedCostMicros then
        .error (.valueError "budget reservation estimate mismatch")
      else
        let reconciled := tables.setReservation { row with
          status := .reconciled
          billedCostMicros := some billedCostMicros
          nominalCostMicros := some nominalCostMicros }
        let pending := reconciled.pendingMicros month
        match reconciled.budget? month with
        | none => .error (.runtimeError "monthly budget row missing during reconciliation")
        | some budget =>
            if budget.account.Overflows billedCostMicros nominalCostMicros pending then
              .error (.databaseError "bigint out of range")
            else
              let updated := { budget with
                billedCostMicros := budget.billedCostMicros + billedCostMicros
                nominalCostMicros := budget.nominalCostMicros + nominalCostMicros
                halted := budget.halted || decide
                  (budget.limitMicros < budget.billedCostMicros + billedCostMicros + pending) }
              .ok (reconciled.openBudgetAlerts terms updated updated.billedCostMicros,
                updated.halted)

/-! ## Exa -/

/-- `EXA_MAX_CREDITS_PER_SEARCH`. -/
def exaMaxCreditsPerSearch : ℚ := 10

/-- `_reserve_exa`. -/
def reserveExa (reservation : BudgetReservation) (month : Month) :
    Except BudgetFailure BudgetTables :=
  if reservation.reservedRequestCount ≠ 1 ∨
      reservation.reservedCreditCount ≠ .finite exaMaxCreditsPerSearch then
    .error (.valueError "each Exa search must reserve one request and ten worst-case credits")
  else
    let ensured := tables.ensureExaQuotaRow month
    match ensured.quota? month with
    | none => .error (.runtimeError "monthly Exa quota row disappeared")
    | some row =>
        if row.requestLimit ≠ 18000 ∨ row.creditLimit ≠ 18000 then
          .error (.valueError "monthly Exa limits differ from frozen configuration")
        else
          let (pendingRequests, pendingCredits) := ensured.pendingExa month
          let projectedRequests := row.requestCount + pendingRequests + 1
          let projectedCredits := row.creditCount + pendingCredits + exaMaxCreditsPerSearch
          if row.halted = true ∨ 18000 < projectedRequests ∨ 18000 < projectedCredits then
            .error (.exceeded "pre-request Exa monthly request/credit cap reached")
          else do
            requireBigint reservation.estimatedCostMicros
            .ok (ensured.setExaReservation {
              id := reservation.id
              monthStart := month
              requestKey := "exa:" ++ reservation.id
              estimatedUnits := 1
              reservedRequestCount := 1
              reservedCreditCount := exaMaxCreditsPerSearch
              nominalCostMicros := reservation.estimatedCostMicros
              status := .reserved
              actualRequestCount := none
              actualCreditCount := none
              billedCostMicros := none })

/-- `credit_count > reservation.reserved_credit_count`, for a finite count. -/
def creditOverrun (creditCount : ℚ) : DecimalValue → Except BudgetFailure Bool
  | .finite reserved => .ok (decide (reserved < creditCount))
  | .infinity negative => .ok negative
  | .nan => .error .invalidOperation

/-- The alerts that a reconciled search opens. -/
def exaNotices (month : Month) (reservation : BudgetReservation) (billedCostMicros : ℤ)
    (creditCount : ℚ) (overrun : Bool) (quota : MonthlyExaQuota) (pending : ℤ × ℚ) :
    List BudgetNotice :=
  (if 0 < billedCostMicros then
    [.exaUnexpectedBilledCost month billedCostMicros reservation.id] else []) ++
  (if overrun then
    [.exaCreditReservationExceeded month (.finite creditCount) reservation.reservedCreditCount
      reservation.id] else []) ++
  (if 18000 < quota.requestCount + pending.1 ∨ 18000 < quota.creditCount + pending.2 then
    [.exaMonthlyQuotaExceeded month quota.requestCount quota.creditCount] else [])

/-- `_reconcile_exa`, with whether the month is halted after it. -/
def reconcileExa (reservation : BudgetReservation) (month : Month)
    (billedCostMicros nominalCostMicros requestCount : ℤ) (creditCount : ℚ) :
    Except BudgetFailure (BudgetTables × Bool) :=
  if requestCount ≠ 1 then
    .error (.valueError "an Exa search must reconcile exactly one request")
  else do
    let overrun ← creditOverrun creditCount reservation.reservedCreditCount
    match tables.exaReservation? reservation.id month with
    | none => .error (.valueError "unknown or already reconciled Exa quota reservation")
    | some row =>
        if row.status ≠ .reserved then
          .error (.valueError "unknown or already reconciled Exa quota reservation")
        else if row.reservedRequestCount ≠ reservation.reservedRequestCount ∨
            .finite row.reservedCreditCount ≠ reservation.reservedCreditCount ∨
            row.nominalCostMicros ≠ reservation.estimatedCostMicros ∨
            nominalCostMicros ≠ reservation.estimatedCostMicros then
          .error (.valueError "Exa quota reservation mismatch")
        else
          let reconciled := tables.setExaReservation { row with
            status := .reconciled
            actualRequestCount := some requestCount
            actualCreditCount := some (toNumeric creditCount)
            billedCostMicros := some billedCostMicros }
          let pending := reconciled.pendingExa month
          match reconciled.quota? month with
          | none => .error (.runtimeError "monthly Exa quota row missing during reconciliation")
          | some quota =>
              if quota.Overflows creditCount billedCostMicros nominalCostMicros then
                .error (.databaseError "value out of range")
              else
                let updated := { quota with
                  requestCount := quota.requestCount + requestCount
                  creditCount := toNumeric (quota.creditCount + creditCount)
                  nominalCostMicros := quota.nominalCostMicros + nominalCostMicros
                  unexpectedBilledCostMicros :=
                    quota.unexpectedBilledCostMicros + billedCostMicros
                  halted := quota.halted || decide (0 < billedCostMicros) || overrun ||
                    decide (quota.requestLimit < quota.requestCount + requestCount + pending.1) ||
                    decide (quota.creditLimit < quota.creditCount + creditCount + pending.2) }
                .ok ({ reconciled.setQuota updated with
                    notices := reconciled.notices ++ exaNotices month reservation
                      billedCostMicros creditCount overrun updated pending },
                  updated.halted)

end BudgetTables

/-! ## The guard -/

/-- The tables, with the number of identifiers that the guard has drawn. -/
structure PostgresBudgetGuard where
  tables : BudgetTables
  drawn : ℕ

namespace PostgresBudgetGuard

/-- No rows, and nothing drawn. -/
def start : PostgresBudgetGuard := ⟨.empty, 0⟩

variable (terms : GuardTerms) (ids : RandomIds) (clock : ℕ → Datetime)
  (guard : PostgresBudgetGuard)

/-- `_aware` of a moment, and the month of it. -/
def awareMonth (now : Datetime) : Except BudgetFailure Month :=
  if now.isAware = false then .error (.valueError "timestamps must be timezone-aware")
  else
    match Datetime.utc now.instant with
    | none => .error .overflowError
    | some utc => .ok (utc.year, utc.month)

/-- `credit_count` of a call, unless a count is negative or no number. -/
def checkUsage (requestCount : ℤ) (creditCount : DecimalValue) (message : String) :
    Except BudgetFailure ℚ :=
  match creditCount with
  | .finite credits =>
      if requestCount < 0 ∨ credits < 0 then .error (.valueError message) else .ok credits
  | .infinity _ | .nan => .error (.valueError message)

/-- `reserve`. -/
def reserve (provider : String) (estimatedCostMicros requestCount : ℤ)
    (creditCount : DecimalValue) :
    PostgresBudgetGuard × Except BudgetFailure BudgetReservation :=
  match (do
    if provider = "" ∨ estimatedCostMicros < 0 then
      .error (.valueError "provider and non-negative estimate are required")
    let credits ← checkUsage requestCount creditCount
      "provider usage reservations cannot be negative"
    let month ← awareMonth (clock 0)
    .ok (credits, month) : Except BudgetFailure (ℚ × Month)) with
  | .error failure => (guard, .error failure)
  | .ok (credits, month) =>
      let reservation : BudgetReservation := {
        id := ids.hex guard.drawn
        estimatedCostMicros := estimatedCostMicros
        provider := provider
        reservedRequestCount := requestCount
        reservedCreditCount := creditCount }
      match (if provider = "exa" then guard.tables.reserveExa reservation month
        else if requestCount ≠ 0 ∨ credits ≠ 0 then
          .error (.valueError "only Exa has request and credit reservations")
        else guard.tables.reserveDollars terms reservation month) with
      | .error failure => ({ guard with drawn := guard.drawn + 1 }, .error failure)
      | .ok tables => (⟨tables, guard.drawn + 1⟩, .ok reservation)

/-- `reconcile`. -/
def reconcile (reservation : BudgetReservation)
    (billedCostMicros nominalCostMicros requestCount : ℤ) (creditCount : DecimalValue) :
    PostgresBudgetGuard × Except BudgetFailure Unit :=
  match (do
    if billedCostMicros < 0 ∨ nominalCostMicros < 0 then
      .error (.valueError "provider costs cannot be negative")
    let credits ← checkUsage requestCount creditCount "provider usage cannot be negative"
    let month ← awareMonth (clock 0)
    if reservation.provider = "exa" then
      guard.tables.reconcileExa reservation month billedCostMicros nominalCostMicros requestCount
        credits
    else if requestCount ≠ 0 ∨ credits ≠ 0 then
      .error (.valueError "only Exa has request and credit reconciliation")
    else guard.tables.reconcileDollars terms reservation month billedCostMicros nominalCostMicros :
    Except BudgetFailure (BudgetTables × Bool)) with
  | .error failure => (guard, .error failure)
  | .ok (tables, halted) => ({ guard with tables := tables },
      if halted then .error (.exceeded (if reservation.provider = "exa" then
          "Exa usage recorded; the monthly Exa circuit is halted"
        else "actual cost recorded; monthly circuit is now halted"))
      else .ok ())

/-- A call of the guard. -/
def step (timed : TimedCall) : PostgresBudgetGuard × BudgetAnswer :=
  match timed.call with
  | .reserve provider estimatedCostMicros requestCount creditCount =>
      let (after, answer) := guard.reserve terms ids timed.clock provider estimatedCostMicros
        requestCount creditCount
      (after, answer.map some)
  | .reconcile reservation billedCostMicros nominalCostMicros requestCount creditCount =>
      let (after, answer) := guard.reconcile terms timed.clock reservation billedCostMicros
        nominalCostMicros requestCount creditCount
      (after, answer.map fun _ => none)

end PostgresBudgetGuard

/-! ## What the transactions on dollars do -/

theorem BudgetTables.budget?_setBudget (tables : BudgetTables) (row : MonthlyProviderBudget) :
    (tables.setBudget row).budget? row.monthStart = some row :=
  KeyedList.lookup_upsert_self row tables.budgets

/-- The account of a month that has no row. -/
def GuardTerms.fresh (terms : GuardTerms) : MonthAccount := ⟨terms.limitMicros, 0, 0, false⟩

/-- An account after costs have been reconciled while so much is pending. -/
def MonthAccount.reconciled (account : MonthAccount) (billed nominal pending : ℤ) :
    MonthAccount where
  limitMicros := account.limitMicros
  billedCostMicros := account.billedCostMicros + billed
  nominalCostMicros := account.nominalCostMicros + nominal
  halted := account.halted ||
    decide (account.limitMicros < account.billedCostMicros + billed + pending)

namespace BudgetTables

variable (tables : BudgetTables)

def account? (month : Month) : Option MonthAccount :=
  (tables.budget? month).map MonthlyProviderBudget.account

/-- The account of a month, as it is once its row exists. -/
def accountIn (terms : GuardTerms) (month : Month) : MonthAccount :=
  (tables.account? month).getD terms.fresh

variable {tables} {terms : GuardTerms}

theorem account?_setBudget (row : MonthlyProviderBudget) (month : Month) :
    (tables.setBudget row).account? month =
      if month = row.monthStart then some row.account else tables.account? month := by
  split
  next h =>
    subst h
    exact congrArg (Option.map MonthlyProviderBudget.account) (budget?_setBudget tables row)
  next h =>
    unfold account? budget? setBudget
    rw [KeyedList.lookup_upsert_of_ne h]

theorem openBudgetAlerts_frame (terms : GuardTerms) (tables : BudgetTables)
    (row : MonthlyProviderBudget) (projected : ℤ) :
    ∃ alerted notices, tables.openBudgetAlerts terms row projected =
      { tables.setBudget { row with alerted := alerted } with notices := notices } :=
  ⟨_, _, rfl⟩

/-- Only the row of the month is written. -/
theorem account?_openBudgetAlerts (row : MonthlyProviderBudget) (projected : ℤ) (month : Month) :
    (tables.openBudgetAlerts terms row projected).account? month =
      if month = row.monthStart then some row.account else tables.account? month := by
  obtain ⟨alerted, notices, h⟩ := openBudgetAlerts_frame terms tables row projected
  rw [h]
  exact account?_setBudget { row with alerted := alerted } month

theorem ensureBudgetRow_spec (tables : BudgetTables) (h : FitsBigint terms.limitMicros)
    (month : Month) :
    ∃ ensured row, tables.ensureBudgetRow month terms.limitMicros = .ok ensured ∧
      ensured.budget? month = some row ∧ row.account = tables.accountIn terms month ∧
      (∀ other, other ≠ month → ensured.account? other = tables.account? other) ∧
      ensured.reservations = tables.reservations ∧ ensured.exaQuotas = tables.exaQuotas ∧
      ensured.exaReservations = tables.exaReservations := by
  unfold ensureBudgetRow
  rw [requireBigint, if_pos h]
  dsimp only [bind, Except.bind]
  cases hrow : tables.budget? month with
  | some row =>
      refine ⟨tables, row, rfl, hrow, ?_, fun _ _ => rfl, rfl, rfl, rfl⟩
      rw [accountIn, account?, hrow]
      rfl
  | none =>
      refine ⟨_, ⟨month, terms.limitMicros, 0, 0, false, false, false, false⟩, rfl,
        budget?_setBudget tables _, ?_, ?_, rfl, rfl, rfl⟩
      · rw [accountIn, account?, hrow]
        rfl
      · intro other hother
        exact (account?_setBudget _ other).trans (if_neg hother)

/-- What a granted reservation changes. -/
structure Granted (terms : GuardTerms) (tables : BudgetTables) (reservation : BudgetReservation)
    (month : Month) (after : BudgetTables) : Prop where
  reservations : after.reservations = KeyedList.upsert ProviderBudgetReservation.id
    ⟨reservation.id, month, reservation.provider, reservation.estimatedCostMicros, .reserved,
      none, none⟩ tables.reservations
  account : after.account? month = some (tables.accountIn terms month)
  others : ∀ other, other ≠ month → after.account? other = tables.account? other
  exaQuotas : after.exaQuotas = tables.exaQuotas
  exaReservations : after.exaReservations = tables.exaReservations

/-- Whether a month refuses an estimate. -/
def Refuses (terms : GuardTerms) (tables : BudgetTables) (month : Month) (estimate : ℤ) : Prop :=
  (tables.accountIn terms month).halted = true ∨
    terms.limitMicros < (tables.accountIn terms month).billedCostMicros +
      tables.pendingMicros month + estimate

theorem pendingMicros_congr {tables other : BudgetTables}
    (h : other.reservations = tables.reservations) (month : Month) :
    other.pendingMicros month = tables.pendingMicros month := by
  unfold pendingMicros
  rw [h]

section reserve

variable {reservation : BudgetReservation} {month : Month}

theorem reserveDollars_of_overflow (h : ¬ FitsBigint terms.limitMicros) :
    tables.reserveDollars terms reservation month =
      .error (.databaseError "bigint out of range") := by
  unfold reserveDollars ensureBudgetRow
  rw [requireBigint, if_neg h]
  rfl

theorem reserveDollars_of_refuses (hfits : FitsBigint terms.limitMicros)
    (hlimit : (tables.accountIn terms month).limitMicros = terms.limitMicros)
    (h : tables.Refuses terms month reservation.estimatedCostMicros) :
    tables.reserveDollars terms reservation month =
      .error (.exceeded "pre-request estimate exceeds the monthly circuit breaker") := by
  obtain ⟨ensured, row, hensured, hrow, haccount, -, hreservations, -, -⟩ :=
    ensureBudgetRow_spec tables hfits month
  unfold Refuses at h
  rw [← haccount] at h hlimit
  unfold reserveDollars
  rw [hensured]
  dsimp only [bind, Except.bind]
  rw [hrow]
  dsimp only
  rw [if_neg (show ¬ row.limitMicros ≠ terms.limitMicros from fun hne => hne hlimit),
    pendingMicros_congr hreservations]
  exact if_pos h

theorem reserveDollars_of_not_refuses (reservation : BudgetReservation) (month : Month)
    (hfits : FitsBigint terms.limitMicros)
    (hlimit : (tables.accountIn terms month).limitMicros = terms.limitMicros)
    (h : ¬ tables.Refuses terms month reservation.estimatedCostMicros)
    (hestimate : FitsBigint reservation.estimatedCostMicros) :
    ∃ after, tables.reserveDollars terms reservation month = .ok after ∧
      Granted terms tables reservation month after := by
  obtain ⟨ensured, row, hensured, hrow, haccount, hothers, hreservations, hquotas, hexa⟩ :=
    ensureBudgetRow_spec tables hfits month
  have hmonth : row.monthStart = month := KeyedList.key_of_lookup_eq_some hrow
  unfold Refuses at h
  rw [← haccount] at h hlimit
  have hwithin : ¬ (row.halted = true ∨ terms.limitMicros < row.billedCostMicros +
      tables.pendingMicros month + reservation.estimatedCostMicros) := h
  unfold reserveDollars
  rw [hensured]
  dsimp only [bind, Except.bind]
  rw [hrow]
  dsimp only
  rw [if_neg (show ¬ row.limitMicros ≠ terms.limitMicros from fun hne => hne hlimit),
    pendingMicros_congr hreservations, if_neg hwithin, requireBigint, if_pos hestimate]
  dsimp only
  refine ⟨_, rfl, ?_, ?_, ?_, hquotas, hexa⟩
  · rw [← hreservations]
    rfl
  · rw [account?_openBudgetAlerts, if_pos hmonth.symm, haccount]
  · intro other hother
    rw [account?_openBudgetAlerts, if_neg (by rw [hmonth]; exact hother)]
    exact hothers other hother

end reserve

/-! ## What a reconciliation of dollars does -/

/-- What a row has pending in a month. -/
def pendingOf (month : Month) (row : ProviderBudgetReservation) : ℤ :=
  if row.monthStart = month ∧ row.status = .reserved then row.estimatedCostMicros else 0

theorem pendingMicros_eq_sum (month : Month) :
    tables.pendingMicros month = (tables.reservations.map (pendingOf month)).sum := by
  unfold pendingMicros
  induction tables.reservations with
  | nil => rfl
  | cons row rest ih =>
      rw [List.map_cons, List.sum_cons, ← ih]
      by_cases h : row.monthStart = month ∧ row.status = .reserved
      · rw [List.filter_cons_of_pos (by simp [h.1, h.2]), List.map_cons, List.sum_cons, pendingOf,
          if_pos h]
      · rw [List.filter_cons_of_neg (by simpa using fun hmonth hstatus => h ⟨hmonth, hstatus⟩),
          pendingOf, if_neg h, zero_add]

/-- What writing a row does to what is pending. -/
theorem pendingMicros_setReservation
    (unique : (tables.reservations.map ProviderBudgetReservation.id).Nodup)
    (row : ProviderBudgetReservation) (month : Month) :
    (tables.setReservation row).pendingMicros month +
      (KeyedList.lookup ProviderBudgetReservation.id row.id tables.reservations).elim 0
        (pendingOf month) = tables.pendingMicros month + pendingOf month row := by
  rw [pendingMicros_eq_sum, pendingMicros_eq_sum]
  exact KeyedList.sum_replace unique (KeyedList.upsert_perm unique row) (pendingOf month)

/-- What a reconciled reservation changes. -/
structure Reconciled (tables : BudgetTables) (row : ProviderBudgetReservation)
    (account : MonthAccount) (month : Month) (billed nominal : ℤ) (after : BudgetTables) :
    Prop where
  reservations : after.reservations = KeyedList.upsert ProviderBudgetReservation.id
    { row with
      status := .reconciled
      billedCostMicros := some billed
      nominalCostMicros := some nominal } tables.reservations
  account : after.account? month = some (account.reconciled billed nominal
    (tables.pendingMicros month - row.estimatedCostMicros))
  others : ∀ other, other ≠ month → after.account? other = tables.account? other
  exaQuotas : after.exaQuotas = tables.exaQuotas
  exaReservations : after.exaReservations = tables.exaReservations

section reconcile

variable {reservation : BudgetReservation} {month : Month} {billed nominal : ℤ}

theorem reconcileDollars_of_missing
    (h : ∀ row, tables.reservation? reservation.id month = some row → row.status ≠ .reserved) :
    tables.reconcileDollars terms reservation month billed nominal =
      .error (.valueError "unknown or already reconciled budget reservation") := by
  unfold reconcileDollars
  cases hrow : tables.reservation? reservation.id month with
  | none => rfl
  | some row => exact if_pos (h row hrow)

theorem reservation?_eq_some {id : String} {row : ProviderBudgetReservation} :
    tables.reservation? id month = some row ↔
      KeyedList.lookup ProviderBudgetReservation.id id tables.reservations = some row ∧
        row.monthStart = month := by
  unfold reservation?
  rw [Option.filter_eq_some_iff, decide_eq_true_eq]

theorem pendingMicros_reconciled {id : String} {row : ProviderBudgetReservation}
    (unique : (tables.reservations.map ProviderBudgetReservation.id).Nodup)
    (hrow : tables.reservation? id month = some row) (hstatus : row.status = .reserved)
    (billed nominal : ℤ) :
    (tables.setReservation { row with
      status := .reconciled
      billedCostMicros := some billed
      nominalCostMicros := some nominal }).pendingMicros month =
        tables.pendingMicros month - row.estimatedCostMicros := by
  obtain ⟨hlookup, hmonth⟩ := reservation?_eq_some.mp hrow
  have hsum := pendingMicros_setReservation unique { row with
    status := .reconciled
    billedCostMicros := some billed
    nominalCostMicros := some nominal } month
  rw [show KeyedList.lookup ProviderBudgetReservation.id row.id tables.reservations = some row by
    rw [KeyedList.key_of_lookup_eq_some hlookup, hlookup]] at hsum
  rw [Option.elim_some, pendingOf, if_pos ⟨hmonth, hstatus⟩, pendingOf,
    if_neg (fun h => by cases h.2), add_zero] at hsum
  omega

/-- A reservation that is pending in the month is reconciled, unless an amount does not fit. -/
theorem reconcileDollars_of_pending (terms : GuardTerms) (billed nominal : ℤ)
    {row : ProviderBudgetReservation} {account : MonthAccount}
    (unique : (tables.reservations.map ProviderBudgetReservation.id).Nodup)
    (hrow : tables.reservation? reservation.id month = some row) (hstatus : row.status = .reserved)
    (hestimate : row.estimatedCostMicros = reservation.estimatedCostMicros)
    (haccount : tables.account? month = some account) :
    (account.Overflows billed nominal (tables.pendingMicros month - row.estimatedCostMicros) →
      tables.reconcileDollars terms reservation month billed nominal =
        .error (.databaseError "bigint out of range")) ∧
    (¬ account.Overflows billed nominal (tables.pendingMicros month - row.estimatedCostMicros) →
      ∃ after, tables.reconcileDollars terms reservation month billed nominal = .ok (after,
          (account.reconciled billed nominal
            (tables.pendingMicros month - row.estimatedCostMicros)).halted) ∧
        Reconciled tables row account month billed nominal after) := by
  obtain ⟨hlookup, hmonth⟩ := reservation?_eq_some.mp hrow
  obtain ⟨budget, hbudget, rfl⟩ := Option.map_eq_some_iff.mp haccount
  have hstart : budget.monthStart = month := KeyedList.key_of_lookup_eq_some hbudget
  have hpending := pendingMicros_reconciled unique hrow hstatus billed nominal
  unfold reconcileDollars
  rw [hrow]
  dsimp only
  rw [if_neg (not_not.mpr hstatus), if_neg (not_not.mpr hestimate), hpending,
    show (tables.setReservation { row with
      status := .reconciled
      billedCostMicros := some billed
      nominalCostMicros := some nominal }).budget? month = some budget from hbudget]
  refine ⟨fun h => if_pos h, fun h => ?_⟩
  dsimp only
  rw [if_neg h]
  refine ⟨_, rfl, rfl, ?_, ?_, rfl, rfl⟩
  · rw [account?_openBudgetAlerts, if_pos hstart.symm]
    rfl
  · intro other hother
    rw [account?_openBudgetAlerts, if_neg (by rw [hstart]; exact hother)]
    rfl

/-- What a reconciliation that is recorded has found and done. -/
theorem reconcileDollars_eq_ok {after : BudgetTables} {halted : Bool}
    (unique : (tables.reservations.map ProviderBudgetReservation.id).Nodup)
    (h : tables.reconcileDollars terms reservation month billed nominal = .ok (after, halted)) :
    ∃ row account, tables.reservation? reservation.id month = some row ∧ row.status = .reserved ∧
      tables.account? month = some account ∧
      Reconciled tables row account month billed nominal after ∧
      halted = (account.reconciled billed nominal
        (tables.pendingMicros month - row.estimatedCostMicros)).halted := by
  have hmade := h
  unfold reconcileDollars at h
  split at h
  · cases h
  next row hrow =>
    rw [Checks.ite_error_eq_ok, Checks.ite_error_eq_ok] at h
    obtain ⟨hstatus, hestimate, h⟩ := h
    dsimp only at h
    split at h
    · cases h
    next budget hbudget =>
      have haccount : tables.account? month = some budget.account := by
        rw [account?, show tables.budget? month = some budget from hbudget]
        rfl
      obtain ⟨hoverflows, hfine⟩ := reconcileDollars_of_pending terms billed nominal unique hrow
        (not_not.mp hstatus) (not_not.mp hestimate) haccount
      by_cases hover : budget.account.Overflows billed nominal
          (tables.pendingMicros month - row.estimatedCostMicros)
      · rw [hoverflows hover] at hmade
        cases hmade
      · obtain ⟨after', hafter, hkept⟩ := hfine hover
        rw [hmade] at hafter
        obtain ⟨rfl, rfl⟩ := Prod.mk.inj (Except.ok.inj hafter)
        exact ⟨row, budget.account, hrow, not_not.mp hstatus, haccount, hkept, rfl⟩

/-- Only the guard raises that the budget is exceeded, after its transaction. -/
theorem reconcileDollars_not_exceeded {failure : BudgetFailure}
    (h : tables.reconcileDollars terms reservation month billed nominal = .error failure) :
    failure.isExceeded = false := by
  unfold reconcileDollars at h
  split at h
  · cases h
    rfl
  · split at h
    · cases h
      rfl
    split at h
    · cases h
      rfl
    dsimp only at h
    split at h
    · cases h
      rfl
    split at h
    · cases h
      rfl
    · cases h

end reconcile

end BudgetTables

namespace BudgetTables

variable {tables after : BudgetTables} {terms : GuardTerms} {ids : RandomIds} {drawn : ℕ}
  {month : Month}

/-- The reservations are of identifiers drawn, each of its own, and of no negative amount. -/
structure Keyed (ids : RandomIds) (drawn : ℕ) (tables : BudgetTables) : Prop where
  unique : (tables.reservations.map ProviderBudgetReservation.id).Nodup
  drawn : ∀ row ∈ tables.reservations, ∃ n < drawn, row.id = ids.hex n
  estimates_nonneg : ∀ row ∈ tables.reservations, 0 ≤ row.estimatedCostMicros

theorem keyed_empty : Keyed ids drawn .empty := ⟨by simp [empty], by simp [empty], by simp [empty]⟩

theorem Keyed.mono (h : Keyed ids drawn tables) {later : ℕ} (hle : drawn ≤ later) :
    Keyed ids later tables := by
  refine ⟨h.unique, fun row hrow => ?_, h.estimates_nonneg⟩
  obtain ⟨n, hn, hid⟩ := h.drawn row hrow
  exact ⟨n, by omega, hid⟩

theorem Keyed.pending_nonneg (h : Keyed ids drawn tables) (month : Month) :
    0 ≤ tables.pendingMicros month := by
  unfold pendingMicros
  apply List.sum_nonneg
  intro estimate hmem
  obtain ⟨row, hrow, rfl⟩ := List.mem_map.mp hmem
  exact h.estimates_nonneg row (List.mem_of_mem_filter hrow)

theorem Keyed.lookup_fresh (h : Keyed ids drawn tables) :
    KeyedList.lookup ProviderBudgetReservation.id (ids.hex drawn) tables.reservations = none := by
  rw [KeyedList.lookup_eq_none_iff]
  intro row hrow hid
  obtain ⟨n, hn, hdrawn⟩ := h.drawn row hrow
  exact absurd (ids.injective (hdrawn.symm.trans hid)) (by omega)

section granted

variable {reservation : BudgetReservation}

theorem Keyed.granted (h : Keyed ids drawn tables) (hid : reservation.id = ids.hex drawn)
    (hestimate : 0 ≤ reservation.estimatedCostMicros)
    (hgranted : Granted terms tables reservation month after) : Keyed ids (drawn + 1) after := by
  have hmem : ∀ row ∈ after.reservations, row ∈ tables.reservations ∨
      row.id = ids.hex drawn ∧ 0 ≤ row.estimatedCostMicros := by
    intro row hrow
    rw [hgranted.reservations] at hrow
    rcases KeyedList.mem_upsert hrow with rfl | hrow
    · exact .inr ⟨hid, hestimate⟩
    · exact .inl hrow
  refine ⟨?_, ?_, ?_⟩
  · rw [hgranted.reservations]
    exact KeyedList.nodup_upsert h.unique _
  · intro row hrow
    rcases hmem row hrow with hrow | ⟨hrow, -⟩
    · obtain ⟨n, hn, hdrawn⟩ := h.drawn row hrow
      exact ⟨n, by omega, hdrawn⟩
    · exact ⟨drawn, by omega, hrow⟩
  · intro row hrow
    rcases hmem row hrow with hrow | ⟨-, hrow⟩
    · exact h.estimates_nonneg row hrow
    · exact hrow

/-- A grant adds its estimate to what is pending in its month. -/
theorem Keyed.pending_granted (h : Keyed ids drawn tables) (hid : reservation.id = ids.hex drawn)
    (hgranted : Granted terms tables reservation month after) :
    after.pendingMicros month = tables.pendingMicros month + reservation.estimatedCostMicros := by
  have hsum := pendingMicros_setReservation h.unique
    ⟨reservation.id, month, reservation.provider, reservation.estimatedCostMicros, .reserved,
      none, none⟩ month
  rw [show after.pendingMicros month = (tables.setReservation _).pendingMicros month from
    pendingMicros_congr hgranted.reservations month]
  dsimp only at hsum
  rw [hid, h.lookup_fresh, Option.elim_none, add_zero, pendingOf, if_pos ⟨rfl, rfl⟩] at hsum
  rw [hid]
  exact hsum

end granted

section reconciled

variable {row : ProviderBudgetReservation} {account : MonthAccount} {billed nominal : ℤ}

theorem Keyed.reconciled (h : Keyed ids drawn tables) (hrow : row ∈ tables.reservations)
    (hreconciled : Reconciled tables row account month billed nominal after) :
    Keyed ids drawn after := by
  have hmem : ∀ other ∈ after.reservations, ∃ old ∈ tables.reservations,
      other.id = old.id ∧ other.estimatedCostMicros = old.estimatedCostMicros := by
    intro other hother
    rw [hreconciled.reservations] at hother
    rcases KeyedList.mem_upsert hother with rfl | hother
    · exact ⟨row, hrow, rfl, rfl⟩
    · exact ⟨other, hother, rfl, rfl⟩
  refine ⟨?_, ?_, ?_⟩
  · rw [hreconciled.reservations]
    exact KeyedList.nodup_upsert h.unique _
  · intro other hother
    obtain ⟨old, hold, hid, -⟩ := hmem other hother
    rw [hid]
    exact h.drawn old hold
  · intro other hother
    obtain ⟨old, hold, -, hestimate⟩ := hmem other hother
    rw [hestimate]
    exact h.estimates_nonneg old hold

/-- A reconciliation takes its estimate out of what is pending in its month. -/
theorem Keyed.pending_reconciled (h : Keyed ids drawn tables) {id : String}
    (hrow : tables.reservation? id month = some row) (hstatus : row.status = .reserved)
    (hreconciled : Reconciled tables row account month billed nominal after) :
    after.pendingMicros month = tables.pendingMicros month - row.estimatedCostMicros := by
  rw [show after.pendingMicros month = (tables.setReservation _).pendingMicros month from
    pendingMicros_congr hreconciled.reservations month]
  exact pendingMicros_reconciled h.unique hrow hstatus billed nominal

end reconciled

end BudgetTables

namespace PostgresBudgetGuard

variable {terms : GuardTerms} {ids : RandomIds} {clock : ℕ → Datetime}
  {guard : PostgresBudgetGuard}

theorem checkUsage_zero (message : String) : checkUsage 0 (.finite 0) message = .ok 0 := by
  unfold checkUsage
  exact if_neg (by simp)

/-- A well-formed reservation of dollars is decided by its transaction. -/
theorem reserve_dollars {provider : String} {estimate : ℤ} {month : Month}
    (hprovider : provider ≠ "exa") (hargs : ¬ (provider = "" ∨ estimate < 0))
    (hmonth : awareMonth (clock 0) = .ok month) :
    guard.reserve terms ids clock provider estimate 0 (.finite 0) =
      match guard.tables.reserveDollars terms
        ⟨ids.hex guard.drawn, estimate, provider, 0, .finite 0⟩ month with
      | .error failure => ({ guard with drawn := guard.drawn + 1 }, .error failure)
      | .ok tables => (⟨tables, guard.drawn + 1⟩,
          .ok ⟨ids.hex guard.drawn, estimate, provider, 0, .finite 0⟩) := by
  unfold reserve
  rw [if_neg hargs, checkUsage_zero, hmonth]
  dsimp only [bind, Except.bind, pure, Except.pure]
  rw [if_neg hprovider, if_neg (by simp)]

/-- A well-formed reconciliation of dollars is decided by its transaction. -/
theorem reconcile_dollars {reservation : BudgetReservation} {billed nominal : ℤ} {month : Month}
    (hprovider : reservation.provider ≠ "exa") (hargs : ¬ (billed < 0 ∨ nominal < 0))
    (hmonth : awareMonth (clock 0) = .ok month) :
    guard.reconcile terms clock reservation billed nominal 0 (.finite 0) =
      match guard.tables.reconcileDollars terms reservation month billed nominal with
      | .error failure => (guard, .error failure)
      | .ok (tables, halted) => ({ guard with tables := tables },
          if halted then .error (.exceeded "actual cost recorded; monthly circuit is now halted")
          else .ok ()) := by
  unfold reconcile
  rw [if_neg hargs, checkUsage_zero, hmonth]
  dsimp only [bind, Except.bind, pure, Except.pure]
  rw [if_neg hprovider, if_neg (by simp), if_neg hprovider]

end PostgresBudgetGuard

end VTrade
