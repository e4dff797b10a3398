/-
# The monthly budget

A provider call is made under a reservation of what it is estimated to cost, and is reconciled
with what it has cost.  The circuit breaker grants a reservation while what has been billed in
the month and what is reserved stay within the limit.  At the first call of another month it
starts afresh.

Exa is billed in requests and credits: its calls take no part in the dollars.
-/

import VTrade.CycleLeases
import Mathlib.Data.Rat.Defs
import Mathlib.Algebra.Order.Ring.Unbundled.Rat

namespace VTrade

/-! ## Calls and answers -/

/-- What the calls of a budget raise. -/
inductive BudgetFailure
  /-- `BudgetExceeded`. -/
  | exceeded (message : String)
  | valueError (message : String)
  | runtimeError (message : String)
  | databaseError (message : String)
  /-- `decimal.InvalidOperation`, raised by comparing what is not a number. -/
  | invalidOperation
  /-- `OverflowError`, raised by a moment that has no date. -/
  | overflowError
  deriving DecidableEq

/-- `BudgetExceeded` is raised. -/
def BudgetFailure.isExceeded : BudgetFailure → Bool
  | exceeded _ => true
  | valueError _ | runtimeError _ | databaseError _ | invalidOperation | overflowError => false

/-- A `Decimal`. -/
inductive DecimalValue
  | finite (value : ℚ)
  | infinity (negative : Bool)
  | nan
  deriving DecidableEq

/-- `value < 0`. -/
def DecimalValue.isNegative : DecimalValue → Except BudgetFailure Bool
  | finite value => .ok (decide (value < 0))
  | infinity negative => .ok negative
  | nan => .error .invalidOperation

structure BudgetReservation where
  id : String
  estimatedCostMicros : ℤ
  provider : String
  reservedRequestCount : ℤ
  reservedCreditCount : DecimalValue
  deriving DecidableEq

/-- A call of a budget guard. -/
inductive BudgetCall
  | reserve (provider : String) (estimatedCostMicros requestCount : ℤ) (creditCount : DecimalValue)
  | reconcile (reservation : BudgetReservation)
      (billedCostMicros nominalCostMicros requestCount : ℤ) (creditCount : DecimalValue)

/-- A call with what the clock says when it is read in the course of it. -/
structure TimedCall where
  call : BudgetCall
  clock : ℕ → Datetime

/-- A call answers with the reservation it has made, if it is to make one. -/
abbrev BudgetAnswer := Except BudgetFailure (Option BudgetReservation)

/-- A month: the year and the month of it. -/
abbrev Month := ℕ × ℕ

/-- `request_count < 0 or credit_count < 0`. -/
def negativeUsage (requestCount : ℤ) (creditCount : DecimalValue) : Except BudgetFailure Bool :=
  if requestCount < 0 then .ok true else creditCount.isNegative

/-! ## The circuit breaker -/

/-- The limit and the thresholds that a circuit breaker is built with. -/
structure BudgetTerms where
  limitMicros : ℤ
  alertThresholdsMicros : List ℤ
  limit_pos : 0 < limitMicros
  thresholds_sorted : alertThresholdsMicros.Pairwise (· < ·)
  thresholds_valid : ∀ value ∈ alertThresholdsMicros, 0 < value ∧ value ≤ limitMicros

structure BudgetAlert where
  thresholdMicros : ℤ
  projectedSpendMicros : ℤ
  openedAt : Datetime
  deriving DecidableEq

/-- An entry of `_reserved`. -/
structure PendingReservation where
  id : String
  provider : String
  dollarEstimate : ℤ
  deriving DecidableEq

/-- The state of a breaker, with the number of identifiers drawn so far. -/
structure MonthlyBudgetCircuitBreaker where
  month : Option Month
  billed : ℤ
  nominal : ℤ
  reserved : List PendingReservation
  alerted : List ℤ
  alerts : List BudgetAlert
  drawn : ℕ

namespace MonthlyBudgetCircuitBreaker

/-- A new breaker. -/
def start : MonthlyBudgetCircuitBreaker where
  month := none
  billed := 0
  nominal := 0
  reserved := []
  alerted := []
  alerts := []
  drawn := 0

variable (terms : BudgetTerms) (ids : RandomIds) (clock : ℕ → Datetime)
  (breaker : MonthlyBudgetCircuitBreaker)

/-- `sum(value for _, value in self._reserved.values())`. -/
def outstanding : ℤ := (breaker.reserved.map PendingReservation.dollarEstimate).sum

/-- The pending entry of an identifier. -/
def pending? (id : String) : Option PendingReservation :=
  KeyedList.lookup PendingReservation.id id breaker.reserved

/-- The month of a moment, in UTC. -/
def monthOf (now : Datetime) : Except BudgetFailure Month :=
  if now.isAware = false then
    .error (.valueError "budget clock must return timezone-aware timestamps")
  else
    match Datetime.utc now.instant with
    | none => .error .overflowError
    | some utc => .ok (utc.year, utc.month)

/-- A breaker whose month has begun. -/
def inMonth (month : Month) : MonthlyBudgetCircuitBreaker :=
  if breaker.month = some month then breaker
  else { breaker with month := some month, billed := 0, nominal := 0, reserved := [], alerted := [] }

/-- `_roll_month`. -/
def rollMonth (now : Datetime) : Except BudgetFailure MonthlyBudgetCircuitBreaker :=
  (monthOf now).map breaker.inMonth

/-- Other alerts. -/
def alert (alerted : List ℤ) (alerts : List BudgetAlert) : MonthlyBudgetCircuitBreaker :=
  { breaker with alerted := alerted, alerts := alerts }

/-- Open the alert of a threshold, if it is reached and none has been opened in the month.
Every alert reads the clock. -/
def openAlert (projected : ℤ) (state : MonthlyBudgetCircuitBreaker × ℕ) (threshold : ℤ) :
    MonthlyBudgetCircuitBreaker × ℕ :=
  if threshold ≤ projected ∧ threshold ∉ state.1.alerted then
    (state.1.alert (threshold :: state.1.alerted)
        (state.1.alerts ++ [⟨threshold, projected, clock state.2⟩]),
      state.2 + 1)
  else state

/-- `_open_alerts`.  The clock has been read once before. -/
def openAlerts (projected : ℤ) : MonthlyBudgetCircuitBreaker :=
  (terms.alertThresholdsMicros.foldl (openAlert clock projected) (breaker, 1)).1

/-- The checks of the arguments of `reserve`. -/
def checkReserve (provider : String) (estimatedCostMicros requestCount : ℤ)
    (creditCount : DecimalValue) : Except BudgetFailure Unit :=
  if provider = "" ∨ estimatedCostMicros < 0 then
    .error (.valueError "provider and non-negative estimate are required")
  else do
    if ← negativeUsage requestCount creditCount then
      .error (.valueError "provider usage reservations cannot be negative")

/-- The dollars that an estimate of a provider reserves. -/
def dollars (provider : String) (costMicros : ℤ) : ℤ := if provider = "exa" then 0 else costMicros

/-- An entry of `_reserved` made under an identifier just drawn. -/
def entered (entry : PendingReservation) : MonthlyBudgetCircuitBreaker :=
  { breaker with
    reserved := KeyedList.upsert PendingReservation.id entry breaker.reserved
    drawn := breaker.drawn + 1 }

/-- `reserve`, once the month has been rolled. -/
def reserveInMonth (provider : String) (estimatedCostMicros requestCount : ℤ)
    (creditCount : DecimalValue) :
    MonthlyBudgetCircuitBreaker × Except BudgetFailure BudgetReservation :=
  let dollarEstimate := dollars provider estimatedCostMicros
  let projected := breaker.billed + breaker.outstanding + dollarEstimate
  if terms.limitMicros < projected then
    (breaker, .error (.exceeded "request estimate would exceed the $40 monthly budget"))
  else
    let opened := breaker.openAlerts terms clock projected
    let reservation : BudgetReservation := {
      id := ids.hex opened.drawn
      estimatedCostMicros := estimatedCostMicros
      provider := provider
      reservedRequestCount := requestCount
      reservedCreditCount := creditCount }
    (opened.entered ⟨reservation.id, provider, dollarEstimate⟩, .ok reservation)

/-- `reserve`. -/
def reserve (provider : String) (estimatedCostMicros requestCount : ℤ)
    (creditCount : DecimalValue) :
    MonthlyBudgetCircuitBreaker × Except BudgetFailure BudgetReservation :=
  match (do
    checkReserve provider estimatedCostMicros requestCount creditCount
    breaker.rollMonth (clock 0)) with
  | .error failure => (breaker, .error failure)
  | .ok rolled =>
      rolled.reserveInMonth terms ids clock provider estimatedCostMicros requestCount creditCount

/-- The checks of the arguments of `reconcile`. -/
def checkReconcile (billedCostMicros nominalCostMicros requestCount : ℤ)
    (creditCount : DecimalValue) : Except BudgetFailure Unit :=
  if billedCostMicros < 0 ∨ nominalCostMicros < 0 then
    .error (.valueError "provider costs cannot be negative")
  else do
    if ← negativeUsage requestCount creditCount then
      .error (.valueError "provider usage cannot be negative")

/-- Take the entry of an identifier out of `_reserved`. -/
def popped (id : String) : MonthlyBudgetCircuitBreaker :=
  { breaker with reserved := KeyedList.erase PendingReservation.id id breaker.reserved }

/-- The entry of a reservation taken out, and its costs counted. -/
def counted (reservation : BudgetReservation) (billedCostMicros nominalCostMicros : ℤ) :
    MonthlyBudgetCircuitBreaker :=
  { breaker.popped reservation.id with
    billed := breaker.billed + dollars reservation.provider billedCostMicros
    nominal := breaker.nominal + nominalCostMicros }

/-- The entry that a reservation has made. -/
def entryOf (reservation : BudgetReservation) : PendingReservation :=
  ⟨reservation.id, reservation.provider,
    dollars reservation.provider reservation.estimatedCostMicros⟩

/-- `reconcile`, once the month has been rolled.  The entry is gone even if it is not the one
of the reservation. -/
def reconcileInMonth (reservation : BudgetReservation)
    (billedCostMicros nominalCostMicros : ℤ) :
    MonthlyBudgetCircuitBreaker × Except BudgetFailure Unit :=
  if breaker.pending? reservation.id ≠ some (entryOf reservation) then
    (breaker.popped reservation.id,
      .error (.valueError "unknown or inconsistent budget reservation"))
  else
    let after := breaker.counted reservation billedCostMicros nominalCostMicros
    let projected := after.billed + after.outstanding
    (after.openAlerts terms clock projected,
      if terms.limitMicros < projected then .error (.exceeded
        "actual provider cost exceeded its estimate; usage recorded and circuit halted")
      else .ok ())

/-- `reconcile`. -/
def reconcile (reservation : BudgetReservation)
    (billedCostMicros nominalCostMicros requestCount : ℤ) (creditCount : DecimalValue) :
    MonthlyBudgetCircuitBreaker × Except BudgetFailure Unit :=
  match (do
    checkReconcile billedCostMicros nominalCostMicros requestCount creditCount
    breaker.rollMonth (clock 0)) with
  | .error failure => (breaker, .error failure)
  | .ok rolled =>
      rolled.reconcileInMonth terms clock reservation billedCostMicros nominalCostMicros

/-- A call of the breaker. -/
def step (timed : TimedCall) : MonthlyBudgetCircuitBreaker × BudgetAnswer :=
  match timed.call with
  | .reserve provider estimatedCostMicros requestCount creditCount =>
      let (after, answer) := breaker.reserve terms ids timed.clock provider estimatedCostMicros
        requestCount creditCount
      (after, answer.map some)
  | .reconcile reservation billedCostMicros nominalCostMicros requestCount creditCount =>
      let (after, answer) := breaker.reconcile terms timed.clock reservation billedCostMicros
        nominalCostMicros requestCount creditCount
      (after, answer.map fun _ => none)

/-! ## What a call does -/

variable {terms ids clock breaker}

theorem openAlert_frame (clock : ℕ → Datetime) (projected : ℤ)
    (state : MonthlyBudgetCircuitBreaker × ℕ) (threshold : ℤ) :
    ∃ alerted alerts, (openAlert clock projected state threshold).1 =
      state.1.alert alerted alerts := by
  unfold openAlert
  split
  · exact ⟨_, _, rfl⟩
  · exact ⟨_, _, rfl⟩

/-- Opening alerts changes nothing else. -/
theorem openAlerts_frame (terms : BudgetTerms) (clock : ℕ → Datetime)
    (breaker : MonthlyBudgetCircuitBreaker) (projected : ℤ) :
    ∃ alerted alerts, breaker.openAlerts terms clock projected =
      breaker.alert alerted alerts := by
  have hfold : ∀ (thresholds : List ℤ) (state : MonthlyBudgetCircuitBreaker × ℕ),
      ∃ alerted alerts, (thresholds.foldl (openAlert clock projected) state).1 =
        state.1.alert alerted alerts := by
    intro thresholds
    induction thresholds with
    | nil => exact fun state => ⟨_, _, rfl⟩
    | cons threshold rest ih =>
        intro state
        obtain ⟨_, _, hfirst⟩ := openAlert_frame clock projected state threshold
        obtain ⟨alerted, alerts, hrest⟩ := ih (openAlert clock projected state threshold)
        refine ⟨alerted, alerts, ?_⟩
        rw [List.foldl_cons, hrest, hfirst]
        rfl
  exact hfold terms.alertThresholdsMicros (breaker, 1)

theorem monthOf_not_exceeded {now : Datetime} {failure : BudgetFailure}
    (h : monthOf now = .error failure) : failure.isExceeded = false := by
  unfold monthOf at h
  split at h
  · cases h
    rfl
  · split at h
    · cases h
      rfl
    · cases h

theorem isNegative_not_exceeded {value : DecimalValue} {failure : BudgetFailure}
    (h : value.isNegative = .error failure) : failure.isExceeded = false := by
  cases value with
  | finite value => cases h
  | infinity negative => cases h
  | nan =>
      cases h
      rfl

theorem negativeUsage_not_exceeded {requestCount : ℤ} {creditCount : DecimalValue}
    {failure : BudgetFailure} (h : negativeUsage requestCount creditCount = .error failure) :
    failure.isExceeded = false := by
  unfold negativeUsage at h
  split at h
  · cases h
  · exact isNegative_not_exceeded h

/-- A check of signs: of the amounts, then of the usage. -/
theorem usageCheck_not_exceeded {requestCount : ℤ} {creditCount : DecimalValue}
    {condition : Prop} [Decidable condition] {first second : String} {failure : BudgetFailure}
    (h : (if condition then .error (.valueError first) else do
      if ← negativeUsage requestCount creditCount then .error (.valueError second) :
      Except BudgetFailure Unit) = .error failure) : failure.isExceeded = false := by
  split at h
  · cases h
    rfl
  · rcases Checks.bind_eq_error.mp h with h | ⟨negative, -, h⟩
    · exact negativeUsage_not_exceeded h
    · cases negative with
      | false => cases h
      | true =>
          cases h
          rfl

theorem reserve_of_checked {provider : String} {estimate requests : ℤ} {credits : DecimalValue}
    {month : Month} (hchecks : checkReserve provider estimate requests credits = .ok ())
    (hmonth : monthOf (clock 0) = .ok month) :
    breaker.reserve terms ids clock provider estimate requests credits =
      (breaker.inMonth month).reserveInMonth terms ids clock provider estimate requests credits := by
  unfold reserve
  rw [hchecks, rollMonth, hmonth]
  rfl

theorem reconcile_of_checked {reservation : BudgetReservation} {billed nominal requests : ℤ}
    {credits : DecimalValue} {month : Month}
    (hchecks : checkReconcile billed nominal requests credits = .ok ())
    (hmonth : monthOf (clock 0) = .ok month) :
    breaker.reconcile terms clock reservation billed nominal requests credits =
      (breaker.inMonth month).reconcileInMonth terms clock reservation billed nominal := by
  unfold reconcile
  rw [hchecks, rollMonth, hmonth]
  rfl

theorem reserveInMonth_of_exceeded {provider : String} {estimate : ℤ}
    (h : terms.limitMicros < breaker.billed + breaker.outstanding + dollars provider estimate)
    (requests : ℤ) (credits : DecimalValue) :
    breaker.reserveInMonth terms ids clock provider estimate requests credits =
      (breaker, .error (.exceeded "request estimate would exceed the $40 monthly budget")) :=
  if_pos h

theorem reserveInMonth_of_within (ids : RandomIds) (clock : ℕ → Datetime) {provider : String}
    {estimate : ℤ}
    (h : ¬ terms.limitMicros < breaker.billed + breaker.outstanding + dollars provider estimate)
    (requests : ℤ) (credits : DecimalValue) :
    ∃ alerted alerts, breaker.reserveInMonth terms ids clock provider estimate requests credits =
      ((breaker.alert alerted alerts).entered
          ⟨ids.hex breaker.drawn, provider, dollars provider estimate⟩,
        .ok ⟨ids.hex breaker.drawn, estimate, provider, requests, credits⟩) := by
  obtain ⟨alerted, alerts, hopened⟩ := openAlerts_frame terms clock breaker
    (breaker.billed + breaker.outstanding + dollars provider estimate)
  refine ⟨alerted, alerts, ?_⟩
  unfold reserveInMonth
  dsimp only
  rw [hopened, if_neg h]
  rfl

theorem reconcileInMonth_of_unknown {reservation : BudgetReservation}
    (h : breaker.pending? reservation.id ≠ some (entryOf reservation)) (billed nominal : ℤ) :
    breaker.reconcileInMonth terms clock reservation billed nominal =
      (breaker.popped reservation.id,
        .error (.valueError "unknown or inconsistent budget reservation")) :=
  if_pos h

theorem reconcileInMonth_of_pending (terms : BudgetTerms) (clock : ℕ → Datetime)
    {reservation : BudgetReservation}
    (h : breaker.pending? reservation.id = some (entryOf reservation)) (billed nominal : ℤ) :
    ∃ alerted alerts, breaker.reconcileInMonth terms clock reservation billed nominal =
      ((breaker.counted reservation billed nominal).alert alerted alerts,
        if terms.limitMicros < (breaker.counted reservation billed nominal).billed +
            (breaker.counted reservation billed nominal).outstanding then
          .error (.exceeded
            "actual provider cost exceeded its estimate; usage recorded and circuit halted")
        else .ok ()) := by
  obtain ⟨alerted, alerts, hopened⟩ := openAlerts_frame terms clock
    (breaker.counted reservation billed nominal)
    ((breaker.counted reservation billed nominal).billed +
      (breaker.counted reservation billed nominal).outstanding)
  refine ⟨alerted, alerts, ?_⟩
  unfold reconcileInMonth
  dsimp only
  rw [if_neg (fun hne => hne h), hopened]

/-- What a call can do, by the state it leaves and its answer. -/
inductive Stepped (terms : BudgetTerms) (ids : RandomIds) (breaker : MonthlyBudgetCircuitBreaker) :
    BudgetCall → MonthlyBudgetCircuitBreaker → BudgetAnswer → Prop
  | raised (call : BudgetCall) (failure : BudgetFailure) (h : failure.isExceeded = false) :
      Stepped terms ids breaker call breaker (.error failure)
  | refused (provider : String) (estimate requests : ℤ) (credits : DecimalValue) (month : Month)
      (message : String)
      (h : terms.limitMicros < (breaker.inMonth month).billed +
        (breaker.inMonth month).outstanding + dollars provider estimate) :
      Stepped terms ids breaker (.reserve provider estimate requests credits)
        (breaker.inMonth month) (.error (.exceeded message))
  | granted (provider : String) (estimate requests : ℤ) (credits : DecimalValue) (month : Month)
      (alerted : List ℤ) (alerts : List BudgetAlert) (hestimate : 0 ≤ estimate)
      (h : (breaker.inMonth month).billed + (breaker.inMonth month).outstanding +
        dollars provider estimate ≤ terms.limitMicros) :
      Stepped terms ids breaker (.reserve provider estimate requests credits)
        (((breaker.inMonth month).alert alerted alerts).entered
          ⟨ids.hex (breaker.inMonth month).drawn, provider, dollars provider estimate⟩)
        (.ok (some ⟨ids.hex (breaker.inMonth month).drawn, estimate, provider, requests, credits⟩))
  | unknown (reservation : BudgetReservation) (billed nominal requests : ℤ)
      (credits : DecimalValue) (month : Month) (message : String)
      (h : (breaker.inMonth month).pending? reservation.id ≠ some (entryOf reservation)) :
      Stepped terms ids breaker (.reconcile reservation billed nominal requests credits)
        ((breaker.inMonth month).popped reservation.id) (.error (.valueError message))
  | reconciled (reservation : BudgetReservation) (billed nominal requests : ℤ)
      (credits : DecimalValue) (month : Month) (alerted : List ℤ) (alerts : List BudgetAlert)
      (after : MonthlyBudgetCircuitBreaker) (message : String) (hbilled : 0 ≤ billed)
      (h : (breaker.inMonth month).pending? reservation.id = some (entryOf reservation))
      (hafter : after = (breaker.inMonth month).counted reservation billed nominal) :
      Stepped terms ids breaker (.reconcile reservation billed nominal requests credits)
        (after.alert alerted alerts)
        (if terms.limitMicros < after.billed + after.outstanding then .error (.exceeded message)
          else .ok none)

theorem checkReserve_nonneg {provider : String} {estimate requests : ℤ} {credits : DecimalValue}
    (h : checkReserve provider estimate requests credits = .ok ()) : 0 ≤ estimate := by
  unfold checkReserve at h
  split at h
  · cases h
  next hchecked => omega

theorem checkReconcile_nonneg {billed nominal requests : ℤ} {credits : DecimalValue}
    (h : checkReconcile billed nominal requests credits = .ok ()) : 0 ≤ billed := by
  unfold checkReconcile at h
  split at h
  · cases h
  next hchecked => omega

theorem reserve_stepped (provider : String) (estimate requests : ℤ) (credits : DecimalValue) :
    Stepped terms ids breaker (.reserve provider estimate requests credits)
      (breaker.reserve terms ids clock provider estimate requests credits).1
      ((breaker.reserve terms ids clock provider estimate requests credits).2.map some) := by
  cases hchecks : checkReserve provider estimate requests credits with
  | error failure =>
      unfold reserve
      rw [hchecks]
      exact .raised _ failure (usageCheck_not_exceeded hchecks)
  | ok _ =>
      cases hmonth : monthOf (clock 0) with
      | error failure =>
          unfold reserve
          rw [hchecks, rollMonth, hmonth]
          exact .raised _ failure (monthOf_not_exceeded hmonth)
      | ok month =>
          rw [reserve_of_checked hchecks hmonth]
          by_cases hover : terms.limitMicros < (breaker.inMonth month).billed +
              (breaker.inMonth month).outstanding + dollars provider estimate
          · rw [reserveInMonth_of_exceeded hover]
            exact .refused provider estimate requests credits month _ hover
          · obtain ⟨alerted, alerts, hgranted⟩ :=
              reserveInMonth_of_within ids clock hover requests credits
            rw [hgranted]
            exact .granted provider estimate requests credits month alerted alerts
              (checkReserve_nonneg hchecks) (not_lt.mp hover)

theorem reconcile_stepped (reservation : BudgetReservation) (billed nominal requests : ℤ)
    (credits : DecimalValue) :
    Stepped terms ids breaker (.reconcile reservation billed nominal requests credits)
      (breaker.reconcile terms clock reservation billed nominal requests credits).1
      ((breaker.reconcile terms clock reservation billed nominal requests credits).2.map
        fun _ => none) := by
  cases hchecks : checkReconcile billed nominal requests credits with
  | error failure =>
      unfold reconcile
      rw [hchecks]
      exact .raised _ failure (usageCheck_not_exceeded hchecks)
  | ok _ =>
      cases hmonth : monthOf (clock 0) with
      | error failure =>
          unfold reconcile
          rw [hchecks, rollMonth, hmonth]
          exact .raised _ failure (monthOf_not_exceeded hmonth)
      | ok month =>
          rw [reconcile_of_checked hchecks hmonth]
          by_cases hpending : (breaker.inMonth month).pending? reservation.id =
              some (entryOf reservation)
          · obtain ⟨alerted, alerts, hcounted⟩ := reconcileInMonth_of_pending terms clock
              hpending billed nominal
            have hstep : Stepped terms ids breaker _ _ _ := .reconciled reservation billed nominal
              requests credits month alerted alerts _
              "actual provider cost exceeded its estimate; usage recorded and circuit halted"
              (checkReconcile_nonneg hchecks) hpending rfl
            rw [hcounted]
            by_cases hover : terms.limitMicros <
                ((breaker.inMonth month).counted reservation billed nominal).billed +
                  ((breaker.inMonth month).counted reservation billed nominal).outstanding
            · rw [if_pos hover] at hstep ⊢
              exact hstep
            · rw [if_neg hover] at hstep ⊢
              exact hstep
          · rw [reconcileInMonth_of_unknown hpending]
            exact .unknown reservation billed nominal requests credits month _ hpending

theorem step_stepped (terms : BudgetTerms) (ids : RandomIds) (breaker : MonthlyBudgetCircuitBreaker)
    (timed : TimedCall) :
    Stepped terms ids breaker timed.call (breaker.step terms ids timed).1
      (breaker.step terms ids timed).2 := by
  unfold step
  cases timed.call with
  | reserve provider estimate requests credits =>
      exact reserve_stepped provider estimate requests credits
  | reconcile reservation billed nominal requests credits =>
      exact reconcile_stepped reservation billed nominal requests credits

/-! ## What a breaker keeps -/

/-- The entries are of identifiers drawn, each of its own, and reserve no negative amount. -/
structure Keyed (ids : RandomIds) (breaker : MonthlyBudgetCircuitBreaker) : Prop where
  estimates_nonneg : ∀ entry ∈ breaker.reserved, 0 ≤ entry.dollarEstimate
  unique : (breaker.reserved.map PendingReservation.id).Nodup
  drawn : ∀ entry ∈ breaker.reserved, ∃ n < breaker.drawn, entry.id = ids.hex n

/-- What is billed and what is reserved stay within the limit. -/
structure Sound (terms : BudgetTerms) (ids : RandomIds) (breaker : MonthlyBudgetCircuitBreaker) :
    Prop extends Keyed ids breaker where
  ceiling : breaker.billed + breaker.outstanding ≤ terms.limitMicros

theorem keyed_start : Keyed ids start where
  estimates_nonneg := by simp [start]
  unique := by simp [start]
  drawn := by simp [start]

theorem sound_start : Sound terms ids start where
  toKeyed := keyed_start
  ceiling := le_of_lt terms.limit_pos

@[simp]
theorem drawn_inMonth (month : Month) : (breaker.inMonth month).drawn = breaker.drawn := by
  unfold inMonth
  split <;> rfl

@[simp]
theorem month_inMonth (month : Month) : (breaker.inMonth month).month = some month := by
  unfold inMonth
  split
  next h => exact h
  next => rfl

theorem inMonth_of_month {month : Month} (h : breaker.month = some month) :
    breaker.inMonth month = breaker :=
  if_pos h

theorem reserved_inMonth (breaker : MonthlyBudgetCircuitBreaker) (month : Month) :
    (breaker.inMonth month).reserved = breaker.reserved ∨ (breaker.inMonth month).reserved = [] := by
  unfold inMonth
  split
  · exact .inl rfl
  · exact .inr rfl

theorem Keyed.inMonth (h : Keyed ids breaker) (month : Month) :
    Keyed ids (breaker.inMonth month) := by
  unfold MonthlyBudgetCircuitBreaker.inMonth
  split
  · exact h
  · exact ⟨by simp, by simp, by simp⟩

theorem Sound.inMonth (h : Sound terms ids breaker) (month : Month) :
    Sound terms ids (breaker.inMonth month) := by
  refine ⟨h.toKeyed.inMonth month, ?_⟩
  unfold MonthlyBudgetCircuitBreaker.inMonth
  split
  · exact h.ceiling
  · exact le_of_lt terms.limit_pos

theorem Keyed.fresh (h : Keyed ids breaker) :
    ∀ entry ∈ breaker.reserved, entry.id ≠ ids.hex breaker.drawn := by
  intro entry hentry hid
  obtain ⟨n, hn, hdrawn⟩ := h.drawn entry hentry
  exact absurd (ids.injective (hdrawn.symm.trans hid)) (by omega)

/-- Taking an entry out takes its estimate out of what is outstanding. -/
theorem Keyed.outstanding_popped (h : Keyed ids breaker) (id : String) :
    breaker.outstanding = (breaker.popped id).outstanding +
      (breaker.pending? id).elim 0 PendingReservation.dollarEstimate :=
  KeyedList.sum_eq_erase_add h.unique id PendingReservation.dollarEstimate

theorem Keyed.popped (h : Keyed ids breaker) (id : String) : Keyed ids (breaker.popped id) where
  estimates_nonneg entry hentry := h.estimates_nonneg entry (KeyedList.mem_erase.mp hentry).1
  unique := KeyedList.nodup_erase h.unique id
  drawn entry hentry := h.drawn entry (KeyedList.mem_erase.mp hentry).1

theorem Keyed.counted (h : Keyed ids breaker) (reservation : BudgetReservation)
    (billed nominal : ℤ) : Keyed ids (breaker.counted reservation billed nominal) :=
  ⟨(h.popped reservation.id).estimates_nonneg, (h.popped reservation.id).unique,
    (h.popped reservation.id).drawn⟩

theorem Sound.popped (h : Sound terms ids breaker) (id : String) :
    Sound terms ids (breaker.popped id) where
  toKeyed := h.toKeyed.popped id
  ceiling := by
    have hceiling := h.ceiling
    have hsplit := h.outstanding_popped id
    have hnonneg : 0 ≤ (breaker.pending? id).elim 0 PendingReservation.dollarEstimate := by
      cases hpending : breaker.pending? id with
      | none => exact le_refl 0
      | some entry => exact h.estimates_nonneg entry (KeyedList.mem_of_lookup_eq_some hpending)
    have hbilled : (breaker.popped id).billed = breaker.billed := rfl
    omega

/-- Counting no more than was reserved keeps to the limit. -/
theorem Sound.counted (h : Sound terms ids breaker) {reservation : BudgetReservation}
    (hpending : breaker.pending? reservation.id = some (entryOf reservation)) {billed : ℤ}
    (hbilled : dollars reservation.provider billed ≤
      dollars reservation.provider reservation.estimatedCostMicros) (nominal : ℤ) :
    Sound terms ids (breaker.counted reservation billed nominal) where
  toKeyed := h.toKeyed.counted reservation billed nominal
  ceiling := by
    have hceiling := h.ceiling
    have hsplit := h.outstanding_popped reservation.id
    rw [hpending] at hsplit
    calc (breaker.counted reservation billed nominal).billed +
          (breaker.counted reservation billed nominal).outstanding
        = breaker.billed + dollars reservation.provider billed +
          (breaker.popped reservation.id).outstanding := rfl
      _ ≤ breaker.billed + (breaker.popped reservation.id).outstanding +
          dollars reservation.provider reservation.estimatedCostMicros := by omega
      _ = breaker.billed + breaker.outstanding := by
          rw [hsplit, add_assoc]
          rfl
      _ ≤ terms.limitMicros := hceiling

/-- Only the alerts differ. -/
theorem Keyed.alert (h : Keyed ids breaker) (alerted : List ℤ) (alerts : List BudgetAlert) :
    Keyed ids (breaker.alert alerted alerts) :=
  ⟨h.estimates_nonneg, h.unique, h.drawn⟩

theorem dollars_nonneg {provider : String} {cost : ℤ} (h : 0 ≤ cost) : 0 ≤ dollars provider cost := by
  unfold dollars
  split
  · exact le_refl 0
  · exact h

/-- The entry of a new identifier comes last. -/
theorem Keyed.reserved_granted (h : Keyed ids breaker) (provider : String) (dollarEstimate : ℤ) :
    KeyedList.upsert PendingReservation.id ⟨ids.hex breaker.drawn, provider, dollarEstimate⟩
      breaker.reserved =
        breaker.reserved ++ [⟨ids.hex breaker.drawn, provider, dollarEstimate⟩] :=
  KeyedList.upsert_eq_append h.fresh

theorem Keyed.entered (h : Keyed ids breaker) (provider : String) {estimate : ℤ}
    (hestimate : 0 ≤ estimate) :
    Keyed ids (breaker.entered
      ⟨ids.hex breaker.drawn, provider, dollars provider estimate⟩) := by
  have happend := h.reserved_granted provider (dollars provider estimate)
  refine ⟨?_, KeyedList.nodup_upsert h.unique _, ?_⟩
  · intro entry hentry
    unfold MonthlyBudgetCircuitBreaker.entered at hentry
    dsimp only at hentry
    rw [happend, List.mem_append, List.mem_singleton] at hentry
    rcases hentry with hentry | rfl
    · exact h.estimates_nonneg entry hentry
    · exact dollars_nonneg hestimate
  · intro entry hentry
    unfold MonthlyBudgetCircuitBreaker.entered at hentry ⊢
    dsimp only at hentry ⊢
    rw [happend, List.mem_append, List.mem_singleton] at hentry
    rcases hentry with hentry | rfl
    · obtain ⟨n, hn, hid⟩ := h.drawn entry hentry
      exact ⟨n, by omega, hid⟩
    · exact ⟨breaker.drawn, by omega, rfl⟩

/-- A grant adds its estimate to what is outstanding. -/
theorem Keyed.outstanding_entered (h : Keyed ids breaker) (provider : String)
    (dollarEstimate : ℤ) :
    (breaker.entered ⟨ids.hex breaker.drawn, provider, dollarEstimate⟩).outstanding =
      breaker.outstanding + dollarEstimate := by
  unfold outstanding MonthlyBudgetCircuitBreaker.entered
  dsimp only
  rw [h.reserved_granted, List.map_append, List.sum_append, List.map_singleton,
    List.sum_singleton]

/-- A grant that keeps to the limit. -/
theorem Sound.entered (h : Sound terms ids breaker) {provider : String} {estimate : ℤ}
    (hestimate : 0 ≤ estimate)
    (hwithin : breaker.billed + breaker.outstanding + dollars provider estimate ≤
      terms.limitMicros) :
    Sound terms ids (breaker.entered
      ⟨ids.hex breaker.drawn, provider, dollars provider estimate⟩) := by
  refine ⟨h.toKeyed.entered provider hestimate, ?_⟩
  rw [h.outstanding_entered, ← add_assoc]
  exact hwithin

theorem Sound.alert (h : Sound terms ids breaker) (alerted : List ℤ) (alerts : List BudgetAlert) :
    Sound terms ids (breaker.alert alerted alerts) :=
  ⟨h.toKeyed.alert alerted alerts, h.ceiling⟩

theorem pending?_entered (entry : PendingReservation) :
    (breaker.entered entry).pending? entry.id = some entry :=
  KeyedList.lookup_upsert_self entry breaker.reserved

theorem pending?_entered_of_ne {id : String} {entry : PendingReservation} (h : id ≠ entry.id) :
    (breaker.entered entry).pending? id = breaker.pending? id :=
  KeyedList.lookup_upsert_of_ne h breaker.reserved

theorem pending?_popped_self (id : String) : (breaker.popped id).pending? id = none :=
  KeyedList.lookup_erase_self id breaker.reserved

theorem pending?_popped_of_ne {id other : String} (h : id ≠ other) :
    (breaker.popped other).pending? id = breaker.pending? id :=
  KeyedList.lookup_erase_of_ne h breaker.reserved

/-- Every call keeps the entries apart. -/
theorem Keyed.step (h : Keyed ids breaker) (timed : TimedCall) :
    Keyed ids (breaker.step terms ids timed).1 := by
  have hstep := step_stepped terms ids breaker timed
  generalize timed.call = call at hstep
  generalize (breaker.step terms ids timed).1 = after at hstep ⊢
  generalize (breaker.step terms ids timed).2 = answer at hstep
  cases hstep with
  | raised _ failure hfailure => exact h
  | refused provider estimate requests credits month message hover => exact h.inMonth month
  | granted provider estimate requests credits month alerted alerts hestimate hlimit =>
      exact ((h.inMonth month).alert alerted alerts).entered provider hestimate
  | unknown reservation billed nominal requests credits month message hunknown =>
      exact (h.inMonth month).popped reservation.id
  | reconciled reservation billed nominal requests credits month alerted alerts counted message
      hbilled hpending hcounted =>
      subst hcounted
      exact ((h.inMonth month).counted reservation billed nominal).alert alerted alerts

end MonthlyBudgetCircuitBreaker

/-- A cost that is reconciled is at most the estimate of its reservation.  Exa's cost no
dollars. -/
def BudgetCall.Within : BudgetCall → Prop
  | .reserve _ _ _ _ => True
  | .reconcile reservation billedCostMicros _ _ _ =>
      reservation.provider = "exa" ∨ billedCostMicros ≤ reservation.estimatedCostMicros

/-- The reservation that a call reconciles. -/
def BudgetCall.reconciles : BudgetCall → Option BudgetReservation
  | .reserve _ _ _ _ => none
  | .reconcile reservation _ _ _ _ => some reservation

/-- The reservation whose costs a call has counted: it has raised nothing, or only that the
limit is exceeded now. -/
def countedId (entry : TimedCall × BudgetAnswer) : Option String :=
  match entry.2 with
  | .ok _ | .error (.exceeded _) => entry.1.call.reconciles.map BudgetReservation.id
  | .error (.valueError _) | .error (.runtimeError _) | .error (.databaseError _)
  | .error .invalidOperation | .error .overflowError => none

namespace MonthlyBudgetCircuitBreaker

variable {terms : BudgetTerms} {ids : RandomIds} {breaker : MonthlyBudgetCircuitBreaker}

theorem dollars_le_of_within {reservation : BudgetReservation} {billed nominal requests : ℤ}
    {credits : DecimalValue}
    (h : (BudgetCall.reconcile reservation billed nominal requests credits).Within) :
    dollars reservation.provider billed ≤
      dollars reservation.provider reservation.estimatedCostMicros := by
  unfold dollars
  split
  · exact le_refl 0
  next hprovider => exact h.resolve_left hprovider

/-- A call that keeps to its estimate keeps a breaker sound. -/
theorem Sound.step (h : Sound terms ids breaker) {timed : TimedCall}
    (hwithin : timed.call.Within) : Sound terms ids (breaker.step terms ids timed).1 := by
  have hstep := step_stepped terms ids breaker timed
  generalize timed.call = call at hstep hwithin
  generalize (breaker.step terms ids timed).1 = after at hstep ⊢
  generalize (breaker.step terms ids timed).2 = answer at hstep
  cases hstep with
  | raised _ failure hfailure => exact h
  | refused provider estimate requests credits month message hover => exact h.inMonth month
  | granted provider estimate requests credits month alerted alerts hestimate hlimit =>
      exact ((h.inMonth month).alert alerted alerts).entered hestimate hlimit
  | unknown reservation billed nominal requests credits month message hunknown =>
      exact (h.inMonth month).popped reservation.id
  | reconciled reservation billed nominal requests credits month alerted alerts counted message
      hbilled hpending hcounted =>
      subst hcounted
      exact ((h.inMonth month).counted hpending (dollars_le_of_within hwithin) nominal).alert
        alerted alerts

/-- A call that keeps to its estimate never finds the limit exceeded when it reconciles. -/
theorem Sound.not_exceeded (h : Sound terms ids breaker) {timed : TimedCall}
    (hwithin : timed.call.Within) (hreconciles : timed.call.reconciles.isSome) (message : String) :
    (breaker.step terms ids timed).2 ≠ .error (.exceeded message) := by
  have hstep := step_stepped terms ids breaker timed
  generalize timed.call = call at hstep hwithin hreconciles
  generalize (breaker.step terms ids timed).1 = after at hstep
  generalize (breaker.step terms ids timed).2 = answer at hstep ⊢
  cases hstep with
  | raised _ failure hfailure =>
      rintro ⟨⟩
      cases hfailure
  | refused provider estimate requests credits month message hover => cases hreconciles
  | granted provider estimate requests credits month alerted alerts hestimate hlimit =>
      cases hreconciles
  | unknown reservation billed nominal requests credits month message hunknown => nofun
  | reconciled reservation billed nominal requests credits month alerted alerts counted message
      hbilled hpending hcounted =>
      have hceiling :=
        ((h.inMonth month).counted hpending (dollars_le_of_within hwithin) nominal).ceiling
      rw [← hcounted] at hceiling
      rw [if_neg (not_lt.mpr hceiling)]
      nofun

/-- The costs of an identifier are counted once: it has been drawn, and its entry is gone. -/
def Counted (ids : RandomIds) (seen : List (TimedCall × BudgetAnswer))
    (breaker : MonthlyBudgetCircuitBreaker) : Prop :=
  (seen.filterMap countedId).Nodup ∧ ∀ id ∈ seen.filterMap countedId,
    (∃ n < breaker.drawn, id = ids.hex n) ∧ breaker.pending? id = none

theorem pending?_inMonth {id : String} (h : breaker.pending? id = none) (month : Month) :
    (breaker.inMonth month).pending? id = none := by
  unfold pending?
  rcases reserved_inMonth breaker month with hreserved | hreserved
  · rw [hreserved]
    exact h
  · rw [hreserved]
    rfl

theorem pending?_popped {id : String} (h : breaker.pending? id = none) (other : String) :
    (breaker.popped other).pending? id = none := by
  by_cases hid : id = other
  · subst hid
    exact pending?_popped_self id
  · exact (pending?_popped_of_ne hid).trans h

theorem countedId_of_reserve {timed : TimedCall} (h : timed.call.reconciles = none)
    (answer : BudgetAnswer) : countedId (timed, answer) = none := by
  unfold countedId
  rw [h]
  split <;> rfl

theorem countedId_of_error {failure : BudgetFailure} (h : failure.isExceeded = false)
    (timed : TimedCall) : countedId (timed, .error failure) = none := by
  cases failure with
  | exceeded message => cases h
  | valueError message => rfl
  | runtimeError message => rfl
  | databaseError message => rfl
  | invalidOperation => rfl
  | overflowError => rfl

theorem countedId_of_reconcile {timed : TimedCall} {reservation : BudgetReservation}
    (h : timed.call.reconciles = some reservation) (condition : Prop) [Decidable condition]
    (message : String) :
    countedId (timed, if condition then .error (.exceeded message) else .ok none) =
      some reservation.id := by
  have hid : timed.call.reconciles.map BudgetReservation.id = some reservation.id := by rw [h]; rfl
  by_cases hcondition : condition
  · rw [if_pos hcondition]
    exact hid
  · rw [if_neg hcondition]
    exact hid

/-- A call that counts nothing. -/
theorem Counted.skip {seen : List (TimedCall × BudgetAnswer)} (h : Counted ids seen breaker)
    {entry : TimedCall × BudgetAnswer} (hentry : countedId entry = none)
    {after : MonthlyBudgetCircuitBreaker} (hdrawn : breaker.drawn ≤ after.drawn)
    (hpending : ∀ id, (∃ n < breaker.drawn, id = ids.hex n) → breaker.pending? id = none →
      after.pending? id = none) : Counted ids (seen ++ [entry]) after := by
  have hseen : (seen ++ [entry]).filterMap countedId = seen.filterMap countedId := by
    rw [List.filterMap_append, List.filterMap_cons, hentry]
    exact List.append_nil _
  unfold Counted
  rw [hseen]
  refine ⟨h.1, fun id hid => ?_⟩
  obtain ⟨⟨n, hn, hhex⟩, hnone⟩ := h.2 id hid
  exact ⟨⟨n, by omega, hhex⟩, hpending id ⟨n, hn, hhex⟩ hnone⟩

theorem Counted.step {seen : List (TimedCall × BudgetAnswer)} (h : Counted ids seen breaker)
    (hkeyed : Keyed ids breaker) (timed : TimedCall) :
    Counted ids (seen ++ [(timed, (breaker.step terms ids timed).2)])
      (breaker.step terms ids timed).1 := by
  have hstep := step_stepped terms ids breaker timed
  generalize hcall : timed.call = call at hstep
  generalize (breaker.step terms ids timed).1 = after at hstep ⊢
  generalize (breaker.step terms ids timed).2 = answer at hstep ⊢
  have hreserve (hnone : call.reconciles = none) : countedId (timed, answer) = none :=
    countedId_of_reserve (by rw [hcall, hnone]) answer
  cases hstep with
  | raised _ failure hfailure =>
      exact h.skip (countedId_of_error hfailure timed) (le_refl _) fun _ _ hnone => hnone
  | refused provider estimate requests credits month message hover =>
      exact h.skip (hreserve rfl) (drawn_inMonth month).ge
        fun _ _ hnone => pending?_inMonth hnone month
  | granted provider estimate requests credits month alerted alerts hestimate hlimit =>
      refine h.skip (hreserve rfl) (Nat.le_succ_of_le (drawn_inMonth month).ge)
        fun id hdrawn hnone => ?_
      obtain ⟨n, hn, rfl⟩ := hdrawn
      refine (pending?_entered_of_ne ?_).trans (pending?_inMonth hnone month)
      rw [drawn_inMonth]
      exact fun hid => absurd (ids.injective hid) (by omega)
  | unknown reservation billed nominal requests credits month message hunknown =>
      exact h.skip rfl (drawn_inMonth month).ge
        fun _ _ hnone => pending?_popped (pending?_inMonth hnone month) reservation.id
  | reconciled reservation billed nominal requests credits month alerted alerts counted message
      hbilled hpending hcounted =>
      subst hcounted
      have hreconciles : timed.call.reconciles = some reservation := by rw [hcall]; rfl
      have hid := countedId_of_reconcile hreconciles (terms.limitMicros <
          ((breaker.inMonth month).counted reservation billed nominal).billed +
            ((breaker.inMonth month).counted reservation billed nominal).outstanding) message
      have hnew : reservation.id ∉ seen.filterMap countedId := by
        intro hseen
        have hnone := pending?_inMonth (h.2 reservation.id hseen).2 month
        rw [hpending] at hnone
        cases hnone
      obtain ⟨n, hn, hhex⟩ := (hkeyed.inMonth month).drawn _
        (KeyedList.mem_of_lookup_eq_some hpending)
      unfold Counted
      rw [List.filterMap_append, List.filterMap_cons, hid, List.filterMap_nil,
        List.nodup_append_comm]
      refine ⟨List.nodup_cons.mpr ⟨hnew, h.1⟩, fun id hmem => ?_⟩
      rcases List.mem_append.mp hmem with hmem | hmem
      · obtain ⟨⟨m, hm, hdrawn⟩, hnone⟩ := h.2 id hmem
        exact ⟨⟨m, hm.trans_le (drawn_inMonth month).ge, hdrawn⟩,
          pending?_popped (pending?_inMonth hnone month) reservation.id⟩
      · rw [List.mem_singleton.mp hmem]
        exact ⟨⟨n, hn, hhex⟩, pending?_popped_self reservation.id⟩

/-- Along any calls, the entries are apart and nothing is counted twice. -/
theorem counted_run (calls : List TimedCall) :
    Keyed ids (Runs.final (step terms ids) start calls) ∧
      Counted ids (Runs.trace (step terms ids) start calls)
        (Runs.final (step terms ids) start calls) :=
  Runs.final_invariant (step terms ids) (fun seen breaker => Keyed ids breaker ∧
      Counted ids seen breaker) ⟨keyed_start, List.nodup_nil, by simp⟩
    (fun _ _ timed h => ⟨h.1.step timed, h.2.step h.1 timed⟩) calls

/-- Along calls that keep to their estimates, a breaker is sound. -/
theorem sound_run (calls : List TimedCall) (h : ∀ timed ∈ calls, timed.call.Within) :
    Sound terms ids (Runs.final (step terms ids) start calls) := by
  induction calls using List.reverseRecOn with
  | nil => exact sound_start
  | append_singleton calls timed ih =>
      rw [Runs.final_concat]
      exact (ih fun other hother => h other (List.mem_append_left _ hother)).step
        (h timed (by simp))

/-- Along calls that keep to their estimates, no reconciliation exceeds the limit. -/
theorem not_exceeded_run (calls : List TimedCall) (h : ∀ timed ∈ calls, timed.call.Within) :
    ∀ entry ∈ Runs.trace (step terms ids) start calls, entry.1.call.reconciles.isSome →
      ∀ message, entry.2 ≠ .error (.exceeded message) := by
  induction calls using List.reverseRecOn with
  | nil => simp [Runs.trace]
  | append_singleton calls timed ih =>
      have hcalls : ∀ other ∈ calls, other.call.Within :=
        fun other hother => h other (List.mem_append_left _ hother)
      rw [Runs.trace_concat]
      intro entry hentry
      rcases List.mem_append.mp hentry with hentry | hentry
      · exact ih hcalls entry hentry
      · rw [List.mem_singleton.mp hentry]
        exact (sound_run calls hcalls).not_exceeded (h timed (by simp))

/-- What is billed and what is reserved never pass the limit together while every cost is at
most its estimate; then every reservation is reconciled at most once, and reconciling it never
raises that the budget is exceeded. -/
theorem budget_kept (terms : BudgetTerms) (ids : RandomIds) (calls : List TimedCall)
    (h : ∀ timed ∈ calls, timed.call.Within) :
    (∀ made rest, calls = made ++ rest →
      (Runs.final (step terms ids) start made).billed +
        (Runs.final (step terms ids) start made).outstanding ≤ terms.limitMicros) ∧
    ((Runs.trace (step terms ids) start calls).filterMap countedId).Nodup ∧
    ∀ entry ∈ Runs.trace (step terms ids) start calls, entry.1.call.reconciles.isSome →
      ∀ message, entry.2 ≠ .error (.exceeded message) := by
  refine ⟨?_, (counted_run calls).2.1, not_exceeded_run calls h⟩
  rintro made rest rfl
  exact (sound_run made fun timed htimed => h timed (List.mem_append_left _ htimed)).ceiling

end MonthlyBudgetCircuitBreaker

namespace Sample

theorem budgetLimit_pos : 0 < (40000000 : ℤ) := by decide

theorem budgetThresholds_sorted :
    [20000000, 32000000, (40000000 : ℤ)].Pairwise (· < ·) := by decide

theorem budgetThresholds_valid :
    ∀ value ∈ [20000000, 32000000, (40000000 : ℤ)], 0 < value ∧ value ≤ 40000000 := by decide

/-- The terms of a breaker that is built without arguments. -/
def budgetTerms : BudgetTerms where
  limitMicros := 40000000
  alertThresholdsMicros := [20000000, 32000000, 40000000]
  limit_pos := budgetLimit_pos
  thresholds_sorted := budgetThresholds_sorted
  thresholds_valid := budgetThresholds_valid

/-- A call while the clock stands still. -/
def atMoment (call : BudgetCall) : TimedCall := ⟨call, fun _ => moment⟩

/-- The first reservation that a breaker grants, of thirty dollars. -/
def firstReservation : BudgetReservation :=
  ⟨randomIds.hex 0, 30000000, "openrouter", 0, .finite 0⟩

/-- Two reservations that overlap, the first of them reconciled for less. -/
def overlapping : List TimedCall := [
  atMoment (.reserve "openrouter" 30000000 0 (.finite 0)),
  atMoment (.reserve "openrouter" 10000000 0 (.finite 0)),
  atMoment (.reconcile firstReservation 25000000 25000000 0 (.finite 0))]

theorem overlapping_within : ∀ timed ∈ overlapping, timed.call.Within := by
  simp [overlapping, atMoment, BudgetCall.Within, firstReservation]

theorem overlapping_kept :
    (Runs.final (MonthlyBudgetCircuitBreaker.step budgetTerms randomIds)
      MonthlyBudgetCircuitBreaker.start overlapping).billed = 25000000 ∧
    (Runs.final (MonthlyBudgetCircuitBreaker.step budgetTerms randomIds)
      MonthlyBudgetCircuitBreaker.start overlapping).billed +
      (Runs.final (MonthlyBudgetCircuitBreaker.step budgetTerms randomIds)
        MonthlyBudgetCircuitBreaker.start overlapping).outstanding ≤ 40000000 :=
  ⟨by decide +kernel, (MonthlyBudgetCircuitBreaker.budget_kept budgetTerms randomIds overlapping
    overlapping_within).1 overlapping [] (List.append_nil _).symm⟩

end Sample

end VTrade
