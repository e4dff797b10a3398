/-
# Two guards of one budget

The circuit breaker decides every call by what is billed and reserved at that moment.  The guard
in the database remembers that a reconciliation has exceeded the limit, and refuses for the rest
of the month.  The two go on alike until a call meets a halted month in which there is room for
it again: some other reservation has cost less than its estimate.
-/

import VTrade.BudgetGuard

namespace VTrade

/-! ## Calls to both -/

/-- A call made to both guards: each reconciles the reservation that it has granted at the same
call. -/
inductive SharedCall
  | reserve (provider : String) (estimatedCostMicros : ℤ)
  | reconcile (k : ℕ) (billedCostMicros nominalCostMicros : ℤ)

def SharedCall.reserves : SharedCall → Bool
  | reserve _ _ => true
  | reconcile _ _ _ => false

/-- A shared call with what the clock of each guard says. -/
structure SharedRequest where
  call : SharedCall
  breakerClock : ℕ → Datetime
  guardClock : ℕ → Datetime

/-- How a guard answers a call. -/
inductive Verdict
  /-- The call is granted, or the costs are recorded. -/
  | done
  /-- `BudgetExceeded`. -/
  | refused
  /-- `ValueError`. -/
  | rejected
  /-- Any other error. -/
  | failed
  /-- There is no reservation to reconcile. -/
  | nothing
  deriving DecidableEq

def verdict {α : Type} : Except BudgetFailure α → Verdict
  | .ok _ => .done
  | .error (.exceeded _) => .refused
  | .error (.valueError _) => .rejected
  | .error (.runtimeError _) | .error (.databaseError _) | .error .invalidOperation
  | .error .overflowError => .failed

/-- Both guards, with what each has granted at every call that reserves. -/
structure BothGuards where
  breaker : MonthlyBudgetCircuitBreaker
  guard : PostgresBudgetGuard
  held : List (Option BudgetReservation × Option BudgetReservation)

namespace BothGuards

def start : BothGuards := ⟨.start, .start, []⟩

variable (terms : BudgetTerms) (guardTerms : GuardTerms) (ids ids' : RandomIds)
  (state : BothGuards)

/-- The reservations that the guards have granted at a call that reserves. -/
def grantedAt (k : ℕ) : Option BudgetReservation × Option BudgetReservation :=
  (state.held[k]?).getD (none, none)

/-- Reconcile at the circuit breaker, if there is a reservation. -/
def reconcileBreaker (clock : ℕ → Datetime) (billed nominal : ℤ) :
    Option BudgetReservation → MonthlyBudgetCircuitBreaker × Verdict
  | none => (state.breaker, .nothing)
  | some reservation =>
      let (breaker, answer) :=
        state.breaker.reconcile terms clock reservation billed nominal 0 (.finite 0)
      (breaker, verdict answer)

/-- Reconcile at the guard in the database, if there is a reservation. -/
def reconcileGuard (clock : ℕ → Datetime) (billed nominal : ℤ) :
    Option BudgetReservation → PostgresBudgetGuard × Verdict
  | none => (state.guard, .nothing)
  | some reservation =>
      let (guard, answer) :=
        state.guard.reconcile guardTerms clock reservation billed nominal 0 (.finite 0)
      (guard, verdict answer)

/-- A call to both guards, without requests and credits. -/
def step (request : SharedRequest) : BothGuards × (Verdict × Verdict) :=
  match request.call with
  | .reserve provider estimate =>
      let (breaker, answer) := state.breaker.reserve terms ids request.breakerClock provider
        estimate 0 (.finite 0)
      let (guard, answer') := state.guard.reserve guardTerms ids' request.guardClock provider
        estimate 0 (.finite 0)
      (⟨breaker, guard, state.held ++ [(answer.toOption, answer'.toOption)]⟩,
        verdict answer, verdict answer')
  | .reconcile k billed nominal =>
      let (breaker, first) := state.reconcileBreaker terms request.breakerClock billed nominal
        (state.grantedAt k).1
      let (guard, second) := state.reconcileGuard guardTerms request.guardClock billed nominal
        (state.grantedAt k).2
      (⟨breaker, guard, state.held⟩, first, second)

end BothGuards

/-- A call of a month, on a provider that costs dollars. -/
def SharedRequest.InMonth (month : Month) (request : SharedRequest) : Prop :=
  MonthlyBudgetCircuitBreaker.monthOf (request.breakerClock 0) = .ok month ∧
    PostgresBudgetGuard.awareMonth (request.guardClock 0) = .ok month ∧
    match request.call with
    | .reserve provider _ => provider ≠ "exa"
    | .reconcile _ _ _ => True

namespace BothGuards

/-- The row of the reservation granted at a call, while it is pending. -/
def pendingRow? (state : BothGuards) (month : Month) (k : ℕ) : Option ProviderBudgetReservation :=
  (state.grantedAt k).2.bind fun reservation =>
    (state.guard.tables.reservation? reservation.id month).filter
      fun row => decide (row.status = .reserved)

/-- The month is halted although a call has room in it, or an amount of the call does not fit
its column. -/
def Apart (guardTerms : GuardTerms) (month : Month) (state : BothGuards)
    (request : SharedRequest) : Prop :=
  let account := state.guard.tables.accountIn guardTerms month
  match request.call with
  | .reserve provider estimate =>
      provider ≠ "" ∧ 0 ≤ estimate ∧ (¬ FitsBigint guardTerms.limitMicros ∨
        (account.halted = true ∧ account.billedCostMicros +
          state.guard.tables.pendingMicros month + estimate ≤ guardTerms.limitMicros))
  | .reconcile k billed nominal =>
      0 ≤ billed ∧ 0 ≤ nominal ∧ ∃ row, state.pendingRow? month k = some row ∧
        (account.Overflows billed nominal
            (state.guard.tables.pendingMicros month - row.estimatedCostMicros) ∨
          (account.halted = true ∧ account.billedCostMicros + billed +
            (state.guard.tables.pendingMicros month - row.estimatedCostMicros) ≤
              guardTerms.limitMicros))

end BothGuards

/-! ## Two guards in step -/

open MonthlyBudgetCircuitBreaker PostgresBudgetGuard

/-- A reservation of the breaker and the one of the guard that was granted at the same call:
both are pending, or both are done with. -/
structure Paired (ids ids' : RandomIds) (month : Month) (breaker : MonthlyBudgetCircuitBreaker)
    (guard : PostgresBudgetGuard) (first second : BudgetReservation) : Prop where
  dollars : first.provider ≠ "exa"
  provider : second.provider = first.provider
  estimate : second.estimatedCostMicros = first.estimatedCostMicros
  drawn : ∃ n < breaker.drawn, first.id = ids.hex n
  drawn' : ∃ n < guard.drawn, second.id = ids'.hex n
  alike : (breaker.pending? first.id = some (entryOf first) ∧
      ∃ row, guard.tables.reservation? second.id month = some row ∧ row.status = .reserved ∧
        row.estimatedCostMicros = second.estimatedCostMicros) ∨
    (breaker.pending? first.id = none ∧
      ∃ row, guard.tables.reservation? second.id month = some row ∧ row.status = .reconciled)

/-- The breaker, its month begun, and the guard say the same of the month. -/
structure BothGuards.Mirrors (guardTerms : GuardTerms) (ids ids' : RandomIds) (month : Month)
    (state : BothGuards) : Prop where
  keyed : Keyed ids (state.breaker.inMonth month)
  rows : state.guard.tables.Keyed ids' state.guard.drawn
  limit : (state.guard.tables.accountIn guardTerms month).limitMicros = guardTerms.limitMicros
  billed : (state.guard.tables.accountIn guardTerms month).billedCostMicros =
    (state.breaker.inMonth month).billed
  billed_nonneg : 0 ≤ (state.breaker.inMonth month).billed
  outstanding : state.guard.tables.pendingMicros month = (state.breaker.inMonth month).outstanding
  opened : ∀ row ∈ state.guard.tables.reservations, row.monthStart = month →
    (state.guard.tables.account? month).isSome
  held : ∀ entry ∈ state.held, entry = (none, none) ∨
    ∃ first second, entry = (some first, some second) ∧
      Paired ids ids' month (state.breaker.inMonth month) state.guard first second
  distinct : ∀ first second first' second', (some first, some second) ∈ state.held →
    (some first', some second') ∈ state.held → first.id = first'.id ∨ second.id = second'.id →
      first = first' ∧ second = second'

namespace BothGuards

variable {terms : BudgetTerms} {guardTerms : GuardTerms} {ids ids' : RandomIds} {month : Month}
  {state : BothGuards}

theorem mirrors_start : start.Mirrors guardTerms ids ids' month where
  keyed := keyed_start.inMonth month
  rows := BudgetTables.keyed_empty
  limit := rfl
  billed := rfl
  billed_nonneg := le_refl 0
  outstanding := rfl
  opened row hrow := by cases hrow
  held entry hentry := by cases hentry
  distinct first second first' second' h := by cases h

theorem Mirrors.paired (h : state.Mirrors guardTerms ids ids' month)
    {first second : BudgetReservation} (hentry : (some first, some second) ∈ state.held) :
    Paired ids ids' month (state.breaker.inMonth month) state.guard first second := by
  rcases h.held _ hentry with hnone | ⟨_, _, hpair, hpaired⟩
  · cases hnone
  · cases hpair
    exact hpaired

/-- Nothing that matters has changed. -/
theorem Mirrors.unchanged (h : state.Mirrors guardTerms ids ids' month)
    {breaker : MonthlyBudgetCircuitBreaker} {drawn : ℕ}
    {held : List (Option BudgetReservation × Option BudgetReservation)}
    (hbreaker : breaker.inMonth month = state.breaker.inMonth month)
    (hdrawn : state.guard.drawn ≤ drawn)
    (hheld : ∀ entry ∈ held, entry ∈ state.held ∨ entry = (none, none)) :
    Mirrors guardTerms ids ids' month ⟨breaker, ⟨state.guard.tables, drawn⟩, held⟩ where
  keyed := by
    dsimp only
    rw [hbreaker]
    exact h.keyed
  rows := h.rows.mono hdrawn
  limit := h.limit
  billed := by
    dsimp only
    rw [hbreaker]
    exact h.billed
  billed_nonneg := by
    dsimp only
    rw [hbreaker]
    exact h.billed_nonneg
  outstanding := by
    dsimp only
    rw [hbreaker]
    exact h.outstanding
  opened := h.opened
  held entry hentry := by
    rcases hheld entry hentry with hentry | hentry
    · refine (h.held entry hentry).imp_right fun ⟨first, second, hpair, hpaired⟩ => ?_
      refine ⟨first, second, hpair, ?_⟩
      dsimp only
      rw [hbreaker]
      obtain ⟨n, hn, hid⟩ := hpaired.drawn'
      exact { hpaired with drawn' := ⟨n, hn.trans_le hdrawn, hid⟩ }
    · exact .inl hentry
  distinct first second first' second' hfirst hsecond hid := by
    rcases hheld _ hfirst with hfirst | hfirst
    · rcases hheld _ hsecond with hsecond | hsecond
      · exact h.distinct first second first' second' hfirst hsecond hid
      · cases hsecond
    · cases hfirst

theorem reservation?_of_upsert {tables after : BudgetTables} {row : ProviderBudgetReservation}
    (h : after.reservations = KeyedList.upsert ProviderBudgetReservation.id row tables.reservations)
    {id : String} (hid : id ≠ row.id) (month : Month) :
    after.reservation? id month = tables.reservation? id month := by
  unfold BudgetTables.reservation?
  rw [h, KeyedList.lookup_upsert_of_ne hid]

theorem reservation?_of_upsert_self {tables after : BudgetTables}
    {row : ProviderBudgetReservation}
    (h : after.reservations = KeyedList.upsert ProviderBudgetReservation.id row tables.reservations) :
    after.reservation? row.id row.monthStart = some row :=
  BudgetTables.reservation?_eq_some.mpr ⟨by rw [h, KeyedList.lookup_upsert_self], rfl⟩

theorem accountIn_of_account? (guardTerms : GuardTerms) {tables : BudgetTables}
    {account : MonthAccount} (h : tables.account? month = some account) :
    tables.accountIn guardTerms month = account := by
  rw [BudgetTables.accountIn, h]
  rfl

/-- Both guards grant a reservation. -/
theorem Mirrors.granted (h : state.Mirrors guardTerms ids ids' month) {provider : String}
    {estimate : ℤ} (hprovider : provider ≠ "exa") (hestimate : 0 ≤ estimate)
    {after : BudgetTables}
    (hgranted : BudgetTables.Granted guardTerms state.guard.tables
      ⟨ids'.hex state.guard.drawn, estimate, provider, 0, .finite 0⟩ month after)
    (alerted : List ℤ) (alerts : List BudgetAlert) :
    Mirrors guardTerms ids ids' month
      ⟨((state.breaker.inMonth month).alert alerted alerts).entered
          ⟨ids.hex (state.breaker.inMonth month).drawn, provider, dollars provider estimate⟩,
        ⟨after, state.guard.drawn + 1⟩,
        state.held ++ [(some ⟨ids.hex (state.breaker.inMonth month).drawn, estimate, provider, 0,
            .finite 0⟩,
          some ⟨ids'.hex state.guard.drawn, estimate, provider, 0, .finite 0⟩)]⟩ := by
  have hsame : (((state.breaker.inMonth month).alert alerted alerts).entered
      ⟨ids.hex (state.breaker.inMonth month).drawn, provider, dollars provider estimate⟩).inMonth
        month = _ := inMonth_of_month (month_inMonth month)
  have hdollars : dollars provider estimate = estimate := if_neg hprovider
  have hold : ∀ first second, (some first, some second) ∈ state.held →
      first.id ≠ ids.hex (state.breaker.inMonth month).drawn ∧
        second.id ≠ ids'.hex state.guard.drawn := by
    intro first second hentry
    obtain ⟨n, hn, hid⟩ := (h.paired hentry).drawn
    obtain ⟨n', hn', hid'⟩ := (h.paired hentry).drawn'
    rw [hid, hid']
    exact ⟨fun heq => absurd (ids.injective heq) (by omega),
      fun heq => absurd (ids'.injective heq) (by omega)⟩
  constructor
  case keyed =>
    rw [hsame]
    exact (h.keyed.alert alerted alerts).entered provider hestimate
  case rows => exact h.rows.granted rfl hestimate hgranted
  case limit =>
    rw [accountIn_of_account? guardTerms hgranted.account]
    exact h.limit
  case billed =>
    rw [hsame, accountIn_of_account? guardTerms hgranted.account]
    exact h.billed
  case billed_nonneg =>
    rw [hsame]
    exact h.billed_nonneg
  case outstanding =>
    rw [hsame]
    refine (h.rows.pending_granted rfl hgranted).trans ?_
    refine .trans ?_ ((h.keyed.alert alerted alerts).outstanding_entered provider _).symm
    rw [h.outstanding, hdollars]
    rfl
  case opened =>
    intro row hrow hmonth
    dsimp only
    rw [hgranted.account]
    rfl
  case held =>
    intro entry hentry
    rw [hsame]
    rcases List.mem_append.mp hentry with hentry | hentry
    · rcases h.held entry hentry with hnone | ⟨first, second, rfl, hpaired⟩
      · exact .inl hnone
      · obtain ⟨hfirst, hsecond⟩ := hold first second hentry
        obtain ⟨n, hn, hid⟩ := hpaired.drawn
        obtain ⟨n', hn', hid'⟩ := hpaired.drawn'
        refine .inr ⟨first, second, rfl, hpaired.dollars, hpaired.provider, hpaired.estimate,
          ⟨n, Nat.lt_succ_of_lt hn, hid⟩, ⟨n', Nat.lt_succ_of_lt hn', hid'⟩, ?_⟩
        have hpending : (((state.breaker.inMonth month).alert alerted alerts).entered
            ⟨ids.hex (state.breaker.inMonth month).drawn, provider,
              dollars provider estimate⟩).pending? first.id =
            (state.breaker.inMonth month).pending? first.id :=
          pending?_entered_of_ne hfirst
        rw [hpending]
        dsimp only
        rw [reservation?_of_upsert hgranted.reservations hsecond]
        exact hpaired.alike
    · rw [List.mem_singleton] at hentry
      exact .inr ⟨_, _, hentry, hprovider, rfl, rfl,
        ⟨(state.breaker.inMonth month).drawn, Nat.lt_succ_self _, rfl⟩,
        ⟨state.guard.drawn, Nat.lt_succ_self _, rfl⟩, .inl ⟨pending?_entered _, _,
          reservation?_of_upsert_self hgranted.reservations, rfl, rfl⟩⟩
  case distinct =>
    intro first second first' second' hfirst hsecond hid
    rcases List.mem_append.mp hfirst with hfirst | hfirst
    · rcases List.mem_append.mp hsecond with hsecond | hsecond
      · exact h.distinct first second first' second' hfirst hsecond hid
      · obtain ⟨hne, hne'⟩ := hold first second hfirst
        rw [List.mem_singleton] at hsecond
        cases hsecond
        exact (hid.elim hne hne').elim
    · rw [List.mem_singleton] at hfirst
      cases hfirst
      rcases List.mem_append.mp hsecond with hsecond | hsecond
      · obtain ⟨hne, hne'⟩ := hold first' second' hsecond
        exact (hid.elim (fun heq => hne heq.symm) fun heq => hne' heq.symm).elim
      · rw [List.mem_singleton] at hsecond
        cases hsecond
        exact ⟨rfl, rfl⟩

/-- What the breaker projects is what the guard projects. -/
theorem Mirrors.projected (h : state.Mirrors guardTerms ids ids' month)
    {first second : BudgetReservation} (hentry : (some first, some second) ∈ state.held)
    {row : ProviderBudgetReservation} {account : MonthAccount}
    (hpending : (state.breaker.inMonth month).pending? first.id = some (entryOf first))
    (hestimate : row.estimatedCostMicros = second.estimatedCostMicros)
    (haccount : state.guard.tables.account? month = some account) (billed nominal : ℤ) :
    ((state.breaker.inMonth month).counted first billed nominal).billed +
      ((state.breaker.inMonth month).counted first billed nominal).outstanding =
        account.billedCostMicros + billed +
          (state.guard.tables.pendingMicros month - row.estimatedCostMicros) := by
  have hpaired := h.paired hentry
  have hdollars : ∀ cost, dollars first.provider cost = cost := fun cost => if_neg hpaired.dollars
  have hsplit := h.keyed.outstanding_popped first.id
  rw [hpending, Option.elim_some, entryOf, hdollars] at hsplit
  dsimp only at hsplit
  have hbilled := h.billed
  rw [accountIn_of_account? guardTerms haccount] at hbilled
  change (state.breaker.inMonth month).billed + dollars first.provider billed +
    ((state.breaker.inMonth month).popped first.id).outstanding = _
  rw [hdollars, hbilled, h.outstanding, hestimate, hpaired.estimate, hsplit]
  omega

/-- Both guards reconcile a reservation. -/
theorem Mirrors.reconciled (h : state.Mirrors guardTerms ids ids' month)
    {first second : BudgetReservation} (hentry : (some first, some second) ∈ state.held)
    {row : ProviderBudgetReservation} {account : MonthAccount} {billed nominal : ℤ}
    (hbilled : 0 ≤ billed)
    (hpending : (state.breaker.inMonth month).pending? first.id = some (entryOf first))
    (hrow : state.guard.tables.reservation? second.id month = some row)
    (hstatus : row.status = .reserved) (hestimate : row.estimatedCostMicros = second.estimatedCostMicros)
    (haccount : state.guard.tables.account? month = some account) {after : BudgetTables}
    (hreconciled : BudgetTables.Reconciled state.guard.tables row account month billed nominal after)
    (alerted : List ℤ) (alerts : List BudgetAlert) :
    Mirrors guardTerms ids ids' month
      ⟨((state.breaker.inMonth month).counted first billed nominal).alert alerted alerts,
        ⟨after, state.guard.drawn⟩, state.held⟩ := by
  have hpaired := h.paired hentry
  have hsame : (((state.breaker.inMonth month).counted first billed nominal).alert alerted
      alerts).inMonth month = _ := inMonth_of_month (month_inMonth month)
  have hdollars : ∀ cost, dollars first.provider cost = cost := fun cost => if_neg hpaired.dollars
  have hid : row.id = second.id :=
    KeyedList.key_of_lookup_eq_some (BudgetTables.reservation?_eq_some.mp hrow).1
  have hmonth : row.monthStart = month := (BudgetTables.reservation?_eq_some.mp hrow).2
  constructor
  case keyed =>
    rw [hsame]
    exact (h.keyed.counted first billed nominal).alert alerted alerts
  case rows =>
    exact h.rows.reconciled (KeyedList.mem_of_lookup_eq_some
      (BudgetTables.reservation?_eq_some.mp hrow).1) hreconciled
  case limit =>
    rw [accountIn_of_account? guardTerms hreconciled.account, ← h.limit,
      accountIn_of_account? guardTerms haccount]
    rfl
  case billed =>
    rw [hsame, accountIn_of_account? guardTerms hreconciled.account]
    have hsame' := h.billed
    rw [accountIn_of_account? guardTerms haccount] at hsame'
    change account.billedCostMicros + billed =
      (state.breaker.inMonth month).billed + dollars first.provider billed
    rw [hsame', hdollars]
  case billed_nonneg =>
    rw [hsame]
    have hnonneg := h.billed_nonneg
    change 0 ≤ (state.breaker.inMonth month).billed + dollars first.provider billed
    rw [hdollars]
    omega
  case outstanding =>
    rw [hsame]
    refine (h.rows.pending_reconciled hrow hstatus hreconciled).trans ?_
    have hsplit := h.keyed.outstanding_popped first.id
    rw [hpending, Option.elim_some, entryOf, hdollars] at hsplit
    dsimp only at hsplit
    change _ = ((state.breaker.inMonth month).popped first.id).outstanding
    rw [h.outstanding, hestimate, hpaired.estimate, hsplit]
    omega
  case opened =>
    intro other hother _
    dsimp only
    rw [hreconciled.account]
    rfl
  case held =>
    intro entry hmem
    rw [hsame]
    rcases h.held entry hmem with hnone | ⟨first', second', rfl, hpaired'⟩
    · exact .inl hnone
    · refine .inr ⟨first', second', rfl, { hpaired' with alike := ?_ }⟩
      by_cases hboth : first.id = first'.id ∨ second.id = second'.id
      · obtain ⟨rfl, rfl⟩ := h.distinct first second first' second' hentry hmem hboth
        refine .inr ⟨pending?_popped_self first.id, { row with
          status := .reconciled
          billedCostMicros := some billed
          nominalCostMicros := some nominal }, ?_, rfl⟩
        rw [← hid, ← hmonth]
        exact reservation?_of_upsert_self hreconciled.reservations
      · obtain ⟨hne, hne'⟩ := not_or.mp hboth
        have hkept : (((state.breaker.inMonth month).counted first billed nominal).alert alerted
            alerts).pending? first'.id = (state.breaker.inMonth month).pending? first'.id :=
          pending?_popped_of_ne (Ne.symm hne)
        rw [hkept]
        dsimp only
        rw [reservation?_of_upsert hreconciled.reservations (by rw [hid]; exact Ne.symm hne')]
        exact hpaired'.alike
  case distinct => exact h.distinct

/-- A call that both guards answer alike leaves them in step, and they answer it alike unless it
is one that drives them apart. -/
def InStep (terms : BudgetTerms) (guardTerms : GuardTerms) (ids ids' : RandomIds) (month : Month)
    (state : BothGuards) (request : SharedRequest) : Prop :=
  let (after, first, second) := state.step terms guardTerms ids ids' request
  (first = second ↔ ¬ state.Apart guardTerms month request) ∧
    (first = second → after.Mirrors guardTerms ids ids' month)

theorem checkReserve_zero {provider : String} {estimate : ℤ}
    (h : ¬ (provider = "" ∨ estimate < 0)) : checkReserve provider estimate 0 (.finite 0) = .ok () := by
  unfold checkReserve
  rw [if_neg h]
  rfl

theorem checkReconcile_zero {billed nominal : ℤ} (h : ¬ (billed < 0 ∨ nominal < 0)) :
    checkReconcile billed nominal 0 (.finite 0) = .ok () := by
  unfold checkReconcile
  rw [if_neg h]
  rfl

/-- Reserving keeps the guards in step. -/
theorem Mirrors.reserve (h : state.Mirrors guardTerms ids ids' month)
    (hlimit : terms.limitMicros = guardTerms.limitMicros) {provider : String} {estimate : ℤ}
    {breakerClock guardClock : ℕ → Datetime} (hprovider : provider ≠ "exa")
    (hmonth : monthOf (breakerClock 0) = .ok month)
    (hmonth' : awareMonth (guardClock 0) = .ok month) :
    InStep terms guardTerms ids ids' month state
      ⟨.reserve provider estimate, breakerClock, guardClock⟩ := by
  unfold InStep step Apart
  dsimp only
  have hdollars : dollars provider estimate = estimate := if_neg hprovider
  have hempty : ∀ entry ∈ state.held ++ [(none, none)], entry ∈ state.held ∨ entry = (none, none) :=
    fun entry hentry => (List.mem_append.mp hentry).imp_right List.mem_singleton.mp
  by_cases hargs : provider = "" ∨ estimate < 0
  · have hfirst : state.breaker.reserve terms ids breakerClock provider estimate 0 (.finite 0) =
        (state.breaker, .error (.valueError "provider and non-negative estimate are required")) := by
      unfold MonthlyBudgetCircuitBreaker.reserve checkReserve
      rw [if_pos hargs]
      rfl
    have hsecond : state.guard.reserve guardTerms ids' guardClock provider estimate 0 (.finite 0) =
        (state.guard, .error (.valueError "provider and non-negative estimate are required")) := by
      unfold PostgresBudgetGuard.reserve
      rw [if_pos hargs]
      rfl
    rw [hfirst, hsecond]
    refine ⟨iff_of_true rfl ?_, fun _ => h.unchanged rfl (le_refl _) hempty⟩
    rintro ⟨hname, hestimate, -⟩
    exact hargs.elim hname (by omega)
  · have hestimate : 0 ≤ estimate := by omega
    have hname : provider ≠ "" := fun hname => hargs (.inl hname)
    rw [reserve_of_checked (checkReserve_zero hargs) hmonth, reserve_dollars hprovider hargs hmonth']
    have hsum : terms.limitMicros < (state.breaker.inMonth month).billed +
        (state.breaker.inMonth month).outstanding + dollars provider estimate ↔
          guardTerms.limitMicros < (state.guard.tables.accountIn guardTerms month).billedCostMicros +
            state.guard.tables.pendingMicros month + estimate := by
      rw [h.billed, h.outstanding, hdollars, hlimit]
    by_cases hfits : FitsBigint guardTerms.limitMicros
    swap
    · rw [BudgetTables.reserveDollars_of_overflow hfits]
      have hdiffer : verdict ((state.breaker.inMonth month).reserveInMonth terms ids breakerClock
          provider estimate 0 (.finite 0)).2 ≠ .failed := by
        unfold reserveInMonth
        dsimp only
        split <;> nofun
      exact ⟨iff_of_false hdiffer fun hnot => hnot ⟨hname, hestimate, .inl hfits⟩,
        fun heq => absurd heq hdiffer⟩
    by_cases hover : terms.limitMicros < (state.breaker.inMonth month).billed +
        (state.breaker.inMonth month).outstanding + dollars provider estimate
    · rw [reserveInMonth_of_exceeded hover,
        BudgetTables.reserveDollars_of_refuses hfits h.limit (.inr (hsum.mp hover))]
      refine ⟨iff_of_true rfl ?_, fun _ => h.unchanged (inMonth_of_month (month_inMonth month))
        (Nat.le_succ _) hempty⟩
      rintro ⟨-, -, hnofit | ⟨-, hroom⟩⟩
      · exact hnofit hfits
      · exact absurd (hsum.mp hover) (not_lt.mpr hroom)
    · obtain ⟨alerted, alerts, hgranted⟩ :=
        reserveInMonth_of_within ids breakerClock hover 0 (.finite 0)
      have hroom := not_lt.mp fun hless => hover (hsum.mpr hless)
      rw [hgranted]
      by_cases hhalted : (state.guard.tables.accountIn guardTerms month).halted = true
      · rw [BudgetTables.reserveDollars_of_refuses hfits h.limit (.inl hhalted)]
        exact ⟨iff_of_false nofun fun hnot => hnot ⟨hname, hestimate, .inr ⟨hhalted, hroom⟩⟩, nofun⟩
      · have hpending := h.rows.pending_nonneg month
        have hbilled := h.billed_nonneg
        rw [← h.billed] at hbilled
        have hfits' : FitsBigint estimate := by
          unfold FitsBigint at hfits ⊢
          omega
        obtain ⟨after, hafter, hkept⟩ := BudgetTables.reserveDollars_of_not_refuses
          ⟨ids'.hex state.guard.drawn, estimate, provider, 0, .finite 0⟩ month hfits h.limit
          (fun hrefuses => hrefuses.elim hhalted (not_lt.mpr hroom)) hfits'
        rw [hafter]
        refine ⟨iff_of_true rfl ?_, fun _ => h.granted hprovider hestimate hkept alerted alerts⟩
        rintro ⟨-, -, hnofit | ⟨hhalt, -⟩⟩
        · exact hnofit hfits
        · exact hhalted hhalt

/-- Reconciling keeps the guards in step. -/
theorem Mirrors.reconcile (h : state.Mirrors guardTerms ids ids' month)
    (hlimit : terms.limitMicros = guardTerms.limitMicros) {k : ℕ} {billed nominal : ℤ}
    {breakerClock guardClock : ℕ → Datetime} (hmonth : monthOf (breakerClock 0) = .ok month)
    (hmonth' : awareMonth (guardClock 0) = .ok month) :
    InStep terms guardTerms ids ids' month state
      ⟨.reconcile k billed nominal, breakerClock, guardClock⟩ := by
  have hnothing (hgranted : state.grantedAt k = (none, none)) :
      InStep terms guardTerms ids ids' month state
        ⟨.reconcile k billed nominal, breakerClock, guardClock⟩ := by
    unfold InStep step Apart pendingRow?
    dsimp only
    rw [hgranted]
    refine ⟨iff_of_true rfl ?_, fun _ => h⟩
    rintro ⟨-, -, row, hrow, -⟩
    cases hrow
  cases hheld : state.held[k]? with
  | none => exact hnothing (by rw [grantedAt, hheld]; rfl)
  | some entry =>
      have hentry := List.mem_of_getElem? hheld
      rcases h.held entry hentry with rfl | ⟨first, second, rfl, hpaired⟩
      · exact hnothing (by rw [grantedAt, hheld]; rfl)
      have hgranted : state.grantedAt k = (some first, some second) := by rw [grantedAt, hheld]; rfl
      unfold InStep step Apart pendingRow? reconcileBreaker reconcileGuard
      dsimp only
      rw [hgranted]
      dsimp only [Option.bind]
      by_cases hargs : billed < 0 ∨ nominal < 0
      · have hfirst : state.breaker.reconcile terms breakerClock first billed nominal 0
            (.finite 0) = (state.breaker,
              .error (.valueError "provider costs cannot be negative")) := by
          unfold MonthlyBudgetCircuitBreaker.reconcile checkReconcile
          rw [if_pos hargs]
          rfl
        have hsecond : state.guard.reconcile guardTerms guardClock second billed nominal 0
            (.finite 0) = (state.guard,
              .error (.valueError "provider costs cannot be negative")) := by
          unfold PostgresBudgetGuard.reconcile
          rw [if_pos hargs]
          rfl
        rw [hfirst, hsecond]
        refine ⟨iff_of_true rfl ?_, fun _ => h⟩
        rintro ⟨hbilled, hnominal, -⟩
        omega
      rw [reconcile_of_checked (checkReconcile_zero hargs) hmonth,
        reconcile_dollars (by rw [hpaired.provider]; exact hpaired.dollars) hargs hmonth']
      rcases hpaired.alike with ⟨hpending, row, hrow, hstatus, hestimate⟩ | ⟨hnone, row, hrow, hstatus⟩
      · obtain ⟨hlookup, hstart⟩ := BudgetTables.reservation?_eq_some.mp hrow
        obtain ⟨account, haccount⟩ := Option.isSome_iff_exists.mp
          (h.opened row (KeyedList.mem_of_lookup_eq_some hlookup) hstart)
        have hsum := h.projected hentry hpending hestimate haccount billed nominal
        have hsame := accountIn_of_account? guardTerms haccount
        have hcap : account.limitMicros = terms.limitMicros := by rw [hlimit, ← h.limit, hsame]
        have hfound : (state.guard.tables.reservation? second.id month).filter
            (fun row => decide (row.status = .reserved)) = some row := by
          rw [hrow, Option.filter_some, if_pos (by simp [hstatus])]
        obtain ⟨hoverflows, hfine⟩ := BudgetTables.reconcileDollars_of_pending guardTerms
          billed nominal h.rows.unique hrow hstatus hestimate haccount
        obtain ⟨alerted, alerts, hcounted⟩ := reconcileInMonth_of_pending terms breakerClock
          hpending billed nominal
        rw [hcounted, hfound, hsum, hsame]
        by_cases hover : account.Overflows billed nominal
            (state.guard.tables.pendingMicros month - row.estimatedCostMicros)
        · rw [hoverflows hover]
          have hdiffer : ∀ (condition : Prop) [Decidable condition] (message : String),
              verdict (if condition then .error (.exceeded message) else .ok () :
                Except BudgetFailure Unit) ≠ .failed := by
            intro condition _ message
            split <;> nofun
          exact ⟨iff_of_false (hdiffer _ _) fun hnot => hnot ⟨by omega, by omega, row, rfl,
            .inl hover⟩, fun heq => absurd heq (hdiffer _ _)⟩
        · obtain ⟨after, hafter, hkept⟩ := hfine hover
          rw [hafter]
          dsimp only
          refine ⟨?_, fun _ => h.reconciled hentry (by omega) hpending hrow hstatus hestimate haccount
            hkept alerted alerts⟩
          unfold MonthAccount.reconciled
          dsimp only
          rw [← hcap]
          by_cases hless : account.limitMicros < account.billedCostMicros + billed +
              (state.guard.tables.pendingMicros month - row.estimatedCostMicros)
          · rw [if_pos hless, decide_eq_true hless, Bool.or_true]
            refine iff_of_true rfl ?_
            rintro ⟨-, -, other, ⟨⟩, hother | ⟨-, hroom⟩⟩
            · exact hover hother
            · omega
          · rw [if_neg hless, decide_eq_false hless, Bool.or_false]
            cases hhalted : account.halted with
            | false =>
                refine iff_of_true rfl ?_
                rintro ⟨-, -, other, ⟨⟩, hother | ⟨hhalt, -⟩⟩
                · exact hover hother
                · cases hhalt
            | true =>
                exact iff_of_false nofun fun hnot => hnot ⟨by omega, by omega, row, rfl,
                  .inr ⟨rfl, by omega⟩⟩
      · rw [reconcileInMonth_of_unknown (by rw [hnone]; nofun),
          BudgetTables.reconcileDollars_of_missing (by
            rw [hrow]
            rintro _ ⟨⟩
            rw [hstatus]
            nofun)]
        have hpopped : (state.breaker.inMonth month).popped first.id =
            state.breaker.inMonth month := by
          unfold popped
          rw [KeyedList.erase_eq_self hnone]
        rw [hpopped]
        refine ⟨iff_of_true rfl ?_, fun _ => h.unchanged (inMonth_of_month (month_inMonth month))
          (le_refl _) fun entry hmem => .inl hmem⟩
        rintro ⟨-, -, other, hother, -⟩
        rw [hrow, Option.filter_some, if_neg (by simp [hstatus])] at hother
        cases hother

/-- Every call of the month keeps the guards in step. -/
theorem Mirrors.step (h : state.Mirrors guardTerms ids ids' month)
    (hlimit : terms.limitMicros = guardTerms.limitMicros) {request : SharedRequest}
    (hrequest : request.InMonth month) : InStep terms guardTerms ids ids' month state request := by
  obtain ⟨call, breakerClock, guardClock⟩ := request
  obtain ⟨hmonth, hmonth', hprovider⟩ := hrequest
  cases call with
  | reserve provider estimate => exact h.reserve hlimit hprovider hmonth hmonth'
  | reconcile k billed nominal => exact h.reconcile hlimit hmonth hmonth'

/-! ## Runs -/

/-- A reservation is granted by neither guard once a reconciliation has exceeded the limit. -/
def Barred (seen : List (SharedRequest × Verdict × Verdict))
    (entry : SharedRequest × Verdict × Verdict) : Prop :=
  entry.1.call.reserves = true →
    (∃ earlier ∈ seen, earlier.1.call.reserves = false ∧
      (earlier.2.1 = .refused ∨ earlier.2.2 = .refused)) →
    entry.2.1 ≠ .done ∧ entry.2.2 ≠ .done

instance (seen : List (SharedRequest × Verdict × Verdict))
    (entry : SharedRequest × Verdict × Verdict) : Decidable (Barred seen entry) :=
  inferInstanceAs (Decidable (_ → _ → _))

/-- Both guards grant and refuse the same calls, and nothing after the limit was exceeded. -/
def Agree (terms : BudgetTerms) (guardTerms : GuardTerms) (ids ids' : RandomIds)
    (calls : List SharedRequest) : Prop :=
  (∀ entry ∈ Runs.trace (step terms guardTerms ids ids') start calls, entry.2.1 = entry.2.2) ∧
    Runs.Each Barred (Runs.trace (step terms guardTerms ids ids') start calls)

instance (calls : List SharedRequest) :
    Decidable (Agree terms guardTerms ids ids' calls) :=
  inferInstanceAs (Decidable (_ ∧ _))

/-- The verdicts are the same all along exactly when no call drives the guards apart. -/
theorem same_iff_along (hlimit : terms.limitMicros = guardTerms.limitMicros)
    (calls : List SharedRequest) (hcalls : ∀ request ∈ calls, request.InMonth month)
    (h : state.Mirrors guardTerms ids ids' month) :
    (∀ entry ∈ Runs.trace (step terms guardTerms ids ids') state calls, entry.2.1 = entry.2.2) ↔
      Runs.Along (step terms guardTerms ids ids')
        (fun state request => ¬ state.Apart guardTerms month request) state calls := by
  induction calls generalizing state with
  | nil => exact iff_of_true (by simp [Runs.trace]) trivial
  | cons request rest ih =>
      obtain ⟨hsame, hnext⟩ := h.step hlimit (hcalls request List.mem_cons_self)
      rw [Runs.trace, Runs.Along, List.forall_mem_cons]
      constructor
      · rintro ⟨hfirst, hrest⟩
        exact ⟨hsame.mp hfirst, (ih (fun other hother => hcalls other (List.mem_cons_of_mem _ hother))
          (hnext hfirst)).mp hrest⟩
      · rintro ⟨hfirst, hrest⟩
        exact ⟨hsame.mpr hfirst, (ih (fun other hother => hcalls other (List.mem_cons_of_mem _ hother))
          (hnext (hsame.mpr hfirst))).mpr hrest⟩

/-- The month of the guard in the database is halted. -/
def Halted (guardTerms : GuardTerms) (month : Month) (state : BothGuards) : Prop :=
  (state.guard.tables.accountIn guardTerms month).halted = true

/-- A reservation leaves a month as halted as it was, and a halted month grants none. -/
theorem guard_reserve_halted (ids' : RandomIds) {provider : String} (estimate : ℤ)
    {guardClock : ℕ → Datetime} {guard : PostgresBudgetGuard} (hprovider : provider ≠ "exa")
    (hmonth' : awareMonth (guardClock 0) = .ok month)
    (hcap : (guard.tables.accountIn guardTerms month).limitMicros = guardTerms.limitMicros)
    (hhalted : (guard.tables.accountIn guardTerms month).halted = true) :
    (guard.reserve guardTerms ids' guardClock provider estimate 0 (.finite 0)).1.tables =
        guard.tables ∧
      verdict (guard.reserve guardTerms ids' guardClock provider estimate 0 (.finite 0)).2 ≠
        .done := by
  by_cases hargs : provider = "" ∨ estimate < 0
  · unfold PostgresBudgetGuard.reserve
    rw [if_pos hargs]
    exact ⟨rfl, nofun⟩
  · rw [reserve_dollars hprovider hargs hmonth']
    by_cases hfits : FitsBigint guardTerms.limitMicros
    · rw [BudgetTables.reserveDollars_of_refuses hfits hcap (.inl hhalted)]
      exact ⟨rfl, nofun⟩
    · rw [BudgetTables.reserveDollars_of_overflow hfits]
      exact ⟨rfl, nofun⟩

/-- A reconciliation leaves a halted month halted, and halts the month if it is refused. -/
theorem guard_reconcile_halted (guardTerms : GuardTerms) {second : BudgetReservation}
    (billed nominal : ℤ) {guardClock : ℕ → Datetime} {guard : PostgresBudgetGuard}
    (unique : (guard.tables.reservations.map ProviderBudgetReservation.id).Nodup)
    (hprovider : second.provider ≠ "exa") (hmonth' : awareMonth (guardClock 0) = .ok month) :
    ((guard.tables.accountIn guardTerms month).halted = true →
        ((guard.reconcile guardTerms guardClock second billed nominal 0
          (.finite 0)).1.tables.accountIn guardTerms month).halted = true) ∧
      (verdict (guard.reconcile guardTerms guardClock second billed nominal 0 (.finite 0)).2 =
          .refused →
        ((guard.reconcile guardTerms guardClock second billed nominal 0
          (.finite 0)).1.tables.accountIn guardTerms month).halted = true) := by
  by_cases hargs : billed < 0 ∨ nominal < 0
  · unfold PostgresBudgetGuard.reconcile
    rw [if_pos hargs]
    exact ⟨id, nofun⟩
  rw [reconcile_dollars hprovider hargs hmonth']
  cases hanswer : guard.tables.reconcileDollars guardTerms second month billed nominal with
  | error failure =>
      refine ⟨id, fun hrefused => ?_⟩
      have hnot := BudgetTables.reconcileDollars_not_exceeded hanswer
      cases failure with
      | exceeded message => cases hnot
      | valueError message => cases hrefused
      | runtimeError message => cases hrefused
      | databaseError message => cases hrefused
      | invalidOperation => cases hrefused
      | overflowError => cases hrefused
  | ok result =>
      obtain ⟨after, halted⟩ := result
      obtain ⟨row, account, -, -, haccount, hkept, hhalted⟩ :=
        BudgetTables.reconcileDollars_eq_ok unique hanswer
      dsimp only
      rw [accountIn_of_account? guardTerms haccount,
        accountIn_of_account? guardTerms hkept.account, ← hhalted]
      refine ⟨fun hbefore => ?_, fun hrefused => ?_⟩
      · rw [hhalted, MonthAccount.reconciled, hbefore, Bool.true_or]
      · cases halted with
        | true => rfl
        | false => cases hrefused

/-- What a call does to a halted month, and which calls halt it. -/
theorem Mirrors.step_halted (terms : BudgetTerms) (h : state.Mirrors guardTerms ids ids' month)
    {request : SharedRequest}
    (hrequest : request.InMonth month) :
    (state.Halted guardTerms month →
      (state.step terms guardTerms ids ids' request).1.Halted guardTerms month) ∧
    (request.call.reserves = false →
      (state.step terms guardTerms ids ids' request).2.2 = .refused →
        (state.step terms guardTerms ids ids' request).1.Halted guardTerms month) ∧
    (request.call.reserves = true → state.Halted guardTerms month →
      (state.step terms guardTerms ids ids' request).2.2 ≠ .done) := by
  obtain ⟨call, breakerClock, guardClock⟩ := request
  obtain ⟨-, hmonth', hprovider⟩ := hrequest
  cases call with
  | reserve provider estimate =>
      refine ⟨fun hhalted => ?_, nofun, fun _ hhalted => ?_⟩
      · have hkept := (guard_reserve_halted ids' estimate hprovider hmonth'
          h.limit hhalted).1
        unfold Halted BothGuards.step
        dsimp only
        rw [hkept]
        exact hhalted
      · exact (guard_reserve_halted ids' estimate hprovider hmonth' h.limit
          hhalted).2
  | reconcile k billed nominal =>
      unfold Halted BothGuards.step
      dsimp only
      cases hheld : (state.grantedAt k).2 with
      | none => exact ⟨id, nofun, nofun⟩
      | some second =>
          have hdollars : second.provider ≠ "exa" := by
            unfold grantedAt at hheld
            cases hentry : state.held[k]? with
            | none =>
                rw [hentry] at hheld
                cases hheld
            | some entry =>
                rw [hentry] at hheld
                rcases h.held entry (List.mem_of_getElem? hentry) with rfl | ⟨_, _, rfl, hpaired⟩
                · cases hheld
                · cases hheld
                  rw [hpaired.provider]
                  exact hpaired.dollars
          obtain ⟨hkeeps, hhalts⟩ := guard_reconcile_halted guardTerms billed nominal
            h.rows.unique hdollars hmonth'
          exact ⟨hkeeps, fun _ => hhalts, nofun⟩

/-- While the guards answer alike, neither grants anything after the limit was exceeded. -/
theorem barred_run (hlimit : terms.limitMicros = guardTerms.limitMicros)
    (calls : List SharedRequest) (hcalls : ∀ request ∈ calls, request.InMonth month)
    (h : state.Mirrors guardTerms ids ids' month)
    {seen : List (SharedRequest × Verdict × Verdict)}
    (hseen : (∃ earlier ∈ seen, earlier.1.call.reserves = false ∧
      (earlier.2.1 = .refused ∨ earlier.2.2 = .refused)) → state.Halted guardTerms month)
    (hsame : ∀ entry ∈ Runs.trace (step terms guardTerms ids ids') state calls,
      entry.2.1 = entry.2.2) :
    Runs.EachFrom Barred seen (Runs.trace (step terms guardTerms ids ids') state calls) := by
  induction calls generalizing state seen with
  | nil => trivial
  | cons request rest ih =>
      rw [Runs.trace, List.forall_mem_cons] at hsame
      obtain ⟨hfirst, hrest⟩ := hsame
      have hrequest := hcalls request List.mem_cons_self
      obtain ⟨hkeeps, hhalts, hgrants⟩ := h.step_halted terms hrequest
      refine ⟨fun hreserves hearlier => ?_, ih
        (fun other hother => hcalls other (List.mem_cons_of_mem _ hother))
        ((h.step hlimit hrequest).2 hfirst) ?_ hrest⟩
      · have hbarred := hgrants hreserves (hseen hearlier)
        exact ⟨fun hdone => hbarred (hfirst.symm.trans hdone), hbarred⟩
      · rintro ⟨earlier, hmem, hreconciles, hrefused⟩
        rcases List.mem_append.mp hmem with hmem | hmem
        · exact hkeeps (hseen ⟨earlier, hmem, hreconciles, hrefused⟩)
        · rw [List.mem_singleton.mp hmem] at hreconciles hrefused
          exact hhalts hreconciles (hrefused.elim (fun heq => hfirst.symm.trans heq) id)

/-- The breaker and the guard in the database with the same limit grant and refuse the same calls
of a month, and nothing after the limit was exceeded, exactly when no call drives them apart. -/
theorem agree_iff (terms : BudgetTerms) (guardTerms : GuardTerms) (ids ids' : RandomIds)
    (month : Month) (calls : List SharedRequest)
    (hlimit : terms.limitMicros = guardTerms.limitMicros)
    (hcalls : ∀ request ∈ calls, request.InMonth month) :
    Agree terms guardTerms ids ids' calls ↔
      Runs.Along (step terms guardTerms ids ids')
        (fun state request => ¬ state.Apart guardTerms month request) start calls := by
  rw [← same_iff_along hlimit calls hcalls mirrors_start]
  refine ⟨fun h => h.1, fun h => ⟨h, ?_⟩⟩
  rw [Runs.each_iff_eachFrom]
  exact barred_run hlimit calls hcalls mirrors_start (by rintro ⟨_, ⟨⟩, -⟩) h

end BothGuards

namespace Sample

theorem guardThresholds_sorted : (20000000 : ℤ) ≤ 32000000 ∧ (32000000 : ℤ) ≤ 40000000 := by decide

/-- The terms of a guard that is built without arguments. -/
def guardTerms : GuardTerms where
  limitMicros := 40000000
  thresholds := (20000000, 32000000, 40000000)
  limit_pos := budgetLimit_pos
  thresholds_sorted := guardThresholds_sorted

/-- A call to both guards while the clocks stand still. -/
def both (call : SharedCall) : SharedRequest := ⟨call, fun _ => moment, fun _ => moment⟩

/-- Two reservations, the first of them reconciled for more than its estimate. -/
def overrun : List SharedRequest := [
  both (.reserve "openrouter" 20000000),
  both (.reserve "openrouter" 20000000),
  both (.reconcile 0 25000000 25000000),
  both (.reserve "openrouter" 1000000)]

/-- Then the other one costs less than its estimate. -/
def recovered : List SharedRequest := overrun ++ [
  both (.reconcile 1 1000000 1000000),
  both (.reserve "openrouter" 1000000)]

theorem breaker_month : MonthlyBudgetCircuitBreaker.monthOf moment =
    .ok (moment.year, moment.month) := by decide +kernel

theorem guard_month : PostgresBudgetGuard.awareMonth moment =
    .ok (moment.year, moment.month) := by decide +kernel

theorem overrun_inMonth : ∀ request ∈ overrun, request.InMonth (moment.year, moment.month) := by
  have hprovider : "openrouter" ≠ "exa" := by decide
  rw [overrun, List.forall_mem_cons, List.forall_mem_cons, List.forall_mem_cons,
    List.forall_mem_cons]
  exact ⟨⟨breaker_month, guard_month, hprovider⟩, ⟨breaker_month, guard_month, hprovider⟩,
    ⟨breaker_month, guard_month, trivial⟩, ⟨breaker_month, guard_month, hprovider⟩,
    fun request hrequest => by cases hrequest⟩

/-- Until then the guards agree, and so no call has driven them apart. -/
theorem overrun_agree :
    BothGuards.Agree budgetTerms guardTerms randomIds randomIds overrun ∧
      Runs.Along (BothGuards.step budgetTerms guardTerms randomIds randomIds)
        (fun state request => ¬ state.Apart guardTerms (moment.year, moment.month) request)
        BothGuards.start overrun := by
  have hagree : BothGuards.Agree budgetTerms guardTerms randomIds randomIds overrun := by
    decide +kernel
  exact ⟨hagree, (BothGuards.agree_iff budgetTerms guardTerms randomIds randomIds
    (moment.year, moment.month) overrun rfl overrun_inMonth).mp hagree⟩

/-- The breaker grants again what the guard in the database still refuses. -/
theorem recovered_disagree :
    ¬ BothGuards.Agree budgetTerms guardTerms randomIds randomIds recovered := by
  decide +kernel

end Sample

end VTrade
