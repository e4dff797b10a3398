/-
# What the providers charge

The guard knows what the calls report.  What the providers charge is another matter: an answer may
be lost, may not be readable, or its worker may crash before it has reconciled.  All of it stays
within the monthly limit as long as no provider charges more for a request than its call was
prepared for, nothing for a request that it refuses, and what it reports where it reports it: a
reservation that has not been reconciled keeps its whole estimate.
-/

import VTrade.ProviderRequests

namespace VTrade

open Gateway

/-! ## What is claimed of a month -/

/-- What a row claims: its estimate while it is pending, and then what has been billed. -/
def ProviderBudgetReservation.claim (row : ProviderBudgetReservation) : ℤ :=
  if row.status = .reserved then row.estimatedCostMicros else row.billedCostMicros.getD 0

namespace BudgetTables

/-- What the rows claim of a month. -/
def claimedIn (tables : BudgetTables) (month : Month) : ℤ :=
  (tables.reservations.map fun row => if row.monthStart = month then row.claim else 0).sum

/-- The dollars that are recorded as billed in a month. -/
def billedIn (tables : BudgetTables) (month : Month) : ℤ :=
  (tables.account? month).elim 0 MonthAccount.billedCostMicros

variable {tables after : BudgetTables} {terms : GuardTerms} {month : Month}
  {reservation : BudgetReservation}

theorem billedIn_eq (terms : GuardTerms) (tables : BudgetTables) (month : Month) :
    tables.billedIn month = (tables.accountIn terms month).billedCostMicros := by
  unfold billedIn accountIn
  cases tables.account? month with
  | none => rfl
  | some account => rfl

/-- What writing a row does to what is claimed. -/
theorem claimedIn_replaced
    (unique : (tables.reservations.map ProviderBudgetReservation.id).Nodup)
    (row : ProviderBudgetReservation)
    (h : after.reservations =
      KeyedList.upsert ProviderBudgetReservation.id row tables.reservations) (month : Month) :
    after.claimedIn month +
      (KeyedList.lookup ProviderBudgetReservation.id row.id tables.reservations).elim 0
        (fun old => if old.monthStart = month then old.claim else 0) =
      tables.claimedIn month + if row.monthStart = month then row.claim else 0 := by
  unfold claimedIn
  rw [h]
  exact KeyedList.sum_replace unique (KeyedList.upsert_perm unique row)
    (fun old => if old.monthStart = month then old.claim else 0)

/-- What writing a row does to what is pending. -/
theorem pendingMicros_replaced
    (unique : (tables.reservations.map ProviderBudgetReservation.id).Nodup)
    (row : ProviderBudgetReservation)
    (h : after.reservations =
      KeyedList.upsert ProviderBudgetReservation.id row tables.reservations) (month : Month) :
    after.pendingMicros month +
      (KeyedList.lookup ProviderBudgetReservation.id row.id tables.reservations).elim 0
        (pendingOf month) = tables.pendingMicros month + pendingOf month row := by
  rw [← pendingMicros_setReservation unique row month, pendingMicros_congr]
  exact h

/-- What a reservation that is granted leaves room for. -/
theorem reserveDollars_within (h : tables.reserveDollars terms reservation month = .ok after) :
    tables.billedIn month + tables.pendingMicros month + reservation.estimatedCostMicros ≤
      terms.limitMicros := by
  by_cases hfits : FitsBigint terms.limitMicros
  · obtain ⟨ensured, row, hensured, hrow, haccount, -, hreservations, -, -⟩ :=
      ensureBudgetRow_spec tables hfits month
    unfold reserveDollars at h
    rw [hensured] at h
    dsimp only [bind, Except.bind] at h
    rw [hrow] at h
    obtain ⟨-, h⟩ := Checks.ite_error_eq_ok.mp h
    obtain ⟨hwithin, -⟩ := Checks.ite_error_eq_ok.mp h
    have hroom := not_lt.mp (not_or.mp hwithin).2
    have hbilled : row.billedCostMicros = tables.billedIn month := by
      rw [billedIn_eq terms, ← haccount]
      rfl
    rw [hbilled, pendingMicros_congr hreservations] at hroom
    exact hroom
  · rw [reserveDollars_of_overflow hfits] at h
    cases h

end BudgetTables

namespace PostgresBudgetGuard

variable {terms : GuardTerms} {ids : RandomIds} {clock : ℕ → Datetime}
  {guard after : PostgresBudgetGuard} {reservation : BudgetReservation}

/-- What is billed and what is pending is what the rows claim, within the limit of every month. -/
structure Solvent (terms : GuardTerms) (guard : PostgresBudgetGuard) : Prop where
  claims : ∀ month, guard.tables.claimedIn month =
    guard.tables.billedIn month + guard.tables.pendingMicros month
  ceiling : ∀ month, guard.tables.billedIn month + guard.tables.pendingMicros month ≤
    terms.limitMicros

theorem start_solvent (terms : GuardTerms) : start.Solvent terms where
  claims _ := rfl
  ceiling _ := terms.limit_pos.le

theorem Solvent.kept (h : guard.Solvent terms)
    (hbudgets : after.tables.budgets = guard.tables.budgets)
    (hreservations : after.tables.reservations = guard.tables.reservations) :
    after.Solvent terms := by
  have hbilled (month : Month) : after.tables.billedIn month = guard.tables.billedIn month := by
    unfold BudgetTables.billedIn
    rw [BudgetTables.account?_of_budgets hbudgets]
  have hpending (month : Month) := BudgetTables.pendingMicros_congr hreservations month
  refine ⟨fun month => ?_, fun month => ?_⟩
  · rw [hbilled, hpending, ← h.claims, BudgetTables.claimedIn, hreservations]
    rfl
  · rw [hbilled, hpending]
    exact h.ceiling month

theorem Solvent.granted (h : guard.Solvent terms) (hcoherent : guard.Coherent ids)
    (hid : reservation.id = ids.hex guard.drawn) {month : Month}
    (hmade : guard.tables.reserveDollars terms reservation month = .ok after.tables) :
    after.Solvent terms := by
  have hroom := BudgetTables.reserveDollars_within hmade
  have hgranted := BudgetTables.reserveDollars_eq_ok hmade
  have hmore := hcoherent.keyed.pending_granted hid hgranted
  have hclaims (other : Month) := BudgetTables.claimedIn_replaced hcoherent.keyed.unique _
    hgranted.reservations other
  have hpending (other : Month) := BudgetTables.pendingMicros_replaced hcoherent.keyed.unique _
    hgranted.reservations other
  dsimp only at hclaims hpending
  rw [hid, hcoherent.keyed.lookup_fresh] at hclaims hpending
  have hothers (other : Month) (hother : month ≠ other) :
      after.tables.pendingMicros other = guard.tables.pendingMicros other := by
    have hsum := hpending other
    rw [Option.elim_none, add_zero, BudgetTables.pendingOf] at hsum
    rw [hsum, if_neg (fun hsame => hother hsame.1), add_zero]
  have hbilled (other : Month) : after.tables.billedIn other = guard.tables.billedIn other := by
    by_cases hother : other = month
    · subst hother
      rw [BudgetTables.billedIn_eq terms, BudgetTables.billedIn_eq terms, BudgetTables.accountIn,
        hgranted.account]
      rfl
    · unfold BudgetTables.billedIn
      rw [hgranted.others other hother]
  refine ⟨fun other => ?_, fun other => ?_⟩
  · have hrows := hclaims other
    have hbefore := h.claims other
    rw [Option.elim_none, add_zero] at hrows
    rw [hbilled, hrows, hbefore]
    by_cases hother : month = other
    · subst hother
      rw [if_pos rfl, hmore, add_assoc]
      rfl
    · rw [if_neg hother, hothers other hother, add_zero]
  · rw [hbilled]
    by_cases hother : month = other
    · subst hother
      rw [hmore, ← add_assoc]
      exact hroom
    · rw [hothers other hother]
      exact h.ceiling other

theorem Solvent.reconciled (h : guard.Solvent terms) (hcoherent : guard.Coherent ids)
    {month : Month} {billed nominal : ℤ} {halted : Bool}
    (hmade : guard.tables.reconcileDollars terms reservation month billed nominal =
      .ok (after.tables, halted))
    (hwithin : ∀ row, guard.tables.reservation? reservation.id month = some row →
      billed ≤ row.estimatedCostMicros) : after.Solvent terms := by
  obtain ⟨row, account, hrow, hstatus, haccount, hreconciled, -⟩ :=
    BudgetTables.reconcileDollars_eq_ok hcoherent.keyed.unique hmade
  obtain ⟨hlookup, hmonth⟩ := BudgetTables.reservation?_eq_some.mp hrow
  have hid := KeyedList.key_of_lookup_eq_some hlookup
  have hless := hcoherent.keyed.pending_reconciled hrow hstatus hreconciled
  have hbound := hwithin row hrow
  have hclaims (other : Month) := BudgetTables.claimedIn_replaced hcoherent.keyed.unique _
    hreconciled.reservations other
  have hpending (other : Month) := BudgetTables.pendingMicros_replaced hcoherent.keyed.unique _
    hreconciled.reservations other
  obtain ⟨written, hwritten, hstart, hgone, hclaim⟩ : ∃ written : ProviderBudgetReservation,
      written = { row with
        status := .reconciled
        billedCostMicros := some billed
        nominalCostMicros := some nominal } ∧
      written.monthStart = month ∧ (∀ other, BudgetTables.pendingOf other written = 0) ∧
      written.claim = billed :=
    ⟨_, rfl, hmonth, fun other => if_neg fun hsame => (by cases hsame.2), if_neg (by simp)⟩
  rw [← hwritten] at hclaims hpending
  have hsame : written.id = reservation.id := by rw [hwritten, ← hid]
  simp only [hsame, hlookup, Option.elim_some, hmonth, hstart, hclaim] at hclaims
  simp only [hsame, hlookup, Option.elim_some] at hpending
  have hbilled : after.tables.billedIn month = guard.tables.billedIn month + billed := by
    unfold BudgetTables.billedIn
    rw [hreconciled.account, haccount]
    rfl
  have hothers (other : Month) (hother : month ≠ other) :
      after.tables.billedIn other = guard.tables.billedIn other ∧
        after.tables.pendingMicros other = guard.tables.pendingMicros other := by
    have hsum := hpending other
    rw [hgone, BudgetTables.pendingOf, if_neg fun hsame => hother (hmonth.symm.trans hsame.1),
      add_zero, add_zero] at hsum
    refine ⟨?_, hsum⟩
    unfold BudgetTables.billedIn
    rw [hreconciled.others other hother.symm]
  refine ⟨fun other => ?_, fun other => ?_⟩
  · have hrows := hclaims other
    have hbefore := h.claims other
    by_cases hother : month = other
    · subst hother
      rw [if_pos rfl, if_pos rfl, ProviderBudgetReservation.claim, if_pos hstatus] at hrows
      rw [hbilled, hless]
      omega
    · rw [if_neg hother, if_neg hother, add_zero, add_zero] at hrows
      rw [hrows, (hothers other hother).1, (hothers other hother).2]
      exact hbefore
  · by_cases hother : month = other
    · subst hother
      have hbefore := h.ceiling month
      rw [hbilled, hless]
      omega
    · rw [(hothers other hother).1, (hothers other hother).2]
      exact h.ceiling other

section calls

variable {provider : String} {estimate requests billed nominal : ℤ} {credits : DecimalValue}

/-- What reserving does to the dollars. -/
theorem reserve_charged {answer : Except BudgetFailure BudgetReservation}
    (hmade : guard.reserve terms ids clock provider estimate requests credits = (after, answer)) :
    (after.tables.budgets = guard.tables.budgets ∧
      after.tables.reservations = guard.tables.reservations ∧
      ∀ reservation, answer = .ok reservation → provider = "exa") ∨
    ∃ reservation month, answer = .ok reservation ∧ reservation.id = ids.hex guard.drawn ∧
      reservation.estimatedCostMicros = estimate ∧
      guard.tables.reserveDollars terms reservation month = .ok after.tables := by
  unfold PostgresBudgetGuard.reserve at hmade
  split at hmade
  · cases hmade
    exact .inl ⟨rfl, rfl, fun _ hanswer => by cases hanswer⟩
  next value month hchecks =>
    dsimp only at hmade
    by_cases hexa : provider = "exa"
    · rw [if_pos hexa] at hmade
      split at hmade
      · cases hmade
        exact .inl ⟨rfl, rfl, fun _ hanswer => by cases hanswer⟩
      next tables htables =>
        cases hmade
        obtain ⟨-, -, hgranted⟩ := BudgetTables.reserveExa_eq_ok htables
        exact .inl ⟨hgranted.budgets, hgranted.reservations, fun _ _ => hexa⟩
    · rw [if_neg hexa] at hmade
      split at hmade
      · cases hmade
        exact .inl ⟨rfl, rfl, fun _ hanswer => by cases hanswer⟩
      next tables htables =>
        cases hmade
        obtain ⟨-, htables⟩ := Checks.ite_error_eq_ok.mp htables
        exact .inr ⟨_, month, rfl, rfl, rfl, htables⟩

/-- What reconciling does to the dollars. -/
theorem reconcile_charged {answer : Except BudgetFailure Unit}
    (hmade : guard.reconcile terms clock reservation billed nominal requests credits =
      (after, answer)) :
    (after.tables.budgets = guard.tables.budgets ∧
      after.tables.reservations = guard.tables.reservations) ∨
    reservation.provider ≠ "exa" ∧ ∃ month halted,
      guard.tables.reconcileDollars terms reservation month billed nominal =
        .ok (after.tables, halted) := by
  rw [reconcile_eq] at hmade
  split at hmade
  · cases hmade
    exact .inl ⟨rfl, rfl⟩
  next tables halted hresult =>
    cases hmade
    unfold reconcileTables at hresult
    by_cases hargs : billed < 0 ∨ nominal < 0
    · rw [if_pos hargs] at hresult
      cases hresult
    rw [if_neg hargs] at hresult
    obtain ⟨value, -, hresult⟩ := Checks.bind_eq_ok.mp hresult
    obtain ⟨month, -, hresult⟩ := Checks.bind_eq_ok.mp hresult
    by_cases hexa : reservation.provider = "exa"
    · rw [if_pos hexa] at hresult
      obtain ⟨row, quota, -, -, -, hreconciled⟩ := BudgetTables.reconcileExa_eq_ok hresult
      exact .inl ⟨hreconciled.budgets, hreconciled.reservations⟩
    · rw [if_neg hexa] at hresult
      obtain ⟨-, hresult⟩ := Checks.ite_error_eq_ok.mp hresult
      exact .inr ⟨hexa, month, halted, hresult⟩

end calls

end PostgresBudgetGuard

/-! ## What a request costs -/

namespace RunningCall

/-- The most that a provider may charge for a request of a call. -/
def ceiling : RunningCall → ℕ
  | .completion prepared => prepared.upperBound
  | .exa _ => exaMaxSearchCostMicros
  | .tavily _ => tavilyMaxSearchCostMicros

/-- A provider charges for a request no more than the call was prepared for.  OpenRouter charges
nothing for a request that it refuses, and what it reports where the report can be read. -/
def Charges (micros : ℕ → JsonFloat) (reply : Option HttpResponse) (costMicros : ℕ) :
    RunningCall → Prop
  | .completion prepared => costMicros ≤ prepared.upperBound ∧ ∀ response, reply = some response →
      (response.isRefusal = true → costMicros = 0) ∧
      ∀ cost, response.raiseForStatus = .ok () →
        readCost micros prepared.payload.model response = .ok cost → cost.billed = costMicros
  | .exa _ => True
  | .tavily _ => costMicros ≤ tavilyMaxSearchCostMicros

variable {micros : ℕ → JsonFloat} {call : RunningCall}

theorem Charges.le_ceiling {reply : Option HttpResponse} {costMicros : ℕ}
    (h : call.Charges micros reply costMicros) (hprovider : call.provider ≠ "exa") :
    costMicros ≤ call.ceiling := by
  cases call with
  | completion prepared => exact h.1
  | exa normalizer => exact absurd rfl hprovider
  | tavily normalizer => exact h

/-- What a call reconciles covers what its last request has cost. -/
theorem Charges.settle {response : HttpResponse} {costMicros : ℕ}
    (h : call.Charges micros (some response) costMicros) (hprovider : call.provider ≠ "exa")
    {stored : Option StoredArtifact} {settlement : Settlement}
    (hsettled : call.settle micros response stored = .ok settlement) :
    costMicros ≤ settlement.billedCostMicros ∧ settlement.billedCostMicros ≤ call.ceiling := by
  cases call with
  | completion prepared =>
      obtain ⟨hbound, hcharged⟩ := h
      obtain ⟨hrefused, hreported⟩ := hcharged response rfl
      change settleCompletion micros prepared response stored = .ok settlement at hsettled
      unfold settleCompletion at hsettled
      by_cases hrefusal : response.isRefusal = true
      · rw [if_pos hrefusal] at hsettled
        cases hsettled
        exact ⟨(hrefused hrefusal).le, Nat.zero_le _⟩
      · rw [if_neg hrefusal] at hsettled
        obtain ⟨_, hstatus, hsettled⟩ := Checks.bind_eq_ok.mp hsettled
        obtain ⟨cost, hread, hsettled⟩ := Checks.bind_eq_ok.mp hsettled
        obtain ⟨telemetry, -, hsettled⟩ := Checks.bind_eq_ok.mp hsettled
        cases hsettled
        have hbilled := hreported cost hstatus hread
        exact ⟨hbilled.ge, hbilled.le.trans hbound⟩
  | exa normalizer => exact absurd rfl hprovider
  | tavily normalizer =>
      change settleTavily normalizer response stored = .ok settlement at hsettled
      unfold settleTavily at hsettled
      obtain ⟨-, -, hsettled⟩ := Checks.bind_eq_ok.mp hsettled
      obtain ⟨parsed, -, hsettled⟩ := Checks.bind_eq_ok.mp hsettled
      obtain ⟨-, -, hsettled⟩ := Checks.bind_eq_ok.mp hsettled
      obtain ⟨usage, -, hsettled⟩ := Checks.bind_eq_ok.mp hsettled
      split at hsettled
      · cases hsettled
      · obtain ⟨artifact, -, hsettled⟩ := Checks.bind_eq_ok.mp hsettled
        cases hsettled
        exact ⟨h, le_refl _⟩

end RunningCall

theorem ProviderTask.prepare_ceiling {task : ProviderTask} {call : RunningCall}
    (h : task.prepare = .ok call) : call.ceiling ≤ call.estimate := by
  cases task with
  | completion messages tools config =>
      change (prepareCompletion messages tools config).map RunningCall.completion = .ok call at h
      cases hprepared : prepareCompletion messages tools config with
      | error failure =>
          rw [hprepared] at h
          cases h
      | ok prepared =>
          rw [hprepared] at h
          cases h
          exact (prepareCompletion_eq_ok hprepared).1
  | exa normalizer =>
      cases h
      exact le_refl _
  | tavily enabled normalizer =>
      cases enabled with
      | false => cases h
      | true =>
          cases h
          exact le_refl _

namespace ProviderWorld

/-- What the requests under a reservation have cost. -/
def costUnder (world : ProviderWorld) (id : String) : ℤ :=
  ((world.under id).map fun request => (request.costMicros : ℤ)).sum

/-- What the requests under the reservations of a month have cost. -/
def spentIn (world : ProviderWorld) (month : Month) : ℤ :=
  (world.guard.tables.reservations.map fun row =>
    if row.monthStart = month then world.costUnder row.id else 0).sum

/-- The providers charge what the calls are prepared for. -/
def Charges (micros : ℕ → JsonFloat) (world : ProviderWorld) : ProviderEvent → Prop
  | .post worker reply costMicros => ∀ call reservation attempt,
      world.stages worker = .posting call reservation attempt →
        call.Charges micros reply costMicros
  | .call _ _ _ | .finish _ _ _ | .crash _ => True

variable {terms : GuardTerms} {ids : RandomIds} {micros : ℕ → JsonFloat} {world : ProviderWorld}

/-- Every row claims what the requests under it have cost, and what a running call has cost is
covered by what it will reconcile. -/
structure Funded (terms : GuardTerms) (micros : ℕ → JsonFloat) (world : ProviderWorld) : Prop where
  solvent : world.guard.Solvent terms
  covered : ∀ row ∈ world.guard.tables.reservations, world.costUnder row.id ≤ row.claim
  posting : ∀ worker call reservation attempt,
    world.stages worker = .posting call reservation attempt → call.provider ≠ "exa" →
      world.costUnder reservation.id = 0 ∧ (call.ceiling : ℤ) ≤ reservation.estimatedCostMicros
  answered : ∀ worker call reservation response,
    world.stages worker = .answered call reservation response → call.provider ≠ "exa" →
      ∀ stored settlement, call.settle micros response stored = .ok settlement →
        world.costUnder reservation.id ≤ settlement.billedCostMicros ∧
          (settlement.billedCostMicros : ℤ) ≤ reservation.estimatedCostMicros

theorem start_funded (terms : GuardTerms) (micros : ℕ → JsonFloat) : start.Funded terms micros where
  solvent := PostgresBudgetGuard.start_solvent terms
  covered row hrow := by cases hrow
  posting worker call reservation attempt h := by cases h
  answered worker call reservation response h := by cases h

theorem costUnder_send (request : SentRequest) (id : String) :
    (world.send request).costUnder id =
      if request.reservation.id = id then world.costUnder id + request.costMicros
      else world.costUnder id := by
  unfold costUnder
  rw [under_send]
  split
  · rw [List.map_append, List.sum_append, List.map_singleton, List.sum_singleton]
  · rfl

/-- The row of a running call of dollars is pending, at the estimate of its reservation. -/
theorem Sound.row_of_running (h : world.Sound ids) {worker : ℕ} {call : RunningCall}
    {reservation : BudgetReservation}
    (hrunning : (world.stages worker).running? = some (call, reservation))
    {row : ProviderBudgetReservation} (hrow : row ∈ world.guard.tables.reservations)
    (hid : row.id = reservation.id) :
    call.provider ≠ "exa" ∧ row.status = .reserved ∧
      row.estimatedCostMicros = reservation.estimatedCostMicros := by
  obtain ⟨hprovider, month, hbooking⟩ := h.running worker call reservation hrunning
  have hlookup : KeyedList.lookup ProviderBudgetReservation.id reservation.id
      world.guard.tables.reservations = some row :=
    (KeyedList.lookup_eq_some_iff h.coherent.keyed.unique).mpr ⟨hrow, hid⟩
  have hbooked : row.booking = reservation.booking month := by
    unfold BudgetTables.booking? at hbooking
    rw [hlookup] at hbooking
    exact Option.some.inj hbooking
  unfold ProviderBudgetReservation.booking BudgetReservation.booking at hbooked
  obtain ⟨-, hexa, hestimate, -, -, hstatus⟩ := Booking.mk.inj hbooked
  refine ⟨?_, hstatus, hestimate⟩
  rw [← hprovider]
  exact of_decide_eq_false hexa.symm

theorem Funded.idled (h : world.Funded terms micros) (worker : ℕ) :
    (world.move worker .idle).Funded terms micros := by
  have hstage {other : ℕ} {stage : CallStage} (hne : stage ≠ .idle)
      (hother : (world.move worker .idle).stages other = stage) :
      world.stages other = stage := by
    by_cases hworker : other = worker
    · subst hworker
      rw [stages_move_self] at hother
      exact absurd hother.symm hne
    · rw [stages_move_of_ne hworker] at hother
      exact hother
  refine ⟨h.solvent, h.covered, ?_, ?_⟩
  · intro other call reservation attempt hother
    exact h.posting other call reservation attempt (hstage (by simp) hother)
  · intro other call reservation response hother
    exact h.answered other call reservation response (hstage (by simp) hother)

/-- Other tables that claim as much. -/
theorem Funded.guarded (h : world.Funded terms micros) {guard : PostgresBudgetGuard}
    (hsolvent : guard.Solvent terms)
    (hcovered : ∀ row ∈ guard.tables.reservations, world.costUnder row.id ≤ row.claim) :
    (world.guarded guard).Funded terms micros where
  solvent := hsolvent
  covered := hcovered
  posting := h.posting
  answered := h.answered

section steps

variable (terms ids micros)

theorem Funded.begin (h : world.Funded terms micros) (hsound : world.Sound ids) (worker : ℕ)
    (task : ProviderTask) (clock : ℕ → Datetime) :
    (world.begin terms ids worker task clock).1.Funded terms micros := by
  unfold ProviderWorld.begin
  split
  · exact h
  next call hprepared =>
    generalize hreserve : world.guard.reserve terms ids clock call.provider call.estimate
      call.requestCount (.finite call.creditCount) = result
    obtain ⟨guard, answer⟩ := result
    dsimp only
    have hfree (reservation : BudgetReservation) (hanswer : answer = .ok reservation) :
        world.costUnder reservation.id = 0 := by
      subst hanswer
      obtain ⟨-, hnone, -, -⟩ := hsound.coherent.reserve_eq_ok hreserve
      have hunder : world.under reservation.id = [] := by
        refine List.filter_eq_nil_iff.mpr fun request hrequest hid => ?_
        obtain ⟨booking, hbooking, -⟩ := hsound.booked request hrequest
        rw [of_decide_eq_true hid, hnone] at hbooking
        cases hbooking
      unfold costUnder
      rw [hunder]
      rfl
    have hguarded : (world.guarded guard).Funded terms micros := by
      rcases PostgresBudgetGuard.reserve_charged hreserve with
        ⟨hbudgets, hreservations, -⟩ | ⟨reservation, month, hanswer, hid, hestimate, hmade⟩
      · refine h.guarded (h.solvent.kept hbudgets hreservations) ?_
        rw [hreservations]
        exact h.covered
      · refine h.guarded (h.solvent.granted hsound.coherent hid hmade) fun row hrow => ?_
        rw [(BudgetTables.reserveDollars_eq_ok hmade).reservations] at hrow
        rcases KeyedList.mem_upsert hrow with rfl | hrow
        · rw [hfree reservation hanswer, ProviderBudgetReservation.claim, if_pos rfl]
          dsimp only
          rw [hestimate]
          exact Int.natCast_nonneg _
        · exact h.covered row hrow
    cases answer with
    | error failure => exact hguarded
    | ok reservation =>
        obtain ⟨hmade, -⟩ := hsound.coherent.reserve_eq_ok hreserve
        dsimp only
        split
        · exact hguarded
        · refine ⟨hguarded.solvent, hguarded.covered, ?_, ?_⟩
          · intro other call' reservation' attempt hother hprovider
            by_cases hworker : other = worker
            · subst hworker
              rw [stages_move_self] at hother
              cases hother
              refine ⟨hfree reservation rfl, ?_⟩
              rw [hmade]
              exact Int.ofNat_le.mpr (ProviderTask.prepare_ceiling hprepared)
            · rw [stages_move_of_ne hworker] at hother
              exact h.posting other call' reservation' attempt hother hprovider
          · intro other call' reservation' response hother
            by_cases hworker : other = worker
            · subst hworker
              rw [stages_move_self] at hother
              cases hother
            · rw [stages_move_of_ne hworker] at hother
              exact h.answered other call' reservation' response hother

/-- A request that has been posted and has cost what its call was prepared for. -/
theorem Funded.posted (h : world.Funded terms micros) (hsound : world.Sound ids) {worker : ℕ}
    {call : RunningCall} {reservation : BudgetReservation} {attempt : ℕ}
    (hstage : world.stages worker = .posting call reservation attempt)
    (reply : Option HttpResponse) {costMicros : ℕ} (hcharges : call.Charges micros reply costMicros)
    {stage : CallStage}
    (hposting : ∀ call' reservation' attempt', stage = .posting call' reservation' attempt' →
      call' = call ∧ reservation' = reservation ∧ costMicros = 0)
    (hanswered : ∀ call' reservation' response, stage = .answered call' reservation' response →
      call' = call ∧ reservation' = reservation ∧ reply = some response) :
    ((world.send ⟨reservation, reply.map HttpResponse.statusCode, costMicros⟩).move worker
      stage).Funded terms micros := by
  have hcalled : (world.stages worker).running? = some (call, reservation) := by
    rw [hstage]
    rfl
  have hcost (id : String) :
      ((world.send ⟨reservation, reply.map HttpResponse.statusCode, costMicros⟩).move worker
        stage).costUnder id =
      if reservation.id = id then world.costUnder id + costMicros else world.costUnder id :=
    costUnder_send _ id
  have hothers {other : ℕ} (hworker : other ≠ worker) {call' : RunningCall}
      {reservation' : BudgetReservation}
      (hother : (world.stages other).running? = some (call', reservation')) :
      ¬ reservation.id = reservation'.id := fun hid =>
    hworker (hsound.apart other worker call' reservation' call reservation hother hcalled hid.symm)
  refine ⟨h.solvent, ?_, ?_, ?_⟩
  · intro row hrow
    rw [hcost]
    split
    next hid =>
      obtain ⟨hprovider, hstatus, hestimate⟩ := hsound.row_of_running hcalled hrow hid.symm
      obtain ⟨hzero, hceiling⟩ := h.posting worker call reservation attempt hstage hprovider
      have hbound := hcharges.le_ceiling hprovider
      rw [← hid, hzero, ProviderBudgetReservation.claim, if_pos hstatus, hestimate]
      omega
    next hid => exact h.covered row hrow
  · intro other call' reservation' attempt' hother hprovider
    rw [hcost]
    by_cases hworker : other = worker
    · subst hworker
      rw [stages_move_self] at hother
      obtain ⟨rfl, rfl, rfl⟩ := hposting call' reservation' attempt' hother
      obtain ⟨hzero, hceiling⟩ := h.posting other call' reservation' attempt hstage hprovider
      rw [if_pos rfl, hzero]
      exact ⟨rfl, hceiling⟩
    · rw [stages_move_of_ne hworker] at hother
      have hbefore : world.stages other = .posting call' reservation' attempt' := hother
      rw [if_neg (hothers hworker (by rw [hbefore]; rfl))]
      exact h.posting other call' reservation' attempt' hbefore hprovider
  · intro other call' reservation' response hother hprovider stored settlement hsettled
    rw [hcost]
    by_cases hworker : other = worker
    · subst hworker
      rw [stages_move_self] at hother
      obtain ⟨rfl, rfl, rfl⟩ := hanswered call' reservation' response hother
      obtain ⟨hzero, hceiling⟩ := h.posting other call' reservation' attempt hstage hprovider
      obtain ⟨hcovered, hbound⟩ := hcharges.settle hprovider hsettled
      rw [if_pos rfl, hzero]
      omega
    · rw [stages_move_of_ne hworker] at hother
      have hbefore : world.stages other = .answered call' reservation' response := hother
      rw [if_neg (hothers hworker (by rw [hbefore]; rfl))]
      exact h.answered other call' reservation' response hbefore hprovider stored settlement
        hsettled

theorem Funded.post (h : world.Funded terms micros) (hsound : world.Sound ids) {worker : ℕ}
    {call : RunningCall} {reservation : BudgetReservation} {attempt : ℕ}
    (hstage : world.stages worker = .posting call reservation attempt)
    (reply : Option HttpResponse) {costMicros : ℕ}
    (hcharges : call.Charges micros reply costMicros) :
    (world.post worker call reservation attempt reply costMicros).1.Funded terms micros := by
  unfold ProviderWorld.post
  dsimp only
  split
  · exact h.posted terms ids micros hsound hstage none hcharges
      (fun _ _ _ hstage' => by cases hstage') fun _ _ _ hstage' => by cases hstage'
  next response =>
    split
    next hafter =>
      obtain ⟨hopenrouter, -, hrefused⟩ := RunningCall.after_eq_again hafter
      refine h.posted terms ids micros hsound hstage (some response) hcharges
        (fun call' reservation' attempt' hstage' => ?_) fun _ _ _ hstage' => by cases hstage'
      cases hstage'
      refine ⟨rfl, rfl, ?_⟩
      cases call with
      | completion prepared =>
          refine (hcharges.2 response rfl).1 ?_
          unfold HttpResponse.isRefusal
          rcases hrefused with hcode | hcode
          · rw [hcode]; rfl
          · rw [hcode]; rfl
      | exa normalizer => exact absurd hopenrouter (by simp [RunningCall.provider])
      | tavily normalizer => exact absurd hopenrouter (by simp [RunningCall.provider])
    · exact h.posted terms ids micros hsound hstage (some response) hcharges
        (fun _ _ _ hstage' => by cases hstage') fun _ _ _ hstage' => by cases hstage'
    · refine h.posted terms ids micros hsound hstage (some response) hcharges
        (fun _ _ _ hstage' => by cases hstage') fun call' reservation' response' hstage' => ?_
      cases hstage'
      exact ⟨rfl, rfl, rfl⟩

theorem Funded.finish (h : world.Funded terms micros) (hsound : world.Sound ids) {worker : ℕ}
    {call : RunningCall} {reservation : BudgetReservation} {response : HttpResponse}
    (hstage : world.stages worker = .answered call reservation response)
    (stored : Option StoredArtifact) (clock : ℕ → Datetime) :
    (world.finish terms micros worker call reservation response stored clock).1.Funded terms
      micros := by
  have hcalled : (world.stages worker).running? = some (call, reservation) := by
    rw [hstage]
    rfl
  unfold ProviderWorld.finish
  split
  · exact h.idled worker
  next settlement hsettled =>
    generalize hmade : world.guard.reconcile terms clock reservation
      settlement.billedCostMicros settlement.nominalCostMicros settlement.requestCount
      (.finite settlement.creditCount) = result
    obtain ⟨guard, answer⟩ := result
    dsimp only
    suffices hguarded : (world.guarded guard).Funded terms micros from hguarded.idled worker
    rcases PostgresBudgetGuard.reconcile_charged hmade with
      ⟨hbudgets, hreservations⟩ | ⟨hexa, month, halted, hreconciled⟩
    · refine h.guarded (h.solvent.kept hbudgets hreservations) ?_
      rw [hreservations]
      exact h.covered
    · have hprovider : call.provider ≠ "exa" := by
        rw [← (hsound.running worker call reservation hcalled).1]
        exact hexa
      obtain ⟨hcovered, hbound⟩ := h.answered worker call reservation response hstage hprovider
        stored settlement hsettled
      refine h.guarded (h.solvent.reconciled hsound.coherent hreconciled fun row hrow => ?_)
        fun row hrow => ?_
      · obtain ⟨hlookup, -⟩ := BudgetTables.reservation?_eq_some.mp hrow
        obtain ⟨-, -, hestimate⟩ := hsound.row_of_running hcalled
          (KeyedList.mem_of_lookup_eq_some hlookup) (KeyedList.key_of_lookup_eq_some hlookup)
        rw [hestimate]
        exact hbound
      · obtain ⟨old, account, hold, -, -, hwritten, -⟩ :=
          BudgetTables.reconcileDollars_eq_ok hsound.coherent.keyed.unique hreconciled
        obtain ⟨hlookup, -⟩ := BudgetTables.reservation?_eq_some.mp hold
        rw [hwritten.reservations] at hrow
        rcases KeyedList.mem_upsert hrow with rfl | hrow
        · dsimp only
          rw [KeyedList.key_of_lookup_eq_some hlookup, ProviderBudgetReservation.claim,
            if_neg (by simp)]
          exact hcovered
        · exact h.covered row hrow

theorem Funded.step (h : world.Funded terms micros) (hsound : world.Sound ids)
    {event : ProviderEvent} (hcharges : world.Charges micros event) :
    (world.step terms ids micros event).1.Funded terms micros := by
  cases event with
  | call worker task clock =>
      unfold ProviderWorld.step
      dsimp only
      cases hstage : world.stages worker with
      | idle => exact h.begin terms ids micros hsound worker task clock
      | posting _ _ _ => exact h
      | answered _ _ _ => exact h
  | post worker reply costMicros =>
      unfold ProviderWorld.step
      dsimp only
      cases hstage : world.stages worker with
      | idle => exact h
      | posting call reservation attempt =>
          exact h.post terms ids micros hsound hstage reply
            (hcharges call reservation attempt hstage)
      | answered _ _ _ => exact h
  | finish worker stored clock =>
      unfold ProviderWorld.step
      dsimp only
      cases hstage : world.stages worker with
      | idle => exact h
      | posting _ _ _ => exact h
      | answered call reservation response =>
          exact h.finish terms ids micros hsound hstage stored clock
  | crash worker => exact h.idled worker

end steps

theorem Funded.spentIn_le (h : world.Funded terms micros) (month : Month) :
    world.spentIn month ≤ world.guard.tables.claimedIn month := by
  unfold spentIn BudgetTables.claimedIn
  refine List.sum_le_sum fun row hrow => ?_
  split
  · exact h.covered row hrow
  · exact le_refl _

/-- What the providers charge for the requests under the reservations of a month, be they
answered, lost, or never reconciled, stays within what is billed and pending, and that within the
limit. -/
theorem spent_within (terms : GuardTerms) (ids : RandomIds) (micros : ℕ → JsonFloat)
    (events : List ProviderEvent)
    (h : Runs.Along (step terms ids micros) (Charges micros) start events) (month : Month) :
    let world := Runs.final (step terms ids micros) start events
    world.spentIn month ≤
      world.guard.tables.billedIn month + world.guard.tables.pendingMicros month ∧
    world.guard.tables.billedIn month + world.guard.tables.pendingMicros month ≤
      terms.limitMicros := by
  intro world
  obtain ⟨-, hfunded⟩ : world.Sound ids ∧ world.Funded terms micros :=
    Runs.final_of_along (ProviderWorld.step terms ids micros)
      (fun world event (hboth : world.Sound ids ∧ world.Funded terms micros) hcharges =>
        ⟨hboth.1.step terms ids micros event, hboth.2.step terms ids micros hboth.1 hcharges⟩)
      ⟨start_sound, start_funded terms micros⟩ h
  rw [← hfunded.solvent.claims]
  exact ⟨hfunded.spentIn_le month, by
    rw [hfunded.solvent.claims]
    exact hfunded.solvent.ceiling month⟩

end ProviderWorld

namespace Sample

/-- A search whose answer is lost, which its provider charges for all the same. -/
def lostSearch : List ProviderEvent :=
  [.call 0 (.tavily true fun fields => .ok (.object fields)) fun _ => moment, .post 0 none 8000]

/-- No nominal cost is missing. -/
def noFloats : ℕ → JsonFloat := fun _ => ⟨false, 0, 0⟩

theorem lostSearch_charges : Runs.Along (ProviderWorld.step guardTerms randomIds noFloats)
    (ProviderWorld.Charges noFloats) .start lostSearch := by
  refine ⟨trivial, ?_, trivial⟩
  intro call reservation attempt hstage
  have hcalled : ((ProviderWorld.step guardTerms randomIds noFloats .start
      (.call 0 (.tavily true fun fields => .ok (.object fields)) fun _ => moment)).1.stages 0).running? =
      some (.tavily fun fields => .ok (.object fields), ⟨randomIds.hex 0, 8000, "tavily", 0,
        .finite 0⟩) := rfl
  rw [hstage] at hcalled
  cases hcalled
  exact le_refl 8000

/-- What is lost stays pending. -/
theorem lostSearch_spent :
    (Runs.final (ProviderWorld.step guardTerms randomIds noFloats) .start lostSearch).spentIn
        (2026, 1) = 8000 ∧
      (Runs.final (ProviderWorld.step guardTerms randomIds noFloats) .start lostSearch).spentIn
        (2026, 1) ≤ 40000000 := by
  obtain ⟨hspent, hlimit⟩ := ProviderWorld.spent_within guardTerms randomIds noFloats lostSearch
    lostSearch_charges (2026, 1)
  exact ⟨by decide +kernel, hspent.trans hlimit⟩

end Sample

end VTrade
