/-
# Costs over the end of a month

A reservation that is granted shortly before the end of a month may be reconciled after it.  The
breaker has then forgotten its reservations, and the guard in the database looks for them in the
new month only: either raises, and the cost is recorded nowhere.  Within one month every cost is
recorded once, up to amounts that the database cannot store.
-/

import VTrade.BudgetAgreement
import VTrade.BudgetGuardSteps

namespace VTrade

/-! ## What is due, and what is recorded -/

/-- The reservations that have been granted. -/
def grantedIn (seen : List (TimedCall × BudgetAnswer)) : List BudgetReservation :=
  seen.filterMap fun entry => entry.2.toOption.join

/-- What a call reports as billed. -/
def BudgetCall.billed : BudgetCall → ℤ
  | .reserve _ _ _ _ => 0
  | .reconcile _ billedCostMicros _ _ _ => billedCostMicros

/-- A call reconciles a reservation that has been granted, and whose cost has not been counted
yet. -/
def Due (seen : List (TimedCall × BudgetAnswer)) (timed : TimedCall)
    (reservation : BudgetReservation) : Prop :=
  timed.call.reconciles = some reservation ∧ reservation ∈ grantedIn seen ∧
    reservation.id ∉ seen.filterMap countedId

section recording

variable {σ : Type} (step : σ → TimedCall → σ × BudgetAnswer) (spentIn : σ → Month → ℤ)
  (inOrder : TimedCall → Option Month)

/-- A reservation that has been granted was granted by some call. -/
theorem exists_grant {step : σ → TimedCall → σ × BudgetAnswer} {start : σ} {calls : List TimedCall}
    {reservation : BudgetReservation} (h : reservation ∈ grantedIn (Runs.trace step start calls)) :
    ∃ early grant later, calls = early ++ grant :: later ∧
      (step (Runs.final step start early) grant).2 = .ok (some reservation) := by
  induction calls generalizing start with
  | nil => cases h
  | cons timed rest ih =>
      unfold grantedIn at h
      rw [Runs.trace, List.filterMap_cons] at h
      have hrest : reservation ∈ grantedIn (Runs.trace step (step start timed).1 rest) →
          ∃ early grant later, timed :: rest = early ++ grant :: later ∧
            (step (Runs.final step start early) grant).2 = .ok (some reservation) := by
        intro hmem
        obtain ⟨early, grant, later, hsplit, hanswer⟩ := ih hmem
        exact ⟨timed :: early, grant, later, by rw [hsplit, List.cons_append], hanswer⟩
      cases hfirst : (step start timed).2.toOption.join with
      | none =>
          rw [hfirst] at h
          exact hrest h
      | some granted =>
          rw [hfirst] at h
          rcases List.mem_cons.mp h with rfl | h
          · refine ⟨[], timed, rest, rfl, ?_⟩
            cases hanswer : (step start timed).2 with
            | error failure =>
                rw [hanswer] at hfirst
                cases hfirst
            | ok answer =>
                rw [hanswer] at hfirst
                cases answer with
                | none => cases hfirst
                | some other =>
                    cases hfirst
                    exact hanswer
          · exact hrest h

/-- A call counts its reservation, and the month has spent what it reports more. -/
def Recorded (state : σ) (timed : TimedCall) (month : Month) : Prop :=
  (countedId (timed, (step state timed).2)).isSome ∧
    spentIn (step state timed).1 month = spentIn state month + timed.call.billed

/-- No reservation is counted twice, and every call that is in order and reconciles a reservation
that is due is recorded. -/
def NothingDropped (start : σ) (calls : List TimedCall) : Prop :=
  ((Runs.trace step start calls).filterMap countedId).Nodup ∧
    ∀ before timed after, calls = before ++ timed :: after → ∀ reservation month,
      inOrder timed = some month → Due (Runs.trace step start before) timed reservation →
        Recorded step spentIn (Runs.final step start before) timed month

end recording

/-! ## The circuit breaker -/

namespace MonthlyBudgetCircuitBreaker

/-- The checks of the arguments of a call. -/
def checkArguments : BudgetCall → Except BudgetFailure Unit
  | .reserve provider estimatedCostMicros requestCount creditCount =>
      checkReserve provider estimatedCostMicros requestCount creditCount
  | .reconcile _ billedCostMicros nominalCostMicros requestCount creditCount =>
      checkReconcile billedCostMicros nominalCostMicros requestCount creditCount

/-- The month that a call rolls a breaker to, if its arguments are in order and the clock says a
moment. -/
def rollsTo (timed : TimedCall) : Option Month :=
  (do
    checkArguments timed.call
    monthOf (timed.clock 0) : Except BudgetFailure Month).toOption

/-- What a breaker has recorded as spent in a month. -/
def spentIn (breaker : MonthlyBudgetCircuitBreaker) (month : Month) : ℤ :=
  if breaker.month = some month then breaker.billed else 0

/-- A call of another month, or one that presents the identifier. -/
def Touches (month : Month) (id : String) (timed : TimedCall) : Prop :=
  ∃ other, rollsTo timed = some other ∧
    (other ≠ month ∨ timed.call.reconciles.map BudgetReservation.id = some id)

/-- The reservation was granted in the month, and no call since then has been one of another month
or has presented its identifier; and nothing is billed for a search. -/
def StillHeld (terms : BudgetTerms) (ids : RandomIds) (before : List TimedCall) (timed : TimedCall)
    (reservation : BudgetReservation) (month : Month) : Prop :=
  (∀ early grant later, before = early ++ grant :: later →
    ((Runs.final (step terms ids) start early).step terms ids grant).2 = .ok (some reservation) →
      rollsTo grant = some month ∧ ∀ other ∈ later, ¬ Touches month reservation.id other) ∧
  (reservation.provider = "exa" → timed.call.billed = 0)

variable {terms : BudgetTerms} {ids : RandomIds} {clock : ℕ → Datetime}
  {breaker : MonthlyBudgetCircuitBreaker} {month : Month} {id : String}

theorem billed_inMonth (breaker : MonthlyBudgetCircuitBreaker) (month : Month) :
    (breaker.inMonth month).billed = breaker.spentIn month := by
  unfold inMonth spentIn
  split <;> rfl

theorem pending?_inMonth_of_ne {other : Month} (h : breaker.month = some other)
    (hne : month ≠ other) : (breaker.inMonth month).pending? id = none := by
  unfold inMonth
  rw [h, if_neg (fun heq => hne (Option.some.inj heq).symm)]
  rfl

theorem rollsTo_eq_some {timed : TimedCall} :
    rollsTo timed = some month ↔
      checkArguments timed.call = .ok () ∧ monthOf (timed.clock 0) = .ok month := by
  unfold rollsTo
  cases hchecks : checkArguments timed.call with
  | error failure => exact iff_of_false nofun nofun
  | ok _ =>
      cases hmonth : monthOf (timed.clock 0) with
      | error failure => exact iff_of_false nofun nofun
      | ok other =>
          refine ⟨fun h => ?_, fun h => ?_⟩
          · cases h
            exact ⟨rfl, rfl⟩
          · cases h.2
            rfl

/-- A call whose arguments are not in order, or without a moment, changes nothing. -/
theorem step_of_rollsTo_none {timed : TimedCall} (h : rollsTo timed = none) :
    (breaker.step terms ids timed).1 = breaker := by
  obtain ⟨call, clock⟩ := timed
  have hnot : checkArguments call = .ok () → ∀ month, monthOf (clock 0) ≠ .ok month := by
    intro hchecks month hmonth
    rw [rollsTo_eq_some.mpr ⟨hchecks, hmonth⟩] at h
    cases h
  unfold step
  cases call with
  | reserve provider estimate requests credits =>
      dsimp only
      unfold reserve rollMonth
      cases hchecks : checkReserve provider estimate requests credits with
      | error failure => rfl
      | ok _ =>
          cases hmonth : monthOf (clock 0) with
          | error failure => rfl
          | ok month => exact absurd hmonth (hnot hchecks month)
  | reconcile reservation billed nominal requests credits =>
      dsimp only
      unfold reconcile rollMonth
      cases hchecks : checkReconcile billed nominal requests credits with
      | error failure => rfl
      | ok _ =>
          cases hmonth : monthOf (clock 0) with
          | error failure => rfl
          | ok month => exact absurd hmonth (hnot hchecks month)

/-- A call in order begins its month, and keeps the entries of the month but the one it presents. -/
theorem step_of_rollsTo (terms : BudgetTerms) (ids : RandomIds)
    (breaker : MonthlyBudgetCircuitBreaker) {timed : TimedCall} (h : rollsTo timed = some month) :
    (breaker.step terms ids timed).1.month = some month ∧
      ∀ id, id ≠ ids.hex breaker.drawn → (breaker.step terms ids timed).1.pending? id =
        if timed.call.reconciles.map BudgetReservation.id = some id then none
        else (breaker.inMonth month).pending? id := by
  obtain ⟨call, clock⟩ := timed
  obtain ⟨hchecks, hmonth⟩ := rollsTo_eq_some.mp h
  unfold step
  cases call with
  | reserve provider estimate requests credits =>
      dsimp only
      rw [reserve_of_checked hchecks hmonth]
      by_cases hover : terms.limitMicros < (breaker.inMonth month).billed +
          (breaker.inMonth month).outstanding + dollars provider estimate
      · rw [reserveInMonth_of_exceeded hover]
        exact ⟨month_inMonth month, fun id _ => rfl⟩
      · obtain ⟨alerted, alerts, hgranted⟩ :=
          reserveInMonth_of_within ids clock hover requests credits
        rw [hgranted]
        refine ⟨month_inMonth month, fun id hid => ?_⟩
        refine (pending?_entered_of_ne ?_).trans rfl
        rw [drawn_inMonth]
        exact hid
  | reconcile reservation billed nominal requests credits =>
      dsimp only
      rw [reconcile_of_checked hchecks hmonth]
      have hpopped (id : String) : ((breaker.inMonth month).popped reservation.id).pending? id =
          if (some reservation).map BudgetReservation.id = some id then none
          else (breaker.inMonth month).pending? id := by
        split
        next hid =>
          cases hid
          exact pending?_popped_self reservation.id
        next hid => exact pending?_popped_of_ne fun heq => hid (congrArg some heq.symm)
      by_cases hpending : (breaker.inMonth month).pending? reservation.id =
          some (entryOf reservation)
      · obtain ⟨alerted, alerts, hcounted⟩ := reconcileInMonth_of_pending terms clock
          hpending billed nominal
        rw [hcounted]
        exact ⟨month_inMonth month, fun id _ => hpopped id⟩
      · rw [reconcileInMonth_of_unknown hpending]
        exact ⟨month_inMonth month, fun id _ => hpopped id⟩

theorem drawn_le_step (terms : BudgetTerms) (ids : RandomIds) (breaker : MonthlyBudgetCircuitBreaker)
    (timed : TimedCall) :
    breaker.drawn ≤ (breaker.step terms ids timed).1.drawn := by
  have hstep := step_stepped terms ids breaker timed
  generalize timed.call = call at hstep
  generalize (breaker.step terms ids timed).1 = after at hstep ⊢
  generalize (breaker.step terms ids timed).2 = answer at hstep
  cases hstep with
  | raised _ failure hfailure => exact le_refl _
  | refused provider estimate requests credits month message hover => exact (drawn_inMonth month).ge
  | granted provider estimate requests credits month alerted alerts hestimate hlimit =>
      exact Nat.le_succ_of_le (drawn_inMonth month).ge
  | unknown reservation billed nominal requests credits month message hunknown =>
      exact (drawn_inMonth month).ge
  | reconciled reservation billed nominal requests credits month alerted alerts counted message
      hbilled hpending hcounted =>
      subst hcounted
      exact (drawn_inMonth month).ge

/-- An entry of the month stays while no call touches it. -/
theorem step_of_not_touches (terms : BudgetTerms) {timed : TimedCall} {n : ℕ}
    (hdrawn : n < breaker.drawn) (hmonth : breaker.month = some month) (h : ¬ Touches month (ids.hex n) timed) :
    (breaker.step terms ids timed).1.month = some month ∧
      (breaker.step terms ids timed).1.pending? (ids.hex n) = breaker.pending? (ids.hex n) := by
  cases hrolls : rollsTo timed with
  | none =>
      rw [step_of_rollsTo_none hrolls]
      exact ⟨hmonth, rfl⟩
  | some other =>
      have hother : other = month := by
        by_contra hne
        exact h ⟨other, hrolls, .inl hne⟩
      subst hother
      obtain ⟨hnext, hpending⟩ := step_of_rollsTo terms ids breaker hrolls
      refine ⟨hnext, ?_⟩
      rw [hpending _ fun heq => absurd (ids.injective heq) (by omega),
        if_neg fun hid => h ⟨other, hrolls, .inr hid⟩, inMonth_of_month hmonth]

/-- An entry of the month is gone once a call touches it. -/
theorem step_of_touches {timed : TimedCall} {n : ℕ} (hdrawn : n < breaker.drawn)
    (hmonth : breaker.month = some month) (h : Touches month (ids.hex n) timed) :
    (breaker.step terms ids timed).1.pending? (ids.hex n) = none := by
  obtain ⟨other, hrolls, htouches⟩ := h
  obtain ⟨-, hpending⟩ := step_of_rollsTo terms ids breaker hrolls
  rw [hpending _ fun heq => absurd (ids.injective heq) (by omega)]
  split
  · rfl
  next hid => exact pending?_inMonth_of_ne hmonth (htouches.resolve_right hid)

/-- An entry that is gone does not come back. -/
theorem step_of_pending_none {timed : TimedCall} {n : ℕ} (hdrawn : n < breaker.drawn)
    (h : breaker.pending? (ids.hex n) = none) :
    (breaker.step terms ids timed).1.pending? (ids.hex n) = none := by
  cases hrolls : rollsTo timed with
  | none =>
      rw [step_of_rollsTo_none hrolls]
      exact h
  | some other =>
      obtain ⟨-, hpending⟩ := step_of_rollsTo terms ids breaker
        hrolls
      rw [hpending _ fun heq => absurd (ids.injective heq) (by omega)]
      split
      · rfl
      · exact pending?_inMonth h other

theorem final_of_pending_none {n : ℕ} (later : List TimedCall) (hdrawn : n < breaker.drawn)
    (h : breaker.pending? (ids.hex n) = none) :
    (Runs.final (step terms ids) breaker later).pending? (ids.hex n) = none := by
  induction later generalizing breaker with
  | nil => exact h
  | cons timed rest ih =>
      rw [Runs.final_cons]
      exact ih (hdrawn.trans_le (drawn_le_step terms ids breaker timed)) (step_of_pending_none hdrawn h)

/-- An entry of the month is there after exactly the calls that do not touch it. -/
theorem pending_run (terms : BudgetTerms) {n : ℕ} {entry : PendingReservation}
    (later : List TimedCall)
    (hdrawn : n < breaker.drawn) (hmonth : breaker.month = some month)
    (h : breaker.pending? (ids.hex n) = some entry) :
    ((∀ other ∈ later, ¬ Touches month (ids.hex n) other) ∧
        (Runs.final (step terms ids) breaker later).month = some month ∧
        (Runs.final (step terms ids) breaker later).pending? (ids.hex n) = some entry) ∨
      ((∃ other ∈ later, Touches month (ids.hex n) other) ∧
        (Runs.final (step terms ids) breaker later).pending? (ids.hex n) = none) := by
  induction later generalizing breaker with
  | nil => exact .inl ⟨by simp, hmonth, h⟩
  | cons timed rest ih =>
      have hdrawn' := hdrawn.trans_le (drawn_le_step terms ids breaker timed)
      rw [Runs.final_cons]
      by_cases htouches : Touches month (ids.hex n) timed
      · exact .inr ⟨⟨timed, List.mem_cons_self, htouches⟩,
          final_of_pending_none rest hdrawn' (step_of_touches hdrawn hmonth htouches)⟩
      · obtain ⟨hmonth', hpending⟩ := step_of_not_touches terms hdrawn hmonth htouches
        rcases ih hdrawn' hmonth' (hpending.trans h) with ⟨hnone, hkept⟩ | ⟨⟨other, hmem, hother⟩, hgone⟩
        · exact .inl ⟨List.forall_mem_cons.mpr ⟨htouches, hnone⟩, hkept⟩
        · exact .inr ⟨⟨other, List.mem_cons_of_mem _ hmem, hother⟩, hgone⟩

/-- What a call that grants a reservation leaves. -/
theorem step_of_granted {timed : TimedCall} {reservation : BudgetReservation}
    (h : (breaker.step terms ids timed).2 = .ok (some reservation)) :
    ∃ month, rollsTo timed = some month ∧ (breaker.step terms ids timed).1.month = some month ∧
      reservation.id = ids.hex breaker.drawn ∧
      breaker.drawn < (breaker.step terms ids timed).1.drawn ∧
      (breaker.step terms ids timed).1.pending? reservation.id = some (entryOf reservation) := by
  obtain ⟨call, clock⟩ := timed
  unfold step at h ⊢
  cases call with
  | reserve provider estimate requests credits =>
      dsimp only at h ⊢
      cases hchecks : checkReserve provider estimate requests credits with
      | error failure =>
          unfold reserve at h
          rw [hchecks] at h
          cases h
      | ok _ =>
          cases hmonth : monthOf (clock 0) with
          | error failure =>
              unfold reserve rollMonth at h
              rw [hchecks, hmonth] at h
              cases h
          | ok month =>
              rw [reserve_of_checked hchecks hmonth] at h ⊢
              by_cases hover : terms.limitMicros < (breaker.inMonth month).billed +
                  (breaker.inMonth month).outstanding + dollars provider estimate
              · rw [reserveInMonth_of_exceeded hover] at h
                cases h
              · obtain ⟨alerted, alerts, hgranted⟩ :=
                  reserveInMonth_of_within ids clock hover requests credits
                rw [hgranted, drawn_inMonth] at h ⊢
                cases h
                refine ⟨month, rollsTo_eq_some.mpr ⟨hchecks, hmonth⟩, month_inMonth month, rfl, ?_,
                  pending?_entered _⟩
                exact Nat.lt_succ_of_le (drawn_inMonth month).ge
  | reconcile reservation billed nominal requests credits =>
      dsimp only at h
      cases hresult : (breaker.reconcile terms clock reservation billed nominal requests credits).2
        with
      | error failure =>
          rw [hresult] at h
          cases h
      | ok _ =>
          rw [hresult] at h
          cases h

/-- A reconciliation in order is recorded when the breaker still has the entry of the month. -/
theorem recorded_iff {timed : TimedCall} {reservation : BudgetReservation}
    (hcall : timed.call.reconciles = some reservation) (hrolls : rollsTo timed = some month) :
    Recorded (step terms ids) spentIn breaker timed month ↔
      (breaker.inMonth month).pending? reservation.id = some (entryOf reservation) ∧
        (reservation.provider = "exa" → timed.call.billed = 0) := by
  obtain ⟨call, clock⟩ := timed
  obtain ⟨hchecks, hmonth⟩ := rollsTo_eq_some.mp hrolls
  cases call with
  | reserve provider estimate requests credits => cases hcall
  | reconcile presented billed nominal requests credits =>
      cases hcall
      unfold Recorded step
      dsimp only
      rw [reconcile_of_checked hchecks hmonth]
      by_cases hpending : (breaker.inMonth month).pending? reservation.id =
          some (entryOf reservation)
      · obtain ⟨alerted, alerts, hcounted⟩ := reconcileInMonth_of_pending terms clock
          hpending billed nominal
        have hspent : (((breaker.inMonth month).counted reservation billed nominal).alert alerted
            alerts).spentIn month = breaker.spentIn month + dollars reservation.provider billed := by
          rw [← billed_inMonth breaker month]
          exact if_pos (month_inMonth month)
        have hsome : ∀ (condition : Prop) [Decidable condition] (message : String) (timed : TimedCall),
            timed.call.reconciles = some reservation →
            (countedId (timed, Except.map (fun _ => none) (if condition then
              .error (.exceeded message) else .ok () : Except BudgetFailure Unit))).isSome := by
          intro condition _ message timed htimed
          have hid := countedId_of_reconcile htimed condition message
          by_cases hcondition : condition
          · rw [if_pos hcondition] at hid ⊢
            exact Option.isSome_of_eq_some hid
          · rw [if_neg hcondition] at hid ⊢
            exact Option.isSome_of_eq_some hid
        rw [hcounted]
        dsimp only
        rw [hspent, add_right_inj]
        refine ⟨fun h => ⟨hpending, fun hexa => ?_⟩, fun h => ⟨hsome _ _ _ rfl, ?_⟩⟩
        · have hcost := h.2
          unfold dollars at hcost
          rw [if_pos hexa] at hcost
          exact hcost.symm
        · unfold dollars
          split
          next hexa => exact (h.2 hexa).symm
          next => rfl
      · rw [reconcileInMonth_of_unknown hpending]
        exact iff_of_false nofun fun h => hpending h.1

/-- A breaker drops nothing exactly while every reservation that is due is still held. -/
theorem nothing_dropped_iff_stillHeld (calls : List TimedCall) :
    NothingDropped (step terms ids) spentIn rollsTo start calls ↔
      ∀ before timed after, calls = before ++ timed :: after → ∀ reservation month,
        rollsTo timed = some month →
          Due (Runs.trace (step terms ids) start before) timed reservation →
            StillHeld terms ids before timed reservation month := by
  have hcounted : ((Runs.trace (step terms ids) start calls).filterMap countedId).Nodup :=
    (counted_run calls).2.1
  refine (and_iff_right hcounted).trans (forall_congr' fun before => forall_congr' fun timed =>
    forall_congr' fun after => forall_congr' fun hcalls => forall_congr' fun reservation =>
    forall_congr' fun month => forall_congr' fun hrolls => forall_congr' fun hdue => ?_)
  obtain ⟨hreconciles, hgranted, -⟩ := hdue
  rw [recorded_iff hreconciles hrolls]
  unfold StillHeld
  rw [and_congr_left_iff]
  intro _
  -- What the breaker has after the grant and the calls since then.
  have hkept : ∀ early grant later, before = early ++ grant :: later →
      ((Runs.final (step terms ids) start early).step terms ids grant).2 =
        .ok (some reservation) →
      ((Runs.final (step terms ids) start before |>.inMonth month).pending? reservation.id =
          some (entryOf reservation) ↔
        rollsTo grant = some month ∧ ∀ other ∈ later, ¬ Touches month reservation.id other) := by
    rintro early grant later rfl hanswer
    obtain ⟨granted, hgrant, hmonth, hid, hdrawn, hpending⟩ := step_of_granted hanswer
    rw [Runs.final_append, Runs.final_cons]
    rw [hid] at hpending ⊢
    rcases pending_run terms later hdrawn hmonth hpending with
      ⟨hnone, hmonth', hpending'⟩ | ⟨⟨other, hmem, htouches⟩, hgone⟩
    · by_cases hsame : month = granted
      · subst hsame
        rw [inMonth_of_month hmonth', hpending']
        exact iff_of_true rfl ⟨hgrant, hnone⟩
      · rw [pending?_inMonth_of_ne hmonth' hsame, hgrant]
        exact iff_of_false nofun fun h => hsame (Option.some.inj h.1).symm
    · rw [pending?_inMonth hgone month]
      refine iff_of_false nofun fun h => ?_
      rw [hgrant] at h
      obtain ⟨⟨⟩, huntouched⟩ := h
      exact huntouched other hmem htouches
  constructor
  · intro hpending early grant later hsplit hanswer
    exact (hkept early grant later hsplit hanswer).mp hpending
  · intro hheld
    obtain ⟨early, grant, later, hsplit, hanswer⟩ := exists_grant hgranted
    exact (hkept early grant later hsplit hanswer).mpr (hheld early grant later hsplit hanswer)

end MonthlyBudgetCircuitBreaker

/-! ## The guard in the database -/

namespace PostgresBudgetGuard

/-- The arguments of a reconciliation are in order: the costs are not negative, and requests and
credits are reported for a search, which costs what it was reserved at. -/
def WellFormed : BudgetCall → Prop
  | .reserve _ _ _ _ => False
  | .reconcile _ _ _ _ (.infinity _) => False
  | .reconcile _ _ _ _ .nan => False
  | .reconcile reservation billed nominal requests (.finite credits) =>
      0 ≤ billed ∧ 0 ≤ nominal ∧
        if reservation.provider = "exa" then
          requests = 1 ∧ 0 ≤ credits ∧ nominal = reservation.estimatedCostMicros
        else requests = 0 ∧ credits = 0

instance : DecidablePred WellFormed
  | .reserve _ _ _ _ => inferInstanceAs (Decidable False)
  | .reconcile _ _ _ _ (.infinity _) => inferInstanceAs (Decidable False)
  | .reconcile _ _ _ _ .nan => inferInstanceAs (Decidable False)
  | .reconcile _ _ _ _ (.finite _) => inferInstanceAs (Decidable (_ ∧ _ ∧ ite _ _ _))

/-- The month of a reconciliation whose arguments are in order, if the clock says a moment. -/
def reconciledIn (timed : TimedCall) : Option Month :=
  if WellFormed timed.call then (awareMonth (timed.clock 0)).toOption else none

/-- Some amount of a reconciliation in a month does not fit its column. -/
def Overflows (guard : PostgresBudgetGuard) (month : Month) : BudgetCall → Prop
  | .reserve _ _ _ _ => False
  | .reconcile _ _ _ _ (.infinity _) => False
  | .reconcile _ _ _ _ .nan => False
  | .reconcile reservation billed nominal _ (.finite credits) =>
      if reservation.provider = "exa" then
        ∃ quota, guard.tables.quota? month = some quota ∧ quota.Overflows credits billed nominal
      else ∃ account, guard.tables.account? month = some account ∧
        account.Overflows billed nominal
          (guard.tables.pendingMicros month - reservation.estimatedCostMicros)

/-- The reservation was granted in the month. -/
def GrantedIn (terms : GuardTerms) (ids : RandomIds) (before : List TimedCall)
    (reservation : BudgetReservation) (month : Month) : Prop :=
  ∀ early grant later, before = early ++ grant :: later →
    ((Runs.final (step terms ids) start early).step terms ids grant).2 = .ok (some reservation) →
      awareMonth (grant.clock 0) = .ok month

variable {terms : GuardTerms} {ids : RandomIds} {clock : ℕ → Datetime}
  {guard : PostgresBudgetGuard} {month : Month}

theorem reconciledIn_eq_some {timed : TimedCall} :
    reconciledIn timed = some month ↔
      WellFormed timed.call ∧ awareMonth (timed.clock 0) = .ok month := by
  unfold reconciledIn
  split
  next hwell =>
    cases hmonth : awareMonth (timed.clock 0) with
    | error failure => exact iff_of_false nofun nofun
    | ok other =>
        refine ⟨fun h => ?_, fun h => ?_⟩
        · cases h
          exact ⟨hwell, rfl⟩
        · cases h.2
          rfl
  next hwell => exact iff_of_false nofun fun h => hwell h.1

/-- A reservation that is booked as reserved in the month is reconciled, unless an amount does not
fit. -/
theorem Coherent.reconcileTables_of_booked (terms : GuardTerms) (h : guard.Coherent ids)
    {reservation : BudgetReservation} {billed nominal requests : ℤ} {credits : DecimalValue}
    (hbooked : guard.tables.booking? reservation.id = some (reservation.booking month))
    (hwell : WellFormed (.reconcile reservation billed nominal requests credits))
    (hmonth : awareMonth (clock 0) = .ok month) :
    (guard.Overflows month (.reconcile reservation billed nominal requests credits) →
      ∃ message, reconcileTables terms clock guard reservation billed nominal requests credits =
        .error (.databaseError message)) ∧
    (¬ guard.Overflows month (.reconcile reservation billed nominal requests credits) →
      ∃ result, reconcileTables terms clock guard reservation billed nominal requests credits =
        .ok result) := by
  cases credits with
  | infinity negative => exact hwell.elim
  | nan => exact hwell.elim
  | finite credits =>
      obtain ⟨hbilled, hnominal, hcounts⟩ := hwell
      unfold Overflows reconcileTables
      rw [if_neg (by omega), hmonth]
      by_cases hexa : reservation.provider = "exa"
      · rw [if_pos hexa] at hcounts
        obtain ⟨rfl, hcredits, hcost⟩ := hcounts
        have husage (message : String) : checkUsage 1 (.finite credits) message = .ok credits := by
          unfold checkUsage
          exact if_neg (not_or.mpr ⟨by decide, not_lt.mpr hcredits⟩)
        rw [husage]
        dsimp only [bind, Except.bind, pure, Except.pure]
        rw [if_pos hexa, if_pos hexa]
        obtain ⟨row, hlookup, hrow⟩ : ∃ row, KeyedList.lookup ExaQuotaReservation.id reservation.id
            guard.tables.exaReservations = some row ∧ row.booking = reservation.booking month := by
          rcases BudgetTables.booking?_cases hbooked with ⟨row, -, hrow⟩ | hrow
          · have hkind := congrArg Booking.exa hrow
            rw [BudgetReservation.booking, decide_eq_true hexa] at hkind
            cases hkind
          · exact hrow
        obtain ⟨hstart, -, hestimate, hrequests, hcredits', hstatus⟩ := Booking.mk.inj hrow
        obtain ⟨quota, hquota⟩ := Option.isSome_iff_exists.mp
          (h.quotas row (KeyedList.mem_of_lookup_eq_some hlookup))
        rw [hstart] at hquota
        obtain ⟨hoverflows, hfine⟩ := BudgetTables.reconcileExa_of_pending billed credits
          (BudgetTables.exaReservation?_eq_some.mpr ⟨hlookup, hstart⟩) hstatus
          ⟨hrequests, hcredits', hestimate, hcost⟩ hquota
        refine ⟨?_, fun hnot => hfine fun hover => hnot ⟨quota, hquota, hover⟩⟩
        rintro ⟨other, hother, hover⟩
        rw [hquota] at hother
        cases hother
        exact hoverflows hover
      · rw [if_neg hexa] at hcounts
        obtain ⟨rfl, rfl⟩ := hcounts
        rw [checkUsage_zero]
        dsimp only [bind, Except.bind, pure, Except.pure]
        rw [if_neg hexa, if_neg hexa, if_neg (by simp)]
        obtain ⟨row, hlookup, hrow⟩ : ∃ row, KeyedList.lookup ProviderBudgetReservation.id
            reservation.id guard.tables.reservations = some row ∧
              row.booking = reservation.booking month := by
          rcases BudgetTables.booking?_cases hbooked with hrow | ⟨row, -, hrow⟩
          · exact hrow
          · have hkind := congrArg Booking.exa hrow
            rw [BudgetReservation.booking, decide_eq_false hexa] at hkind
            cases hkind
        obtain ⟨hstart, -, hestimate, -, -, hstatus⟩ := Booking.mk.inj hrow
        obtain ⟨account, haccount⟩ := Option.isSome_iff_exists.mp
          (h.accounts row (KeyedList.mem_of_lookup_eq_some hlookup))
        rw [hstart] at haccount
        obtain ⟨hoverflows, hfine⟩ := BudgetTables.reconcileDollars_of_pending terms billed
          nominal h.keyed.unique
          (BudgetTables.reservation?_eq_some.mpr ⟨hlookup, hstart⟩) hstatus hestimate haccount
        rw [hestimate] at hoverflows hfine
        constructor
        · rintro ⟨other, hother, hover⟩
          rw [haccount] at hother
          cases hother
          exact ⟨_, hoverflows hover⟩
        · intro hnot
          obtain ⟨after, hafter, -⟩ := hfine fun hover => hnot ⟨account, haccount, hover⟩
          exact ⟨_, hafter⟩

/-! ## Runs of the guard -/

/-- The costs that have been counted are of reservations booked as reconciled, once each. -/
def Settled (seen : List (TimedCall × BudgetAnswer)) (guard : PostgresBudgetGuard) : Prop :=
  (seen.filterMap countedId).Nodup ∧ ∀ id ∈ seen.filterMap countedId,
    ∃ booking, guard.tables.booking? id = some booking ∧ booking.status = .reconciled

theorem countedId_of_raised {timed : TimedCall} {failure : BudgetFailure}
    (h : timed.call.reconciles.isSome → failure.isExceeded = false) :
    countedId (timed, .error failure) = none := by
  cases hcall : timed.call.reconciles with
  | none => exact MonthlyBudgetCircuitBreaker.countedId_of_reserve hcall _
  | some reservation =>
      rw [hcall] at h
      exact MonthlyBudgetCircuitBreaker.countedId_of_error (h rfl) timed

theorem countedId_of_answer {timed : TimedCall} {reservation : BudgetReservation}
    (hcall : timed.call.reconciles = some reservation) {answer : BudgetAnswer}
    (h : answer = .ok none ∨ ∃ message, answer = .error (.exceeded message)) :
    countedId (timed, answer) = some reservation.id := by
  have hid : timed.call.reconciles.map BudgetReservation.id = some reservation.id := by
    rw [hcall]
    rfl
  rcases h with rfl | ⟨message, rfl⟩
  · exact hid
  · exact hid

/-- The next identifier is of no booking. -/
theorem Coherent.booking?_fresh (h : guard.Coherent ids) :
    guard.tables.booking? (ids.hex guard.drawn) = none := by
  unfold BudgetTables.booking?
  rw [h.keyed.lookup_fresh, h.fresh]
  rfl

/-- A booking stays as it is, or is reconciled by a call that counts its reservation. -/
theorem Coherent.booking?_step (terms : GuardTerms) (h : guard.Coherent ids) (timed : TimedCall)
    {id : String} {booking : Booking} (hbooking : guard.tables.booking? id = some booking) :
    (guard.step terms ids timed).1.tables.booking? id = some booking ∨
      (countedId (timed, (guard.step terms ids timed).2) = some id ∧
        (guard.step terms ids timed).1.tables.booking? id =
          some { booking with status := .reconciled }) := by
  have hstep := (h.step terms timed).1
  generalize hcall : timed.call = call at hstep
  generalize (guard.step terms ids timed).1 = after at hstep ⊢
  generalize (guard.step terms ids timed).2 = answer at hstep ⊢
  cases hstep with
  | raised _ drawn failure hdrawn hfailure => exact .inl hbooking
  | granted provider estimate requests credits month tables hclock hbookings hspent =>
      left
      rw [hbookings, if_neg]
      · exact hbooking
      · rintro rfl
        rw [h.booking?_fresh] at hbooking
        cases hbooking
  | reconciled reservation billed nominal requests credits found tables _ hclock hfound hstatus
      hbookings hspent hanswer =>
      rw [hbookings]
      split
      next hid =>
        subst hid
        rw [hfound] at hbooking
        cases hbooking
        exact .inr ⟨countedId_of_answer (by rw [hcall]; rfl) hanswer, rfl⟩
      next hid => exact .inl hbooking

theorem Settled.step {seen : List (TimedCall × BudgetAnswer)} (h : Settled seen guard)
    (hcoherent : guard.Coherent ids) (timed : TimedCall) :
    Settled (seen ++ [(timed, (guard.step terms ids timed).2)])
      (guard.step terms ids timed).1 := by
  have hkept : ∀ id ∈ seen.filterMap countedId, ∃ booking,
      (guard.step terms ids timed).1.tables.booking? id = some booking ∧
        booking.status = .reconciled := by
    intro id hid
    obtain ⟨booking, hbooking, hstatus⟩ := h.2 id hid
    rcases hcoherent.booking?_step terms timed hbooking with hsame | ⟨-, hreconciled⟩
    · exact ⟨booking, hsame, hstatus⟩
    · exact ⟨_, hreconciled, rfl⟩
  have hstep := (hcoherent.step terms timed).1
  generalize hcall : timed.call = call at hstep
  generalize (guard.step terms ids timed).1 = after at hstep hkept ⊢
  generalize (guard.step terms ids timed).2 = answer at hstep ⊢
  unfold Settled
  rw [List.filterMap_append, List.filterMap_cons, List.filterMap_nil]
  cases hcounted : countedId (timed, answer) with
  | none =>
      rw [List.append_nil]
      exact ⟨h.1, hkept⟩
  | some id =>
      dsimp only
      cases hstep with
      | raised _ drawn failure hdrawn hfailure =>
          rw [countedId_of_raised (by rw [hcall]; exact hfailure)] at hcounted
          cases hcounted
      | granted provider estimate requests credits month tables hclock hbookings hspent =>
          rw [MonthlyBudgetCircuitBreaker.countedId_of_reserve (by rw [hcall]; rfl)] at hcounted
          cases hcounted
      | reconciled reservation billed nominal requests credits found tables _ hclock hfound hstatus
          hbookings hspent hanswer =>
          rw [countedId_of_answer (by rw [hcall]; rfl) hanswer] at hcounted
          cases hcounted
          have hnew : reservation.id ∉ seen.filterMap countedId := by
            intro hmem
            obtain ⟨booking, hbooking, hreconciled⟩ := h.2 reservation.id hmem
            rw [hfound] at hbooking
            cases hbooking
            rw [hstatus] at hreconciled
            cases hreconciled
          rw [List.nodup_append_comm]
          refine ⟨List.nodup_cons.mpr ⟨hnew, h.1⟩, fun id hmem => ?_⟩
          rcases List.mem_append.mp hmem with hmem | hmem
          · exact hkept id hmem
          · rw [List.mem_singleton.mp hmem, hbookings, if_pos rfl]
            exact ⟨_, rfl, rfl⟩

theorem settled_run (terms : GuardTerms) (ids : RandomIds) (calls : List TimedCall) :
    Coherent ids (Runs.final (step terms ids) start calls) ∧
      Settled (Runs.trace (step terms ids) start calls) (Runs.final (step terms ids) start calls) :=
  Runs.final_invariant (step terms ids) (fun seen guard => Coherent ids guard ∧ Settled seen guard)
    ⟨start_coherent, List.nodup_nil, by simp⟩
    (fun _ _ timed h => ⟨(h.1.step terms timed).2, h.2.step h.1 timed⟩) calls

/-- A booking stays as it is while no call counts its reservation. -/
theorem Coherent.booking?_run (h : guard.Coherent ids) (later : List TimedCall) {id : String}
    {booking : Booking} (hbooking : guard.tables.booking? id = some booking)
    (hnot : id ∉ (Runs.trace (PostgresBudgetGuard.step terms ids) guard later).filterMap countedId) :
    (Runs.final (PostgresBudgetGuard.step terms ids) guard later).tables.booking? id =
      some booking := by
  induction later generalizing guard with
  | nil => exact hbooking
  | cons timed rest ih =>
      rw [Runs.trace, List.filterMap_cons] at hnot
      rw [Runs.final_cons]
      rcases h.booking?_step terms timed hbooking with hsame | ⟨hcounted, -⟩
      · refine ih (h.step terms timed).2 hsame fun hmem => hnot ?_
        cases hfirst : countedId (timed, (guard.step terms ids timed).2) with
        | none => exact hmem
        | some other => exact List.mem_cons_of_mem _ hmem
      · rw [hcounted] at hnot
        exact absurd List.mem_cons_self hnot

/-- What a call that grants a reservation leaves. -/
theorem Coherent.step_of_granted (h : guard.Coherent ids) {timed : TimedCall}
    {reservation : BudgetReservation}
    (hanswer : (guard.step terms ids timed).2 = .ok (some reservation)) :
    ∃ month, awareMonth (timed.clock 0) = .ok month ∧
      (guard.step terms ids timed).1.tables.booking? reservation.id =
        some (reservation.booking month) := by
  have hstep := (h.step terms timed).1
  generalize timed.call = call at hstep
  generalize (guard.step terms ids timed).1 = after at hstep ⊢
  rw [hanswer] at hstep
  cases hstep with
  | granted provider estimate requests credits month tables hclock hbookings hspent =>
      exact ⟨month, hclock, by rw [hbookings, if_pos rfl]⟩
  | reconciled presented billed nominal requests credits found tables _ hclock hfound hstatus
      hbookings hspent hrecorded =>
      rcases hrecorded with hrecorded | ⟨message, hrecorded⟩
      · cases hrecorded
      · cases hrecorded

/-- A reconciliation in order of a reservation that is booked as reserved is recorded when it is
of the month of the booking, and every amount fits. -/
theorem Coherent.recorded_iff (h : guard.Coherent ids) {timed : TimedCall}
    {reservation : BudgetReservation} {granted : Month}
    (hcall : timed.call.reconciles = some reservation) (horder : reconciledIn timed = some month)
    (hbooked : guard.tables.booking? reservation.id = some (reservation.booking granted)) :
    Recorded (PostgresBudgetGuard.step terms ids) (fun guard => guard.tables.spentIn) guard timed
        month ↔
      granted = month ∧ ¬ guard.Overflows month timed.call := by
  obtain ⟨call, clock⟩ := timed
  obtain ⟨hwell, hmonth⟩ := reconciledIn_eq_some.mp horder
  cases call with
  | reserve provider estimate requests credits => cases hcall
  | reconcile presented billed nominal requests credits =>
      cases hcall
      -- A reconciliation that is counted is of the month of the booking.
      have hcounts : (countedId (⟨.reconcile reservation billed nominal requests credits, clock⟩,
            (guard.step terms ids ⟨.reconcile reservation billed nominal requests credits,
              clock⟩).2)).isSome →
          granted = month ∧ (guard.step terms ids ⟨.reconcile reservation billed nominal requests
            credits, clock⟩).1.tables.spentIn month = guard.tables.spentIn month + billed := by
        intro hcounted
        have hstep := (h.step terms
          ⟨.reconcile reservation billed nominal requests credits, clock⟩).1
        generalize (guard.step terms ids
          ⟨.reconcile reservation billed nominal requests credits, clock⟩).1 = after at hstep ⊢
        generalize (guard.step terms ids
          ⟨.reconcile reservation billed nominal requests credits, clock⟩).2 = answer
          at hstep hcounted
        cases hstep with
        | raised _ drawn failure hdrawn hfailure =>
            rw [countedId_of_raised hfailure] at hcounted
            cases hcounted
        | reconciled _ _ _ _ _ found tables _ hclock hfound hstatus hbookings hspent hanswer =>
            rw [hbooked] at hfound
            cases hfound
            rw [hmonth] at hclock
            cases hclock
            exact ⟨rfl, by rw [hspent, if_pos rfl]⟩
      constructor
      · rintro ⟨hcounted, -⟩
        obtain ⟨rfl, -⟩ := hcounts hcounted
        refine ⟨rfl, fun hover => ?_⟩
        obtain ⟨message, herror⟩ :=
          (h.reconcileTables_of_booked terms hbooked hwell hmonth).1 hover
        unfold PostgresBudgetGuard.step at hcounted
        dsimp only at hcounted
        rw [reconcile_eq, herror] at hcounted
        cases hcounted
      · rintro ⟨rfl, hnot⟩
        obtain ⟨⟨tables, halted⟩, hok⟩ :=
          (h.reconcileTables_of_booked terms hbooked hwell hmonth).2 hnot
        have hcounted : (countedId (⟨.reconcile reservation billed nominal requests credits, clock⟩,
            (guard.step terms ids ⟨.reconcile reservation billed nominal requests credits,
              clock⟩).2)).isSome := by
          unfold PostgresBudgetGuard.step
          dsimp only
          rw [reconcile_eq, hok]
          cases halted with
          | false => rfl
          | true => rfl
        exact ⟨hcounted, (hcounts hcounted).2⟩

/-- The guard drops nothing exactly while every reservation that is due is reconciled in the month
of its grant, and every amount fits. -/
theorem nothing_dropped_iff_grantedIn (calls : List TimedCall) :
    NothingDropped (step terms ids) (fun guard => guard.tables.spentIn) reconciledIn start calls ↔
      ∀ before timed after, calls = before ++ timed :: after → ∀ reservation month,
        reconciledIn timed = some month →
          Due (Runs.trace (step terms ids) start before) timed reservation →
            GrantedIn terms ids before reservation month ∧
              ¬ (Runs.final (step terms ids) start before).Overflows month timed.call := by
  refine (and_iff_right (settled_run terms ids calls).2.1).trans (forall_congr' fun before =>
    forall_congr' fun timed => forall_congr' fun after => forall_congr' fun hcalls =>
    forall_congr' fun reservation => forall_congr' fun month => forall_congr' fun horder =>
    forall_congr' fun hdue => ?_)
  obtain ⟨hreconciles, hgranted, hnot⟩ := hdue
  -- The booking that each grant has left is as it was.
  have hkept : ∀ early grant later, before = early ++ grant :: later →
      ((Runs.final (step terms ids) start early).step terms ids grant).2 =
        .ok (some reservation) →
      ∃ granted, awareMonth (grant.clock 0) = .ok granted ∧
        (Runs.final (step terms ids) start before).tables.booking? reservation.id =
          some (reservation.booking granted) := by
    rintro early grant later rfl hanswer
    have hcoherent := (settled_run terms ids early).1
    obtain ⟨granted, hclock, hbooking⟩ := hcoherent.step_of_granted hanswer
    refine ⟨granted, hclock, ?_⟩
    rw [Runs.final_append, Runs.final_cons]
    refine (hcoherent.step terms grant).2.booking?_run later hbooking fun hmem => hnot ?_
    rw [Runs.trace_append, List.filterMap_append]
    refine List.mem_append_right _ ?_
    rw [Runs.trace, List.filterMap_cons]
    cases hfirst : countedId (grant, ((Runs.final (step terms ids) start early).step terms ids
      grant).2) with
    | none => exact hmem
    | some other => exact List.mem_cons_of_mem _ hmem
  have hcoherent := (settled_run terms ids before).1
  obtain ⟨early, grant, later, hsplit, hanswer⟩ := exists_grant hgranted
  obtain ⟨granted, hclock, hbooked⟩ := hkept early grant later hsplit hanswer
  rw [hcoherent.recorded_iff hreconciles horder hbooked]
  refine and_congr_left fun _ => ⟨?_, fun h => ?_⟩
  · rintro rfl early' grant' later' hsplit' hanswer'
    obtain ⟨granted', hclock', hbooked'⟩ := hkept early' grant' later' hsplit' hanswer'
    rw [hbooked] at hbooked'
    have hsame := congrArg Booking.month (Option.some.inj hbooked')
    rw [hclock', ← show granted = granted' from hsame]
  · have hsame := h early grant later hsplit hanswer
    rw [hclock] at hsame
    exact Except.ok.inj hsame

end PostgresBudgetGuard

/-- Either guard records every cost once exactly when no reservation outlives its month (and, in
the breaker, no other reservation is presented under its identifier, and nothing is billed for a
search; in the database, every amount fits its column). -/
theorem nothing_dropped_iff (terms : BudgetTerms) (guardTerms : GuardTerms) (ids : RandomIds)
    (calls : List TimedCall) :
    (NothingDropped (MonthlyBudgetCircuitBreaker.step terms ids)
        MonthlyBudgetCircuitBreaker.spentIn MonthlyBudgetCircuitBreaker.rollsTo
        MonthlyBudgetCircuitBreaker.start calls ↔
      ∀ before timed after, calls = before ++ timed :: after → ∀ reservation month,
        MonthlyBudgetCircuitBreaker.rollsTo timed = some month →
          Due (Runs.trace (MonthlyBudgetCircuitBreaker.step terms ids)
              MonthlyBudgetCircuitBreaker.start before) timed reservation →
            MonthlyBudgetCircuitBreaker.StillHeld terms ids before timed reservation month) ∧
    (NothingDropped (PostgresBudgetGuard.step guardTerms ids) (fun guard => guard.tables.spentIn)
        PostgresBudgetGuard.reconciledIn PostgresBudgetGuard.start calls ↔
      ∀ before timed after, calls = before ++ timed :: after → ∀ reservation month,
        PostgresBudgetGuard.reconciledIn timed = some month →
          Due (Runs.trace (PostgresBudgetGuard.step guardTerms ids) PostgresBudgetGuard.start before)
              timed reservation →
            PostgresBudgetGuard.GrantedIn guardTerms ids before reservation month ∧
              ¬ (Runs.final (PostgresBudgetGuard.step guardTerms ids) PostgresBudgetGuard.start
                before).Overflows month timed.call) :=
  ⟨MonthlyBudgetCircuitBreaker.nothing_dropped_iff_stillHeld calls,
    PostgresBudgetGuard.nothing_dropped_iff_grantedIn calls⟩

namespace Sample

theorem lastSecond_valid : 1 ≤ 2026 ∧ 2026 ≤ 9999 ∧ 1 ≤ 1 ∧ 1 ≤ 12 ∧ 1 ≤ 31 ∧
    31 ≤ daysInMonth 2026 1 := by decide

theorem lastSecond_clock : 23 < 24 ∧ 59 < 60 ∧ 59 < 60 ∧ 0 < 1000000 := by decide

/-- The last second of the month of the sample moment. -/
def lastSecond : Datetime where
  year := 2026
  month := 1
  day := 31
  hour := 23
  minute := 59
  second := 59
  microsecond := 0
  utcoffset := some 0
  date_valid := lastSecond_valid
  time_valid := lastSecond_clock
  offset_valid := Datetime.utc_offset_valid

theorem nextMonth_valid : 1 ≤ 2026 ∧ 2026 ≤ 9999 ∧ 1 ≤ 2 ∧ 2 ≤ 12 ∧ 1 ≤ 1 ∧
    1 ≤ daysInMonth 2026 2 := by decide

theorem nextMonth_clock : 0 < 24 ∧ 0 < 60 ∧ 3 < 60 ∧ 0 < 1000000 := by decide

/-- Four seconds later. -/
def nextMonth : Datetime where
  year := 2026
  month := 2
  day := 1
  hour := 0
  minute := 0
  second := 3
  microsecond := 0
  utcoffset := some 0
  date_valid := nextMonth_valid
  time_valid := nextMonth_clock
  offset_valid := Datetime.utc_offset_valid

/-- A provider call in flight over the end of the month. -/
def reserveLate : TimedCall :=
  ⟨.reserve "openrouter" 30000000 0 (.finite 0), fun _ => lastSecond⟩

def reconcileAfter : TimedCall :=
  ⟨.reconcile firstReservation 25000000 25000000 0 (.finite 0), fun _ => nextMonth⟩

/-- The cost of a call in flight over the end of a month is dropped by both guards. -/
theorem overMonth_dropped :
    lastSecond.instant ≤ nextMonth.instant ∧
    ¬ NothingDropped (MonthlyBudgetCircuitBreaker.step budgetTerms randomIds)
      MonthlyBudgetCircuitBreaker.spentIn MonthlyBudgetCircuitBreaker.rollsTo
      MonthlyBudgetCircuitBreaker.start [reserveLate, reconcileAfter] ∧
    ¬ NothingDropped (PostgresBudgetGuard.step guardTerms randomIds)
      (fun guard => guard.tables.spentIn) PostgresBudgetGuard.reconciledIn
      PostgresBudgetGuard.start [reserveLate, reconcileAfter] := by
  refine ⟨by decide +kernel, fun h => ?_, fun h => ?_⟩
  · have hrecorded := (h.2 [reserveLate] reconcileAfter [] rfl firstReservation (2026, 2)
      (by decide +kernel) ⟨rfl, by decide +kernel, by decide +kernel⟩).1
    revert hrecorded
    decide +kernel
  · have hrecorded := (h.2 [reserveLate] reconcileAfter [] rfl firstReservation (2026, 2)
      (by decide +kernel) ⟨rfl, by decide +kernel, by decide +kernel⟩).1
    revert hrecorded
    decide +kernel

end Sample

end VTrade
