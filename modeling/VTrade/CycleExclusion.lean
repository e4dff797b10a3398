/-
# One running cycle for an agent

Claiming a slot looks for a cycle of the agent that runs under a lease; recovering a cycle
does not.  So an agent can come to have two cycles that run: one that was interrupted, or
whose lease had expired, and is recovered after a later slot was claimed.
-/

import VTrade.CycleLeases

namespace VTrade

/-- The time at which a transaction is made. -/
def CycleCall.now : CycleCall → Datetime
  | .claimDue _ _ now => now
  | .recoverExpired _ _ _ now => now
  | .renewLease _ now _ => now
  | .beginStage _ _ _ now => now
  | .completeStage _ _ _ _ now _ => now
  | .failCycle _ now _ => now
  | .completeCycle _ now _ => now

namespace CycleTables

/-- A cycle of an agent runs under a lease that has not expired. -/
def Leased (tables : CycleTables) (moment : Instant) (agentId cycleId : String) : Prop :=
  ∃ row, tables.cycleRow cycleId = some row ∧ row.agentId = agentId ∧ row.status = .running ∧
    ∃ expires ∈ row.leaseExpiresAt, moment < expires

instance Leased.decidable (tables : CycleTables) (moment : Instant) (agentId cycleId : String) :
    Decidable (tables.Leased moment agentId cycleId) :=
  decidable_of_iff ((tables.cycleRow cycleId).any fun row =>
    decide (row.agentId = agentId) && decide (row.status = .running) &&
      row.leaseExpiresAt.any fun expires => decide (moment < expires)) (by
    unfold Leased
    simp only [Option.any_eq_true, Bool.and_eq_true, decide_eq_true_eq, and_assoc]
    rfl)

/-- No agent has two cycles that run under a lease that has not expired. -/
def Exclusive (tables : CycleTables) (moment : Instant) : Prop :=
  ∀ agentId first second, tables.Leased moment agentId first →
    tables.Leased moment agentId second → first = second

/-- The cycles that are recovered, unless the recovery raises. -/
def recoveredRows (tables : CycleTables) (scheduling : Scheduling) (terms : LeaseTerms)
    (staleAfter : Option ℤ) (now : Instant) : List AgentCycleRow :=
  if terms.leaseOwner = "" ∨ terms.leaseDuration ≤ 0 ∨ terms.limit ≤ 0 ∨
      staleAfter.any (· ≤ 0) ∨ scheduling.lockGranted = false then []
  else (tables.recoverableCycles scheduling now staleAfter).take terms.limit.toNat

/-- The transaction leaves an agent with at most one running cycle: it recovers cycles of
different agents, and of agents with no other running cycle, and does not renew a lease
while another cycle of the agent is running. -/
def TakesFree (tables : CycleTables) (latest : Instant) : CycleCall → Prop
  | .recoverExpired scheduling terms staleAfter now =>
      let rows := tables.recoveredRows scheduling terms staleAfter now.instant
      now.isAware = true → max latest now.instant < now.instant + terms.leaseDuration →
        (rows.map fun row => row.agentId).Nodup ∧
          ∀ row ∈ rows, ∀ other, tables.Leased (max latest now.instant) row.agentId other →
            other = row.id
  | .renewLease claim now duration =>
      ∀ row, tables.leasedRow claim now.instant = some row → now.isAware = true → 0 < duration →
        max latest now.instant < now.instant + duration →
          ∀ other, tables.Leased (max latest now.instant) row.agentId other →
            other = claim.cycleId
  | .claimDue _ _ _ | .beginStage _ _ _ _ | .completeStage _ _ _ _ _ _ | .failCycle _ _ _
  | .completeCycle _ _ _ => True

variable {tables : CycleTables} {moment : Instant} {agentId cycleId : String}

theorem Leased.mono {later : Instant} (h : tables.Leased later agentId cycleId)
    (hle : moment ≤ later) : tables.Leased moment agentId cycleId := by
  obtain ⟨row, hrow, hagent, hrunning, expires, hexpires, hlt⟩ := h
  exact ⟨row, hrow, hagent, hrunning, expires, hexpires, hle.trans_lt hlt⟩

/-- What is exclusive stays so as time goes on. -/
theorem Exclusive.mono {later : Instant} (h : tables.Exclusive moment) (hle : moment ≤ later) :
    tables.Exclusive later :=
  fun agentId first second hfirst hsecond =>
    h agentId first second (hfirst.mono hle) (hsecond.mono hle)

/-- No cycle is leased after a transaction that was not before. -/
def Releases (before after : CycleTables) : Prop :=
  ∀ moment agentId cycleId, after.Leased moment agentId cycleId →
    before.Leased moment agentId cycleId

theorem Releases.refl (tables : CycleTables) : Releases tables tables := fun _ _ _ h => h

theorem Releases.trans {first second third : CycleTables} (h : Releases first second)
    (h' : Releases second third) : Releases first third :=
  fun moment agentId cycleId hleased => h moment agentId cycleId (h' moment agentId cycleId hleased)

theorem Releases.exclusive {after : CycleTables} (h : Releases tables after)
    (hexclusive : tables.Exclusive moment) : after.Exclusive moment :=
  fun agentId first second hfirst hsecond =>
    hexclusive agentId first second (h _ _ _ hfirst) (h _ _ _ hsecond)

theorem leased_setCycle_of_ne {row : AgentCycleRow} (h : cycleId ≠ row.id) :
    (tables.setCycle row).Leased moment agentId cycleId ↔
      tables.Leased moment agentId cycleId := by
  rw [Leased, cycleRow_setCycle_of_ne tables h, Leased]

theorem leased_setCycle_self {row : AgentCycleRow} :
    (tables.setCycle row).Leased moment agentId row.id ↔
      row.agentId = agentId ∧ row.status = .running ∧
        ∃ expires ∈ row.leaseExpiresAt, moment < expires := by
  constructor
  · rintro ⟨found, hfound, h⟩
    rw [cycleRow_setCycle_self] at hfound
    obtain rfl := Option.some.inj hfound
    exact h
  · exact fun h => ⟨row, cycleRow_setCycle_self tables row, h⟩

/-- A row that does not run takes nothing. -/
theorem setCycle_releases {row : AgentCycleRow} (h : row.status ≠ .running) :
    Releases tables (tables.setCycle row) := by
  intro moment agentId cycleId hleased
  by_cases hcycle : cycleId = row.id
  · subst hcycle
    exact absurd (leased_setCycle_self.mp hleased).2.1 h
  · exact (leased_setCycle_of_ne hcycle).mp hleased

theorem releases_of_cycles {after : CycleTables} (h : after.cycles = tables.cycles) :
    Releases tables after := by
  intro moment agentId cycleId hleased
  rw [Leased, cycleRow, h] at hleased
  exact hleased

/-- Writing a row that runs as before. -/
theorem updateCycle_releases {fields : CycleRowFields} {row : AgentCycleRow} {after : CycleTables}
    (h : tables.updateCycle fields = .ok after) (hrow : tables.cycleRow row.id = some row)
    (hid : fields.id = row.id) (hagent : fields.agentId = row.agentId)
    (hlease : fields.status = .running →
      row.status = .running ∧ fields.leaseExpiresAt = row.leaseExpiresAt) :
    Releases tables after := by
  obtain ⟨written, hwritten, h⟩ := Checks.bind_eq_ok.mp h
  cases h
  have hfields := AgentCycleRow.make_eq_ok_iff.mp hwritten
  have hid' : written.id = row.id := by rw [hfields, hid]
  intro moment agentId cycleId hleased
  by_cases hcycle : cycleId = written.id
  · subst hcycle
    obtain ⟨hagent', hrunning, expires, hexpires, hlt⟩ := leased_setCycle_self.mp hleased
    rw [hfields] at hagent' hrunning hexpires
    obtain ⟨hrow', hexpires'⟩ := hlease hrunning
    rw [hid']
    exact ⟨row, hrow, hagent.symm.trans hagent', hrow', expires, by rw [← hexpires']; exact hexpires,
      hlt⟩
  · exact (leased_setCycle_of_ne hcycle).mp hleased

/-! ## Stages and the ends of cycles -/

variable {claim : CycleClaim}

theorem beginStage_releases {stage : CycleStage} {inputFingerprint : Sha256} {now : Datetime}
    {after : CycleTables} (h : tables.beginStage claim stage inputFingerprint now = .ok after) :
    Releases tables after := by
  obtain ⟨moment, -, h⟩ := Checks.bind_eq_ok.mp h
  obtain ⟨leased, -, h⟩ := Checks.bind_eq_ok.mp h
  split at h
  next =>
    cases h
    exact releases_of_cycles rfl
  next =>
    obtain ⟨-, h⟩ := Checks.ite_error_eq_ok.mp h
    split at h
    · cases h
      exact .refl tables
    · cases h
      exact releases_of_cycles rfl

theorem completeStage_releases {fromisoformat : String → Option Datetime} {stage : CycleStage}
    {inputFingerprint : Sha256} {result : StageResult stage} {now : Datetime}
    {registered : Except Raised Unit} {after : CycleTables}
    (h : tables.completeStage fromisoformat claim inputFingerprint result now registered =
      .ok after) : Releases tables after := by
  obtain ⟨moment, -, h⟩ := Checks.bind_eq_ok.mp h
  obtain ⟨leased, -, h⟩ := Checks.bind_eq_ok.mp h
  split at h
  next => cases h
  next row hrow =>
    obtain ⟨_, -, h⟩ := Checks.bind_eq_ok.mp h
    obtain ⟨leased', hleased', h⟩ := Checks.bind_eq_ok.mp h
    obtain ⟨hleased', hrunning, -, -⟩ := assertLease_eq_ok hleased'
    split at h
    · obtain ⟨cutoff, -, h⟩ := Checks.bind_eq_ok.mp h
      unfold publishCutoff at h
      split at h
      · rw [← id_of_cycleRow _ hleased'] at hleased'
        have hreleases := updateCycle_releases h hleased' rfl rfl fun _ => ⟨hrunning, rfl⟩
        exact Releases.trans (releases_of_cycles rfl) hreleases
      · cases h
    · cases h
      exact releases_of_cycles rfl

theorem completeCycle_releases {now : Datetime} {summary : JsonObject} {after : CycleTables}
    (h : tables.completeCycle claim now summary = .ok after) : Releases tables after := by
  obtain ⟨moment, -, h⟩ := Checks.bind_eq_ok.mp h
  obtain ⟨status, -, h⟩ := Checks.bind_eq_ok.mp h
  obtain ⟨row, hleased, h⟩ := Checks.bind_eq_ok.mp h
  obtain ⟨hrow, -, -, -⟩ := assertLease_eq_ok hleased
  rw [← id_of_cycleRow _ hrow] at hrow
  exact updateCycle_releases h hrow rfl rfl fun hrunning => by cases hrunning

theorem failCycle_releases {now : Datetime} {reason : String} {after : CycleTables}
    (h : tables.failCycle claim now reason = .ok after) : Releases tables after := by
  obtain ⟨moment, -, h⟩ := Checks.bind_eq_ok.mp h
  split at h
  next =>
    cases h
    exact .refl tables
  next row hrow =>
    obtain ⟨updated, hupdated, h⟩ := Checks.bind_eq_ok.mp h
    cases h
    have hrow := (Option.filter_eq_some_iff.mp hrow).1
    rw [← id_of_cycleRow _ hrow] at hrow
    have hreleases := updateCycle_releases hupdated hrow rfl rfl fun hrunning => by
      dsimp only at hrunning
      split at hrunning <;> cases hrunning
    exact hreleases.trans (releases_of_cycles rfl)

/-! ## Renewing -/

/-- Renewing a lease leaves the other cycles as they are. -/
theorem renewLease_leased {now : Datetime} {duration : ℤ} {after : CycleTables}
    (h : tables.renewLease claim now duration = .ok after) :
    ∃ row, tables.leasedRow claim now.instant = some row ∧ now.isAware = true ∧ 0 < duration ∧
      (∀ moment agentId, after.Leased moment agentId claim.cycleId ↔
        row.agentId = agentId ∧ moment < now.instant + duration) ∧
      ∀ moment agentId other, other ≠ claim.cycleId →
        (after.Leased moment agentId other ↔ tables.Leased moment agentId other) := by
  obtain ⟨moment, hmoment, h⟩ := Checks.bind_eq_ok.mp h
  obtain rfl := awareInstant_eq_ok hmoment
  obtain ⟨hduration, h⟩ := Checks.ite_error_eq_ok.mp h
  obtain ⟨row, hleased, h⟩ := Checks.bind_eq_ok.mp h
  obtain ⟨hrow, hrunning, -, -⟩ := assertLease_eq_ok hleased
  obtain ⟨written, hwritten, h⟩ := Checks.bind_eq_ok.mp h
  cases h
  have hfields := AgentCycleRow.make_eq_ok_iff.mp hwritten
  have hid : written.id = claim.cycleId := by
    rw [hfields]
    exact id_of_cycleRow tables hrow
  refine ⟨row, ?_, ?_, not_le.mp hduration, fun moment agentId => ?_, fun moment agentId other hne => ?_⟩
  · unfold assertLease at hleased
    split at hleased
    next found hfound =>
      obtain rfl := Except.ok.inj hleased
      exact hfound
    next => cases hleased
  · unfold awareInstant at hmoment
    split at hmoment
    next haware => exact haware
    next => cases hmoment
  · rw [← hid, leased_setCycle_self, hfields]
    simp [hrunning]
  · exact leased_setCycle_of_ne (by rw [hid]; exact hne)

theorem renewLease_eq_ok {now : Datetime} {duration : ℤ} {row : AgentCycleRow}
    (hleased : tables.leasedRow claim now.instant = some row) (haware : now.isAware = true)
    (hduration : 0 < duration) : ∃ after, tables.renewLease claim now duration = .ok after := by
  have hassert : tables.assertLease claim now.instant = .ok row := by rw [assertLease, hleased]
  obtain ⟨-, -, howner, -⟩ := assertLease_eq_ok hassert
  have haccepted : CycleRowFields.Accepted { row.toCycleRowFields with
      leaseExpiresAt := some (now.instant + duration) } := by
    constructor
    case cutoff_known => exact row.accepted.cutoff_known
    case cutoff_ge => exact row.accepted.cutoff_ge
    case lease_owned => exact Or.inr (Option.isSome_of_mem howner)
    case completed_ge => exact row.accepted.completed_ge
  refine ⟨tables.setCycle ⟨_, haccepted⟩, ?_⟩
  unfold renewLease
  rw [awareInstant, if_pos haware]
  apply Checks.bind_eq_ok.mpr
  refine ⟨now.instant, rfl, ?_⟩
  rw [if_neg (not_le.mpr hduration)]
  apply Checks.bind_eq_ok.mpr
  refine ⟨row, hassert, ?_⟩
  apply Checks.bind_eq_ok.mpr
  exact ⟨⟨_, haccepted⟩, AgentCycleRow.make_eq_ok_iff.mpr rfl, rfl⟩

/-! ## Claiming -/

/-- An hour that is skipped leases nothing. -/
theorem recordSkippedRange_releases {ids : RandomIds} {agentId : String} {first last now : Instant}
    {after : CycleTables} (h : tables.recordSkippedRange ids agentId first last now = .ok after) :
    Releases tables after := by
  refine Checks.foldlM_invariant (fun _ state => Releases tables state) [] ?_ h (.refl tables)
  intro seen state index next _ hinv hstep
  obtain ⟨⟨inserted, done⟩, hinserted, hstep⟩ := Checks.bind_eq_ok.mp hstep
  cases hstep
  have hdrawn : Releases state { state with drawn := state.drawn + 1 } := releases_of_cycles rfl
  rcases insertCycle_eq_ok hinserted with ⟨-, rfl⟩ | ⟨-, -, row, hrow, rfl⟩
  · exact hinv.trans hdrawn
  · refine (hinv.trans hdrawn).trans (setCycle_releases ?_)
    rw [hrow]
    simp [skippedFields]

theorem skipMissed_releases {ids : RandomIds} {agentId : String} {first last now : Instant}
    {after : CycleTables} (h : (if first ≤ last then
      tables.recordSkippedRange ids agentId first last now else .ok tables) = .ok after) :
    Releases tables after := by
  split at h
  · exact recordSkippedRange_releases h
  · cases h
    exact .refl tables

/-- Claiming a schedule leases one cycle at most, of its agent. -/
theorem claimSchedule_leased {ids : RandomIds} {terms : LeaseTerms} {now : Instant}
    {state next : CycleTables × List CycleClaim} {schedule : ScheduleRow}
    (h : claimSchedule ids terms now state schedule = .ok next) :
    ∃ claimed, ∀ moment agentId cycleId, next.1.Leased moment agentId cycleId →
      state.1.Leased moment agentId cycleId ∨
        agentId = schedule.agentId ∧ cycleId = claimed := by
  obtain ⟨tables, held⟩ := state
  unfold claimSchedule at h
  dsimp only at h
  obtain ⟨skipped, hskipped, h⟩ := Checks.bind_eq_ok.mp h
  have hrange : Releases tables skipped := by
    apply skipMissed_releases
    exact hskipped
  split at h
  next =>
    obtain ⟨⟨inserted, done⟩, hinserted, h⟩ := Checks.bind_eq_ok.mp h
    refine ⟨ids.hex (skipped.drawn + 1), fun moment agentId cycleId hleased => ?_⟩
    have hbefore (hnew : inserted.Leased moment agentId cycleId) :
        tables.Leased moment agentId cycleId ∨
          agentId = schedule.agentId ∧ cycleId = ids.hex (skipped.drawn + 1) := by
      rcases insertCycle_eq_ok hinserted with ⟨-, rfl⟩ | ⟨-, -, row, hrow, rfl⟩
      · exact Or.inl (hrange _ _ _ hnew)
      · have hid : row.id = ids.hex (skipped.drawn + 1) := by rw [hrow]; rfl
        by_cases hcycle : cycleId = row.id
        · subst hcycle
          have hagent := (leased_setCycle_self.mp hnew).1
          rw [hrow] at hagent
          exact Or.inr ⟨hagent.symm, hid⟩
        · exact Or.inl (hrange _ _ _ ((leased_setCycle_of_ne hcycle).mp hnew))
    split at h
    · cases h
      exact hbefore hleased
    · cases h
      exact hbefore hleased
  next =>
    cases h
    exact ⟨"", fun moment agentId cycleId hleased => Or.inl (hrange _ _ _ hleased)⟩

/-- Schedules of different agents without a running cycle are claimed exclusively. -/
theorem foldlM_claimSchedule_exclusive {ids : RandomIds} {terms : LeaseTerms} {now : Instant}
    {items : List ScheduleRow} {state final : CycleTables × List CycleClaim}
    (unique : (items.map fun schedule => schedule.agentId).Nodup)
    (hfree : ∀ schedule ∈ items, ∀ cycleId, ¬ state.1.Leased moment schedule.agentId cycleId)
    (hexclusive : state.1.Exclusive moment)
    (h : items.foldlM (claimSchedule ids terms now) state = .ok final) :
    final.1.Exclusive moment := by
  induction items generalizing state with
  | nil =>
      cases h
      exact hexclusive
  | cons schedule items ih =>
      obtain ⟨next, hnext, hrest⟩ := Checks.foldlM_cons_eq_ok.mp h
      obtain ⟨claimed, hleased⟩ := claimSchedule_leased hnext
      rw [List.map_cons, List.nodup_cons] at unique
      apply ih unique.2 ?_ ?_ hrest
      · intro other hmem cycleId hnew
        rcases hleased _ _ _ hnew with hold | ⟨hagent, -⟩
        · exact hfree other (List.mem_cons_of_mem _ hmem) cycleId hold
        · exact unique.1 (List.mem_map.mpr ⟨other, hmem, hagent⟩)
      · intro agentId first second hfirst hsecond
        rcases hleased _ _ _ hfirst with hfirst | ⟨hagent, rfl⟩
        · rcases hleased _ _ _ hsecond with hsecond | ⟨rfl, -⟩
          · exact hexclusive agentId first second hfirst hsecond
          · exact absurd hfirst (hfree schedule List.mem_cons_self first)
        · rcases hleased _ _ _ hsecond with hsecond | ⟨-, rfl⟩
          · rw [hagent] at hsecond
            exact absurd hsecond (hfree schedule List.mem_cons_self second)
          · rfl

/-- A schedule that is due belongs to an agent without a running cycle. -/
theorem not_leased_of_due {scheduling : Scheduling} {now : Instant} {schedule : ScheduleRow}
    (h : schedule ∈ tables.dueSchedules scheduling now) (hle : now ≤ moment) (cycleId : String) :
    ¬ tables.Leased moment schedule.agentId cycleId := by
  rintro ⟨row, hrow, hagent, hrunning, expires, hexpires, hlt⟩
  rw [dueSchedules, List.mem_insertionSort, List.mem_filter, Bool.and_eq_true, Bool.not_eq_true',
    List.any_eq_false] at h
  apply h.2.2 row (KeyedList.mem_of_lookup_eq_some hrow)
  simp [hagent, hrunning, Option.mem_def.mp hexpires, hle.trans_lt hlt]

theorem claimDueCycles_exclusive {ids : RandomIds} {scheduling : Scheduling} {terms : LeaseTerms}
    {now : Datetime} {after : CycleTables} {claims : List CycleClaim}
    (h : tables.claimDueCycles ids scheduling terms now = .ok (after, claims))
    (hle : now.instant ≤ moment) (hexclusive : tables.Exclusive moment) :
    after.Exclusive moment := by
  obtain ⟨-, h⟩ := Checks.ite_error_eq_ok.mp h
  obtain ⟨-, h⟩ := Checks.ite_error_eq_ok.mp h
  split at h
  · cases h
    exact hexclusive
  · have hunique : (((tables.dueSchedules scheduling now.instant).take terms.limit.toNat).map
        fun schedule => schedule.agentId).Nodup := by
      apply List.Nodup.sublist (List.Sublist.map _ (List.take_sublist _ _))
      apply ((List.perm_insertionSort _ _).map _).nodup_iff.mpr
      exact List.Nodup.sublist (List.Sublist.map _ List.filter_sublist) tables.schedules.unique
    exact foldlM_claimSchedule_exclusive hunique
      (fun schedule hmem => not_leased_of_due (List.mem_of_mem_take hmem) hle) hexclusive h

/-! ## Recovering -/

/-- Recovering a cycle always succeeds; it leases the cycle and leaves the others. -/
theorem recoverCycle_leased (ids : RandomIds) (leaseOwner : String) (leaseDuration : ℤ)
    (now : Instant) (state : CycleTables × List CycleClaim) (row : AgentCycleRow) :
    ∃ next, recoverCycle ids leaseOwner leaseDuration now state row = .ok next ∧
      (∀ moment agentId, next.1.Leased moment agentId row.id ↔
        row.agentId = agentId ∧ moment < now + leaseDuration) ∧
      ∀ moment agentId other, other ≠ row.id →
        (next.1.Leased moment agentId other ↔ state.1.Leased moment agentId other) := by
  obtain ⟨tables, held⟩ := state
  have haccepted : CycleRowFields.Accepted { row.toCycleRowFields with
      status := .running
      leaseOwner := some (newLeaseOwner ids tables.drawn leaseOwner)
      leaseExpiresAt := some (now + leaseDuration)
      attemptCount := row.attemptCount + 1
      failureReason := some "market_freeze lease reclaimed after worker inactivity" } := by
    constructor
    case cutoff_known => exact Or.inr (Or.inl rfl)
    case cutoff_ge => exact row.accepted.cutoff_ge
    case lease_owned => exact Or.inr rfl
    case completed_ge => exact row.accepted.completed_ge
  obtain ⟨-, hcycles, -, -⟩ := failFreeze_spec { tables with drawn := tables.drawn + 1 } row.id now
  obtain ⟨next, hnext⟩ : ∃ next, recoverCycle ids leaseOwner leaseDuration now (tables, held) row =
      .ok next := by
    unfold recoverCycle
    dsimp only
    rw [updateCycle, AgentCycleRow.make, dif_pos haccepted]
    exact ⟨_, rfl⟩
  refine ⟨next, hnext, ?_⟩
  obtain ⟨updated, hupdated, h⟩ := Checks.bind_eq_ok.mp hnext
  obtain ⟨written, hwritten, hupdated⟩ := Checks.bind_eq_ok.mp hupdated
  cases hupdated
  cases h
  have hfields := AgentCycleRow.make_eq_ok_iff.mp hwritten
  have hid : written.id = row.id := by rw [hfields]
  constructor
  · intro moment agentId
    rw [← hid]
    refine leased_setCycle_self.trans ?_
    rw [hfields]
    simp
  · intro moment agentId other hne
    refine (leased_setCycle_of_ne (by rw [hid]; exact hne)).trans ?_
    rw [Leased, cycleRow, hcycles]
    rfl

/-- After a recovery the recovered cycles are leased, and the others as before. -/
theorem foldlM_recoverCycle_leased {ids : RandomIds} {leaseOwner : String} {leaseDuration : ℤ}
    {now : Instant} {rows : List AgentCycleRow} (unique : (rows.map AgentCycleRow.key).Nodup)
    (state : CycleTables × List CycleClaim) :
    ∃ final, rows.foldlM (recoverCycle ids leaseOwner leaseDuration now) state = .ok final ∧
      ∀ moment agentId cycleId, final.1.Leased moment agentId cycleId ↔
        (∃ row ∈ rows, row.id = cycleId ∧ row.agentId = agentId ∧ moment < now + leaseDuration) ∨
          cycleId ∉ rows.map AgentCycleRow.key ∧ state.1.Leased moment agentId cycleId := by
  induction rows generalizing state with
  | nil => exact ⟨state, rfl, by simp⟩
  | cons row rows ih =>
      rw [List.map_cons, List.nodup_cons] at unique
      obtain ⟨next, hnext, hself, hothers⟩ :=
        recoverCycle_leased ids leaseOwner leaseDuration now state row
      obtain ⟨final, hfinal, hleased⟩ := ih unique.2 next
      refine ⟨final, Checks.foldlM_cons_eq_ok.mpr ⟨next, hnext, hfinal⟩,
        fun moment agentId cycleId => ?_⟩
      rw [hleased]
      by_cases hcycle : cycleId = row.id
      · subst hcycle
        have hnot : row.id ∉ rows.map AgentCycleRow.key := unique.1
        have hnone : ¬ ∃ other ∈ rows, other.id = row.id ∧ other.agentId = agentId ∧
            moment < now + leaseDuration := by
          rintro ⟨other, hmem, hsame, -⟩
          exact hnot (List.mem_map.mpr ⟨other, hmem, hsame⟩)
        rw [hself]
        simp [hnone, hnot, AgentCycleRow.key]
      · rw [hothers moment agentId cycleId hcycle]
        simp [Ne.symm hcycle, hcycle, AgentCycleRow.key]

theorem recoverableCycles_unique (scheduling : Scheduling) (now : Instant)
    (staleAfter : Option ℤ) (limit : ℕ) :
    (((tables.recoverableCycles scheduling now staleAfter).take limit).map AgentCycleRow.key).Nodup := by
  apply List.Nodup.sublist (List.Sublist.map _ (List.take_sublist _ _))
  apply ((List.perm_insertionSort _ _).map _).nodup_iff.mpr
  exact List.Nodup.sublist (List.Sublist.map _ List.filter_sublist) tables.cycles_unique

/-- A recovery leases the cycles that it takes. -/
theorem recoverExpiredCycles_leased {ids : RandomIds} (scheduling : Scheduling)
    (terms : LeaseTerms) (staleAfter : Option ℤ) {now : Datetime} (haware : now.isAware = true) :
    ∃ after claims, tables.recoverExpiredCycles ids scheduling terms staleAfter now =
        .ok (after, claims) ∧
      ∀ moment agentId cycleId, after.Leased moment agentId cycleId ↔
        (∃ row ∈ tables.recoveredRows scheduling terms staleAfter now.instant, row.id = cycleId ∧
          row.agentId = agentId ∧ moment < now.instant + terms.leaseDuration) ∨
        cycleId ∉ (tables.recoveredRows scheduling terms staleAfter now.instant).map AgentCycleRow.key ∧
          tables.Leased moment agentId cycleId := by
  unfold recoverExpiredCycles recoveredRows
  rw [if_neg (by simp [haware])]
  split
  · exact ⟨tables, [], rfl, by simp⟩
  · obtain ⟨⟨after, claims⟩, hfinal, hleased⟩ := @foldlM_recoverCycle_leased ids terms.leaseOwner
      terms.leaseDuration now.instant _
      (recoverableCycles_unique scheduling now.instant staleAfter terms.limit.toNat) (tables, [])
    exact ⟨after, claims, hfinal, hleased⟩

/-! ## Runs -/

end CycleTables

/-- The tables, and the latest time at which a transaction was made. -/
structure ClockedTables where
  tables : CycleTables
  latest : Instant

/-- A transaction at its time. -/
def ClockedTables.step (ids : RandomIds) (fromisoformat : String → Option Datetime)
    (state : ClockedTables) (request : CycleCall) :
    ClockedTables × Except Raised (List CycleClaim) :=
  (⟨(state.tables.call ids fromisoformat request).1, max state.latest request.now.instant⟩,
    (state.tables.call ids fromisoformat request).2)

namespace CycleTables

variable {tables : CycleTables} {latest moment : Instant} {ids : RandomIds}
  {fromisoformat : String → Option Datetime}

theorem recoveredRows_subset {scheduling : Scheduling} {terms : LeaseTerms} {staleAfter : Option ℤ}
    {now : Instant} {row : AgentCycleRow}
    (h : row ∈ tables.recoveredRows scheduling terms staleAfter now) : row ∈ tables.cycles := by
  unfold recoveredRows at h
  split at h
  · cases h
  · have hmem := (List.mem_insertionSort _).mp (List.mem_of_mem_take h)
    exact (List.mem_filter.mp hmem).1

theorem recoveredRows_unique (tables : CycleTables) (scheduling : Scheduling) (terms : LeaseTerms)
    (staleAfter : Option ℤ) (now : Instant) :
    ((tables.recoveredRows scheduling terms staleAfter now).map AgentCycleRow.key).Nodup := by
  unfold recoveredRows
  split
  · exact List.nodup_nil
  · exact recoverableCycles_unique scheduling now staleAfter terms.limit.toNat

theorem recover_exclusive_iff {scheduling : Scheduling} {terms : LeaseTerms}
    {staleAfter : Option ℤ} {now : Datetime}
    (hlater : tables.Exclusive (max latest now.instant)) :
    (tables.call ids fromisoformat (.recoverExpired scheduling terms staleAfter now)).1.Exclusive
        (max latest now.instant) ↔
      tables.TakesFree latest (.recoverExpired scheduling terms staleAfter now) := by
  by_cases haware : now.isAware = true
  · obtain ⟨after, claims, hdone, hleased⟩ :=
      @recoverExpiredCycles_leased tables ids scheduling terms staleAfter now haware
    rw [call_ok (show tables.transact ids fromisoformat
      (.recoverExpired scheduling terms staleAfter now) = .ok (after, claims) from hdone)]
    have hunique := recoveredRows_unique tables scheduling terms staleAfter now.instant
    constructor
    · intro h _ hlt
      -- A cycle that is recovered is leased afterwards.
      have hrecovered {row : AgentCycleRow}
          (hmem : row ∈ tables.recoveredRows scheduling terms staleAfter now.instant) :
          after.Leased (max latest now.instant) row.agentId row.id :=
        (hleased _ _ _).mpr (Or.inl ⟨row, hmem, rfl, rfl, hlt⟩)
      constructor
      · refine List.Nodup.map_on ?_ (List.Nodup.of_map _ hunique)
        intro first hfirst second hsecond hagent
        apply List.inj_on_of_nodup_map hunique hfirst hsecond
        have hleased' := hrecovered hsecond
        rw [← hagent] at hleased'
        exact h _ _ _ (hrecovered hfirst) hleased'
      · intro row hmem other hother
        refine h row.agentId other row.id ((hleased _ _ _).mpr ?_) (hrecovered hmem)
        by_cases hids : other ∈
            (tables.recoveredRows scheduling terms staleAfter now.instant).map AgentCycleRow.key
        · obtain ⟨row', hmem', rfl⟩ := List.mem_map.mp hids
          obtain ⟨found, hfound, hagent, -⟩ := hother
          have hrow' := (KeyedList.lookup_eq_some_iff tables.cycles_unique).mpr
            ⟨recoveredRows_subset hmem', rfl⟩
          obtain rfl := Option.some.inj (hrow'.symm.trans hfound)
          exact Or.inl ⟨row', hmem', rfl, hagent, hlt⟩
        · exact Or.inr ⟨hids, hother⟩
    · intro h agentId first second hfirst hsecond
      rcases (hleased _ _ _).mp hfirst with ⟨row, hmem, rfl, rfl, hlt⟩ | ⟨hids, hfirst⟩
      · obtain ⟨hagents, hfree⟩ := h haware hlt
        rcases (hleased _ _ _).mp hsecond with ⟨row', hmem', rfl, hagent, -⟩ | ⟨-, hsecond⟩
        · rw [List.inj_on_of_nodup_map hagents hmem' hmem hagent]
        · exact (hfree row hmem second hsecond).symm
      · rcases (hleased _ _ _).mp hsecond with ⟨row', hmem', rfl, rfl, hlt⟩ | ⟨-, hsecond⟩
        · exact (h haware hlt).2 row' hmem' first hfirst
        · exact hlater agentId first second hfirst hsecond
  · have herror : tables.transact ids fromisoformat
        (.recoverExpired scheduling terms staleAfter now) =
          .error (.valueError "timestamps must be timezone-aware") := by
      change tables.recoverExpiredCycles ids scheduling terms staleAfter now = _
      rw [recoverExpiredCycles, if_pos (by simpa using haware)]
    rw [call_error herror]
    exact iff_of_true hlater fun haware' _ => absurd haware' haware

theorem renew_exclusive_iff {claim : CycleClaim} {now : Datetime} {duration : ℤ}
    (hlater : tables.Exclusive (max latest now.instant)) :
    (tables.call ids fromisoformat (.renewLease claim now duration)).1.Exclusive
        (max latest now.instant) ↔
      tables.TakesFree latest (.renewLease claim now duration) := by
  constructor
  · intro h row hrow haware hduration hlt other hother
    obtain ⟨after, hafter⟩ := renewLease_eq_ok hrow haware hduration
    have hdone : tables.transact ids fromisoformat (.renewLease claim now duration) =
        .ok (after, []) := Checks.map_eq_ok.mpr ⟨after, hafter, rfl⟩
    rw [call_ok hdone] at h
    obtain ⟨row', hrow', -, -, hself, hothers⟩ := renewLease_leased hafter
    obtain rfl := Option.some.inj (hrow.symm.trans hrow')
    by_cases hcycle : other = claim.cycleId
    · exact hcycle
    · exact h row.agentId other claim.cycleId ((hothers _ _ other hcycle).mpr hother)
        ((hself _ _).mpr ⟨rfl, hlt⟩)
  · intro h
    cases hdone : tables.transact ids fromisoformat (.renewLease claim now duration) with
    | error error =>
        rw [call_error hdone]
        exact hlater
    | ok done =>
        obtain ⟨after, claims⟩ := done
        rw [call_ok hdone]
        obtain ⟨written, hwritten, heq⟩ := Checks.map_eq_ok.mp hdone
        cases heq
        obtain ⟨row, hrow, haware, hduration, hself, hothers⟩ := renewLease_leased hwritten
        intro agentId first second hfirst hsecond
        by_cases hcycle : first = claim.cycleId
        · by_cases hcycle' : second = claim.cycleId
          · rw [hcycle, hcycle']
          · subst hcycle
            obtain ⟨rfl, hlt⟩ := (hself _ _).mp hfirst
            exact (h row hrow haware hduration hlt second
              ((hothers _ _ second hcycle').mp hsecond)).symm
        · by_cases hcycle' : second = claim.cycleId
          · subst hcycle'
            obtain ⟨rfl, hlt⟩ := (hself _ _).mp hsecond
            exact h row hrow haware hduration hlt first ((hothers _ _ first hcycle).mp hfirst)
          · exact hlater agentId first second ((hothers _ _ first hcycle).mp hfirst)
              ((hothers _ _ second hcycle').mp hsecond)

/-- What a transaction keeps when it commits, it keeps. -/
theorem call_exclusive {request : CycleCall} (hexclusive : tables.Exclusive moment)
    (h : ∀ after claims, tables.transact ids fromisoformat request = .ok (after, claims) →
      after.Exclusive moment) : (tables.call ids fromisoformat request).1.Exclusive moment := by
  cases hdone : tables.transact ids fromisoformat request with
  | error error =>
      rw [call_error hdone]
      exact hexclusive
  | ok done =>
      rw [call_ok hdone]
      exact h done.1 done.2 hdone

/-- A transaction leaves every agent with one running cycle exactly when it takes free ones. -/
theorem call_exclusive_iff {request : CycleCall} (hexclusive : tables.Exclusive latest) :
    (tables.call ids fromisoformat request).1.Exclusive (max latest request.now.instant) ↔
      tables.TakesFree latest request := by
  have hlater := hexclusive.mono (le_max_left latest request.now.instant)
  cases request with
  | recoverExpired scheduling terms staleAfter now => exact recover_exclusive_iff hlater
  | renewLease claim now duration => exact renew_exclusive_iff hlater
  | claimDue scheduling terms now =>
      refine iff_of_true (call_exclusive hlater fun after claims hdone => ?_) trivial
      exact claimDueCycles_exclusive hdone (le_max_right _ _) hlater
  | beginStage claim stage inputFingerprint now =>
      refine iff_of_true (call_exclusive hlater fun after claims hdone => ?_) trivial
      obtain ⟨written, hwritten, heq⟩ := Checks.map_eq_ok.mp hdone
      cases heq
      exact (beginStage_releases hwritten).exclusive hlater
  | completeStage claim stage inputFingerprint result now registered =>
      refine iff_of_true (call_exclusive hlater fun after claims hdone => ?_) trivial
      obtain ⟨written, hwritten, heq⟩ := Checks.map_eq_ok.mp hdone
      cases heq
      exact (completeStage_releases hwritten).exclusive hlater
  | failCycle claim now reason =>
      refine iff_of_true (call_exclusive hlater fun after claims hdone => ?_) trivial
      obtain ⟨written, hwritten, heq⟩ := Checks.map_eq_ok.mp hdone
      cases heq
      exact (failCycle_releases hwritten).exclusive hlater
  | completeCycle claim now summary =>
      refine iff_of_true (call_exclusive hlater fun after claims hdone => ?_) trivial
      obtain ⟨written, hwritten, heq⟩ := Checks.map_eq_ok.mp hdone
      cases heq
      exact (completeCycle_releases hwritten).exclusive hlater

/-- No agent has two cycles that run under an unexpired lease, in any state of exactly those
runs in which every recovery and every renewal takes free ones. -/
theorem exclusive_iff_takesFree (ids : RandomIds) (fromisoformat : String → Option Datetime)
    (schedules : ScheduleTable) (start : Instant) (calls : List CycleCall) :
    Runs.Always (ClockedTables.step ids fromisoformat)
        (fun state => state.tables.Exclusive state.latest) ⟨unscheduled schedules, start⟩ calls ↔
      Runs.Along (ClockedTables.step ids fromisoformat)
        (fun state request => state.tables.TakesFree state.latest request)
        ⟨unscheduled schedules, start⟩ calls := by
  refine @Runs.always_iff_along _ _ _ (ClockedTables.step ids fromisoformat) _ (fun _ => True) _
    (fun _ _ _ => trivial) ?_ _ calls trivial ?_
  · intro state request _ hexclusive
    exact call_exclusive_iff hexclusive
  · rintro _ _ _ ⟨row, hrow, -⟩
    cases hrow

end CycleTables

namespace Sample

/-- The first claim of the agent. -/
def firstClaim : CycleClaim where
  cycleId := randomIds.hex 1
  agentId := "agent"
  scheduledAt := moment.instant
  dataCutoff := none
  leaseOwner := newLeaseOwner randomIds 0 "worker"
  leaseExpiresAt := moment.instant + 1000
  recovery := false
  attempt := 1
  cutoff_ge := by simp

/-- A cycle fails and is recovered only after the next hour has been claimed. -/
def lateRecovery : List CycleCall := [
  .claimDue scheduling leaseTerms moment,
  .failCycle firstClaim moment "the venue is down",
  .claimDue scheduling leaseTerms nextHour,
  .recoverExpired scheduling leaseTerms none nextHour]

set_option maxRecDepth 10000 in
theorem lateRecovery_not_exclusive :
    ¬ Runs.Always (ClockedTables.step randomIds fun _ => none)
      (fun state => state.tables.Exclusive state.latest)
      ⟨CycleTables.unscheduled hourly, moment.instant⟩ lateRecovery := by
  intro h
  have hlast := h.2.2.2.2 "agent" (randomIds.hex 1) (randomIds.hex 3) (by decide +kernel)
    (by decide +kernel)
  revert hlast
  decide +kernel

end Sample

end VTrade
