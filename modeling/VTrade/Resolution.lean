/-
# Evidence of resolution

The tables of observations and settlements guard themselves.  An observation that
disagrees with the last final one of its market is stored as blocked, whoever
inserts it; a settlement is only taken with an observation that is final and not
blocked, for the position and the payout that the observation gives it.  Rows of
either table are never changed.

Whatever the order of the insertions, every settlement of a market rests on the
same result and the same settlement time.
-/

import Mathlib.Logic.Relation
import VTrade.Accounting
import VTrade.Database

namespace VTrade

namespace ResolutionRow

/-- Evidence that a settlement may rest on. -/
def isFinal (row : ResolutionRow) : Bool := row.lifecycleStatus = .finalized ∧ row.blocked = false

/-- `ORDER BY observed_at DESC, id DESC`. -/
def comesAfter (first second : ResolutionRow) : Bool :=
  second.observedAt < first.observedAt ∨
    second.observedAt = first.observedAt ∧ second.id ≤ first.id

/-- The checks of `resolution_observations`. -/
def check (row : ResolutionRow) : Except Raised Unit :=
  Checks.raiseFirst [
    (row.lifecycleStatus ∉ [.determined, .disputed, .amended, .finalized, .resolved, .ambiguous],
      .databaseError "resolution_observations_lifecycle_status_check"),
    (row.lifecycleStatus ≠ .finalized ∧ row.settlementTs ≠ none,
      .databaseError "resolution_observations_check"),
    (row.isFinal ∧ (row.result = none ∨ row.settlementTs = none),
      .databaseError "resolution_observations_check1"),
    (row.cutoff < row.observedAt, .databaseError "resolution_observations_check2"),
    (row.sourceTimestamp.any (row.cutoff < ·), .databaseError "resolution_observations_check3")]

/-- Whether two rows of `resolution_observations` cannot both be there. -/
def clashes (first second : ResolutionRow) : Bool :=
  first.id = second.id ∨ (first.marketId = second.marketId ∧
    first.observedAt = second.observedAt ∧ first.rawArtifactId = second.rawArtifactId)

end ResolutionRow

namespace SettlementRow

/-- The checks of `settlements`. -/
def check (row : SettlementRow) : Except Raised Unit :=
  Checks.raiseFirst [
    (row.contractUnits ≤ 0, .databaseError "settlements_contract_units_check"),
    (row.grossPayoutMicros < 0, .databaseError "settlements_gross_payout_micros_check"),
    (row.entryFeesDeductedMicros < 0,
      .databaseError "settlements_entry_fees_deducted_micros_check")]

/-- A settlement that is recorded already. -/
def sameEvidence (row prior : SettlementRow) : Bool :=
  prior.settlementFingerprint = row.settlementFingerprint ∧ prior.agentId = row.agentId ∧
    prior.positionId = row.positionId ∧ prior.resolutionId = row.resolutionId ∧
    prior.marketId = row.marketId ∧ prior.settlementTs = row.settlementTs ∧
    prior.outcomeSide = row.outcomeSide ∧ prior.contractUnits = row.contractUnits ∧
    prior.grossPayoutMicros = row.grossPayoutMicros ∧
    prior.entryFeesDeductedMicros = row.entryFeesDeductedMicros

/-- What a final result pays for the units. -/
def payout (row : SettlementRow) (result : OutcomeSide) : ℤ :=
  if result = row.outcomeSide then row.contractUnits * 10000 else 0

end SettlementRow

namespace Database

variable (db : Database)

/-! ## The guards -/

/-- The last final observation of a market. -/
def priorFinal (marketId : MarketKey) : Option ResolutionRow :=
  ((db.resolutions.filter fun row => row.marketId = marketId ∧ row.isFinal).insertionSort
    fun first second => first.comesAfter second).head?

/-- `vtrade_guard_resolution_conflict`: an observation that disagrees is blocked. -/
def guardResolution (row : ResolutionRow) : ResolutionRow :=
  if (db.priorFinal row.marketId).any fun prior =>
      prior.result ≠ row.result ∨ prior.settlementTs ≠ row.settlementTs then
    { row with blocked := true }
  else row

def insertResolution (row : ResolutionRow) : Except Raised Database :=
  let guarded := db.guardResolution row
  if db.resolutions.any fun other => other.clashes guarded then
    .error (.databaseError
      "duplicate key value violates a unique constraint of resolution_observations")
  else do
    guarded.check
    .ok { db with resolutions := db.resolutions ++ [guarded] }

/-- The observation that an identifier names. -/
def resolution (id : String) : Option ResolutionRow :=
  db.resolutions.find? fun resolution => resolution.id = id

/-- The settlement that a key, or a position and an observation, already has. -/
def settlement (idempotencyKey : String) (positionId : String × PositionKey)
    (resolutionId : String) : Option SettlementRow :=
  db.settlements.find? fun row => row.idempotencyKey = idempotencyKey ∨
    (row.positionId = positionId ∧ row.resolutionId = resolutionId)

/-- `vtrade_guard_settlement`, up to the settlement that may be there already. -/
def guardSettlement (row : SettlementRow) : Except Raised Unit :=
  match db.resolution row.resolutionId with
  | none => .error (.databaseError
      "settlement requires one validated, unblocked FINALIZED observation")
  | some observation =>
      match observation.isFinal, observation.result, observation.settlementTs with
      | true, some result, some settlementTs =>
          Checks.raiseFirst [
            (settlementTs ≠ row.settlementTs ∨ observation.marketId ≠ row.marketId,
              .databaseError "settlement requires one validated, unblocked FINALIZED observation"),
            ((db.position row.positionId.1 row.positionId.2).all fun position =>
                position.agentId ≠ row.agentId ∨ position.marketId ≠ row.marketId ∨
                  position.outcomeSide ≠ row.outcomeSide ∨
                  position.contractUnits ≠ row.contractUnits,
              .databaseError "settlement position does not match the finalized market outcome"),
            (row.grossPayoutMicros ≠ row.payout result,
              .databaseError
                "binary settlement payout is inconsistent with the finalized result")]
      | _, _, _ => .error (.databaseError
          "settlement requires one validated, unblocked FINALIZED observation")

/-- Insert a settlement, or leave the one that says the same. -/
def insertSettlementRow (row : SettlementRow) : Except Raised Database := do
  db.guardSettlement row
  match db.settlement row.idempotencyKey row.positionId row.resolutionId with
  | some prior =>
      if row.sameEvidence prior then .ok db
      else .error (.databaseError
        "settlement idempotency key or finalized pair conflicts with prior evidence")
  | none => do
      Checks.raiseFirst [
        (db.settlements.any fun other => other.id = row.id,
          .databaseError "duplicate key value violates settlements_pkey")]
      row.check
      .ok { db with settlements := db.settlements ++ [row] }

/-- `persist_resolution_observation`: an observation that is there already stays. -/
def persistResolution (row : ResolutionRow) : Except Raised Database :=
  if db.resolutions.any fun other => other.marketId = row.marketId ∧
      other.observedAt = row.observedAt ∧ other.rawArtifactId = row.rawArtifactId then .ok db
  else db.insertResolution row

/-- The observations of a published freeze: `ON CONFLICT (id) DO NOTHING`. -/
def publishResolution (row : ResolutionRow) : Except Raised Database :=
  if db.resolutions.any fun other => other.id = row.id then do
    (db.guardResolution row).check
    .ok db
  else db.insertResolution row

/-! ## Runs of insertions -/

/-- What one transaction can do to the evidence: insert an observation, insert a
settlement, or write to other tables only. -/
inductive EvidenceStep : Database → Database → Prop
  | observe {db next : Database} {row : ResolutionRow} (h : db.insertResolution row = .ok next) :
      EvidenceStep db next
  | settle {db next : Database} {row : SettlementRow} (h : db.insertSettlementRow row = .ok next) :
      EvidenceStep db next
  | elsewhere {db next : Database} (hresolutions : next.resolutions = db.resolutions)
      (hsettlements : next.settlements = db.settlements) : EvidenceStep db next

theorem EvidenceStep.persistResolution {db next : Database} {row : ResolutionRow}
    (h : db.persistResolution row = .ok next) : EvidenceStep db next := by
  unfold Database.persistResolution at h
  split at h
  · cases h
    exact .elsewhere rfl rfl
  · exact .observe h

theorem EvidenceStep.publishResolution {db next : Database} {row : ResolutionRow}
    (h : db.publishResolution row = .ok next) : EvidenceStep db next := by
  unfold Database.publishResolution at h
  split at h
  · obtain ⟨-, -, h⟩ := Checks.bind_eq_ok.mp h
    cases h
    exact .elsewhere rfl rfl
  · exact .observe h

/-- The settlement rests on the observation: it is final and not blocked, of the
settlement's market, has its settlement time, and its result makes the payout. -/
structure RestsOn (row : SettlementRow) (observation : ResolutionRow) (result : OutcomeSide) :
    Prop where
  mem : observation ∈ db.resolutions
  id : observation.id = row.resolutionId
  final : observation.isFinal = true
  market : observation.marketId = row.marketId
  result_eq : observation.result = some result
  settlementTs_eq : observation.settlementTs = some row.settlementTs
  payout : row.grossPayoutMicros = row.payout result

/-- What every run of transactions keeps true of the evidence. -/
structure EvidenceInvariant : Prop where
  complete : ∀ row ∈ db.resolutions, row.isFinal = true → ∃ result settlementTs,
    row.result = some result ∧ row.settlementTs = some settlementTs
  agree : ∀ first ∈ db.resolutions, ∀ second ∈ db.resolutions, first.isFinal = true →
    second.isFinal = true → first.marketId = second.marketId →
      first.result = second.result ∧ first.settlementTs = second.settlementTs
  rests : ∀ row ∈ db.settlements, ∃ observation result, db.RestsOn row observation result

variable {db} {next : Database}

theorem priorFinal_eq_none {marketId : MarketKey} (h : db.priorFinal marketId = none)
    {row : ResolutionRow} (hmem : row ∈ db.resolutions) (hmarket : row.marketId = marketId) :
    row.isFinal = false := by
  rw [priorFinal, List.head?_eq_none_iff, ← List.length_eq_zero_iff, List.length_insertionSort,
    List.length_eq_zero_iff, List.filter_eq_nil_iff] at h
  simpa [hmarket] using h row hmem

theorem mem_of_priorFinal {marketId : MarketKey} {prior : ResolutionRow}
    (h : db.priorFinal marketId = some prior) :
    prior ∈ db.resolutions ∧ prior.marketId = marketId ∧ prior.isFinal = true := by
  have hmem := List.mem_of_head? h
  rw [List.mem_insertionSort, List.mem_filter] at hmem
  simpa using hmem

/-- An observation that is not blocked by its guard agrees with every final one. -/
theorem EvidenceInvariant.guardResolution_agrees (h : db.EvidenceInvariant) {row : ResolutionRow}
    (hfinal : (db.guardResolution row).isFinal = true) {other : ResolutionRow}
    (hmem : other ∈ db.resolutions) (hother : other.isFinal = true)
    (hmarket : other.marketId = (db.guardResolution row).marketId) :
    other.result = (db.guardResolution row).result ∧
      other.settlementTs = (db.guardResolution row).settlementTs := by
  unfold guardResolution at hfinal hmarket ⊢
  split at hfinal
  next => simp [ResolutionRow.isFinal] at hfinal
  next hagrees =>
    rw [if_neg hagrees] at hmarket ⊢
    cases hprior : db.priorFinal row.marketId with
    | none => simp [priorFinal_eq_none hprior hmem hmarket] at hother
    | some prior =>
        obtain ⟨hpriorMem, hpriorMarket, hpriorFinal⟩ := mem_of_priorFinal hprior
        obtain ⟨hresult, hsettlementTs⟩ := h.agree other hmem prior hpriorMem hother hpriorFinal
          (hmarket.trans hpriorMarket.symm)
        rw [hprior, Option.any_some, decide_eq_true_eq, not_or, not_not, not_not] at hagrees
        exact ⟨hresult.trans hagrees.1, hsettlementTs.trans hagrees.2⟩

theorem RestsOn.mono {row : SettlementRow} {observation : ResolutionRow} {result : OutcomeSide}
    (h : db.RestsOn row observation result)
    (hsubset : ∀ other ∈ db.resolutions, other ∈ next.resolutions) :
    next.RestsOn row observation result :=
  { h with mem := hsubset observation h.mem }

theorem insertResolution_cases {row : ResolutionRow} (h : db.insertResolution row = .ok next) :
    (db.guardResolution row).check = .ok () ∧
      next = { db with resolutions := db.resolutions ++ [db.guardResolution row] } := by
  unfold insertResolution at h
  dsimp only at h
  split at h
  · cases h
  · obtain ⟨_, hcheck, h⟩ := Checks.bind_eq_ok.mp h
    cases h
    exact ⟨hcheck, rfl⟩

theorem EvidenceInvariant.insertResolution (h : db.EvidenceInvariant) {row : ResolutionRow}
    (hinsert : db.insertResolution row = .ok next) : next.EvidenceInvariant := by
  obtain ⟨hcheck, rfl⟩ := insertResolution_cases hinsert
  have hcomplete : (db.guardResolution row).isFinal = true → ∃ result settlementTs,
      (db.guardResolution row).result = some result ∧
        (db.guardResolution row).settlementTs = some settlementTs := by
    intro hfinal
    simp only [ResolutionRow.check, Checks.raiseFirst_cons_eq_ok, decide_eq_false_iff_not] at hcheck
    have hboth := hcheck.2.2.1
    rw [not_and, not_or] at hboth
    obtain ⟨hresult, hsettlementTs⟩ := hboth hfinal
    exact ⟨_, _, (Option.ne_none_iff_exists'.mp hresult).choose_spec,
      (Option.ne_none_iff_exists'.mp hsettlementTs).choose_spec⟩
  refine ⟨fun other hmem hfinal => ?_, fun first hfirst second hsecond hfinal hfinal' hmarket => ?_,
    fun settlement hmem => ?_⟩
  · rcases List.mem_append.mp hmem with hold | hnew
    · exact h.complete other hold hfinal
    · obtain rfl := List.mem_singleton.mp hnew
      exact hcomplete hfinal
  · rcases List.mem_append.mp hfirst with hold | hnew
    · rcases List.mem_append.mp hsecond with hold' | hnew'
      · exact h.agree first hold second hold' hfinal hfinal' hmarket
      · obtain rfl := List.mem_singleton.mp hnew'
        exact h.guardResolution_agrees hfinal' hold hfinal hmarket
    · obtain rfl := List.mem_singleton.mp hnew
      rcases List.mem_append.mp hsecond with hold' | hnew'
      · obtain ⟨hresult, hsettlementTs⟩ :=
          h.guardResolution_agrees hfinal hold' hfinal' hmarket.symm
        exact ⟨hresult.symm, hsettlementTs.symm⟩
      · obtain rfl := List.mem_singleton.mp hnew'
        exact ⟨rfl, rfl⟩
  · obtain ⟨observation, result, hrests⟩ := h.rests settlement hmem
    exact ⟨observation, result, hrests.mono fun other => List.mem_append_left _⟩

/-- A settlement passes its guard on an observation that it rests on. -/
theorem restsOn_of_guardSettlement {row : SettlementRow} (h : db.guardSettlement row = .ok ()) :
    ∃ observation result, db.resolution row.resolutionId = some observation ∧
      db.RestsOn row observation result := by
  unfold guardSettlement at h
  split at h
  · cases h
  next observation hobservation =>
    split at h
    next result settlementTs hfinal hresult hsettlementTs =>
      simp only [Checks.raiseFirst_cons_eq_ok, Checks.raiseFirst_nil, decide_eq_false_iff_not,
        not_or, not_not] at h
      obtain ⟨⟨hts, hmarket⟩, -, hpayout, -⟩ := h
      have hid := List.find?_some hobservation
      exact ⟨observation, result, hobservation, List.mem_of_find?_eq_some hobservation,
        by simpa using hid, hfinal, hmarket, hresult, by rw [hsettlementTs, hts], hpayout⟩
    next => cases h

theorem insertSettlementRow_cases {row : SettlementRow}
    (h : db.insertSettlementRow row = .ok next) :
    db.guardSettlement row = .ok () ∧
      (next = db ∨ next = { db with settlements := db.settlements ++ [row] }) := by
  obtain ⟨_, hguard, h⟩ := Checks.bind_eq_ok.mp h
  refine ⟨hguard, ?_⟩
  split at h
  · split at h
    · cases h
      exact Or.inl rfl
    · cases h
  · obtain ⟨-, -, h⟩ := Checks.bind_eq_ok.mp h
    obtain ⟨-, -, h⟩ := Checks.bind_eq_ok.mp h
    cases h
    exact Or.inr rfl

theorem EvidenceInvariant.step (h : db.EvidenceInvariant) (hstep : EvidenceStep db next) :
    next.EvidenceInvariant := by
  cases hstep with
  | observe hinsert => exact h.insertResolution hinsert
  | settle hinsert =>
      obtain ⟨hguard, rfl | rfl⟩ := insertSettlementRow_cases hinsert
      · exact h
      · obtain ⟨observation, result, -, hrests⟩ := restsOn_of_guardSettlement hguard
        refine ⟨h.complete, h.agree, fun settlement hmem => ?_⟩
        rcases List.mem_append.mp hmem with hold | hnew
        · obtain ⟨observation', result', hrests'⟩ := h.rests settlement hold
          exact ⟨observation', result', hrests'.mono fun other => id⟩
        · obtain rfl := List.mem_singleton.mp hnew
          exact ⟨observation, result, hrests.mono fun other => id⟩
  | elsewhere hresolutions hsettlements =>
      refine ⟨by rw [hresolutions]; exact h.complete, by rw [hresolutions]; exact h.agree,
        fun settlement hmem => ?_⟩
      rw [hsettlements] at hmem
      obtain ⟨observation, result, hrests⟩ := h.rests settlement hmem
      exact ⟨observation, result, hrests.mono fun other hother => hresolutions ▸ hother⟩

/-- From empty tables of evidence, in whatever order observations and settlements are
inserted: the final observations of a market share their result and settlement time,
every settlement rests on a final observation of its market, and the settlements of a
market, of whatever agents, rest on the same result and settlement time. -/
theorem settlements_rest_on_one_result {initial : Database} (hresolutions : initial.resolutions = [])
    (hsettlements : initial.settlements = [])
    (hrun : Relation.ReflTransGen EvidenceStep initial db) :
    (∀ first ∈ db.resolutions, ∀ second ∈ db.resolutions, first.isFinal = true →
      second.isFinal = true → first.marketId = second.marketId →
        first.result = second.result ∧ first.settlementTs = second.settlementTs) ∧
    (∀ row ∈ db.settlements, ∃ observation result, db.RestsOn row observation result) ∧
    ∀ first ∈ db.settlements, ∀ second ∈ db.settlements, first.marketId = second.marketId →
      first.settlementTs = second.settlementTs ∧
        ∀ observation result observation' result', db.RestsOn first observation result →
          db.RestsOn second observation' result' → result = result' := by
  have h : db.EvidenceInvariant := by
    induction hrun with
    | refl =>
        refine ⟨?_, ?_, ?_⟩
        · simp [hresolutions]
        · simp [hresolutions]
        · simp [hsettlements]
    | tail _ hstep ih => exact ih.step hstep
  refine ⟨h.agree, h.rests, fun first hfirst second hsecond hmarket => ?_⟩
  have hshared {observation observation' : ResolutionRow} {result result' : OutcomeSide}
      (hrests : db.RestsOn first observation result)
      (hrests' : db.RestsOn second observation' result') :=
    h.agree observation hrests.mem observation' hrests'.mem hrests.final hrests'.final
      (hrests.market.trans (hmarket.trans hrests'.market.symm))
  constructor
  · obtain ⟨observation, result, hrests⟩ := h.rests first hfirst
    obtain ⟨observation', result', hrests'⟩ := h.rests second hsecond
    have hts := (hshared hrests hrests').2
    rw [hrests.settlementTs_eq, hrests'.settlementTs_eq] at hts
    exact Option.some.inj hts
  · intro observation result observation' result' hrests hrests'
    have hresult := (hshared hrests hrests').1
    rw [hrests.result_eq, hrests'.result_eq] at hresult
    exact Option.some.inj hresult

end Database

namespace Sample

/-- Tables in which an agent holds a hundred units of YES, without evidence. -/
def holding : Database where
  agents := [⟨"agent", 1, false⟩]
  cycles := []
  markets := [(market, [])]
  intents := []
  operations := []
  fills := []
  evidence := ⟨[], [], [], [], .nil⟩
  ledgerEntries := []
  positions := [{
    agentId := "agent"
    marketId := market
    outcomeSide := .yes
    contractUnits := 100
    grossCostBasisMicros := 400000
    entryFeesMicros := 100
    realizedPnlMicros := 0
    portfolioVersion := 1
    updatedAt := moment.instant }]
  feeAllocations := []
  resolutions := []
  settlements := []
  positions_unique := by simp

def resolutionRow : ResolutionRow where
  id := "resolution"
  marketId := market
  lifecycleStatus := .finalized
  result := some .yes
  observedAt := moment.instant
  sourceTimestamp := none
  settlementTs := some moment.instant
  cutoff := moment.instant
  rawArtifactId := "artifact"
  blocked := false

def settlementRow : SettlementRow where
  id := "settlement"
  agentId := "agent"
  positionId := ("agent", market, .yes)
  resolutionId := "resolution"
  marketId := market
  settlementTs := moment.instant
  outcomeSide := .yes
  contractUnits := 100
  grossPayoutMicros := 1000000
  entryFeesDeductedMicros := 100
  realizedPnlMicros := 599900
  ledgerEntryId := "entry"
  idempotencyKey := "key"
  settlementFingerprint := digest

end Sample

/-- A settlement that is inserted after its observation rests on it. -/
theorem settlement_rests_sample :
    ∃ db : Database, db.settlements = [Sample.settlementRow] ∧
      ∃ observation result, db.RestsOn Sample.settlementRow observation result := by
  obtain ⟨observed, hobserve, htest⟩ := Checks.exists_ok_of_any
    (Sample.holding.insertResolution Sample.resolutionRow)
    (fun observed => (observed.insertSettlementRow Sample.settlementRow).toOption.any
      fun db => db.settlements = [Sample.settlementRow]) (by decide +kernel)
  obtain ⟨db, hsettle, hrows⟩ := Checks.exists_ok_of_any _ _ (of_decide_eq_true (by simpa using htest))
  have hrow := of_decide_eq_true hrows
  have hrun : Relation.ReflTransGen Database.EvidenceStep Sample.holding db :=
    .tail (.single (.observe hobserve)) (.settle hsettle)
  obtain ⟨-, hrests, -⟩ := Database.settlements_rest_on_one_result rfl rfl hrun
  exact ⟨db, hrow, hrests Sample.settlementRow (by rw [hrow]; exact List.mem_singleton.mpr rfl)⟩

end VTrade
