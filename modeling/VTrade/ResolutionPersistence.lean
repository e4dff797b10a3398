/-
# Observations that the table takes

What the venue says of a market is read in every status of its lifecycle; the table of
observations takes the statuses that follow the close of a market, and a settlement time of a
final one only.  A freeze is written in one transaction, so one observation that the table does
not take undoes all of it.

An observation of a freeze is persisted exactly when the payload that it was read from is one that
the table can hold.
-/

import VTrade.FreezeRuns

namespace VTrade

namespace MarketStatus

/-- The statuses of `resolution_observations`. -/
def recorded : List MarketStatus :=
  [.determined, .disputed, .amended, .finalized, .resolved, .ambiguous]

end MarketStatus

/-! ## Rows -/

namespace ResolutionRow

variable {row : ResolutionRow}

/-- A final row lacks nothing unless it is blocked. -/
def IncompleteBlocked (row : ResolutionRow) : Prop :=
  row.lifecycleStatus = .finalized → row.result = none ∨ row.settlementTs = none →
    row.blocked = true

/-- What the checks of the table leave open for a row that is seen by its cutoff. -/
structure Recordable (row : ResolutionRow) : Prop where
  status : row.lifecycleStatus ∈ MarketStatus.recorded
  settlementTs : row.lifecycleStatus ≠ .finalized → row.settlementTs = none
  sourceTimestamp : ∀ time ∈ row.sourceTimestamp, time ≤ row.cutoff

theorem check_eq_ok_iff (hblocked : row.IncompleteBlocked)
    (hobserved : row.observedAt ≤ row.cutoff) :
    row.check = .ok () ↔ row.Recordable := by
  have hfinal : ¬ (row.isFinal = true ∧ (row.result = none ∨ row.settlementTs = none)) := by
    rintro ⟨hfinal, hmissing⟩
    have hparts := of_decide_eq_true hfinal
    rw [hblocked hparts.1 hmissing] at hparts
    exact Bool.noConfusion hparts.2
  have hseen : ¬ row.cutoff < row.observedAt := not_lt_of_ge hobserved
  unfold check
  simp only [Checks.raiseFirst_cons_eq_ok, Checks.raiseFirst_nil, hfinal, hseen,
    decide_eq_false_iff_not, not_not, not_false_iff, true_and, and_true]
  constructor
  · rintro ⟨hstatus, hsettlement, hsource⟩
    constructor
    · exact hstatus
    · intro hlive
      by_contra hsettled
      exact hsettlement ⟨hlive, hsettled⟩
    · intro time htime
      rw [htime] at hsource
      simpa using hsource
  · intro hrow
    refine ⟨hrow.status, ?_, ?_⟩
    · rintro ⟨hlive, hsettled⟩
      exact hsettled (hrow.settlementTs hlive)
    · cases hsource : row.sourceTimestamp with
      | none => rfl
      | some time => simpa using hrow.sourceTimestamp time hsource

end ResolutionRow

namespace Database

variable {db : Database} {row : ResolutionRow}

/-- No other row is in the way: the observation is there under its identifier, or there is none of
the market at the time from the artifact. -/
def Admits (db : Database) (id : String) (marketId : MarketKey) (observedAt : Instant)
    (rawArtifactId : String) : Prop :=
  (∃ other ∈ db.resolutions, other.id = id) ∨
    ∀ other ∈ db.resolutions, ¬ (other.marketId = marketId ∧ other.observedAt = observedAt ∧
      other.rawArtifactId = rawArtifactId)

/-- The guard blocks a row and changes nothing else of it. -/
theorem guardResolution_eq (db : Database) (row : ResolutionRow) :
    ∃ blocked, db.guardResolution row = { row with blocked := blocked } ∧
      (row.blocked = true → blocked = true) := by
  unfold guardResolution
  split
  · exact ⟨true, rfl, fun _ => rfl⟩
  · exact ⟨row.blocked, rfl, id⟩

theorem guardResolution_check_iff (hblocked : row.IncompleteBlocked)
    (hobserved : row.observedAt ≤ row.cutoff) :
    (db.guardResolution row).check = .ok () ↔ row.Recordable := by
  obtain ⟨blocked, hguarded, hkept⟩ := db.guardResolution_eq row
  have hguardedBlocked : ResolutionRow.IncompleteBlocked { row with blocked := blocked } :=
    fun hfinal hmissing => hkept (hblocked hfinal hmissing)
  rw [hguarded, ResolutionRow.check_eq_ok_iff hguardedBlocked hobserved]
  exact ⟨fun h => ⟨h.status, h.settlementTs, h.sourceTimestamp⟩,
    fun h => ⟨h.status, h.settlementTs, h.sourceTimestamp⟩⟩

theorem clashes_guardResolution {other : ResolutionRow} (hid : other.id ≠ row.id) :
    other.clashes (db.guardResolution row) = true ↔ other.marketId = row.marketId ∧
      other.observedAt = row.observedAt ∧ other.rawArtifactId = row.rawArtifactId := by
  obtain ⟨blocked, hguarded, -⟩ := db.guardResolution_eq row
  rw [hguarded]
  simp [ResolutionRow.clashes, hid]

theorem publishResolution_isOk_iff (hblocked : row.IncompleteBlocked)
    (hobserved : row.observedAt ≤ row.cutoff) :
    (∃ next, db.publishResolution row = .ok next) ↔
      row.Recordable ∧ db.Admits row.id row.marketId row.observedAt row.rawArtifactId := by
  have hcheck : (db.guardResolution row).check = .ok () ↔ row.Recordable :=
    guardResolution_check_iff hblocked hobserved
  unfold publishResolution
  by_cases hknown : (db.resolutions.any fun other => other.id = row.id) = true
  · have hadmits : db.Admits row.id row.marketId row.observedAt row.rawArtifactId := by
      obtain ⟨other, hmem, hid⟩ := List.any_eq_true.mp hknown
      exact .inl ⟨other, hmem, of_decide_eq_true hid⟩
    rw [if_pos hknown]
    simp only [Checks.bind_eq_ok, hcheck, hadmits, and_true]
    constructor
    · rintro ⟨-, -, hrow, -⟩
      exact hrow
    · intro hrow
      exact ⟨db, (), hrow, rfl⟩
  · have hnew : ∀ other ∈ db.resolutions, other.id ≠ row.id := by simpa using hknown
    have hadmits : db.Admits row.id row.marketId row.observedAt row.rawArtifactId ↔
        ¬ (db.resolutions.any fun other => other.clashes (db.guardResolution row)) = true := by
      rw [List.any_eq_true]
      constructor
      · rintro (⟨other, hmem, hid⟩ | hfree) ⟨other', hmem', hclash⟩
        · exact hnew other hmem hid
        · exact hfree other' hmem' ((clashes_guardResolution (hnew other' hmem')).mp hclash)
      · intro hfree
        refine Or.inr fun other hmem hsame => hfree ⟨other, hmem, ?_⟩
        exact (clashes_guardResolution (hnew other hmem)).mpr hsame
    rw [if_neg hknown, hadmits, insertResolution]
    simp only [Checks.ite_error_eq_ok, Checks.bind_eq_ok, hcheck]
    constructor
    · rintro ⟨-, hfree, -, hrow, -⟩
      exact ⟨hrow, hfree⟩
    · rintro ⟨hrow, hfree⟩
      exact ⟨_, hfree, (), hrow, rfl⟩

end Database

/-! ## Payloads -/

namespace Kalshi

variable {read : TimestampReading} {key : MarketKey} {cutoff : Instant}
  {response : ResolutionResponse} {observation : ResolutionEvidence}

/-- A payload that the table can hold: its status follows the close of the market, it has a
settlement time only if it is final, and the first of its times is not after the cutoff. -/
structure Storable (read : TimestampReading) (cutoff : Instant) (payload : JsonObject) : Prop where
  status : ∃ status ∈ MarketStatus.recorded,
    resolutionStatus ((Json.get payload "status").getD .null) = .ok status ∧
      (hasField payload "settlement_ts" = true → status = .finalized)
  sourceTimestamp : ∀ time, resolutionTimestamp read payload = .ok (some time) →
    time.1.instant ≤ cutoff

/-- An observation says what a payload says. -/
structure ReadFrom (read : TimestampReading) (key : MarketKey) (response : ResolutionResponse)
    (payload : JsonObject) (observation : ResolutionEvidence) : Prop where
  marketKey : observation.marketKey = key
  status : resolutionStatus ((Json.get payload "status").getD .null) = .ok observation.status
  observedAt : observation.observedAt = response.observedAt
  sourceTimestamp : resolutionTimestamp read payload = .ok observation.sourceTimestamp
  settlementTs : observation.settlementTs.isSome = hasField payload "settlement_ts"
  snapshotId : observation.snapshotId =
    observationId key response.observed response.artifact.sha256.hex
  audit : observation.audit = response.artifact

theorem isSome_of_fieldTimestamp_eq_ok {payload : JsonObject} {field label : String}
    {time : Option AwareDatetime} (h : fieldTimestamp read payload field label = .ok time) :
    time.isSome = hasField payload field := by
  unfold fieldTimestamp at h
  unfold hasField
  cases hvalue : Json.get payload field with
  | none =>
      rw [hvalue] at h
      cases h
      rfl
  | some value =>
      rw [hvalue] at h
      by_cases hmissing : (!isMissing value) = true
      · simp only [Option.filter_some, hmissing, if_true] at h
        obtain ⟨instant, -, rfl⟩ := Checks.map_eq_ok.mp h
        simpa using hmissing
      · simp only [Option.filter_some, hmissing] at h
        cases h
        simpa using hmissing

theorem readResolution_eq_ok (h : readResolution read key cutoff response = .ok observation) :
    ∃ payload, marketPayload response = .ok payload ∧
      ReadFrom read key response payload observation := by
  unfold readResolution at h
  obtain ⟨payload, hpayload, h⟩ := Checks.bind_eq_ok.mp h
  obtain ⟨returned, -, h⟩ := Checks.bind_eq_ok.mp h
  obtain ⟨-, h⟩ := Checks.ite_error_eq_ok.mp h
  obtain ⟨status, hstatus, h⟩ := Checks.bind_eq_ok.mp h
  obtain ⟨result, -, h⟩ := Checks.bind_eq_ok.mp h
  obtain ⟨sourceTimestamp, hsource, h⟩ := Checks.bind_eq_ok.mp h
  obtain ⟨settlementTs, hsettlement, h⟩ := Checks.bind_eq_ok.mp h
  obtain ⟨_, -, h⟩ := Checks.bind_eq_ok.mp h
  cases h
  have hsome := isSome_of_fieldTimestamp_eq_ok hsettlement
  exact ⟨payload, hpayload, rfl, hstatus, rfl, hsource, by simpa using hsome, rfl, rfl⟩

end Kalshi

/-! ## Freezes -/

variable {tables next : FreezeTables} {publication : Publication} {read : TimestampReading}
  {key : MarketKey} {cutoff : Instant} {response : ResolutionResponse}
  {observation : ResolutionEvidence} {payload : JsonObject}

theorem Publication.recordable_iff (hread : Kalshi.ReadFrom read key response payload observation)
    (artifact : Sha256) : (publication.resolutionRow observation artifact).Recordable ↔
      Kalshi.Storable read publication.freeze.dataCutoff payload := by
  have hsettlement : observation.settlementTs = none ↔
      Kalshi.hasField payload "settlement_ts" = false := by
    rw [← hread.settlementTs, Option.isSome_eq_false_iff, Option.isNone_iff_eq_none]
  constructor
  · intro hrow
    constructor
    · refine ⟨observation.status, hrow.status, hread.status, fun hsettled => ?_⟩
      by_contra hlive
      have hnone := Option.map_eq_none_iff.mp (hrow.settlementTs hlive)
      rw [hsettlement.mp hnone] at hsettled
      exact Bool.noConfusion hsettled
    · intro time htime
      rw [hread.sourceTimestamp] at htime
      apply hrow.sourceTimestamp
      exact Option.map_eq_some_iff.mpr ⟨time, Except.ok.inj htime, rfl⟩
  · intro hstorable
    obtain ⟨status, hrecorded, hstatus, hsettled⟩ := hstorable.status
    rw [hread.status] at hstatus
    cases hstatus
    constructor
    · exact hrecorded
    · intro hlive
      apply Option.map_eq_none_iff.mpr
      rw [hsettlement]
      exact Bool.eq_false_iff.mpr fun hsome => hlive (hsettled hsome)
    · intro instant hinstant
      obtain ⟨time, htime, rfl⟩ := Option.map_eq_some_iff.mp hinstant
      exact hstorable.sourceTimestamp time (hread.sourceTimestamp.trans (congrArg _ htime))

theorem FreezeTables.persistResolution_isOk
    (hartifact : observation.audit.sha256 ∈ publication.rawArtifacts) :
    (∃ next, tables.persistResolution publication observation = .ok next) ↔
      ∃ next, tables.db.publishResolution
        (publication.resolutionRow observation observation.audit.sha256) = .ok next := by
  unfold persistResolution Publication.artifactId
  rw [if_pos hartifact]
  simp only [Checks.bind_eq_ok]
  constructor
  · rintro ⟨next, artifact, hsame, db, hdb, -⟩
    cases hsame
    exact ⟨db, hdb⟩
  · rintro ⟨db, hdb⟩
    exact ⟨_, _, rfl, db, hdb, rfl⟩

theorem Publication.resolutionRow_incompleteBlocked (artifact : Sha256) :
    (publication.resolutionRow observation artifact).IncompleteBlocked := by
  unfold ResolutionRow.IncompleteBlocked Publication.resolutionRow
  dsimp only
  rw [Option.map_eq_none_iff]
  exact observation.incomplete_blocked

/-- An observation of a freeze, whose artifact is there, is persisted exactly when the table can
hold the payload that it was read from and no other row is in the way. -/
theorem FreezeTables.persistResolution_isOk_iff
    (hread : Kalshi.readResolution read key cutoff response = .ok observation)
    (hmem : observation ∈ publication.freeze.resolutions)
    (hartifact : response.artifact.sha256 ∈ publication.rawArtifacts) :
    (∃ next, tables.persistResolution publication observation = .ok next) ↔
      (∃ payload, Kalshi.marketPayload response = .ok payload ∧
        Kalshi.Storable read publication.freeze.dataCutoff payload) ∧
      tables.db.Admits
        ("vtrade:resolution:" ++
          observationId key response.observed response.artifact.sha256.hex)
        key response.observedAt response.artifact.sha256.hex := by
  obtain ⟨payload, hpayload, hfrom⟩ := Kalshi.readResolution_eq_ok hread
  have hobserved : observation.observedAt ≤ publication.freeze.dataCutoff :=
    (publication.freeze.resolutions_observed observation hmem).1
  rw [← hfrom.audit] at hartifact
  rw [persistResolution_isOk hartifact, Database.publishResolution_isOk_iff
    (Publication.resolutionRow_incompleteBlocked _) hobserved, Publication.recordable_iff hfrom,
    hpayload]
  unfold Publication.resolutionRow
  dsimp only
  rw [hfrom.marketKey, hfrom.observedAt, hfrom.snapshotId, hfrom.audit]
  simp only [Except.ok.injEq, exists_eq_left']

namespace Sample

/-! ## A held market -/

/-- A reading of times for payloads that have none. -/
def untimed : TimestampReading := fun _ label => .error (.payloadError (label ++ " is invalid"))

theorem moment_utc : Datetime.utc moment.instant = some moment := by decide +kernel

def marketFields (status : String) : JsonObject :=
  [("ticker", .text "KXRAIN-26"), ("status", .text status)]

/-- The answer of the venue for the market in a status. -/
def marketIn (status : String) : ResolutionResponse where
  payload := .object (marketFields status)
  observedAt := moment.instant
  observed := moment
  artifact := artifact
  observed_eq := moment_utc

theorem unsettled_aware : ∀ settlementTs ∈ (none : Option Datetime),
    settlementTs.isAware = true := by simp

theorem live_incomplete {status : MarketStatus} (h : status ≠ .finalized) :
    status = .finalized → (none : Option OutcomeSide) = none ∨
      (none : Option Datetime) = none → false = true :=
  fun hfinal => absurd hfinal h

/-- What is read from the answer. -/
def observedIn (status : MarketStatus) (h : status ≠ .finalized) : ResolutionEvidence where
  marketKey := market
  status := status
  result := none
  observedAt := moment.instant
  settlementTs := none
  blocked := false
  snapshotId := observationId market moment artifact.sha256.hex
  settlementTs_aware := unsettled_aware
  incomplete_blocked := live_incomplete h
  snapshotId_nonblank := observationId_not_isBlank _ _ _
  sourceTimestamp := none
  audit := artifact

theorem observedIn_observed (status : MarketStatus) (h : status ≠ .finalized) :
    ∀ observation ∈ [observedIn status h], observation.observedAt ≤ moment.instant ∧
      ∀ observed ∈ observation.audit.observedAt, observed ≤ moment.instant := by
  simp [observedIn, artifact]

theorem active_live : MarketStatus.active ≠ .finalized := by decide

theorem determined_live : MarketStatus.determined ≠ .finalized := by decide

theorem marketFields_untimed (status : String) :
    Kalshi.resolutionTimestamp untimed (marketFields status) = .ok none := rfl

theorem read_active : Kalshi.readResolution untimed market moment.instant (marketIn "active") =
    .ok (observedIn .active active_live) := rfl

theorem read_determined :
    Kalshi.readResolution untimed market moment.instant (marketIn "determined") =
      .ok (observedIn .determined determined_live) := rfl

/-- The publication of a freeze that lists the market, which is held. -/
def heldIn (status : MarketStatus) (h : status ≠ .finalized) : Publication :=
  publicationOf "cycle" cycle_uuid
    (heldFreeze [listedMarket centPrices] [observedIn status h] (observedIn_observed status h))

end Sample

set_option maxRecDepth 10000 in
example : ((FreezeTables.start Sample.unfrozen).persist
      (Sample.heldIn .determined Sample.determined_live)).toOption.isSome = true ∧
    ((FreezeTables.start Sample.unfrozen).persist
      (Sample.heldIn .active Sample.active_live)).toOption = none := by
  decide +kernel

/-- The observation of a determined market is persisted. -/
theorem persistResolution_determined :
    ∃ next, (FreezeTables.start Sample.unfrozen).persistResolution
      (Sample.heldIn .determined Sample.determined_live)
      (Sample.observedIn .determined Sample.determined_live) = .ok next :=
  (FreezeTables.persistResolution_isOk_iff Sample.read_determined
    (List.mem_singleton.mpr rfl) (List.mem_singleton.mpr rfl)).mpr
    ⟨⟨Sample.marketFields "determined", rfl, ⟨.determined, by decide, rfl, by decide⟩,
        fun _ htime => absurd ((Sample.marketFields_untimed _).symm.trans htime) (by simp)⟩,
      Or.inr (by simp [FreezeTables.start, Sample.unfrozen, Sample.untraded])⟩

set_option maxRecDepth 10000 in
/-- The observation of a held market that is still active is not, and neither is its freeze. -/
theorem persistResolution_active :
    ¬ ∀ (tables : FreezeTables) (publication : Publication) (read : TimestampReading)
        (key : MarketKey) (cutoff : Instant) (response : ResolutionResponse)
        (observation : ResolutionEvidence),
      Kalshi.readResolution read key cutoff response = .ok observation →
      observation ∈ publication.freeze.resolutions →
      response.artifact.sha256 ∈ publication.rawArtifacts →
      ∃ next, tables.persistResolution publication observation = .ok next := by
  intro h
  obtain ⟨next, hnext⟩ := h (.start Sample.unfrozen) (Sample.heldIn .active Sample.active_live)
    Sample.untimed Sample.market _ _ _ Sample.read_active (List.mem_singleton.mpr rfl)
    (List.mem_singleton.mpr rfl)
  have hraised : ((FreezeTables.start Sample.unfrozen).persistResolution
      (Sample.heldIn .active Sample.active_live)
      (Sample.observedIn .active Sample.active_live)).toOption = none := by decide +kernel
  rw [hnext] at hraised
  cases hraised

end VTrade
