/-
# How settlements are told apart

A settlement carries three identifiers: the id of its ledger entry, the
idempotency key of that entry, and its own id, which is the entry's id again.
The schema makes each of them unique.  The id names the agent and the time only,
and the key names the agent, the market and the time, so two settlements of one
agent at one time share an identifier whatever their markets and outcomes are.
-/

import VTrade.SettlementOutcome

namespace VTrade

/-- A text between two fixed ones, followed by a timestamp, is told by the text
and the printed time. -/
theorem between_isoformat_inj (front back : String) {text text' : String}
    {settlementTs settlementTs' : Datetime} :
    front ++ text ++ back ++ settlementTs.isoformat =
        front ++ text' ++ back ++ settlementTs'.isoformat ↔
      text = text' ∧ settlementTs.isoformat = settlementTs'.isoformat := by
  constructor
  · intro h
    obtain ⟨hbefore, hiso⟩ := Datetime.append_isoformat_inj h
    exact ⟨Text.between_injective front back hbefore, hiso⟩
  · rintro ⟨rfl, hiso⟩
    rw [hiso]

/-- The id of a settlement's entry is determined by the agent and the printed time. -/
theorem settlementLedgerId_inj {agent agent' : String} {settlementTs settlementTs' : Datetime} :
    settlementLedgerId agent settlementTs = settlementLedgerId agent' settlementTs' ↔
      agent = agent' ∧ settlementTs.isoformat = settlementTs'.isoformat :=
  between_isoformat_inj "ledger-settlement-" "-"

/-- The agent and the market as the idempotency key joins them. -/
def agentMarket (agentId : String) (marketRef : MarketKey) : String :=
  agentId ++ ":" ++ marketRef.canonical

theorem settlementIdempotencyKey_eq (agent : String) (marketRef : MarketKey)
    (settlementTs : Datetime) : settlementIdempotencyKey agent marketRef settlementTs =
      "settlement:" ++ agentMarket agent marketRef ++ ":" ++ settlementTs.isoformat := by
  rw [settlementIdempotencyKey, agentMarket,
    ← @String.append_assoc "settlement:" (agent ++ ":") marketRef.canonical,
    ← @String.append_assoc "settlement:" agent ":"]

theorem settlementIdempotencyKey_inj {agent agent' : String} {marketRef marketRef' : MarketKey}
    {settlementTs settlementTs' : Datetime} :
    settlementIdempotencyKey agent marketRef settlementTs =
        settlementIdempotencyKey agent' marketRef' settlementTs' ↔
      agentMarket agent marketRef = agentMarket agent' marketRef' ∧
        settlementTs.isoformat = settlementTs'.isoformat := by
  rw [settlementIdempotencyKey_eq, settlementIdempotencyKey_eq]
  exact between_isoformat_inj "settlement:" ":"

/-- A settlement that an engine produces: the call that books it, rather than one
that returns it again. -/
structure ProducedSettlement where
  engine : BinarySettlementEngine
  observation : ResolutionObservation
  position : ContractPosition
  portfolio : ContractPortfolio
  asOf : Datetime
  settledAt : Datetime
  settlementTs : Datetime
  updated : ContractPortfolio
  record : SettlementRecord
  reachable : engine.Reachable
  observed : observation.settlementTs = some settlementTs
  first : engine.stored (settlementKey portfolio.agentId position.marketRef settlementTs) = none
  settled : (engine.settle observation position portfolio asOf settledAt).2 =
    .ok (updated, record)

namespace ProducedSettlement

variable (settlement : ProducedSettlement)

/-- What one settlement differs from another one in. -/
def identity : String × MarketKey × OutcomeSide × Instant :=
  (settlement.portfolio.agentId, settlement.position.marketRef, settlement.position.outcome,
    settlement.settlementTs.instant)

theorem booked : ∃ result, SettlementBooked settlement.portfolio settlement.position result
    settlement.settlementTs settlement.observation.snapshotId settlement.settledAt
    settlement.updated settlement.record := by
  have hsettled := settlement.settled
  generalize hcall : settlement.engine.settle settlement.observation settlement.position
    settlement.portfolio settlement.asOf settlement.settledAt = call at hsettled
  obtain ⟨next, outcome⟩ := call
  obtain rfl : outcome = .ok (settlement.updated, settlement.record) := hsettled
  obtain ⟨result, settlementTs, -, hobserved, -, -, ⟨hstored, -⟩ | ⟨-, hbooked, -⟩⟩ :=
    settlement.engine.settle_spec hcall
  · obtain rfl := Option.some.inj (hobserved.symm.trans settlement.observed)
    rw [settlement.first] at hstored
    cases hstored
  · obtain rfl := Option.some.inj (hobserved.symm.trans settlement.observed)
    exact ⟨result, bookSettlement_spec hbooked⟩

theorem entry_id : settlement.record.ledgerEntry.id =
    settlementLedgerId settlement.portfolio.agentId settlement.settlementTs :=
  settlement.booked.elim fun _ h => h.entry_id

theorem entry_key : settlement.record.ledgerEntry.idempotencyKey =
    settlementIdempotencyKey settlement.portfolio.agentId settlement.position.marketRef
      settlement.settlementTs :=
  settlement.booked.elim fun _ h => h.entry_key

theorem settlementId_eq : settlement.record.settlementId =
    settlementLedgerId settlement.portfolio.agentId settlement.settlementTs :=
  settlement.booked.elim fun _ h => by rw [h.record_eq]

end ProducedSettlement

/-- What an engine remembers is the record of a settlement it produced. -/
theorem BinarySettlementEngine.Reachable.stored_produced {engine : BinarySettlementEngine}
    (h : engine.Reachable) {key : SettlementKey} {portfolio : ContractPortfolio}
    {record : SettlementRecord} (hstored : engine.stored key = some (portfolio, record)) :
    ∃ settlement : ProducedSettlement, settlement.record = record := by
  induction h generalizing key portfolio record with
  | empty => cases hstored
  | @settle engine hengine observation position before asOf settledAt ih =>
      cases hcall : engine.settle observation position before asOf settledAt with
      | mk next outcome =>
          rw [hcall] at hstored
          cases outcome with
          | error error =>
              rw [engine.stored_of_settle_error hcall] at hstored
              exact ih hstored
          | ok settled =>
              obtain ⟨updated, settledRecord⟩ := settled
              obtain ⟨result, settlementTs, -, hts, -, -, ⟨-, rfl⟩ | ⟨hnone, hbooked, rfl⟩⟩ :=
                engine.settle_spec hcall
              · exact ih hstored
              · by_cases hkey : key = settlementKey before.agentId position.marketRef settlementTs
                · subst hkey
                  rw [BinarySettlementEngine.stored_remember_self] at hstored
                  cases hstored
                  exact ⟨⟨engine, observation, position, before, asOf, settledAt, settlementTs,
                    portfolio, record, hengine, hts, hnone, by rw [hcall]⟩, rfl⟩
                · rw [engine.stored_remember_of_ne hkey] at hstored
                  exact ih hstored

/-- Every record that a settlement returns is that of one the engine produced. -/
theorem BinarySettlementEngine.Reachable.settle_produced {engine : BinarySettlementEngine}
    (h : engine.Reachable) {observation : ResolutionObservation} {position : ContractPosition}
    {portfolio updated : ContractPortfolio} {asOf settledAt : Datetime} {record : SettlementRecord}
    (hsettled : (engine.settle observation position portfolio asOf settledAt).2 =
      .ok (updated, record)) :
    ∃ settlement : ProducedSettlement, settlement.record = record := by
  obtain ⟨result, settlementTs, -, hts, -, -, ⟨hstored, -⟩ | ⟨hnone, -, -⟩⟩ :=
    engine.settle_spec (Prod.ext rfl hsettled)
  · exact h.stored_produced hstored
  · exact ⟨⟨engine, observation, position, portfolio, asOf, settledAt, settlementTs, updated,
      record, h, hts, hnone, hsettled⟩, rfl⟩

/-- The printed settlement times differ, or the agents do, also joined with the
markets. -/
def ToldApart (first second : ProducedSettlement) : Prop :=
  first.settlementTs.isoformat ≠ second.settlementTs.isoformat ∨
    (first.portfolio.agentId ≠ second.portfolio.agentId ∧
      agentMarket first.portfolio.agentId first.position.marketRef ≠
        agentMarket second.portfolio.agentId second.position.marketRef)

private theorem not_and_not_and_iff {agent market time : Prop} :
    (¬ (agent ∧ time) ∧ ¬ (market ∧ time) ∧ ¬ (agent ∧ time)) ↔
      ¬ time ∨ (¬ agent ∧ ¬ market) := by
  tauto

namespace Sample

def otherMarket : MarketKey := ⟨"KXSNOW-26", by decide⟩

/-- A hundred units in each of two markets. -/
def twoMarkets : ContractPortfolio :=
  ⟨{ agentId := "agent", cashMicros := 1000000000,
     positions := [position market .yes 400000 yesCost_nonneg,
       position otherMarket .yes 400000 yesCost_nonneg] },
    by decide⟩

end Sample

end VTrade
