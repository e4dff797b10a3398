import VTrade.BrokerRuns
import VTrade.LedgerAcceptance
import VTrade.OrderAcceptance
import VTrade.Repository
import VTrade.Trading
import VTrade.FillRecording
import VTrade.OrderExecution
import VTrade.Reconciliation
import VTrade.SettlementRuns
import VTrade.ProductionExecution
import VTrade.Transitions
import VTrade.WorkerInvariant
import VTrade.WorkerSteps
import VTrade.WorkersOnce
import VTrade.Projection
import VTrade.ProjectionRuns
import VTrade.AutomaticReconciliation
import VTrade.FeeConservation
import VTrade.AuditedRuns
import VTrade.RejectionCodes
import VTrade.CanonicalForm
import VTrade.ReplayRepeats
import VTrade.MarketCapacity
import VTrade.ResolutionPersistence
import VTrade.CatalogueSelection
import VTrade.CycleExclusion
import VTrade.CycleRecovery
import VTrade.CycleSlots
import VTrade.FeePolicySelection
import VTrade.FillOrKill
import VTrade.PauseHistory
import VTrade.SettlementReports
import VTrade.ExaQuota
import VTrade.PurchaseLimits
import VTrade.HarnessShapes
import VTrade.HarnessTelemetry
import VTrade.MetricConsistency
import VTrade.CandleRange
import VTrade.LookAhead
import VTrade.ListingReading
import VTrade.PortfolioReading
import VTrade.ResultCompaction
import VTrade.Redaction
import VTrade.BudgetMismatch
import VTrade.RetentionMinimum
import VTrade.ClosingSales
import VTrade.HarnessExecutions
import VTrade.HarnessAgreement
import VTrade.RealizedResults
import VTrade.ModelGateway
import VTrade.ProviderRequests
import VTrade.ProviderSpending
import VTrade.PromptActivity
import VTrade.PromptAccount
import VTrade.AgentMemory
import VTrade.AgentBeliefs
import VTrade.PlanPrompts
