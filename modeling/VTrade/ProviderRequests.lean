/-
# Requests to the providers

A worker that calls a provider reserves what the call is estimated to cost, posts its request, and
reconciles the reservation once it has read the answer.  A request to OpenRouter that is refused
before it is served is posted again, at most twice.  A call may raise at every point, or its worker
may be gone; then its reservation stays pending.

Any number of workers call at once.  They meet in the tables of the guard only, and whatever the
providers answer, every request is posted under a reservation of its own call and the requests to
Exa under the reservations of a month stay within its quota.
-/

import VTrade.ExaQuota
import VTrade.BudgetMonths
import VTrade.ModelGateway

namespace VTrade

open Gateway

/-! ## Calls -/

/-- `EXA_MAX_SEARCH_COST_MICROS`. -/
def exaMaxSearchCostMicros : ℕ := 20000

/-- `TAVILY_MAX_SEARCH_COST_MICROS`. -/
def tavilyMaxSearchCostMicros : ℕ := 8000

/-- What is made of the answer of a search. -/
abbrev Normalizer := JsonObject → Except GatewayFailure Json

/-- What a worker asks of a provider. -/
inductive ProviderTask
  | completion (messages tools : List Json) (config : JsonObject)
  /-- `_request_exa`, for a search or a page. -/
  | exa (normalizer : Normalizer)
  | tavily (enabled : Bool) (normalizer : Normalizer)

/-- A call that is ready to be reserved. -/
inductive RunningCall
  | completion (prepared : PreparedCompletion)
  | exa (normalizer : Normalizer)
  | tavily (normalizer : Normalizer)

/-- What happens before the reservation. -/
def ProviderTask.prepare : ProviderTask → Except GatewayFailure RunningCall
  | .completion messages tools config =>
      (prepareCompletion messages tools config).map .completion
  | .exa normalizer => .ok (.exa normalizer)
  | .tavily enabled normalizer => if enabled then .ok (.tavily normalizer) else .error .disabled

/-- What a call does after a response: it posts again, it raises, or it reads the response. -/
inductive AfterResponse
  | again
  | raises
  | reads
  deriving DecidableEq

/-- What a call reconciles, and what it then returns or raises. -/
structure Settlement where
  billedCostMicros : ℕ
  nominalCostMicros : ℕ
  requestCount : ℕ
  creditCount : ℚ
  result : Except GatewayFailure GatewayTelemetry

namespace RunningCall

def provider : RunningCall → String
  | .completion _ => "openrouter"
  | .exa _ => "exa"
  | .tavily _ => "tavily"

/-- The estimate that is reserved. -/
def estimate : RunningCall → ℕ
  | .completion prepared => prepared.estimate
  | .exa _ => exaMaxSearchCostMicros
  | .tavily _ => tavilyMaxSearchCostMicros

/-- The requests that are reserved. -/
def requestCount : RunningCall → ℕ
  | .exa _ => 1
  | .completion _ | .tavily _ => 0

/-- The credits that are reserved. -/
def creditCount : RunningCall → ℚ
  | .exa _ => BudgetTables.exaMaxCreditsPerSearch
  | .completion _ | .tavily _ => 0

/-- Whether the call raises once it has reserved: its configuration names several models. -/
def isForbidden : RunningCall → Bool
  | .completion prepared => prepared.namesModels
  | .exa _ | .tavily _ => false

/-- The loop over the attempts of a completion; the other calls make one. -/
def after (call : RunningCall) (attempt : ℕ) (response : HttpResponse) : AfterResponse :=
  match call with
  | .completion _ =>
      if !response.isRefusal || attempt = 2 then .reads
      else
        match response.retryDelay attempt with
        | none => .reads
        | some none => .raises
        | some (some _) => .again
  | .exa _ | .tavily _ => .reads

/-- The telemetry of a search. -/
def searchTelemetry (provider : String) (credits : DecimalValue) (billed nominal : ℕ)
    (artifact : StoredArtifact) : GatewayTelemetry where
  provider := provider
  usageKind := "web_search"
  route := none
  requestCount := 1
  creditCount := credits
  promptTokens := 0
  completionTokens := 0
  reasoningTokens := 0
  cachedTokens := 0
  billedCostMicros := billed
  nominalCostMicros := nominal
  artifactUri := artifact.uri
  rawSha256 := artifact.sha256
  artifactByteLength := artifact.byteLength

/-- The artifact, if it has been stored. -/
def artifactOf (stored : Option StoredArtifact) : Except GatewayFailure StoredArtifact :=
  match stored with
  | none => .error .storage
  | some artifact => .ok artifact

/-- `complete`, after its loop.  A completion that is refused releases its reservation before it
raises. -/
def settleCompletion (micros : ℕ → JsonFloat) (prepared : PreparedCompletion)
    (response : HttpResponse) (stored : Option StoredArtifact) : Except GatewayFailure Settlement :=
  if response.isRefusal then .ok ⟨0, 0, 0, 0, .error (.status response.statusCode)⟩
  else do
    response.raiseForStatus
    let cost ← readCost micros prepared.payload.model response
    let telemetry ← completionTelemetry cost stored
    .ok ⟨cost.billed, cost.nominal, 0, 0, .ok telemetry⟩

/-- `_request_exa`, after its request. -/
def settleExa (normalizer : Normalizer) (response : HttpResponse)
    (stored : Option StoredArtifact) : Except GatewayFailure Settlement := do
  response.raiseForStatus
  let parsed ← response.jsonObject "Exa response"
  let _ ← normalizer parsed
  let cost ← object ((Json.get parsed "costDollars").getD (.object [])) "Exa costDollars"
  let _ ← dollarsToMicros ((Json.get cost "total").getD (.int 0))
  let credits ← nonnegativeDecimal ((Json.get parsed "requestCredits").getD (.int 1))
    "requestCredits"
  let artifact ← artifactOf stored
  .ok ⟨0, exaMaxSearchCostMicros, 1, credits,
    .ok (searchTelemetry "exa" (.finite credits) 0 exaMaxSearchCostMicros artifact)⟩

/-- `TavilyResearchProvider.search`, after its request. -/
def settleTavily (normalizer : Normalizer) (response : HttpResponse)
    (stored : Option StoredArtifact) : Except GatewayFailure Settlement := do
  response.raiseForStatus
  let parsed ← response.jsonObject "Tavily response"
  let _ ← normalizer parsed
  let usage ← object ((Json.get parsed "usage").getD (.object [])) "Tavily usage"
  match DecimalText.ofJson ((Json.get usage "credits").getD (.int 1)) with
  | none => .error .invalidOperation
  | some credits => do
      let artifact ← artifactOf stored
      .ok ⟨tavilyMaxSearchCostMicros, tavilyMaxSearchCostMicros, 0, 0,
        .ok (searchTelemetry "tavily" credits tavilyMaxSearchCostMicros
          tavilyMaxSearchCostMicros artifact)⟩

/-- What a call reads in the response that ends its loop. -/
def settle (micros : ℕ → JsonFloat) (response : HttpResponse) (stored : Option StoredArtifact) :
    RunningCall → Except GatewayFailure Settlement
  | .completion prepared => settleCompletion micros prepared response stored
  | .exa normalizer => settleExa normalizer response stored
  | .tavily normalizer => settleTavily normalizer response stored

end RunningCall

/-! ## Workers -/

/-- Where a worker is. -/
inductive CallStage
  | idle
  /-- Its next request is this attempt. -/
  | posting (call : RunningCall) (reservation : BudgetReservation) (attempt : ℕ)
  /-- It has left the loop with a response. -/
  | answered (call : RunningCall) (reservation : BudgetReservation) (response : HttpResponse)

namespace CallStage

/-- The call of a worker, with its reservation. -/
def running? : CallStage → Option (RunningCall × BudgetReservation)
  | idle => none
  | posting call reservation _ | answered call reservation _ => some (call, reservation)

end CallStage

/-- A request that has been posted, with what its provider charges for it, be it answered or
not. -/
structure SentRequest where
  reservation : BudgetReservation
  statusCode : Option ℕ
  costMicros : ℕ

/-- A request that has been refused before it was served. -/
def SentRequest.Refused (request : SentRequest) : Prop :=
  request.statusCode = some 429 ∨ request.statusCode = some 503

instance (request : SentRequest) : Decidable request.Refused := inferInstanceAs (Decidable (_ ∨ _))

/-- The guard, the workers, and every request that has been posted. -/
structure ProviderWorld where
  guard : PostgresBudgetGuard
  stages : ℕ → CallStage
  sent : List SentRequest

/-- What happens next. -/
inductive ProviderEvent
  /-- A worker that is idle prepares a call and reserves for it. -/
  | call (worker : ℕ) (task : ProviderTask) (clock : ℕ → Datetime)
  /-- A worker posts a request; the client may raise. -/
  | post (worker : ℕ) (reply : Option HttpResponse) (costMicros : ℕ)
  /-- A worker reads the response, stores its artifact and reconciles. -/
  | finish (worker : ℕ) (stored : Option StoredArtifact) (clock : ℕ → Datetime)
  /-- A worker is gone. -/
  | crash (worker : ℕ)

namespace ProviderWorld

/-- Nobody has called. -/
def start : ProviderWorld := ⟨.start, fun _ => .idle, []⟩

variable (terms : GuardTerms) (ids : RandomIds) (micros : ℕ → JsonFloat) (world : ProviderWorld)

/-- A worker moves on. -/
def move (worker : ℕ) (stage : CallStage) : ProviderWorld :=
  { world with stages := Function.update world.stages worker stage }

/-- The tables of the guard change. -/
def guarded (guard : PostgresBudgetGuard) : ProviderWorld := { world with guard := guard }

/-- A request has been posted. -/
def send (request : SentRequest) : ProviderWorld := { world with sent := world.sent ++ [request] }

/-- The requests under a reservation. -/
def under (id : String) : List SentRequest :=
  world.sent.filter fun request => request.reservation.id = id

/-- What a call returns or raises. -/
abbrev CallResult := Option (Except GatewayFailure GatewayTelemetry)

/-- Prepare a call and reserve for it. -/
def begin (worker : ℕ) (task : ProviderTask) (clock : ℕ → Datetime) :
    ProviderWorld × CallResult :=
  match task.prepare with
  | .error failure => (world, some (.error failure))
  | .ok call =>
      let (guard, answer) := world.guard.reserve terms ids clock call.provider call.estimate
        call.requestCount (.finite call.creditCount)
      match answer with
      | .error failure => (world.guarded guard, some (.error (.budget failure)))
      | .ok reservation =>
          if call.isForbidden then
            (world.guarded guard,
              some (.error (.configuration "models[] cross-model fallback is forbidden")))
          else ((world.guarded guard).move worker (.posting call reservation 0), none)

/-- Post a request. -/
def post (worker : ℕ) (call : RunningCall) (reservation : BudgetReservation) (attempt : ℕ)
    (reply : Option HttpResponse) (costMicros : ℕ) : ProviderWorld × CallResult :=
  let sent := world.send ⟨reservation, reply.map HttpResponse.statusCode, costMicros⟩
  match reply with
  | none => (sent.move worker .idle, some (.error .transport))
  | some response =>
      match call.after attempt response with
      | .again => (sent.move worker (.posting call reservation (attempt + 1)), none)
      | .raises => (sent.move worker .idle, some (.error .notASleep))
      | .reads => (sent.move worker (.answered call reservation response), none)

/-- Read the response that has ended the loop. -/
def finish (worker : ℕ) (call : RunningCall) (reservation : BudgetReservation)
    (response : HttpResponse) (stored : Option StoredArtifact) (clock : ℕ → Datetime) :
    ProviderWorld × CallResult :=
  match call.settle micros response stored with
  | .error failure => (world.move worker .idle, some (.error failure))
  | .ok settlement =>
      let (guard, answer) := world.guard.reconcile terms clock reservation
        settlement.billedCostMicros settlement.nominalCostMicros settlement.requestCount
        (.finite settlement.creditCount)
      ((world.guarded guard).move worker .idle, some (match answer with
        | .error failure => .error (.budget failure)
        | .ok () => settlement.result))

/-- One step.  A worker does only what it is about to do. -/
def step : ProviderEvent → ProviderWorld × CallResult
  | .call worker task clock =>
      match world.stages worker with
      | .idle => world.begin terms ids worker task clock
      | .posting _ _ _ | .answered _ _ _ => (world, none)
  | .post worker reply costMicros =>
      match world.stages worker with
      | .posting call reservation attempt =>
          world.post worker call reservation attempt reply costMicros
      | .idle | .answered _ _ _ => (world, none)
  | .finish worker stored clock =>
      match world.stages worker with
      | .answered call reservation response =>
          world.finish terms micros worker call reservation response stored clock
      | .idle | .posting _ _ _ => (world, none)
  | .crash worker => (world.move worker .idle, none)

/-- The requests that have been posted under the searches of a month. -/
def exaRequestsIn (month : Month) : ℕ :=
  ((world.guard.tables.exaReservations.filter fun row => row.monthStart = month).map fun row =>
    (world.under row.id).length).sum

end ProviderWorld

/-! ## What a reservation books -/

namespace PostgresBudgetGuard

variable {terms : GuardTerms} {ids : RandomIds} {clock : ℕ → Datetime}
  {guard after : PostgresBudgetGuard} {reservation : BudgetReservation}

/-- A reservation is one of the steps, and keeps the tables coherent. -/
theorem Coherent.stepped_reserve (h : guard.Coherent ids) {provider : String}
    {estimate requests : ℤ} {credits : DecimalValue}
    {answer : Except BudgetFailure BudgetReservation}
    (hmade : guard.reserve terms ids clock provider estimate requests credits =
      (after, answer)) :
    Stepped ids guard clock (.reserve provider estimate requests credits) after
        (answer.map some) ∧
      after.Coherent ids := by
  obtain rfl : (guard.reserve terms ids clock provider estimate requests credits).1 = after :=
    congrArg Prod.fst hmade
  obtain rfl : (guard.reserve terms ids clock provider estimate requests credits).2 = answer :=
    congrArg Prod.snd hmade
  exact h.reserve provider estimate requests credits

theorem Coherent.reserve_eq_ok (h : guard.Coherent ids) {provider : String}
    {estimate requests : ℤ} {credits : DecimalValue}
    (hok : guard.reserve terms ids clock provider estimate requests credits =
      (after, .ok reservation)) :
    reservation = ⟨ids.hex guard.drawn, estimate, provider, requests, credits⟩ ∧
      guard.tables.booking? reservation.id = none ∧
      (∃ month, ∀ id, after.tables.booking? id =
        if id = reservation.id then some (reservation.booking month)
        else guard.tables.booking? id) ∧
      after.Coherent ids := by
  obtain ⟨hstep, hcoherent⟩ := h.stepped_reserve hok
  cases hstep with
  | granted _ _ _ _ month tables hclock hbookings hspent =>
      exact ⟨rfl, h.booking?_fresh, ⟨month, hbookings⟩, hcoherent⟩

theorem Coherent.reserve_eq_error (h : guard.Coherent ids) {provider : String}
    {estimate requests : ℤ} {credits : DecimalValue} {failure : BudgetFailure}
    (hfailed : guard.reserve terms ids clock provider estimate requests credits =
      (after, .error failure)) :
    (∀ id, after.tables.booking? id = guard.tables.booking? id) ∧ after.Coherent ids := by
  obtain ⟨hstep, hcoherent⟩ := h.stepped_reserve hfailed
  cases hstep with
  | raised _ drawn _ hdrawn hfailure => exact ⟨fun _ => rfl, hcoherent⟩

/-- A reconciliation changes at most the status of its own reservation. -/
theorem Coherent.reconcile_bookings (h : guard.Coherent ids) {billed nominal requests : ℤ}
    {credits : DecimalValue} {answer : Except BudgetFailure Unit}
    (hmade : guard.reconcile terms clock reservation billed nominal requests credits =
      (after, answer)) :
    (∀ id, id ≠ reservation.id → after.tables.booking? id = guard.tables.booking? id) ∧
      (∀ booking, guard.tables.booking? reservation.id = some booking →
        ∃ kept, after.tables.booking? reservation.id = some kept ∧ kept.exa = booking.exa) ∧
      after.Coherent ids := by
  obtain ⟨hstep, hcoherent⟩ : Stepped ids guard clock _
      (guard.reconcile terms clock reservation billed nominal requests credits).1 _ ∧ _ :=
    h.reconcile
  rw [hmade] at hstep hcoherent
  generalize hcall : BudgetCall.reconcile reservation billed nominal requests credits = call
    at hstep
  generalize Except.map (fun _ => (none : Option BudgetReservation)) answer = answered at hstep
  dsimp only at hstep hcoherent
  cases hstep with
  | raised _ drawn failure hdrawn hfailure =>
      exact ⟨fun _ _ => rfl, fun booking hbooking => ⟨booking, hbooking, rfl⟩, hcoherent⟩
  | granted _ _ _ _ month tables hclock hbookings hspent => cases hcall
  | reconciled _ _ _ _ _ booking tables _ hclock hbooking hstatus hbookings hspent hanswer =>
      cases hcall
      refine ⟨fun id hid => (hbookings id).trans (if_neg hid), ?_, hcoherent⟩
      intro found hfound
      rw [hbooking] at hfound
      cases hfound
      exact ⟨_, (hbookings _).trans (if_pos rfl), rfl⟩

end PostgresBudgetGuard

/-! ## Under its own reservation -/

theorem RunningCall.after_eq_again {call : RunningCall} {attempt : ℕ} {response : HttpResponse}
    (h : call.after attempt response = .again) :
    call.provider = "openrouter" ∧ attempt ≠ 2 ∧
      (response.statusCode = 429 ∨ response.statusCode = 503) := by
  cases call with
  | completion prepared =>
      unfold RunningCall.after at h
      dsimp only at h
      split at h
      · cases h
      next hretries =>
        rw [Bool.or_eq_true, not_or, Bool.not_eq_true', Bool.not_eq_false,
          decide_eq_true_eq, HttpResponse.isRefusal, Bool.or_eq_true, decide_eq_true_eq,
          decide_eq_true_eq] at hretries
        exact ⟨rfl, hretries.2, hretries.1⟩
  | exa normalizer => cases h
  | tavily normalizer => cases h

namespace ProviderWorld

variable {terms : GuardTerms} {ids : RandomIds} {micros : ℕ → JsonFloat} {world : ProviderWorld}

/-- A request that its provider has refused, and that is posted again. -/
def Repeated (request : SentRequest) : Prop :=
  request.Refused ∧ request.reservation.provider = "openrouter"

/-- Every request is posted under a reservation of the tables, every call has one of its own, and
only what is refused is posted again. -/
structure Sound (ids : RandomIds) (world : ProviderWorld) : Prop where
  coherent : world.guard.Coherent ids
  booked : ∀ request ∈ world.sent, ∃ booking,
    world.guard.tables.booking? request.reservation.id = some booking ∧
      booking.exa = decide (request.reservation.provider = "exa")
  running : ∀ worker call reservation,
    (world.stages worker).running? = some (call, reservation) →
      reservation.provider = call.provider ∧ ∃ month,
        world.guard.tables.booking? reservation.id = some (reservation.booking month)
  posting : ∀ worker call reservation attempt,
    world.stages worker = .posting call reservation attempt →
      attempt ≤ 2 ∧ (world.under reservation.id).length = attempt ∧
        ∀ request ∈ world.under reservation.id, Repeated request
  apart : ∀ worker other call reservation call' reservation',
    (world.stages worker).running? = some (call, reservation) →
      (world.stages other).running? = some (call', reservation') →
        reservation.id = reservation'.id → worker = other
  orderly : ∀ id, (world.under id).length ≤ 3 ∧
    ∀ request ∈ (world.under id).dropLast, Repeated request

theorem start_sound : Sound ids start where
  coherent := PostgresBudgetGuard.start_coherent
  booked request hrequest := by cases hrequest
  running worker call reservation h := by cases h
  posting worker call reservation attempt h := by cases h
  apart worker other call reservation call' reservation' h := by cases h
  orderly id := ⟨Nat.zero_le _, fun request hrequest => by cases hrequest⟩

theorem stages_move_self (worker : ℕ) (stage : CallStage) :
    (world.move worker stage).stages worker = stage := by
  unfold move
  exact Function.update_self worker stage world.stages

theorem stages_move_of_ne {worker other : ℕ} (h : other ≠ worker) (stage : CallStage) :
    (world.move worker stage).stages other = world.stages other := by
  unfold move
  exact Function.update_of_ne h stage world.stages

theorem under_move (worker : ℕ) (stage : CallStage) (id : String) :
    (world.move worker stage).under id = world.under id := rfl

theorem under_send (request : SentRequest) (id : String) :
    (world.send request).under id =
      if request.reservation.id = id then world.under id ++ [request] else world.under id := by
  unfold send under
  rw [List.filter_append, List.filter_singleton]
  by_cases hid : request.reservation.id = id
  · rw [if_pos hid, decide_eq_true hid, cond_true]
  · rw [if_neg hid, decide_eq_false hid, cond_false, List.append_nil]

/-- A worker that is done, or gone. -/
theorem Sound.idled (h : world.Sound ids) (worker : ℕ) : (world.move worker .idle).Sound ids := by
  have hstage {other : ℕ} {stage : CallStage} (hne : stage ≠ .idle)
      (hother : (world.move worker .idle).stages other = stage) :
      world.stages other = stage := by
    by_cases hworker : other = worker
    · subst hworker
      rw [stages_move_self] at hother
      exact absurd hother.symm hne
    · rw [stages_move_of_ne hworker] at hother
      exact hother
  have hrunning {other : ℕ} {running : RunningCall × BudgetReservation}
      (hother : ((world.move worker .idle).stages other).running? = some running) :
      (world.stages other).running? = some running := by
    rw [hstage _ rfl]
    · exact hother
    · intro hidle
      rw [hidle] at hother
      cases hother
  refine ⟨h.coherent, h.booked, ?_, ?_, ?_, h.orderly⟩
  · exact fun other call reservation hother => h.running other call reservation (hrunning hother)
  · intro other call reservation attempt hother
    exact h.posting other call reservation attempt (hstage (by simp) hother)
  · intro first second call reservation call' reservation' hfirst hsecond
    exact h.apart _ _ _ _ _ _ (hrunning hfirst) (hrunning hsecond)

/-- The tables change, but for what the calls that are running have booked. -/
theorem Sound.guarded (h : world.Sound ids) {guard : PostgresBudgetGuard}
    (hcoherent : guard.Coherent ids)
    (hkept : ∀ id booking, world.guard.tables.booking? id = some booking →
      ∃ kept, guard.tables.booking? id = some kept ∧ kept.exa = booking.exa)
    (hrunning : ∀ worker call reservation,
      (world.stages worker).running? = some (call, reservation) →
        guard.tables.booking? reservation.id = world.guard.tables.booking? reservation.id) :
    (world.guarded guard).Sound ids where
  coherent := hcoherent
  booked request hrequest := by
    obtain ⟨booking, hbooking, hexa⟩ := h.booked request hrequest
    obtain ⟨kept, hfound, hsame⟩ := hkept _ booking hbooking
    exact ⟨kept, hfound, hsame.trans hexa⟩
  running worker call reservation hworker := by
    obtain ⟨hprovider, month, hbooking⟩ := h.running worker call reservation hworker
    exact ⟨hprovider, month, (hrunning worker call reservation hworker).trans hbooking⟩
  posting := h.posting
  apart := h.apart
  orderly := h.orderly

/-- A call that has reserved. -/
theorem Sound.called (h : world.Sound ids) {worker : ℕ} {call : RunningCall}
    {reservation : BudgetReservation} (hprovider : reservation.provider = call.provider)
    (hbooked : ∃ month,
      world.guard.tables.booking? reservation.id = some (reservation.booking month))
    (hunder : world.under reservation.id = [])
    (hfresh : ∀ other call' reservation',
      (world.stages other).running? = some (call', reservation') →
        reservation'.id ≠ reservation.id) :
    (world.move worker (.posting call reservation 0)).Sound ids := by
  refine ⟨h.coherent, h.booked, ?_, ?_, ?_, h.orderly⟩
  · intro other call' reservation' hother
    by_cases hworker : other = worker
    · subst hworker
      rw [stages_move_self] at hother
      cases hother
      exact ⟨hprovider, hbooked⟩
    · rw [stages_move_of_ne hworker] at hother
      exact h.running other call' reservation' hother
  · intro other call' reservation' attempt hother
    by_cases hworker : other = worker
    · subst hworker
      rw [stages_move_self] at hother
      cases hother
      rw [under_move, hunder]
      exact ⟨Nat.zero_le _, rfl, fun request hrequest => by cases hrequest⟩
    · rw [stages_move_of_ne hworker] at hother
      exact h.posting other call' reservation' attempt hother
  · intro first second call₁ reservation₁ call₂ reservation₂ hfirst hsecond hid
    by_cases hone : first = worker
    · by_cases htwo : second = worker
      · rw [hone, htwo]
      · subst hone
        rw [stages_move_self] at hfirst
        rw [stages_move_of_ne htwo] at hsecond
        cases hfirst
        exact absurd hid.symm (hfresh second call₂ reservation₂ hsecond)
    · rw [stages_move_of_ne hone] at hfirst
      by_cases htwo : second = worker
      · subst htwo
        rw [stages_move_self] at hsecond
        cases hsecond
        exact absurd hid (hfresh first call₁ reservation₁ hfirst)
      · rw [stages_move_of_ne htwo] at hsecond
        exact h.apart first second call₁ reservation₁ call₂ reservation₂ hfirst hsecond hid

/-- A request that has been posted.  Its worker goes on with the same call, or is done. -/
theorem Sound.posted (h : world.Sound ids) {worker : ℕ} {call : RunningCall}
    {reservation : BudgetReservation} {attempt : ℕ}
    (hstage : world.stages worker = .posting call reservation attempt)
    (statusCode : Option ℕ) (costMicros : ℕ) {stage : CallStage}
    (hrunning : ∀ running, stage.running? = some running → running = (call, reservation))
    (hposting : ∀ call' reservation' attempt', stage = .posting call' reservation' attempt' →
      attempt' = attempt + 1 ∧ attempt ≠ 2 ∧
        Repeated ⟨reservation, statusCode, costMicros⟩) :
    ((world.send ⟨reservation, statusCode, costMicros⟩).move worker stage).Sound ids := by
  obtain ⟨hattempt, hlength, hrepeated⟩ := h.posting worker call reservation attempt hstage
  have hcalled : (world.stages worker).running? = some (call, reservation) := by
    rw [hstage]
    rfl
  obtain ⟨hprovider, month, hbooking⟩ := h.running worker call reservation hcalled
  have hstep (other : ℕ) (call' : RunningCall) (reservation' : BudgetReservation)
      (hother : (((world.send ⟨reservation, statusCode, costMicros⟩).move worker
        stage).stages other).running? = some (call', reservation')) :
      (world.stages other).running? = some (call', reservation') := by
    by_cases hworker : other = worker
    · subst hworker
      rw [stages_move_self] at hother
      rw [hrunning _ hother]
      exact hcalled
    · rw [stages_move_of_ne hworker] at hother
      exact hother
  refine ⟨h.coherent, ?_, ?_, ?_, ?_, ?_⟩
  · intro request hrequest
    rcases List.mem_append.mp hrequest with hrequest | hrequest
    · exact h.booked request hrequest
    · rw [List.mem_singleton.mp hrequest]
      exact ⟨_, hbooking, rfl⟩
  · exact fun other call' reservation' hother =>
      h.running other call' reservation' (hstep other call' reservation' hother)
  · intro other call' reservation' attempt' hother
    rw [under_move, under_send]
    by_cases hworker : other = worker
    · subst hworker
      rw [stages_move_self] at hother
      obtain ⟨rfl, htwo, hrefused⟩ := hposting call' reservation' attempt' hother
      have hsame : (call', reservation') = (call, reservation) :=
        hrunning _ (by rw [hother]; rfl)
      cases hsame
      rw [if_pos rfl, List.length_append, hlength]
      refine ⟨by omega, rfl, fun request hrequest => ?_⟩
      rcases List.mem_append.mp hrequest with hrequest | hrequest
      · exact hrepeated request hrequest
      · rw [List.mem_singleton.mp hrequest]
        exact hrefused
    · rw [stages_move_of_ne hworker] at hother
      have hother' : world.stages other = .posting call' reservation' attempt' := hother
      have hne : ¬ reservation.id = reservation'.id := by
        intro hid
        refine hworker (h.apart other worker call' reservation' call reservation ?_ hcalled
          hid.symm)
        rw [hother']
        rfl
      rw [if_neg hne]
      exact h.posting other call' reservation' attempt' hother'
  · intro first second call₁ reservation₁ call₂ reservation₂ hfirst hsecond
    exact h.apart first second call₁ reservation₁ call₂ reservation₂
      (hstep first call₁ reservation₁ hfirst) (hstep second call₂ reservation₂ hsecond)
  · intro id
    rw [under_move, under_send]
    split
    next hid =>
      subst hid
      rw [List.length_append, hlength, List.dropLast_concat]
      exact ⟨by rw [List.length_singleton]; omega, hrepeated⟩
    next hid => exact h.orderly id

section steps

variable (terms ids micros)

theorem Sound.begin (h : world.Sound ids) (worker : ℕ) (task : ProviderTask)
    (clock : ℕ → Datetime) : (world.begin terms ids worker task clock).1.Sound ids := by
  unfold ProviderWorld.begin
  split
  · exact h
  next call hprepared =>
    generalize hreserve : world.guard.reserve terms ids clock call.provider call.estimate
      call.requestCount (.finite call.creditCount) = result
    obtain ⟨guard, answer⟩ := result
    dsimp only
    cases answer with
    | error failure =>
        obtain ⟨hbookings, hcoherent⟩ := h.coherent.reserve_eq_error hreserve
        refine h.guarded hcoherent (fun id booking hbooking => ?_) fun _ _ _ _ => hbookings _
        exact ⟨booking, (hbookings id).trans hbooking, rfl⟩
    | ok reservation =>
        obtain ⟨hmade, hnone, ⟨month, hbookings⟩, hcoherent⟩ := h.coherent.reserve_eq_ok hreserve
        have hfresh {id : String} {booking : Booking}
            (hbooking : world.guard.tables.booking? id = some booking) :
            ¬ id = reservation.id := by
          rintro rfl
          rw [hnone] at hbooking
          cases hbooking
        have hreserved : (world.guarded guard).Sound ids := by
          refine h.guarded hcoherent (fun id booking hbooking => ?_) fun other call' running hother => ?_
          · exact ⟨booking, ((hbookings id).trans (if_neg (hfresh hbooking))).trans hbooking, rfl⟩
          · obtain ⟨-, _, hbooking⟩ := h.running other call' running hother
            exact (hbookings _).trans (if_neg (hfresh hbooking))
        dsimp only
        split
        · exact hreserved
        · refine hreserved.called ?_ ⟨month, (hbookings _).trans (if_pos rfl)⟩ ?_ ?_
          · rw [hmade]
          · refine List.filter_eq_nil_iff.mpr fun request hrequest hid => ?_
            obtain ⟨booking, hbooking, -⟩ := h.booked request hrequest
            exact hfresh hbooking (of_decide_eq_true hid)
          · intro other call' running hother
            obtain ⟨-, _, hbooking⟩ := h.running other call' running hother
            exact hfresh hbooking

theorem Sound.post (h : world.Sound ids) {worker : ℕ} {call : RunningCall}
    {reservation : BudgetReservation} {attempt : ℕ}
    (hstage : world.stages worker = .posting call reservation attempt)
    (reply : Option HttpResponse) (costMicros : ℕ) :
    (world.post worker call reservation attempt reply costMicros).1.Sound ids := by
  have hprovider : reservation.provider = call.provider :=
    (h.running worker call reservation (by rw [hstage]; rfl)).1
  unfold ProviderWorld.post
  dsimp only
  split
  · exact h.posted hstage _ _ (fun _ hrunning => by cases hrunning) fun _ _ _ hpost => by
      cases hpost
  next response =>
    split
    next hafter =>
      obtain ⟨hopenrouter, htwo, hrefused⟩ := RunningCall.after_eq_again hafter
      refine h.posted hstage _ _ (fun _ hrunning => (Option.some.inj hrunning).symm) ?_
      intro call' reservation' attempt' hpost
      cases hpost
      refine ⟨rfl, htwo, ?_, hprovider.trans hopenrouter⟩
      rcases hrefused with hcode | hcode
      · exact .inl (congrArg some hcode)
      · exact .inr (congrArg some hcode)
    · exact h.posted hstage _ _ (fun _ hrunning => by cases hrunning) fun _ _ _ hpost => by
        cases hpost
    · exact h.posted hstage _ _ (fun _ hrunning => (Option.some.inj hrunning).symm)
        fun _ _ _ hpost => by cases hpost

theorem Sound.finish (h : world.Sound ids) {worker : ℕ} {call : RunningCall}
    {reservation : BudgetReservation} {response : HttpResponse}
    (hstage : world.stages worker = .answered call reservation response)
    (stored : Option StoredArtifact) (clock : ℕ → Datetime) :
    (world.finish terms micros worker call reservation response stored clock).1.Sound ids := by
  unfold ProviderWorld.finish
  split
  · exact h.idled worker
  next settlement hsettled =>
    generalize hmade : world.guard.reconcile terms clock reservation
      settlement.billedCostMicros settlement.nominalCostMicros settlement.requestCount
      (.finite settlement.creditCount) = result
    obtain ⟨guard, answer⟩ := result
    obtain ⟨hothers, hown, hcoherent⟩ := h.coherent.reconcile_bookings hmade
    dsimp only
    refine (h.idled worker).guarded hcoherent (fun id booking hbooking => ?_) ?_
    · by_cases hid : id = reservation.id
      · subst hid
        exact hown booking hbooking
      · exact ⟨booking, (hothers id hid).trans hbooking, rfl⟩
    · intro other call' running hother
      by_cases hworker : other = worker
      · subst hworker
        rw [stages_move_self] at hother
        cases hother
      · rw [stages_move_of_ne hworker] at hother
        refine hothers _ fun hid => hworker ?_
        exact h.apart other worker call' running call reservation hother
          (by rw [hstage]; rfl) hid

theorem Sound.step (h : world.Sound ids) (event : ProviderEvent) :
    (world.step terms ids micros event).1.Sound ids := by
  cases event with
  | call worker task clock =>
      unfold ProviderWorld.step
      dsimp only
      cases hstage : world.stages worker with
      | idle => exact h.begin terms ids worker task clock
      | posting _ _ _ => exact h
      | answered _ _ _ => exact h
  | post worker reply costMicros =>
      unfold ProviderWorld.step
      dsimp only
      cases hstage : world.stages worker with
      | idle => exact h
      | posting call reservation attempt => exact h.post ids hstage reply costMicros
      | answered _ _ _ => exact h
  | finish worker stored clock =>
      unfold ProviderWorld.step
      dsimp only
      cases hstage : world.stages worker with
      | idle => exact h
      | posting _ _ _ => exact h
      | answered call reservation response =>
          exact h.finish terms ids micros hstage stored clock
  | crash worker => exact h.idled worker

theorem sound_run (events : List ProviderEvent) :
    (Runs.final (step terms ids micros) start events).Sound ids :=
  Runs.final_invariant (ProviderWorld.step terms ids micros) (fun _ world => world.Sound ids)
    start_sound (fun _ _ event h => h.step terms ids micros event) events

end steps

end ProviderWorld

/-! ## Within the quota of Exa -/

namespace BudgetTables

/-- The searches that have been reserved in a month, pending or not. -/
def exaSearchesIn (tables : BudgetTables) (month : Month) : ℤ :=
  (tables.exaReservations.map fun row => if row.monthStart = month then 1 else 0).sum

/-- What writing a search does to their number. -/
theorem exaSearchesIn_replaced {tables after : BudgetTables}
    (unique : (tables.exaReservations.map ExaQuotaReservation.id).Nodup)
    (row : ExaQuotaReservation)
    (h : after.exaReservations = KeyedList.upsert ExaQuotaReservation.id row tables.exaReservations)
    (month : Month) :
    after.exaSearchesIn month +
      (KeyedList.lookup ExaQuotaReservation.id row.id tables.exaReservations).elim 0
        (fun old => if old.monthStart = month then 1 else 0) =
      tables.exaSearchesIn month + if row.monthStart = month then 1 else 0 := by
  unfold exaSearchesIn
  rw [h]
  exact KeyedList.sum_replace unique (KeyedList.upsert_perm unique row)
    (fun old => if old.monthStart = month then (1 : ℤ) else 0)

end BudgetTables

namespace PostgresBudgetGuard

variable {ids : RandomIds} {guard : PostgresBudgetGuard} {tables : BudgetTables} {month : Month}

/-- The searches of a month are those that are recorded and those that are pending, and they stay
within its quota. -/
structure Searching (guard : PostgresBudgetGuard) : Prop where
  unique : (guard.tables.exaReservations.map ExaQuotaReservation.id).Nodup
  single : ∀ row ∈ guard.tables.exaReservations, row.reservedRequestCount = 1
  counted : ∀ month, guard.tables.exaSearchesIn month =
    (guard.tables.exaRecorded month).1 + (guard.tables.pendingExa month).1
  within : ∀ month, guard.tables.exaSearchesIn month ≤ 18000

theorem start_searching : start.Searching where
  unique := List.nodup_nil
  single row hrow := by cases hrow
  counted _ := rfl
  within _ := by
    change (0 : ℤ) ≤ 18000
    norm_num

theorem Searching.kept (h : guard.Searching) (hquotas : tables.exaQuotas = guard.tables.exaQuotas)
    (hreservations : tables.exaReservations = guard.tables.exaReservations) (drawn : ℕ) :
    Searching ⟨tables, drawn⟩ := by
  have hsearches (month : Month) :
      tables.exaSearchesIn month = guard.tables.exaSearchesIn month := by
    unfold BudgetTables.exaSearchesIn
    rw [hreservations]
  refine ⟨?_, ?_, fun month => ?_, fun month => ?_⟩
  · rw [hreservations]
    exact h.unique
  · rw [hreservations]
    exact h.single
  · rw [hsearches, BudgetTables.exaRecorded_congr hquotas,
      BudgetTables.pendingExa_congr hreservations]
    exact h.counted month
  · rw [hsearches]
    exact h.within month

theorem Searching.reserved (h : guard.Searching) (hcoherent : guard.Coherent ids)
    {reservation : BudgetReservation} (hid : reservation.id = ids.hex guard.drawn)
    (hreserved : guard.tables.reserveExa reservation month = .ok tables) (drawn : ℕ) :
    Searching ⟨tables, drawn⟩ := by
  obtain ⟨hroom, -, hrecorded, -⟩ := BudgetTables.reserveExa_within hreserved
  obtain ⟨-, -, hgranted⟩ := BudgetTables.reserveExa_eq_ok hreserved
  have hpending (other : Month) := BudgetTables.pendingExa_replaced h.unique _
    hgranted.exaReservations other
  have hsearches (other : Month) := BudgetTables.exaSearchesIn_replaced h.unique _
    hgranted.exaReservations other
  dsimp only at hpending hsearches
  rw [hid, hcoherent.fresh] at hpending hsearches
  have hcounted (other : Month) : tables.exaSearchesIn other =
      (tables.exaRecorded other).1 + (tables.pendingExa other).1 := by
    have hbefore := h.counted other
    have hmore := congrArg Prod.fst (hpending other)
    have hrows := hsearches other
    rw [Option.elim_none, add_zero] at hmore hrows
    rw [hrecorded other, hrows, hbefore, hmore, Prod.fst_add, BudgetTables.pendingSearch]
    by_cases hmonth : month = other
    · rw [if_pos hmonth, if_pos ⟨hmonth, rfl⟩, add_assoc]
    · rw [if_neg hmonth, if_neg fun hsame => hmonth hsame.1, Prod.fst_zero, add_assoc]
  refine ⟨?_, ?_, hcounted, fun other => ?_⟩
  · dsimp only
    rw [hgranted.exaReservations]
    exact KeyedList.nodup_upsert h.unique _
  · intro row hrow
    dsimp only at hrow
    rw [hgranted.exaReservations] at hrow
    rcases KeyedList.mem_upsert hrow with rfl | hrow
    · rfl
    · exact h.single row hrow
  · have hrows := hsearches other
    have hbefore := h.within other
    have hcount := h.counted other
    rw [Option.elim_none, add_zero] at hrows
    dsimp only
    by_cases hmonth : month = other
    · subst hmonth
      rw [if_pos rfl] at hrows
      omega
    · rw [if_neg hmonth] at hrows
      omega

theorem Searching.reconciled (h : guard.Searching) {reservation : BudgetReservation}
    {billed nominal requests : ℤ} {credits : ℚ} {halted : Bool}
    (hreconciled : guard.tables.reconcileExa reservation month billed nominal requests credits =
      .ok (tables, halted)) (drawn : ℕ) : Searching ⟨tables, drawn⟩ := by
  obtain ⟨rfl, row, quota, updated, hrow, hstatus, -, hquota, hupdated, hcount, -, -, hwritten⟩ :=
    BudgetTables.reconcileExa_records hreconciled
  obtain ⟨hlookup, hmonth⟩ := BudgetTables.exaReservation?_eq_some.mp hrow
  have hid := KeyedList.key_of_lookup_eq_some hlookup
  have hsingle := h.single row (KeyedList.mem_of_lookup_eq_some hlookup)
  have hpending (other : Month) := BudgetTables.pendingExa_replaced h.unique _
    hwritten.exaReservations other
  have hsearches (other : Month) := BudgetTables.exaSearchesIn_replaced h.unique _
    hwritten.exaReservations other
  dsimp only at hsearches
  rw [hid, hlookup] at hsearches
  have hrows (other : Month) : tables.exaSearchesIn other = guard.tables.exaSearchesIn other := by
    have hsame := hsearches other
    rw [Option.elim_some] at hsame
    exact add_right_cancel hsame
  refine ⟨?_, ?_, fun other => ?_, fun other => ?_⟩
  · dsimp only
    rw [hwritten.exaReservations]
    exact KeyedList.nodup_upsert h.unique _
  · intro other hother
    dsimp only at hother
    rw [hwritten.exaReservations] at hother
    rcases KeyedList.mem_upsert hother with rfl | hother
    · exact hsingle
    · exact h.single other hother
  · have hbefore := h.counted other
    have hgone (actual : Option ℤ) (used : Option ℚ) (cost : Option ℤ) :
        BudgetTables.pendingSearch other { row with
          status := .reconciled
          actualRequestCount := actual
          actualCreditCount := used
          billedCostMicros := cost } = 0 :=
      if_neg fun hsame => by cases hsame.2
    have hkept := hpending other
    rw [hgone] at hkept
    dsimp only at hkept ⊢
    rw [hid, hlookup, Option.elim_some, BudgetTables.pendingSearch, hmonth, hsingle,
      add_zero] at hkept
    rw [hrows]
    by_cases hother : month = other
    · subst hother
      rw [if_pos ⟨rfl, hstatus⟩] at hkept
      rw [BudgetTables.exaRecorded_eq hquota, ← hkept] at hbefore
      rw [BudgetTables.exaRecorded_eq hupdated, hcount]
      dsimp only [Prod.fst_add] at hbefore ⊢
      omega
    · rw [if_neg fun hsame => hother hsame.1, add_zero] at hkept
      have hrecorded : tables.exaRecorded other = guard.tables.exaRecorded other := by
        unfold BudgetTables.exaRecorded
        rw [hwritten.others other fun hsame => hother hsame.symm]
      rw [hrecorded, hkept]
      exact hbefore
  · dsimp only
    rw [hrows]
    exact h.within other

theorem Searching.step (terms : GuardTerms) (h : guard.Searching) (hcoherent : guard.Coherent ids)
    (timed : TimedCall) : Searching (guard.step terms ids timed).1 := by
  have hstep := hcoherent.step_searched terms timed
  generalize timed.call = call at hstep
  have hsplit : (guard.step terms ids timed).1 =
      ⟨(guard.step terms ids timed).1.tables, (guard.step terms ids timed).1.drawn⟩ := rfl
  rw [hsplit]
  generalize (guard.step terms ids timed).1.tables = after at hstep ⊢
  cases hstep with
  | kept _ _ hquotas hreservations => exact h.kept hquotas hreservations _
  | reserved _ reservation month _ hid hreserved => exact h.reserved hcoherent hid hreserved _
  | reconciled reservation month billed nominal requests credits _ halted hexa hreconciled =>
      exact h.reconciled hreconciled _

end PostgresBudgetGuard

namespace ProviderWorld

variable {terms : GuardTerms} {ids : RandomIds} {micros : ℕ → JsonFloat} {world : ProviderWorld}

/-- The guard of a world that makes a step makes one of its own, or none. -/
theorem step_guard (terms : GuardTerms) (ids : RandomIds) (micros : ℕ → JsonFloat)
    (world : ProviderWorld) (event : ProviderEvent) :
    (world.step terms ids micros event).1.guard = world.guard ∨
      ∃ timed, (world.step terms ids micros event).1.guard =
        (world.guard.step terms ids timed).1 := by
  cases event with
  | call worker task clock =>
      unfold step
      dsimp only
      split
      · unfold begin
        split
        · exact .inl rfl
        next call hprepared =>
          refine .inr ⟨⟨.reserve call.provider call.estimate call.requestCount
            (.finite call.creditCount), clock⟩, ?_⟩
          unfold PostgresBudgetGuard.step
          dsimp only
          generalize world.guard.reserve terms ids clock call.provider call.estimate
            call.requestCount (.finite call.creditCount) = result
          obtain ⟨guard, answer⟩ := result
          dsimp only
          split
          · rfl
          · split
            · rfl
            · rfl
      · exact .inl rfl
      · exact .inl rfl
  | post worker reply costMicros =>
      unfold step
      dsimp only
      split
      next call reservation attempt hstage =>
        left
        unfold post
        dsimp only
        split
        · rfl
        · split
          · rfl
          · rfl
          · rfl
      · exact .inl rfl
      · exact .inl rfl
  | finish worker stored clock =>
      unfold step
      dsimp only
      split
      next call reservation response hstage =>
        unfold finish
        split
        · exact .inl rfl
        next settlement hsettled =>
          exact .inr ⟨⟨.reconcile reservation settlement.billedCostMicros
            settlement.nominalCostMicros settlement.requestCount
            (.finite settlement.creditCount), clock⟩, rfl⟩
      · exact .inl rfl
      · exact .inl rfl
  | crash worker => exact .inl rfl

theorem searching_run (events : List ProviderEvent) :
    (Runs.final (step terms ids micros) start events).guard.Searching := by
  induction events using List.reverseRecOn with
  | nil => exact PostgresBudgetGuard.start_searching
  | append_singleton events event ih =>
      rw [Runs.final_concat]
      have hsound := sound_run terms ids micros events
      rcases step_guard terms ids micros (Runs.final (step terms ids micros) start events)
        event with hkept | ⟨timed, hstep⟩
      · rw [hkept]
        exact ih
      · rw [hstep]
        exact ih.step terms hsound.coherent timed

/-- At most one request is posted under a search. -/
theorem Sound.under_exa (h : world.Sound ids) (hsearching : world.guard.Searching)
    {row : ExaQuotaReservation} (hrow : row ∈ world.guard.tables.exaReservations) :
    (world.under row.id).length ≤ 1 := by
  have hbooking : world.guard.tables.booking? row.id = some row.booking := by
    unfold BudgetTables.booking?
    rw [h.coherent.lookup_none_of_exa hrow,
      (KeyedList.lookup_eq_some_iff hsearching.unique).mpr ⟨hrow, rfl⟩]
    rfl
  by_contra hmany
  obtain ⟨request, hrequest⟩ : ∃ request, request ∈ (world.under row.id).dropLast := by
    refine List.exists_mem_of_length_pos ?_
    rw [List.length_dropLast]
    omega
  have hrepeated := (h.orderly row.id).2 request hrequest
  obtain ⟨hsent, hid⟩ := List.mem_filter.mp (List.mem_of_mem_dropLast hrequest)
  obtain ⟨booking, hfound, hexa⟩ := h.booked request hsent
  rw [of_decide_eq_true hid, hbooking] at hfound
  cases hfound
  rw [hrepeated.2] at hexa
  cases hexa

theorem Sound.exaRequestsIn_le (h : world.Sound ids) (hsearching : world.guard.Searching)
    (month : Month) : world.exaRequestsIn month ≤ 18000 := by
  have hwithin := hsearching.within month
  have hcount : ∀ rows ⊆ world.guard.tables.exaReservations,
      (((rows.filter fun row => row.monthStart = month).map fun row =>
        (world.under row.id).length).sum : ℤ) ≤
        (rows.map fun row => if row.monthStart = month then 1 else 0).sum := by
    intro rows hrows
    induction rows with
    | nil => rfl
    | cons row rest ih =>
        have hone := h.under_exa hsearching (hrows List.mem_cons_self)
        have hrest := ih fun other hother => hrows (List.mem_cons_of_mem _ hother)
        rw [List.map_cons, List.sum_cons]
        by_cases hmonth : row.monthStart = month
        · rw [List.filter_cons_of_pos (by simpa using hmonth), List.map_cons, List.sum_cons,
            if_pos hmonth, Nat.cast_add]
          exact add_le_add (by exact_mod_cast hone) hrest
        · rw [List.filter_cons_of_neg (by simpa using hmonth), if_neg hmonth, zero_add]
          exact hrest
  have htotal := (hcount _ (List.Subset.refl _)).trans hwithin
  unfold exaRequestsIn
  exact_mod_cast htotal

/-- Whatever the providers answer and whichever calls raise or crash, every request is posted
under a reservation in the tables that no other worker has, at most three times and again only
after a refusal by OpenRouter, and the requests to Exa stay within the quota of every month. -/
theorem requests_reserved (terms : GuardTerms) (ids : RandomIds) (micros : ℕ → JsonFloat)
    (events : List ProviderEvent) :
    let world := Runs.final (step terms ids micros) start events
    (∀ request ∈ world.sent, ∃ booking,
      world.guard.tables.booking? request.reservation.id = some booking ∧
        booking.exa = decide (request.reservation.provider = "exa")) ∧
    (∀ worker other call reservation call' reservation',
      (world.stages worker).running? = some (call, reservation) →
        (world.stages other).running? = some (call', reservation') →
          reservation.id = reservation'.id → worker = other) ∧
    (∀ id, (world.under id).length ≤ 3 ∧
      ∀ request ∈ (world.under id).dropLast,
        request.Refused ∧ request.reservation.provider = "openrouter") ∧
    ∀ month, world.exaRequestsIn month ≤ 18000 := by
  intro world
  have hsound : world.Sound ids := sound_run terms ids micros events
  exact ⟨hsound.booked, hsound.apart, hsound.orderly,
    hsound.exaRequestsIn_le (searching_run events)⟩

end ProviderWorld

end VTrade
