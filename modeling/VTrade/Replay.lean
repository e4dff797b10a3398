/-
# Replaying the ledger

The ledger is the system of record and a portfolio a projection of it.  The
replay reads one movement off every entry and posts it; it recovers the run that
emitted the entries as long as each entry states the entry fees it moved.  An
entry does not when its fee posting is left out although the order released
entry fees: a sale that charges exactly what it releases.
-/

import VTrade.OrderAcceptance

namespace VTrade

/-! ## What an entry states -/

section Posts

variable {entry : LedgerEntry} {movement : Books.Movement PositionKey} {expense : ℤ}

/-- What an entry posts on cash. -/
def cashPosted (entry : LedgerEntry) : ℤ :=
  ((entry.postings.filter fun posting => posting.account = .cash).map
    fun posting => posting.amountMicros).sum

theorem cashPosted_of_posts (h : entry.Posts (postingsOf movement expense)) :
    cashPosted entry = movement.cash := by
  have hsum := entry.sum_filter_eq_total (fun posting => posting.account = .cash)
    fun posting => posting.amountMicros
  rw [h.total_eq] at hsum
  refine hsum.trans ?_
  unfold postingsOf
  by_cases hfees : movement.fees + expense = 0 <;>
    by_cases hresult : movement.realized + expense = 0 <;>
    simp [hfees, hresult, PostingFields.ofCash, PostingFields.ofCost, PostingFields.ofFees,
      PostingFields.ofResult]

/-- What an entry posts on an account for the position it moves. -/
theorem dimensionAmount_of_posts (h : entry.Posts (postingsOf movement expense))
    (account : LedgerAccount) (haccount : account = .fees ∨ account = .realizedPnl) :
    dimensionAmount entry account movement.key =
      if account = .fees then movement.fees + expense else -(movement.realized + expense) := by
  have hsum := entry.sum_filter_eq_total
    (fun posting => posting.account = account ∧ posting.positionKey = some movement.key)
    fun posting => posting.amountMicros
  rw [h.total_eq] at hsum
  refine hsum.trans ?_
  unfold postingsOf
  rcases haccount with rfl | rfl <;>
    by_cases hfees : movement.fees + expense = 0 <;>
    by_cases hresult : movement.realized + expense = 0 <;>
    simp [hfees, hresult, PostingFields.ofCash, PostingFields.ofCost, PostingFields.ofFees,
      PostingFields.ofResult, PostingFields.positionKey]

/-- The entry fees an entry states for the position it moves. -/
theorem dimensionEntryFees_of_posts (h : entry.Posts (postingsOf movement expense)) :
    dimensionEntryFees entry movement.key =
      if movement.fees + expense ≠ 0 then movement.fees else 0 := by
  have hsum := entry.sum_filter_eq_total
    (fun posting => posting.positionKey = some movement.key)
    fun posting => posting.entryFeesDeltaMicros.getD 0
  rw [h.total_eq] at hsum
  refine hsum.trans ?_
  unfold postingsOf
  by_cases hfees : movement.fees + expense = 0 <;>
    by_cases hresult : movement.realized + expense = 0 <;>
    simp [hfees, hresult, PostingFields.ofCash, PostingFields.ofCost, PostingFields.ofFees,
      PostingFields.ofResult, PostingFields.positionKey]

end Posts

/-- The movement the replay reads off an entry.  Without a fee posting it sees no
entry fees, and takes the expense they covered for a result. -/
def replayedMovement (movement : Books.Movement PositionKey) (expense : ℤ) :
    Books.Movement PositionKey :=
  { movement with
    fees := if movement.fees + expense ≠ 0 then movement.fees else 0
    realized := movement.realized + expense -
      if movement.units < 0 then
        movement.fees + expense - (if movement.fees + expense ≠ 0 then movement.fees else 0)
      else 0 }

/-! ## One entry -/

namespace ReplayLoop

/-- The account the replay has built so far. -/
noncomputable def account (loop : ReplayLoop) : Books.Account PositionKey where
  cash := loop.cash
  realized := loop.realizedPnlMicros
  holding := holdings loop.positions

/-- The positions built so far are open and told apart by their keys. -/
structure Sound (loop : ReplayLoop) : Prop where
  unique : (loop.positions.map ContractPosition.key).Nodup
  allOpen : ∀ position ∈ loop.positions, 0 < position.contractUnits

end ReplayLoop

/-- A holding that a position may have. -/
def Solvent (holding : Books.Holding) : Prop :=
  0 ≤ holding.units ∧ 0 ≤ holding.basis ∧ 0 ≤ holding.fees ∧
    (holding.units = 0 → holding.basis = 0 ∧ holding.fees = 0)

/-- The holding of a portfolio is one that a position may have. -/
theorem ContractPortfolio.solvent (portfolio : ContractPortfolio) (key : PositionKey) :
    Solvent (portfolio.account.holding key) := by
  rw [ContractPortfolio.account_holding]
  cases portfolio.position key with
  | none => exact ⟨le_refl 0, le_refl 0, le_refl 0, fun _ => ⟨rfl, rfl⟩⟩
  | some position => exact ContractPosition.postInit_eq_ok_iff.mp position.valid

/-- A solvent holding can be put in the place of its key. -/
theorem replayPosition_isOk (occurredAt : Instant) (loop : ReplayLoop) (key : PositionKey)
    {holding : Books.Holding} (h : Solvent holding) (realizedDelta : ℤ) :
    ∃ next, replayPosition occurredAt loop key holding.units holding.basis holding.fees
      holding.realized realizedDelta = .ok next := by
  obtain ⟨h1, h2, h3, h4⟩ := h
  unfold replayPosition
  rw [if_neg (by omega)]
  by_cases hclosed : holding.units = 0
  · obtain ⟨h5, h6⟩ := h4 hclosed
    rw [if_pos hclosed, if_neg (by omega)]
    exact ⟨_, rfl⟩
  · rw [if_neg hclosed]
    exact ⟨_, Checks.bind_eq_ok.mpr ⟨_, ContractPosition.make_eq_ok
      (ContractPosition.postInit_eq_ok_iff.mpr ⟨h1, h2, h3, h4⟩), rfl⟩⟩

/-- Putting a holding in the place of its key closes it out when it has no units. -/
theorem replayPosition_spec {occurredAt : Instant} {loop next : ReplayLoop} {key : PositionKey}
    {holding : Books.Holding} {realizedDelta : ℤ} (hloop : loop.Sound)
    (h : replayPosition occurredAt loop key holding.units holding.basis holding.fees
      holding.realized realizedDelta = .ok next) :
    next.Sound ∧ next.ledger = loop.ledger ∧ next.cash = loop.cash ∧
      next.realizedPnlMicros = loop.realizedPnlMicros + realizedDelta ∧
      next.account.holding = loop.account.holding.update key holding.closeOut := by
  unfold replayPosition at h
  by_cases hbad : holding.units < 0 ∨ holding.basis < 0 ∨ holding.fees < 0
  · rw [if_pos hbad] at h
    cases h
  rw [if_neg hbad] at h
  by_cases hclosed : holding.units = 0
  · rw [if_pos hclosed] at h
    by_cases hleft : holding.basis ≠ 0 ∨ holding.fees ≠ 0
    · rw [if_pos hleft] at h
      cases h
    rw [if_neg hleft] at h
    cases h
    refine ⟨⟨KeyedList.nodup_erase hloop.unique _, fun position hmem =>
      hloop.allOpen position (KeyedList.mem_erase.mp hmem).1⟩, rfl, rfl, rfl, ?_⟩
    have hempty : holding.closeOut = 0 := by
      rw [Books.Holding.closeOut_of_units_eq_zero hclosed]
      ext
      · exact hclosed
      · exact not_not.mp fun hbasis => hleft (Or.inl hbasis)
      · exact not_not.mp fun hfees => hleft (Or.inr hfees)
      · rfl
    rw [hempty]
    exact holdings_erase hloop.unique key
  · rw [if_neg hclosed] at h
    obtain ⟨updated, hupdated, h⟩ := Checks.bind_eq_ok.mp h
    cases h
    have hfields := ContractPosition.make_eq_ok_iff.mp hupdated
    have hkey : updated.key = key := by
      simp only [ContractPosition.key, hfields]
    have hholding : updated.holding = holding := by
      simp only [ContractPosition.holding, hfields]
    refine ⟨⟨KeyedList.nodup_upsert hloop.unique updated, fun position hmem => ?_⟩, rfl, rfl,
      rfl, ?_⟩
    · rcases KeyedList.mem_upsert hmem with rfl | hrest
      · simp only [hfields]
        omega
      · exact hloop.allOpen position hrest
    · change holdings (KeyedList.upsert ContractPosition.key updated loop.positions) = _
      rw [holdings_perm (KeyedList.upsert_perm hloop.unique updated),
        holdings_cons_erase hloop.unique, hkey, hholding,
        Books.Holding.closeOut_of_units_ne_zero hclosed]
      rfl

/-- The units an entry posts move the holding by what the replay reads off it. -/
theorem replayUnits_eq {entry : LedgerEntry} {loop : ReplayLoop}
    {movement : Books.Movement PositionKey} {expense : ℤ} (hloop : loop.Sound)
    (h : entry.Posts (postingsOf movement expense)) {holding : Books.Holding}
    (hholding : holding =
      loop.account.holding movement.key + (replayedMovement movement expense).holding) :
    replayUnits entry loop movement.key movement.units movement.basis =
      replayPosition entry.occurredAt loop movement.key holding.units holding.basis holding.fees
        holding.realized (replayedMovement movement expense).realized := by
  have hcurrent : loop.account.holding movement.key = (KeyedList.lookup ContractPosition.key
      movement.key loop.positions).elim 0 ContractPosition.holding :=
    holdings_apply hloop.unique movement.key
  rw [hcurrent] at hholding
  subst hholding
  have hdelta : -(-(movement.realized + expense)) - (if movement.units < 0 then
      movement.fees + expense - (if movement.fees + expense ≠ 0 then movement.fees else 0)
      else 0) = (replayedMovement movement expense).realized := by
    rw [neg_neg]
    rfl
  simp only [replayUnits, dimensionEntryFees_of_posts h,
    dimensionAmount_of_posts h .fees (Or.inl rfl),
    dimensionAmount_of_posts h .realizedPnl (Or.inr rfl), if_true, reduceCtorEq, if_false, hdelta]
  cases KeyedList.lookup ContractPosition.key movement.key loop.positions <;> rfl

/-- Only the cost posting of an entry moves anything in the replay. -/
theorem foldlM_replayPosting {entry : LedgerEntry} {loop : ReplayLoop}
    {movement : Books.Movement PositionKey} {expense : ℤ}
    (h : entry.Posts (postingsOf movement expense)) :
    entry.postings.foldlM (replayPosting entry) loop =
      replayUnits entry loop movement.key movement.units movement.basis := by
  obtain ⟨cash, others, hpostings, hcash, hothers⟩ := List.map_eq_cons_iff.mp h
  obtain ⟨cost, rest, rfl, hcost, hrest⟩ := List.map_eq_cons_iff.mp hothers
  have hskip : ∀ (postings : List Posting) (state : ReplayLoop),
      (∀ posting ∈ postings, posting.contractUnitsDelta = none) →
      postings.foldlM (replayPosting entry) state = .ok state := by
    intro postings
    induction postings with
    | nil => exact fun state _ => rfl
    | cons posting postings ih =>
        intro state hnone
        rw [List.foldlM_cons, replayPosting, hnone posting List.mem_cons_self]
        exact ih state fun other hmem => hnone other (List.mem_cons_of_mem _ hmem)
  have hunits : ∀ posting ∈ rest, posting.contractUnitsDelta = none := by
    intro posting hmem
    have hfields := List.mem_map_of_mem (f := Posting.toPostingFields) hmem
    rw [hrest] at hfields
    rcases List.mem_append.mp hfields with hfee | hresult
    · obtain ⟨fees, -, hfee⟩ := Option.map_eq_some_iff.mp (Option.mem_toList.mp hfee)
      rw [← hfee]
      rfl
    · obtain ⟨result, -, hresult⟩ := Option.map_eq_some_iff.mp (Option.mem_toList.mp hresult)
      rw [← hresult]
      rfl
  have hfirst : replayPosting entry loop cash = .ok loop := by
    rw [replayPosting, hcash]
    rfl
  have hsecond : replayPosting entry loop cost =
      replayUnits entry loop movement.key movement.units movement.basis := by
    simp only [replayPosting, hcost, PostingFields.ofCost, PostingFields.positionKey, postingsOf]
  rw [hpostings, List.foldlM_cons, hfirst]
  change (cost :: rest).foldlM (replayPosting entry) loop = _
  rw [List.foldlM_cons, hsecond]
  cases hmoved : replayUnits entry loop movement.key movement.units movement.basis with
  | error error => rfl
  | ok next => exact hskip rest next hunits

section Entry

variable {agentId : String} {entry : LedgerEntry} {loop next : ReplayLoop}
  {movement : Books.Movement PositionKey} {expense : ℤ} {seen : List LedgerEntry}

/-- An entry that is replayed is recorded, and the movement it states is posted. -/
theorem replayEntry_spec (hloop : loop.Sound) (hseen : loop.ledger.Records seen)
    (h : entry.Posts (postingsOf movement expense))
    (hnext : replayEntry agentId loop entry = .ok next) :
    next.Sound ∧ next.ledger.Records (seen ++ [entry]) ∧
      next.account = loop.account.post (replayedMovement movement expense) := by
  unfold replayEntry at hnext
  split_ifs at hnext with hagent
  obtain ⟨⟨ledger, result⟩, happend, hnext⟩ := Checks.bind_eq_ok.mp hnext
  have hsound : ({ loop with ledger := ledger, cash := loop.cash + cashPosted entry } :
      ReplayLoop).Sound := ⟨hloop.unique, hloop.allOpen⟩
  change entry.postings.foldlM (replayPosting entry)
    { loop with ledger := ledger, cash := loop.cash + cashPosted entry } = _ at hnext
  rw [foldlM_replayPosting h, replayUnits_eq hsound h rfl] at hnext
  obtain ⟨hnextSound, hledger, hcash, hrealized, hholding⟩ := replayPosition_spec hsound hnext
  refine ⟨hnextSound, hledger ▸ hseen.append happend, ?_⟩
  rw [Books.Account.ext_iff]
  refine ⟨?_, hrealized, hholding⟩
  change next.cash = loop.cash + movement.cash
  rw [hcash, cashPosted_of_posts h]

/-- An entry of the agent is replayed when its key is free, or stands for it
already, and it leaves a solvent holding. -/
theorem replayEntry_isOk (hloop : loop.Sound) (hseen : loop.ledger.Records seen)
    (h : entry.Posts (postingsOf movement expense)) (hagent : entry.agentId = agentId)
    (hsame : ∀ other ∈ seen, other.idempotencyKey = entry.idempotencyKey → other = entry)
    (hsolvent : Solvent (loop.account.holding movement.key +
      (replayedMovement movement expense).holding)) :
    ∃ next, replayEntry agentId loop entry = .ok next := by
  obtain ⟨⟨ledger, result⟩, happend⟩ := hseen.append_isOk hsame
  have hsound : ({ loop with ledger := ledger, cash := loop.cash + cashPosted entry } :
      ReplayLoop).Sound := ⟨hloop.unique, hloop.allOpen⟩
  obtain ⟨next, hnext⟩ := replayPosition_isOk entry.occurredAt
    { loop with ledger := ledger, cash := loop.cash + cashPosted entry } movement.key hsolvent
    (replayedMovement movement expense).realized
  refine ⟨next, ?_⟩
  rw [replayEntry, if_neg (not_not.mpr hagent), happend]
  change entry.postings.foldlM (replayPosting entry)
    { loop with ledger := ledger, cash := loop.cash + cashPosted entry } = _
  rw [foldlM_replayPosting h, replayUnits_eq hsound h rfl]
  exact hnext

end Entry

/-! ## Runs of orders -/

/-- The order is not a sale that charges exactly the entry fees it releases, and
some. -/
def StatesEntryFees (state : Bookkeeping) (order : FilledOrder) : Prop :=
  order.request.action = .sell →
    (order.fills.map fun fill => fill.feeMicros).sum =
      releasedEntryFees state.portfolio order.request order.fills →
    releasedEntryFees state.portfolio order.request order.fills = 0

instance (state : Bookkeeping) (order : FilledOrder) : Decidable (StatesEntryFees state order) :=
  inferInstanceAs (Decidable (_ → _))

namespace OrderBooked

variable {portfolio after : ContractPortfolio} {request : OrderRequest}
  {fills : List EconomicFill} {operationId : String} {occurredAt : Datetime}
  {entry : LedgerEntry} {loop : FillLoop}

/-- The replay recovers what a purchase moves. -/
theorem replayed_buy
    (h : OrderBooked portfolio request fills operationId occurredAt after entry loop)
    (haction : request.action = .buy) :
    replayedMovement (loop.movement request) (saleFees request fills) = loop.movement request := by
  have hunits := h.units_sign
  rw [if_pos haction] at hunits
  have hsale : saleFees request fills = 0 := by
    simp only [saleFees, haction]
  have hnotSell : ¬ (loop.movement request).units < 0 := by omega
  ext <;> simp [replayedMovement, hsale, hnotSell]
  exact fun hzero => hzero.symm

/-- The replay recovers what a sale moves when the sale states its entry fees. -/
theorem replayed_sell
    (h : OrderBooked portfolio request fills operationId occurredAt after entry loop)
    (haction : request.action = .sell)
    (hstates : (fills.map fun fill => fill.feeMicros).sum =
      releasedEntryFees portfolio request fills →
      releasedEntryFees portfolio request fills = 0) :
    replayedMovement (loop.movement request) (saleFees request fills) = loop.movement request := by
  have hunits := h.units_sign
  rw [if_neg (by simp [haction])] at hunits
  have hfees := (h.sell_released haction).1
  have hsale : saleFees request fills = (fills.map fun fill => fill.feeMicros).sum := by
    simp only [saleFees, haction]
  by_cases hzero : (loop.movement request).fees + saleFees request fills = 0
  · have hreleased := hstates (by omega)
    ext <;> simp [replayedMovement, hzero] <;> omega
  · ext <;> simp [replayedMovement, hzero, hunits]

/-- A sale that does not state its entry fees is taken for more than it realized. -/
theorem replayed_realized_lt
    (h : OrderBooked portfolio request fills operationId occurredAt after entry loop)
    (haction : request.action = .sell)
    (hequal : (fills.map fun fill => fill.feeMicros).sum =
      releasedEntryFees portfolio request fills)
    (hsome : releasedEntryFees portfolio request fills ≠ 0) :
    (loop.movement request).realized <
      (replayedMovement (loop.movement request) (saleFees request fills)).realized := by
  have hfees := (h.sell_released haction).1
  have hsale : saleFees request fills = (fills.map fun fill => fill.feeMicros).sum := by
    simp only [saleFees, haction]
  have hnonneg : 0 ≤ (fills.map fun fill => fill.feeMicros).sum :=
    List.sum_nonneg fun amount hmem => by
      obtain ⟨fill, -, rfl⟩ := List.mem_map.mp hmem
      exact fill.feeMicros_nonneg
  have hzero : (loop.movement request).fees + saleFees request fills = 0 := by omega
  simp only [replayedMovement, hzero, ne_eq, not_true_eq_false, if_false, sub_zero, ite_self]
  omega

end OrderBooked

/-! ## The replay of a run -/

/-- Two portfolios agree on cash, result, version and on what they hold of every
market outcome. -/
def SameBooks (first second : ContractPortfolio) : Prop :=
  first.cashMicros = second.cashMicros ∧ first.realizedPnlMicros = second.realizedPnlMicros ∧
    first.version = second.version ∧
    ∀ key, (first.position key).map ContractPosition.holding =
      (second.position key).map ContractPosition.holding

/-- An open portfolio holds a position exactly where its account has a holding. -/
theorem ContractPortfolio.AllOpen.position_map_holding {portfolio : ContractPortfolio}
    (hopen : portfolio.AllOpen) (key : PositionKey) :
    (portfolio.position key).map ContractPosition.holding =
      if portfolio.account.holding key = 0 then none
      else some (portfolio.account.holding key) := by
  rw [ContractPortfolio.account_holding]
  cases hposition : portfolio.position key with
  | none => simp
  | some position =>
      have hpos := hopen position (KeyedList.mem_of_lookup_eq_some hposition)
      have hne : position.holding ≠ 0 := fun hzero => by
        have hunits := congrArg Books.Holding.units hzero
        change position.contractUnits = 0 at hunits
        omega
      simp [hne]

/-- What is known of every run of orders. -/
structure RunBooked (initial : ContractPortfolio) (state : Bookkeeping) : Prop where
  allOpen : state.portfolio.AllOpen
  agentId : state.portfolio.agentId = initial.agentId
  version : state.portfolio.version = initial.version + state.entries.length

theorem RunBooked.of_foldlM {initial : ContractPortfolio} (hempty : initial.positions = [])
    {orders : List FilledOrder} {state : Bookkeeping}
    (hrun : orders.foldlM bookOrder ⟨initial, []⟩ = .ok state) : RunBooked initial state := by
  refine Checks.foldlM_invariant (fun _ => RunBooked initial) []
    (fun _ before order next _ hbefore hstep => ?_) hrun
    ⟨by simp [ContractPortfolio.AllOpen, hempty], rfl, by simp⟩
  obtain ⟨entry, loop, hentries, hbooked⟩ := bookOrder_spec hstep
  refine ⟨hbooked.allOpen hbefore.allOpen, ?_, ?_⟩
  · rw [hbooked.agentId, (LoopBooked.of_foldlM hbefore.allOpen hbooked.run).agentId,
      hbefore.agentId]
  · rw [hbooked.version, hbefore.version, hentries]
    simp [add_assoc]

/-- The state the replay starts from. -/
def replayStart (initial : ContractPortfolio) : ReplayLoop :=
  ⟨AppendOnlyLedger.empty, initial.cashMicros, initial.positions, initial.realizedPnlMicros⟩

/-- A replay that gets through a run has recorded its entries and overstates the
result unless every sale states its entry fees. -/
theorem replay_of_run {initial : ContractPortfolio} (hempty : initial.positions = [])
    {orders : List FilledOrder} {state : Bookkeeping} {loop : ReplayLoop}
    (hrun : orders.foldlM bookOrder ⟨initial, []⟩ = .ok state)
    (hreplay : state.entries.foldlM (replayEntry initial.agentId) (replayStart initial) =
      .ok loop) :
    loop.Sound ∧ loop.ledger.Records state.entries ∧
      state.portfolio.realizedPnlMicros ≤ loop.realizedPnlMicros ∧
      (loop.realizedPnlMicros = state.portfolio.realizedPnlMicros →
        Checks.Along bookOrder StatesEntryFees ⟨initial, []⟩ orders) := by
  induction orders using List.reverseRecOn generalizing state loop with
  | nil =>
      cases Checks.foldlM_nil_eq_ok.mp hrun
      cases Checks.foldlM_nil_eq_ok.mp hreplay
      exact ⟨⟨by simp [replayStart, hempty], by simp [replayStart, hempty]⟩,
        AppendOnlyLedger.Records.start, le_refl _, fun _ => trivial⟩
  | append_singleton orders order ih =>
      obtain ⟨before, hbefore, hlast⟩ := Checks.foldlM_append_eq_ok.mp hrun
      obtain ⟨after, hstep, hafter⟩ := Checks.foldlM_cons_eq_ok.mp hlast
      cases Checks.foldlM_nil_eq_ok.mp hafter
      obtain ⟨entry, fillLoop, hentries, hbooked⟩ := bookOrder_spec hstep
      rw [hentries] at hreplay
      obtain ⟨middle, hmiddle, hlast⟩ := Checks.foldlM_append_eq_ok.mp hreplay
      obtain ⟨next, hnext, hdone⟩ := Checks.foldlM_cons_eq_ok.mp hlast
      cases Checks.foldlM_nil_eq_ok.mp hdone
      obtain ⟨hsound, hrecords, hle, halong⟩ := ih hbefore hmiddle
      have hopen := (RunBooked.of_foldlM hempty hbefore).allOpen
      obtain ⟨hnextSound, hnextRecords, haccount⟩ :=
        replayEntry_spec hsound hrecords hbooked.posts_movement hnext
      have hrealized : loop.realizedPnlMicros = middle.realizedPnlMicros + (replayedMovement
          (fillLoop.movement order.request) (saleFees order.request order.fills)).realized :=
        congrArg Books.Account.realized haccount
      have hmoved : state.portfolio.realizedPnlMicros =
          before.portfolio.realizedPnlMicros + (fillLoop.movement order.request).realized :=
        congrArg Books.Account.realized (hbooked.account hopen)
      rw [hentries]
      refine ⟨hnextSound, hnextRecords, ?_⟩
      rw [Checks.along_append_of_ok hbefore, Checks.along_cons_of_ok hstep]
      by_cases hstates : StatesEntryFees before order
      · have hsame : replayedMovement (fillLoop.movement order.request)
            (saleFees order.request order.fills) = fillLoop.movement order.request := by
          cases haction : order.request.action with
          | buy => exact hbooked.replayed_buy haction
          | sell => exact hbooked.replayed_sell haction (hstates haction)
        rw [hsame] at hrealized
        exact ⟨by omega, fun hequal => ⟨halong (by omega), hstates, trivial⟩⟩
      · obtain ⟨haction, hequal, hsome⟩ : order.request.action = .sell ∧
            (order.fills.map fun fill => fill.feeMicros).sum =
              releasedEntryFees before.portfolio order.request order.fills ∧
            releasedEntryFees before.portfolio order.request order.fills ≠ 0 := by
          simpa [StatesEntryFees, Classical.not_imp] using hstates
        have hlt := hbooked.replayed_realized_lt haction hequal hsome
        exact ⟨by omega, fun hequal' => absurd hequal' (by omega)⟩

/-- When every sale states its entry fees and no key stands for two entries, the
replay gets through and ends in the account of the run. -/
theorem replay_isOk_of_run {initial : ContractPortfolio} (hempty : initial.positions = [])
    {orders : List FilledOrder} {state : Bookkeeping}
    (hrun : orders.foldlM bookOrder ⟨initial, []⟩ = .ok state)
    (halong : Checks.Along bookOrder StatesEntryFees ⟨initial, []⟩ orders)
    (hkeys : ∀ first ∈ state.entries, ∀ second ∈ state.entries,
      first.idempotencyKey = second.idempotencyKey → first = second) :
    ∃ loop, state.entries.foldlM (replayEntry initial.agentId) (replayStart initial) = .ok loop ∧
      loop.account = state.portfolio.account := by
  induction orders using List.reverseRecOn generalizing state with
  | nil =>
      cases Checks.foldlM_nil_eq_ok.mp hrun
      exact ⟨replayStart initial, rfl, rfl⟩
  | append_singleton orders order ih =>
      obtain ⟨before, hbefore, hlast⟩ := Checks.foldlM_append_eq_ok.mp hrun
      obtain ⟨after, hstep, hafter⟩ := Checks.foldlM_cons_eq_ok.mp hlast
      cases Checks.foldlM_nil_eq_ok.mp hafter
      obtain ⟨hfirst, hstates⟩ := (Checks.along_append_of_ok hbefore).mp halong
      have hstates := ((Checks.along_cons_of_ok hstep).mp hstates).1
      obtain ⟨entry, fillLoop, hentries, hbooked⟩ := bookOrder_spec hstep
      rw [hentries] at hkeys ⊢
      obtain ⟨middle, hmiddle, haccount⟩ := ih hbefore hfirst fun first hmem second hmem' =>
        hkeys first (List.mem_append_left _ hmem) second (List.mem_append_left _ hmem')
      obtain ⟨hsound, hrecords, -⟩ := replay_of_run hempty hbefore hmiddle
      have hopen := (RunBooked.of_foldlM hempty hbefore).allOpen
      have hsame : replayedMovement (fillLoop.movement order.request)
          (saleFees order.request order.fills) = fillLoop.movement order.request := by
        cases haction : order.request.action with
        | buy => exact hbooked.replayed_buy haction
        | sell => exact hbooked.replayed_sell haction (hstates haction)
      have hafterAccount := hbooked.account hopen
      -- The holding the replay arrives at is the one of the portfolio after the order.
      have hsolvent : Solvent (middle.account.holding (fillLoop.movement order.request).key +
          (replayedMovement (fillLoop.movement order.request)
            (saleFees order.request order.fills)).holding) := by
        have hafterSolvent := state.portfolio.solvent (fillLoop.movement order.request).key
        rw [hafterAccount, Books.Account.holding_post_self] at hafterSolvent
        rw [hsame, haccount]
        simpa [Solvent] using hafterSolvent
      have hagent : entry.agentId = initial.agentId :=
        hbooked.entry_agentId.trans (RunBooked.of_foldlM hempty hbefore).agentId
      obtain ⟨next, hnext⟩ := replayEntry_isOk hsound hrecords hbooked.posts_movement hagent
        (fun other hmem hkey => hkeys other (List.mem_append_left _ hmem) entry (by simp) hkey)
        hsolvent
      refine ⟨next, Checks.foldlM_append_eq_ok.mpr ⟨middle, hmiddle,
        Checks.foldlM_cons_eq_ok.mpr ⟨next, hnext, rfl⟩⟩, ?_⟩
      rw [(replayEntry_spec hsound hrecords hbooked.posts_movement hnext).2.2, hsame, haccount,
        hafterAccount]

/-- The replay returns exactly when its loop does, and then it holds what the loop
has built. -/
theorem replayContractPortfolio_eq_ok_iff {initial replayed : ContractPortfolio}
    {entries : List LedgerEntry} :
    replayContractPortfolio initial entries = .ok replayed ↔
      ∃ loop, entries.foldlM (replayEntry initial.agentId) (replayStart initial) = .ok loop ∧
        0 ≤ loop.cash ∧
        replayed.toContractPortfolioFields = {
          agentId := initial.agentId
          cashMicros := loop.cash
          positions := loop.positions
          version := initial.version + entries.length
          reconciliationBlocked := initial.reconciliationBlocked
          realizedPnlMicros := loop.realizedPnlMicros } := by
  unfold replayContractPortfolio
  rw [Checks.bind_eq_ok]
  refine exists_congr fun loop => and_congr_right fun _ => ?_
  by_cases hcash : loop.cash < 0
  · rw [if_pos hcash]
    constructor
    · intro h
      cases h
    · exact fun h => absurd h.1 (not_le.mpr hcash)
  · rw [if_neg hcash, ContractPortfolio.make_eq_ok_iff]
    exact ⟨fun h => ⟨not_lt.mp hcash, h⟩, fun h => h.2⟩

/-- Replaying the entries of a run of orders gives the portfolio the run ended in
exactly when no sale charges just the entry fees it releases, and some, and no
idempotency key stands for two entries. -/
theorem replay_sameBooks_iff {initial : ContractPortfolio} {orders : List FilledOrder}
    {state : Bookkeeping} (hempty : initial.positions = [])
    (hrun : orders.foldlM bookOrder ⟨initial, []⟩ = .ok state) :
    (∃ replayed, replayContractPortfolio initial state.entries = .ok replayed ∧
        SameBooks replayed state.portfolio) ↔
      Checks.Along bookOrder StatesEntryFees ⟨initial, []⟩ orders ∧
        ∀ first ∈ state.entries, ∀ second ∈ state.entries,
          first.idempotencyKey = second.idempotencyKey → first = second := by
  have hbooked := RunBooked.of_foldlM hempty hrun
  constructor
  · rintro ⟨replayed, hreplayed, -, hrealized, -, -⟩
    obtain ⟨loop, hloop, -, hfields⟩ := replayContractPortfolio_eq_ok_iff.mp hreplayed
    obtain ⟨-, hrecords, -, halong⟩ := replay_of_run hempty hrun hloop
    rw [hfields] at hrealized
    exact ⟨halong hrealized, fun first hfirst second hsecond hkey =>
      hrecords.eq_of_key hfirst hsecond hkey⟩
  · rintro ⟨halong, hkeys⟩
    obtain ⟨loop, hloop, haccount⟩ := replay_isOk_of_run hempty hrun halong hkeys
    obtain ⟨hsound, -, -⟩ := replay_of_run hempty hrun hloop
    have hcash : loop.cash = state.portfolio.cashMicros := congrArg Books.Account.cash haccount
    have hvalid : ContractPortfolioFields.postInit {
        agentId := initial.agentId
        cashMicros := loop.cash
        positions := loop.positions
        version := initial.version + state.entries.length
        reconciliationBlocked := initial.reconciliationBlocked
        realizedPnlMicros := loop.realizedPnlMicros } = .ok () :=
      ContractPortfolio.postInit_eq_ok_iff.mpr ⟨initial.agentId_ne_empty,
        hcash ▸ state.portfolio.cashMicros_nonneg,
        Int.add_nonneg initial.version_nonneg (Int.natCast_nonneg _), hsound.unique⟩
    refine ⟨⟨_, hvalid⟩, replayContractPortfolio_eq_ok_iff.mpr
      ⟨loop, hloop, hcash ▸ state.portfolio.cashMicros_nonneg, rfl⟩, hcash,
      congrArg Books.Account.realized haccount, hbooked.version.symm, fun key => ?_⟩
    have hopen : (⟨_, hvalid⟩ : ContractPortfolio).AllOpen := hsound.allOpen
    have hholding : (⟨_, hvalid⟩ : ContractPortfolio).account.holding key =
        state.portfolio.account.holding key :=
      congrArg (fun account => Books.Account.holding account key) haccount
    rw [hopen.position_map_holding, hbooked.allOpen.position_map_holding, hholding]

namespace Sample

/-- Two hundred units bought for a fee of 100, and half of them sold. -/
def roundTrip (fee : ℤ) (h : (fillFields .sell 100 500000 500000 fee).postInit = .ok ()) :
    List FilledOrder :=
  [order (market, .yes) .buy 200 500000 1000000 100 "buy" twoHundred_pos (by decide),
    order (market, .yes) .sell 100 500000 500000 fee "sell" hundred_pos h]

end Sample

set_option maxRecDepth 10000 in
theorem replay_sameBooks_roundTrip :
    ∃ state, (Sample.roundTrip 70 rfl).foldlM bookOrder ⟨Sample.portfolio, []⟩ = .ok state ∧
      ∃ replayed, replayContractPortfolio Sample.portfolio state.entries = .ok replayed ∧
        SameBooks replayed state.portfolio := by
  obtain ⟨state, hrun, hkeys⟩ := Checks.exists_ok_of_any
    ((Sample.roundTrip 70 rfl).foldlM bookOrder ⟨Sample.portfolio, []⟩)
    (fun state => ∀ first ∈ state.entries, ∀ second ∈ state.entries,
      first.idempotencyKey = second.idempotencyKey → first = second) (by decide)
  exact ⟨state, hrun, (replay_sameBooks_iff rfl hrun).mpr
    ⟨by decide, of_decide_eq_true hkeys⟩⟩

set_option maxRecDepth 10000 in
/-- The sale charges 50 and releases 50: the replay keeps them in the position. -/
theorem replay_not_sameBooks_roundTrip :
    ∃ state, (Sample.roundTrip 50 rfl).foldlM bookOrder ⟨Sample.portfolio, []⟩ = .ok state ∧
      (∀ order ∈ Sample.roundTrip 50 rfl, ∀ fill ∈ order.fills,
        fill.netCashDeltaMicros = brokerCashDelta order.request fill) ∧
      ¬ ∃ replayed, replayContractPortfolio Sample.portfolio state.entries = .ok replayed ∧
        SameBooks replayed state.portfolio := by
  obtain ⟨state, hrun, hdiffers⟩ := Checks.exists_ok_of_any
    ((Sample.roundTrip 50 rfl).foldlM bookOrder ⟨Sample.portfolio, []⟩)
    (fun state => (replayContractPortfolio Sample.portfolio state.entries).toOption.all
      fun replayed => replayed.realizedPnlMicros ≠ state.portfolio.realizedPnlMicros) (by decide)
  refine ⟨state, hrun, by decide, ?_⟩
  rintro ⟨replayed, hreplayed, -, hrealized, -⟩
  rw [hreplayed] at hdiffers
  exact of_decide_eq_true hdiffers hrealized

end VTrade
