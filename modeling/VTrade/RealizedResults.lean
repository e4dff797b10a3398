/-
# The realized results that are loaded

A portfolio carries its realized result as one running total.  The tables have no total: every
row of positions has a result, and what is loaded is their sum.  An order writes the result of
the position it leaves over that of the row, so a row without a position starts from nothing.

Hence a sale that closes a position takes what the position has realized out of what is loaded,
and a purchase that opens one takes what a settlement had left in its row.  Nothing else is lost:
a settlement adds to the row, and what a position that stays open has realized stays in its row.
-/

import VTrade.ProjectionRuns

namespace VTrade

/-! ## Portfolios that are loaded -/

namespace ContractPortfolio

/-- Open portfolios that hold the same under a key have the same position there. -/
theorem AllOpen.position_holding_eq {portfolio other : ContractPortfolio} (h : portfolio.AllOpen)
    (h' : other.AllOpen) {key : PositionKey}
    (hholding : portfolio.account.holding key = other.account.holding key) :
    (portfolio.position key).map ContractPosition.holding =
      (other.position key).map ContractPosition.holding := by
  rw [account_holding, account_holding] at hholding
  cases hfirst : portfolio.position key with
  | none =>
      cases hsecond : other.position key with
      | none => rfl
      | some second =>
          have hpos := h'.contractUnits_pos hsecond
          rw [hfirst, hsecond] at hholding
          have hunits : (0 : ℤ) = second.contractUnits := congrArg Books.Holding.units hholding
          omega
  | some first =>
      have hpos := h.contractUnits_pos hfirst
      cases hsecond : other.position key with
      | none =>
          rw [hfirst, hsecond] at hholding
          have hunits : first.contractUnits = (0 : ℤ) := congrArg Books.Holding.units hholding
          omega
      | some second =>
          rw [hfirst, hsecond] at hholding
          exact congrArg some hholding

end ContractPortfolio

namespace Database

variable {db next : Database} {agentId : String} {key : PositionKey}
  {portfolio before after loaded : ContractPortfolio}

/-- The result that the row of a position has. -/
def rowResult (db : Database) (agentId : String) (key : PositionKey) : ℤ :=
  (db.position agentId key).elim 0 PositionRow.realizedPnlMicros

theorem realizedPnlMicros_eq_of_books (h : next.books agentId = db.books agentId) :
    next.realizedPnlMicros agentId = db.realizedPnlMicros agentId := by
  unfold realizedPnlMicros
  exact congrArg (fun rows => (rows.map PositionRow.realizedPnlMicros).sum)
    (congrArg Prod.snd h)

/-- A portfolio that was loaded is what the tables still have, when they are of its version. -/
theorem LoadedFrom.loads {earlier : Database} (h : earlier.LoadedFrom db agentId portfolio)
    (hversion : db.portfolioVersion agentId = some portfolio.version) :
    db.Loads agentId portfolio := by
  have hloads := load_spec h.load
  obtain ⟨version, hstored, -, hbooks⟩ := h.stored
  have hsame := hbooks (Option.some.inj (hstored.symm.trans hversion))
  constructor
  · exact hloads.owner
  · rw [hloads.cash, ledgerPostings_eq_of_books hsame]
  · exact hversion
  · rw [hloads.realized, realizedPnlMicros_eq_of_books hsame]
  · intro key
    rw [hloads.positions, position_eq_of_books hsame]

/-- The result of a position that is loaded is that of its row. -/
theorem Loads.rowResult_eq (h : db.Loads agentId portfolio) {position : ContractPosition}
    (hposition : portfolio.position key = some position) :
    db.rowResult agentId key = position.realizedPnlMicros := by
  have hread := h.positions key
  rw [hposition, Option.map_some, eq_comm, Option.map_eq_some_iff] at hread
  obtain ⟨row, hrow, hfields⟩ := hread
  rw [rowResult, (Option.filter_eq_some_iff.mp hrow).1]
  exact congrArg ContractPositionFields.realizedPnlMicros hfields

/-- What is loaded under a key is what its row holds, when it has units. -/
theorem Loads.holding_eq (h : db.Loads agentId portfolio) (key : PositionKey) :
    (portfolio.position key).map ContractPosition.holding =
      ((db.position agentId key).filter fun row => 0 < row.contractUnits).map
        PositionRow.holding := by
  let fieldsHolding (fields : ContractPositionFields) : Books.Holding :=
    ⟨fields.contractUnits, fields.grossCostBasisMicros, fields.entryFeesMicros,
      fields.realizedPnlMicros⟩
  have hread := congrArg (Option.map fieldsHolding) (h.positions key)
  rw [Option.map_map, Option.map_map] at hread
  exact hread

/-! ## Totals of rows -/

/-- What writing a row does to the total of its agent. -/
theorem realizedPnlMicros_upsert {row : PositionRow} (hagent : row.agentId = agentId)
    (h : next.positions = KeyedList.upsert PositionRow.key row db.positions) :
    next.realizedPnlMicros agentId + db.rowResult agentId row.marketOutcome =
      db.realizedPnlMicros agentId + row.realizedPnlMicros := by
  subst hagent
  let result (other : PositionRow) : ℤ :=
    if other.agentId = row.agentId then other.realizedPnlMicros else 0
  have htotal (tables : Database) :
      tables.realizedPnlMicros row.agentId = (tables.positions.map result).sum := by
    unfold realizedPnlMicros
    induction tables.positions with
    | nil => rfl
    | cons other rest ih =>
        rw [List.map_cons, List.sum_cons, ← ih]
        by_cases hother : other.agentId = row.agentId
        · simp [result, hother]
        · simp [result, hother]
  have hreplaced := KeyedList.sum_replace db.positions_unique
    (KeyedList.upsert_perm db.positions_unique row) result
  have hself : result row = row.realizedPnlMicros := if_pos rfl
  have hold : (KeyedList.lookup PositionRow.key row.key db.positions).elim 0 result =
      db.rowResult row.agentId row.marketOutcome := by
    rw [rowResult, position, show (row.agentId, row.marketOutcome) = row.key from rfl]
    cases hrow : KeyedList.lookup PositionRow.key row.key db.positions with
    | none => rfl
    | some other =>
        have hkey : other.key = row.key := KeyedList.key_of_lookup_eq_some hrow
        exact if_pos (congrArg Prod.fst hkey)
  rw [htotal, htotal, h, ← hold, ← hself]
  exact hreplaced

/-- A row that is written under another key keeps the result under a key. -/
theorem rowResult_upsert_of_ne {row : PositionRow}
    (h : next.positions = KeyedList.upsert PositionRow.key row db.positions)
    (hkey : row.key ≠ (agentId, key)) : next.rowResult agentId key = db.rowResult agentId key := by
  rw [rowResult, rowResult, position, position, h,
    KeyedList.lookup_upsert_of_ne (Ne.symm hkey)]

theorem rowResult_upsert_self {row : PositionRow}
    (h : next.positions = KeyedList.upsert PositionRow.key row db.positions) :
    next.rowResult row.agentId row.marketOutcome = row.realizedPnlMicros := by
  rw [rowResult, position_upsert_self h]
  rfl

end Database

/-! ## Orders -/

/-- What the result of the row of a position becomes with an order: nothing when the order
leaves no position, and else what the position had realized and what the order realizes. -/
def resultAfterOrder (before after : ContractPortfolio) (key : PositionKey) (kept : ℤ) : ℤ :=
  if after.position key = none then 0
  else (if before.position key = none then 0 else kept) +
    (after.realizedPnlMicros - before.realizedPnlMicros)

/-- What an order takes out of the total: the life of a position that it closes, and what was
left in the row of a position that it opens. -/
def forgottenResult (before after : ContractPortfolio) (key : PositionKey) (kept : ℤ) : ℤ :=
  if after.position key = none then
    kept + (after.realizedPnlMicros - before.realizedPnlMicros)
  else if before.position key = none then kept
  else 0

/-- The result of an order stays in its row or is forgotten. -/
theorem resultAfterOrder_add_forgottenResult (before after : ContractPortfolio)
    (key : PositionKey) (kept : ℤ) :
    resultAfterOrder before after key kept + forgottenResult before after key kept =
      kept + (after.realizedPnlMicros - before.realizedPnlMicros) := by
  unfold resultAfterOrder forgottenResult
  split_ifs <;> ring

namespace OrderBooked

variable {before after : ContractPortfolio} {request : OrderRequest} {fills : List EconomicFill}
  {operationId : String} {occurredAt : Datetime} {entry : LedgerEntry} {loop : FillLoop}

theorem realized_eq
    (h : OrderBooked before request fills operationId occurredAt after entry loop)
    (hopen : before.AllOpen) : after.realizedPnlMicros - before.realizedPnlMicros =
      (loop.movement request).realized := by
  have hresult : after.realizedPnlMicros =
      before.realizedPnlMicros + (loop.movement request).realized :=
    congrArg Books.Account.realized (h.account hopen)
  rw [hresult]
  ring

/-- What the position that an order leaves has realized. -/
theorem position_realized
    (h : OrderBooked before request fills operationId occurredAt after entry loop)
    (hopen : before.AllOpen) {kept : ℤ} (hkept : ∀ position,
      before.position request.positionKey = some position → kept = position.realizedPnlMicros) :
    ((after.position request.positionKey).elim 0 fun position => position.realizedPnlMicros) =
      resultAfterOrder before after request.positionKey kept := by
  have hholding : after.account.holding request.positionKey =
      (before.account.holding request.positionKey + (loop.movement request).holding).closeOut := by
    rw [h.account hopen]
    exact Books.Account.holding_post_self before.account (loop.movement request)
  rw [resultAfterOrder, h.realized_eq hopen]
  rw [ContractPortfolio.account_holding, ContractPortfolio.account_holding] at hholding
  cases hafter : after.position request.positionKey with
  | none => rw [Option.elim_none, if_pos rfl]
  | some left =>
      rw [hafter, Option.elim_some] at hholding
      have hunits : left.holding.units ≠ 0 := ((h.allOpen hopen).contractUnits_pos hafter).ne'
      -- What is left has units, so nothing was closed out.
      rw [hholding, Books.Holding.closeOut_units] at hunits
      rw [Books.Holding.closeOut_of_units_ne_zero hunits] at hholding
      have hrealized : left.realizedPnlMicros = _ := congrArg Books.Holding.realized hholding
      rw [Option.elim_some, if_neg (by simp), hrealized, Books.Holding.add_realized]
      congr 1
      cases hbefore : before.position request.positionKey with
      | none => rw [if_pos rfl]; rfl
      | some position =>
          rw [if_neg (by simp), hkept position hbefore]
          rfl

/-- An order leaves the positions of other markets and outcomes. -/
theorem position_holding_of_ne
    (h : OrderBooked before request fills operationId occurredAt after entry loop)
    (hopen : before.AllOpen) {key : PositionKey} (hkey : key ≠ request.positionKey) :
    (after.position key).map ContractPosition.holding =
      (before.position key).map ContractPosition.holding := by
  apply (h.allOpen hopen).position_holding_eq hopen
  rw [h.account hopen]
  exact Books.Account.holding_post_of_ne before.account hkey

end OrderBooked

namespace Database

variable {db next : Database} {agentId operationId : String} {result : OrderResultFields}
  {before after : ContractPortfolio}

/-- What an order with fills does to the results: its row has that of the position it leaves. -/
structure BooksResult (db : Database) (agentId : String) (key : PositionKey)
    (before after : ContractPortfolio) (next : Database) : Prop where
  loaded : before.realizedPnlMicros = db.realizedPnlMicros agentId
  row : next.rowResult agentId key =
    resultAfterOrder before after key (db.rowResult agentId key)
  total : next.realizedPnlMicros agentId +
    forgottenResult before after key (db.rowResult agentId key) = after.realizedPnlMicros
  others : ∀ other, other ≠ (agentId, key) →
    next.rowResult other.1 other.2 = db.rowResult other.1 other.2
  reloads : ∀ reloaded, next.loadContractPortfolio agentId = .ok reloaded →
    reloaded.realizedPnlMicros +
        forgottenResult before after key (db.rowResult agentId key) = after.realizedPnlMicros ∧
      ∀ other, (reloaded.position other).map ContractPosition.holding =
        (after.position other).map ContractPosition.holding

theorem MovesOrder.booksResult
    (h : MovesOrder db result agentId operationId before after next)
    (hloads : db.Loads agentId before) {occurredAt : Datetime} {entry : LedgerEntry}
    {loop : FillLoop} (hbooked : OrderBooked before result.request result.fills
      result.operationId occurredAt after entry loop) :
    db.BooksResult agentId result.request.positionKey before after next := by
  have hopen := hloads.allOpen
  have hrealized := hbooked.position_realized hopen
    (fun position hposition => hloads.rowResult_eq hposition)
  have hrow : next.rowResult agentId result.request.positionKey =
      resultAfterOrder before after result.request.positionKey
        (db.rowResult agentId result.request.positionKey) :=
    (rowResult_upsert_self h.positions).trans hrealized
  have htotal : next.realizedPnlMicros agentId +
      db.rowResult agentId result.request.positionKey =
        db.realizedPnlMicros agentId + resultAfterOrder before after result.request.positionKey
          (db.rowResult agentId result.request.positionKey) := by
    rw [← hrealized]
    exact realizedPnlMicros_upsert rfl h.positions
  have hconserved := resultAfterOrder_add_forgottenResult before after
    result.request.positionKey (db.rowResult agentId result.request.positionKey)
  have hbefore := hloads.realized
  have hreloaded : next.realizedPnlMicros agentId + forgottenResult before after
      result.request.positionKey (db.rowResult agentId result.request.positionKey) =
        after.realizedPnlMicros := by
    linarith
  refine ⟨hbefore, hrow, hreloaded, ?_, ?_⟩
  · intro other hother
    exact rowResult_upsert_of_ne h.positions (Ne.symm hother)
  · intro reloaded hload
    refine ⟨(load_spec hload).realized.symm ▸ hreloaded, fun other => ?_⟩
    rw [(load_spec hload).holding_eq]
    by_cases hother : other = result.request.positionKey
    · subst hother
      rw [show next.position agentId result.request.positionKey = _ from
        position_upsert_self h.positions]
      cases hafter : after.position result.request.positionKey with
      | none =>
          rw [Option.filter_some, if_neg (by simp [contractPositionRow, hafter])]
          rfl
      | some left =>
          have hpos := (hbooked.allOpen hopen).contractUnits_pos hafter
          rw [Option.filter_some, if_pos (by simpa [contractPositionRow, hafter] using hpos)]
          simp [contractPositionRow, hafter, PositionRow.holding, ContractPosition.holding]
    · rw [position_upsert_of_ne h.positions hother, ← hloads.holding_eq,
        hbooked.position_holding_of_ne hopen hother]

/-- What a settlement does to the results: it adds to its row. -/
theorem RecordsSettlement.results {digests : Digests} {record : SettlementRecord}
    {key : PositionKey} {resolutionId : String}
    (h : RecordsSettlement digests db record agentId key resolutionId before after next) :
    next.rowResult agentId key = db.rowResult agentId key + record.realizedPnlMicros ∧
      next.realizedPnlMicros agentId =
        db.realizedPnlMicros agentId + record.realizedPnlMicros ∧
      ∀ other, other ≠ (agentId, key) →
        next.rowResult other.1 other.2 = db.rowResult other.1 other.2 := by
  obtain ⟨row, hrow, hpositions⟩ := h.positions
  have hrowKey : row.key = (agentId, key) := KeyedList.key_of_lookup_eq_some hrow
  have hresult : db.rowResult agentId key = row.realizedPnlMicros := by
    rw [rowResult, hrow]
    rfl
  obtain ⟨written, hpositions, hkey, hwritten⟩ : ∃ written : PositionRow,
      next.positions = KeyedList.upsert PositionRow.key written db.positions ∧
        written.key = (agentId, key) ∧
        written.realizedPnlMicros = db.rowResult agentId key + record.realizedPnlMicros :=
    ⟨_, hpositions, hrowKey, by rw [hresult]⟩
  have hagent : written.agentId = agentId := congrArg Prod.fst hkey
  have hmarket : written.marketOutcome = key := congrArg Prod.snd hkey
  have hself := rowResult_upsert_self hpositions
  have htotal := realizedPnlMicros_upsert hagent hpositions
  rw [hagent, hmarket, hwritten] at hself
  rw [hmarket, hwritten] at htotal
  refine ⟨hself, by linarith, ?_⟩
  intro other hother
  apply rowResult_upsert_of_ne hpositions
  intro hsame
  exact hother (hsame.symm.trans hkey)

end Database

/-! ## Steps -/

/-- What the result of a row becomes with what a step has recorded. -/
def resultAfterStep (agentId : String) (key : PositionKey) (kept : ℤ) :
    Except Raised WorkerEvent → ℤ
  | .ok (.recorded decision persisted) =>
      if persisted.created ∧ decision.result.fills ≠ [] ∧
          decision.result.request.agentId = agentId ∧
          decision.result.request.positionKey = key then
        match decision.result.portfolioBefore, decision.result.portfolioAfter with
        | some before, some after => resultAfterOrder before after key kept
        | _, _ => kept
      else kept
  | .ok (.settled record persisted) =>
      if persisted.created ∧ record.ledgerEntry.agentId = agentId ∧
          (record.marketRef, record.outcome) = key then
        kept + record.realizedPnlMicros
      else kept
  | _ => kept

/-- The rows of agents whose books are not moved keep their results. -/
theorem resultAfterStep_of_not_moved {agentId : String} {answer : Except Raised WorkerEvent}
    (h : movedAgent answer ≠ some agentId) (key : PositionKey) (kept : ℤ) :
    resultAfterStep agentId key kept answer = kept := by
  cases answer with
  | error error => rfl
  | ok event =>
      cases event with
      | proceeded => rfl
      | reserved reservation => rfl
      | answered result => rfl
      | recorded decision persisted =>
          apply if_neg
          rintro ⟨hcreated, hfills, hagent, -⟩
          apply h
          rw [movedAgent, if_pos ⟨hcreated, hfills⟩, hagent]
      | settled record persisted =>
          apply if_neg
          rintro ⟨hcreated, hagent, -⟩
          apply h
          rw [movedAgent, if_pos hcreated, hagent]

namespace Runtime

variable {runtime : Runtime} {earlier : Database → Prop} {state : Workers}

/-- What a step does to the results of the rows and to what is loaded from them. -/
structure StepResults (state : Workers) (reached : Workers × Except Raised WorkerEvent) :
    Prop where
  /-- Every row goes on with its result. -/
  rows : ∀ agentId key, reached.1.db.rowResult agentId key =
    resultAfterStep agentId key (state.db.rowResult agentId key) reached.2
  /-- A new order with fills was decided on the total that is loaded. -/
  order : ∀ decision persisted, reached.2 = .ok (.recorded decision persisted) →
    persisted.created = true → decision.result.fills ≠ [] →
      ∃ before after, decision.result.portfolioBefore = some before ∧
        decision.result.portfolioAfter = some after ∧
        state.db.BooksResult decision.result.request.agentId decision.result.request.positionKey
          before after reached.1.db
  /-- A new settlement adds what it realizes. -/
  settlement : ∀ record persisted, reached.2 = .ok (.settled record persisted) →
    persisted.created = true →
      reached.1.db.realizedPnlMicros record.ledgerEntry.agentId =
        state.db.realizedPnlMicros record.ledgerEntry.agentId + record.realizedPnlMicros
  /-- Nothing else changes a total. -/
  others : ∀ agentId, movedAgent reached.2 ≠ some agentId →
    reached.1.db.realizedPnlMicros agentId = state.db.realizedPnlMicros agentId

/-- A step that leaves the rows and moves nobody's books. -/
theorem StepResults.aside {reached : Workers × Except Raised WorkerEvent}
    (hpositions : reached.1.db.positions = state.db.positions)
    (hmoved : movedAgent reached.2 = none) : StepResults state reached := by
  constructor
  · intro agentId key
    rw [resultAfterStep_of_not_moved (by rw [hmoved]; simp), Database.rowResult,
      Database.rowResult, Database.position, Database.position, hpositions]
  · intro decision persisted hanswer hcreated hfills
    rw [hanswer, movedAgent, if_pos ⟨hcreated, hfills⟩] at hmoved
    cases hmoved
  · intro record persisted hanswer hcreated
    rw [hanswer, movedAgent, if_pos hcreated] at hmoved
    cases hmoved
  · intro agentId _
    rw [Database.realizedPnlMicros, Database.realizedPnlMicros, hpositions]

/-- A new order books its result on the portfolio that it was decided on. -/
theorem booksResult (h : state.Kept runtime.digests earlier) {worker : ℕ} {call : Submission}
    {reservedId : String} {portfolio : ContractPortfolio} {decision : Decision} {next : Database}
    (hjob : state.jobs worker = .decided call reservedId portfolio decision)
    (hrecords : Database.RecordsOrder runtime.digests state.db
      decision.result.toOrderResultFields call.agentId reservedId next)
    (hfills : decision.result.fills ≠ []) :
    ∃ before after, decision.result.portfolioBefore = some before ∧
      decision.result.portfolioAfter = some after ∧
      state.db.BooksResult call.agentId decision.result.request.positionKey before after next := by
  have hsound := h.jobs worker
  rw [hjob] at hsound
  obtain ⟨-, hdecides, loaded, -, hloaded⟩ := hsound
  obtain ⟨-, hversion⟩ := version_of_recordsOrder hrecords hdecides.accounted hfills
  have hloads := hloaded.loads hversion
  rcases hrecords.books with ⟨hnone, -⟩ | ⟨-, before, after, hbefore, hafter, hmoves⟩
  · exact absurd hnone hfills
  · cases hdecides.accounted with
    | unfilled hnone => exact absurd hnone hfills
    | filled hbooked hbefore' hafter' hentries =>
        obtain rfl := Option.some.inj (hbefore.symm.trans hbefore')
        obtain rfl := Option.some.inj (hafter.symm.trans hafter')
        obtain ⟨loop, -, hbooked⟩ := applyOrderFills_spec hbooked
        exact ⟨before, after, hbefore, hafter, hmoves.booksResult hloads hbooked⟩

theorem step_results (h : state.Kept runtime.digests earlier) (hnow : earlier state.db)
    (action : WorkerAction) : StepResults state (runtime.step state action) := by
  have htransition := (step_kept h hnow action).transition
  have hothers : ∀ agentId, movedAgent (runtime.step state action).2 ≠ some agentId →
      (runtime.step state action).1.db.realizedPnlMicros agentId =
        state.db.realizedPnlMicros agentId := fun agentId hmoved =>
    Database.realizedPnlMicros_eq_of_books (htransition.others agentId hmoved).2
  cases step_writes h action with
  | nothing hunchanged _ hmoved => exact .aside (by rw [hunchanged]) hmoved
  | beside _ _ hmoved _ _ hpositions _ => exact .aside hpositions hmoved
  | @order worker call reservedId portfolio decision persisted _ hjob hanswered hcreated
      hrecords =>
      have howned := h.agentId_of_decided hjob
      refine ⟨?_, ?_, ?_, hothers⟩
      · intro agentId key
        by_cases hfills : decision.result.fills = []
        · rw [hanswered, resultAfterStep_of_not_moved (by simp [movedAgent, hfills])]
          rcases hrecords.books with ⟨-, hbooks⟩ | ⟨hsome, -⟩
          · rw [Database.rowResult, Database.rowResult, Database.position, Database.position,
              hbooks.positions]
          · exact absurd hfills hsome
        · obtain ⟨before, after, hbefore, hafter, hresult⟩ := booksResult h hjob hrecords hfills
          by_cases hkey : call.agentId = agentId ∧ decision.result.request.positionKey = key
          · obtain ⟨rfl, rfl⟩ := hkey
            rw [hanswered, resultAfterStep, if_pos ⟨hcreated, hfills, howned, rfl⟩, hbefore,
              hafter]
            exact hresult.row
          · rw [hanswered, resultAfterStep, if_neg]
            · refine hresult.others (agentId, key) ?_
              rintro ⟨⟩
              exact hkey ⟨rfl, rfl⟩
            · rintro ⟨-, -, hagent, hsame⟩
              exact hkey ⟨howned.symm.trans hagent, hsame⟩
      · intro other persisted' hanswer _ hfills
        rw [hanswered] at hanswer
        cases hanswer
        rw [howned]
        exact booksResult h hjob hrecords hfills
      · intro record persisted' hanswer
        rw [hanswered] at hanswer
        cases hanswer
  | @settlement worker clock pass portfolio after row record persisted _ _ _ hanswered hcreated
      hsettles _ =>
      cases hsettles with
      | replayed hcreated' =>
          rw [hcreated] at hcreated'
          cases hcreated'
      | @recorded _ position _ _ _ _ hbooked hposition howned _ hrecords =>
          have hagent : record.ledgerEntry.agentId = pass.agentId := by
            rw [hbooked.entry_agentId, howned]
          have hheld : position.key = row.key := KeyedList.key_of_lookup_eq_some hposition
          have hkey : (record.marketRef, record.outcome) = row.key := by
            rw [hbooked.record_eq]
            exact hheld
          obtain ⟨hrow, htotal, hrest⟩ := hrecords.results
          refine ⟨?_, ?_, ?_, hothers⟩
          · intro agentId key
            by_cases hsame : pass.agentId = agentId ∧ row.key = key
            · obtain ⟨rfl, rfl⟩ := hsame
              rw [hanswered, resultAfterStep, if_pos ⟨hcreated, hagent, hkey⟩]
              exact hrow
            · rw [hanswered, resultAfterStep, if_neg]
              · refine hrest (agentId, key) ?_
                rintro ⟨⟩
                exact hsame ⟨rfl, rfl⟩
              · rintro ⟨-, hother, hother'⟩
                exact hsame ⟨hagent.symm.trans hother, hkey.symm.trans hother'⟩
          · intro decision persisted' hanswer
            rw [hanswered] at hanswer
            cases hanswer
          · intro other persisted' hanswer _
            rw [hanswered] at hanswer
            cases hanswer
            rw [hagent]
            exact htotal

/-! ## Runs -/

theorem kept_run {start : Workers} (h : start.AtRest) (actions : List WorkerAction) :
    (Runs.final runtime.step start actions).Kept runtime.digests fun _ => True :=
  Runs.final_invariant runtime.step
    (fun _ state => state.Kept runtime.digests fun _ => True) h.kept
    (fun _ _ action hkept => (step_kept hkept trivial action).kept) actions

/-- However the steps of any number of workers are interleaved, the result in the row of a
position is what has been realized under its key since it was last opened or sold out: a fold
over what the run has recorded. -/
theorem realized_results (runtime : Runtime) {start : Workers} (h : start.AtRest)
    (actions : List WorkerAction) (agentId : String) (key : PositionKey) :
    (Runs.final runtime.step start actions).db.rowResult agentId key =
      ((Runs.trace runtime.step start actions).map Prod.snd).foldl (resultAfterStep agentId key)
        (start.db.rowResult agentId key) := by
  refine (Runs.final_invariant runtime.step
    (fun trace state => (state.Kept runtime.digests fun _ => True) ∧
      state.db.rowResult agentId key = (trace.map Prod.snd).foldl (resultAfterStep agentId key)
        (start.db.rowResult agentId key)) ⟨h.kept, rfl⟩ ?_ actions).2
  rintro seen state action ⟨hkept, hrow⟩
  refine ⟨(step_kept hkept trivial action).kept, ?_⟩
  rw [(step_results hkept trivial action).rows, hrow, List.map_append, List.foldl_append]
  rfl

end Runtime

namespace Sample

/-- A purchase is settled, and then the same position is bought again. -/
def reopened : List WorkerAction :=
  observedPurchase ++ [.settle 1 moment] ++ purchaseAgain 2 "other" other_valid

end Sample

set_option maxRecDepth 10000 in
/-- A purchase starts its row over from what the settlement left there. -/
theorem realized_results_reopened :
    (Runs.final Sample.runtime.step Sample.workers
      (Sample.observedPurchase ++ [.settle 1 Sample.moment])).db.rowResult "agent"
        (Sample.market, .yes) = 570000 ∧
    ((Runs.trace Sample.runtime.step Sample.workers Sample.reopened).map Prod.snd).foldl
      (resultAfterStep "agent" (Sample.market, .yes)) 0 = 0 := by
  constructor
  · decide +kernel
  · have hfold := Sample.runtime.realized_results Sample.workers_atRest Sample.reopened "agent"
      (Sample.market, .yes)
    have hreached : (Runs.final Sample.runtime.step Sample.workers Sample.reopened).db.rowResult
        "agent" (Sample.market, .yes) = 0 := by
      decide +kernel
    exact hfold.symm.trans hreached

namespace Runtime

variable {runtime : Runtime}

/-- However the steps of any number of workers are interleaved: a new order with fills is decided
on the total that is loaded, and what is loaded after it has the position results of the
portfolio that it leaves and its total less what the order forgets; a new settlement adds what it
realizes to the total, and nothing else changes it. -/
theorem realized_totals (runtime : Runtime) {start : Workers} (h : start.AtRest)
    (actions : List WorkerAction) :
    ∀ before action after, actions = before ++ action :: after →
      StepResults (Runs.final runtime.step start before)
        (runtime.step (Runs.final runtime.step start before) action) := by
  rintro before action after rfl
  exact step_results (kept_run h before) trivial action

end Runtime

set_option maxRecDepth 10000 in
/-- A purchase after a settlement is decided on the total, and is loaded without it. -/
theorem realized_totals_reopened :
    ∃ decision persisted after,
      (Sample.runtime.step (Runs.final Sample.runtime.step Sample.workers
        (Sample.reopened.take 11)) (.persist 2)).2 = .ok (.recorded decision persisted) ∧
      decision.result.portfolioAfter = some after ∧ after.realizedPnlMicros = 570000 ∧
      (Runs.final Sample.runtime.step Sample.workers Sample.reopened).db.realizedPnlMicros
        "agent" + 570000 = after.realizedPnlMicros := by
  obtain ⟨event, hevent, htest⟩ := Checks.exists_ok_of_any
    (Sample.runtime.step (Runs.final Sample.runtime.step Sample.workers
      (Sample.reopened.take 11)) (.persist 2)).2
    (fun event => match event with
      | .proceeded => false
      | .reserved _ => false
      | .answered _ => false
      | .recorded decision persisted =>
          persisted.created && decide (decision.result.fills ≠ []) &&
            decide (decision.result.request.agentId = "agent") &&
            (decision.result.portfolioBefore.any fun before =>
              (before.position (Sample.market, .yes)).isNone) &&
            decide (decision.result.request.positionKey = (Sample.market, .yes)) &&
            (decision.result.portfolioAfter.any fun after =>
              (after.position (Sample.market, .yes)).isSome && after.realizedPnlMicros == 570000)
      | .settled _ _ => false) (by decide +kernel)
  have hkept : (Runs.final Sample.runtime.step Sample.workers
      (Sample.reopened.take 11)).db.rowResult "agent" (Sample.market, .yes) = 570000 := by
    decide +kernel
  cases event with
  | recorded decision persisted =>
      simp only [Bool.and_eq_true, decide_eq_true_eq, Option.any_eq_true] at htest
      obtain ⟨⟨⟨⟨⟨hcreated, hfills⟩, hagent⟩, before, hbefore, hnone⟩, hkey⟩, after, hafter,
        hopen, htotal⟩ := htest
      obtain ⟨before', after', hbefore', hafter', hresult⟩ :=
        (Sample.runtime.realized_totals Sample.workers_atRest Sample.reopened
          (Sample.reopened.take 11) (.persist 2) [] rfl).order decision persisted hevent hcreated
            hfills
      obtain rfl := Option.some.inj (hbefore.symm.trans hbefore')
      obtain rfl := Option.some.inj (hafter.symm.trans hafter')
      have hreloaded := hresult.total
      rw [hagent, hkey, forgottenResult, if_neg (Option.isSome_iff_ne_none.mp hopen),
        if_pos (Option.isNone_iff_eq_none.mp hnone), hkept, ← Runs.final_concat] at hreloaded
      exact ⟨decision, persisted, after, hevent, hafter, by simpa using htotal, hreloaded⟩
  | proceeded => cases htest
  | reserved reservation => cases htest
  | answered result => cases htest
  | settled record persisted => cases htest

end VTrade
