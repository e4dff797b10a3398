/-
# The form of a canonical book

Of every book that is built the asks mirror the bids, all sides run strictly from the best price
on and nothing is crossed.  The two outcomes are treated alike, and no bids whatsoever make the
book raise that its levels are out of order.
-/

import VTrade.Accounting
import VTrade.CanonicalBook

namespace VTrade

/-! ## The book that is built -/

theorem requireAwareTime_eq_ok {value : Datetime} {field : String} {instant : Instant} :
    requireAwareTime value field = .ok instant ↔
      value.isAware = true ∧ value.instant = instant := by
  unfold requireAwareTime
  split
  next h => simp [h]
  next h => simp [h]

/-- The two outcomes of a book exchanged. -/
def CanonicalOrderBook.swapped (book : CanonicalOrderBook) : CanonicalOrderBook :=
  { book with
    yesBids := book.noBids
    yesAsks := book.noAsks
    noBids := book.yesBids
    noAsks := book.yesAsks
    yesBids_descending := book.noBids_descending
    yesAsks_ascending := book.noAsks_ascending
    noBids_descending := book.yesBids_descending
    noAsks_ascending := book.yesAsks_ascending }

section Building

variable {readings : BookReadings} {marketKey : MarketKey} {grid : PriceGrid}
  {yesBids noBids : RawLevels} {observedAt cutoff : Datetime} {artifact : RawArtifact}
  {sourceTimestamp : Option Datetime} {book : CanonicalOrderBook}

/-- The book that is built of some bids, and that nothing speaks against it. -/
structure Built (readings : BookReadings) (marketKey : MarketKey) (grid : PriceGrid)
    (yesBids noBids : RawLevels) (observedAt cutoff : Datetime) (artifact : RawArtifact)
    (sourceTimestamp : Option Datetime) (book : CanonicalOrderBook) : Prop where
  yes_read : readings.parseBookLevels yesBids grid "yes_dollars" = .ok book.yesBids
  no_read : readings.parseBookLevels noBids grid "no_dollars" = .ok book.noBids
  yes_reciprocal : ∀ level ∈ book.yesBids, grid.contains (1000000 - level.price) = true
  no_reciprocal : ∀ level ∈ book.noBids, grid.contains (1000000 - level.price) = true
  yesAsks_eq : book.yesAsks = book.noBids.map CanonicalLevel.mirrored
  noAsks_eq : book.noAsks = book.yesBids.map CanonicalLevel.mirrored
  uncrossed : ¬ Crossed book.yesBids book.noBids
  observedAt_eq : observedAt.isAware = true ∧ observedAt.instant = book.observedAt
  cutoff_eq : cutoff.isAware = true ∧ cutoff.instant = book.cutoff
  source_le : ∀ time ∈ sourceTimestamp, time.isAware = true ∧ time.instant ≤ book.cutoff
  marketKey_eq : book.marketKey = marketKey
  snapshotId_eq : book.snapshotId =
    readings.snapshotId marketKey observedAt.instant artifact.sha256

theorem derivedAsks_eq_ok_iff {levels asks : List CanonicalLevel} {field : String}
    (h : Descending levels) :
    derivedAsks grid levels field = .ok asks ↔
      (∀ level ∈ levels, grid.contains (1000000 - level.price) = true) ∧
        asks = levels.map CanonicalLevel.mirrored := by
  unfold derivedAsks
  by_cases hempty : levels = []
  · rw [if_neg (not_not.mpr hempty), hempty]
    constructor
    · intro hnone
      cases hnone
      exact ⟨by simp, rfl⟩
    · rintro ⟨-, rfl⟩
      rfl
  · rw [if_pos hempty]
    exact reciprocal_eq_ok_iff h

theorem mapM_requireAware {sourceTimestamp : Option Datetime} {field : String}
    {times : Option Instant} :
    sourceTimestamp.mapM (requireAwareTime · field) = .ok times ↔
      (∀ time ∈ sourceTimestamp, time.isAware = true) ∧
        times = sourceTimestamp.map Datetime.instant := by
  cases sourceTimestamp with
  | none =>
      change (.ok none : Except Raised (Option Instant)) = .ok times ↔ _
      constructor
      · intro hnone
        cases hnone
        exact ⟨by simp, rfl⟩
      · rintro ⟨-, rfl⟩
        rfl
  | some time =>
      change (some <$> requireAwareTime time field) = .ok times ↔ _
      simp only [Functor.map]
      rw [Checks.map_eq_ok]
      simp only [requireAwareTime_eq_ok, Option.mem_some_iff, forall_eq', Option.map_some]
      constructor
      · rintro ⟨instant, ⟨haware, rfl⟩, rfl⟩
        exact ⟨haware, rfl⟩
      · rintro ⟨haware, rfl⟩
        exact ⟨_, ⟨haware, rfl⟩, rfl⟩

theorem make_eq_ok {fields : OrderBookFields} {snapshotId : String} :
    fields.make snapshotId = .ok book ↔ fields.postInit = .ok () ∧
      fields.marketKey = book.marketKey ∧ fields.yesBids = book.yesBids ∧
      fields.yesAsks = book.yesAsks ∧ fields.noBids = book.noBids ∧ fields.noAsks = book.noAsks ∧
      fields.observedAt = book.observedAt ∧ fields.cutoff = book.cutoff ∧
      snapshotId = book.snapshotId := by
  unfold OrderBookFields.make
  rw [Checks.build_eq_ok_iff]
  constructor
  · rintro ⟨hvalid, rfl⟩
    exact ⟨hvalid, rfl, rfl, rfl, rfl, rfl, rfl, rfl, rfl⟩
  · rintro ⟨hvalid, h1, h2, h3, h4, h5, h6, h7, h8⟩
    refine ⟨hvalid, ?_⟩
    obtain ⟨marketKey, yesBids, yesAsks, noBids, noAsks, observedAt, cutoff, snapshotId⟩ := book
    simp only at h1 h2 h3 h4 h5 h6 h7 h8
    subst h1 h2 h3 h4 h5 h6 h7 h8
    rfl

theorem buildCanonicalOrderBook_eq_ok_iff :
    buildCanonicalOrderBook readings marketKey grid yesBids noBids observedAt cutoff artifact
        sourceTimestamp = .ok book ↔
      Built readings marketKey grid yesBids noBids observedAt cutoff artifact sourceTimestamp
        book := by
  constructor
  · intro h
    obtain ⟨yes, hyes, h⟩ := Checks.bind_eq_ok.mp h
    obtain ⟨no, hno, h⟩ := Checks.bind_eq_ok.mp h
    obtain ⟨yesAsks, hyesAsks, h⟩ := Checks.bind_eq_ok.mp h
    obtain ⟨noAsks, hnoAsks, h⟩ := Checks.bind_eq_ok.mp h
    obtain ⟨huncrossed, h⟩ := Checks.ite_error_eq_ok.mp h
    obtain ⟨observed, hobserved, h⟩ := Checks.bind_eq_ok.mp h
    obtain ⟨until', hcutoff, h⟩ := Checks.bind_eq_ok.mp h
    obtain ⟨source, hsource, h⟩ := Checks.bind_eq_ok.mp h
    obtain ⟨hvalid, h1, h2, h3, h4, h5, h6, h7, h8⟩ := make_eq_ok.mp h
    simp only at h1 h2 h3 h4 h5 h6 h7 h8
    subst h1 h2 h3 h4 h5 h6 h7
    obtain ⟨hyesGrid, hyesMirror⟩ := (derivedAsks_eq_ok_iff
      (BookReadings.parseBookLevels_descending hyes)).mp hnoAsks
    obtain ⟨hnoGrid, hnoMirror⟩ := (derivedAsks_eq_ok_iff
      (BookReadings.parseBookLevels_descending hno)).mp hyesAsks
    obtain ⟨haware, hobserved⟩ := requireAwareTime_eq_ok.mp hobserved
    obtain ⟨hsourceAware, rfl⟩ := mapM_requireAware.mp hsource
    have hsourceLe := (OrderBookFields.postInit_eq_ok.mp hvalid).1
    refine ⟨hyes, hno, hyesGrid, hnoGrid, hnoMirror, hyesMirror, huncrossed, ⟨haware, hobserved⟩,
      requireAwareTime_eq_ok.mp hcutoff, fun time hmem => ?_, rfl, ?_⟩
    · exact ⟨hsourceAware time hmem, hsourceLe _ (Option.mem_map_of_mem _ hmem)⟩
    · rw [hobserved]
      exact h8.symm
  · intro h
    refine Checks.bind_eq_ok.mpr ⟨_, h.yes_read, Checks.bind_eq_ok.mpr ⟨_, h.no_read,
      Checks.bind_eq_ok.mpr ⟨book.yesAsks, (derivedAsks_eq_ok_iff book.noBids_descending).mpr
        ⟨h.no_reciprocal, h.yesAsks_eq⟩, Checks.bind_eq_ok.mpr ⟨book.noAsks,
          (derivedAsks_eq_ok_iff book.yesBids_descending).mpr ⟨h.yes_reciprocal, h.noAsks_eq⟩,
          Checks.ite_error_eq_ok.mpr ⟨h.uncrossed, ?_⟩⟩⟩⟩⟩
    refine Checks.bind_eq_ok.mpr ⟨_, requireAwareTime_eq_ok.mpr h.observedAt_eq,
      Checks.bind_eq_ok.mpr ⟨_, requireAwareTime_eq_ok.mpr h.cutoff_eq,
        Checks.bind_eq_ok.mpr ⟨_, mapM_requireAware.mpr
          ⟨fun time hmem => (h.source_le time hmem).1, rfl⟩, ?_⟩⟩⟩
    refine make_eq_ok.mpr ⟨OrderBookFields.postInit_eq_ok.mpr ⟨?_, book.observed_le_cutoff,
      book.yesBids_descending, book.yesAsks_ascending, book.noBids_descending,
      book.noAsks_ascending⟩, h.marketKey_eq.symm, rfl, rfl, rfl, rfl, rfl, rfl, ?_⟩
    · intro time hmem
      obtain ⟨source, hsource, rfl⟩ := Option.mem_map.mp hmem
      exact (h.source_le source hsource).2
    · rw [h.snapshotId_eq, h.observedAt_eq.2]

/-- The bids of the outcomes exchanged give the book with the outcomes exchanged. -/
theorem Built.swapped
    (h : Built readings marketKey grid yesBids noBids observedAt cutoff artifact sourceTimestamp
      book) :
    Built readings marketKey grid noBids yesBids observedAt cutoff artifact sourceTimestamp
      book.swapped where
  yes_read := BookReadings.parseBookLevels_field h.no_read _
  no_read := BookReadings.parseBookLevels_field h.yes_read _
  yes_reciprocal := h.no_reciprocal
  no_reciprocal := h.yes_reciprocal
  yesAsks_eq := h.noAsks_eq
  noAsks_eq := h.yesAsks_eq
  uncrossed := by
    rintro ⟨bestNo, hno, bestYes, hyes, hsum⟩
    exact h.uncrossed ⟨bestYes, hyes, bestNo, hno, by omega⟩
  observedAt_eq := h.observedAt_eq
  cutoff_eq := h.cutoff_eq
  source_le := h.source_le
  marketKey_eq := h.marketKey_eq
  snapshotId_eq := h.snapshotId_eq

/-- The best bid for either outcome is below the best ask for it. -/
theorem Built.bestBid_lt_bestAsk
    (h : Built readings marketKey grid yesBids noBids observedAt cutoff artifact sourceTimestamp
      book) (side : OutcomeSide) :
    ∀ bid ∈ book.bestBid side, ∀ ask ∈ book.bestAsk side, bid.price < ask.price := by
  intro bid hbid ask hask
  unfold CanonicalOrderBook.bestBid at hbid
  unfold CanonicalOrderBook.bestAsk at hask
  cases side with
  | yes =>
      simp only [CanonicalOrderBook.bids, CanonicalOrderBook.asks] at hbid hask
      rw [h.yesAsks_eq, List.head?_map] at hask
      obtain ⟨opposite, hopposite, rfl⟩ := Option.mem_map.mp hask
      have huncrossed : ¬ (bid.price + opposite.price ≥ 1000000) := fun hsum =>
        h.uncrossed ⟨bid, hbid, opposite, hopposite, hsum⟩
      unfold CanonicalLevel.mirrored
      simp only
      omega
  | no =>
      simp only [CanonicalOrderBook.bids, CanonicalOrderBook.asks] at hbid hask
      rw [h.noAsks_eq, List.head?_map] at hask
      obtain ⟨opposite, hopposite, rfl⟩ := Option.mem_map.mp hask
      have huncrossed : ¬ (opposite.price + bid.price ≥ 1000000) := fun hsum =>
        h.uncrossed ⟨opposite, hopposite, bid, hbid, hsum⟩
      unfold CanonicalLevel.mirrored
      simp only
      omega

end Building

/-! ## What is never raised -/

/-- What `CanonicalOrderBook` raises of levels out of order. -/
def OrderError (error : Raised) : Prop :=
  error = .valueError "bids must be ordered by descending price" ∨
    error = .valueError "asks must be ordered by ascending price"

instance (error : Raised) : Decidable (OrderError error) :=
  inferInstanceAs (Decidable (_ ∨ _))

/-- No text that begins with the field is that of such an error. -/
def Apart (field : String) : Prop := ∀ rest, ¬ OrderError (.valueError (field ++ rest))

theorem Apart.append {field : String} (h : Apart field) (more : String) :
    Apart (field ++ more) := by
  intro rest
  rw [String.append_assoc]
  exact h (more ++ rest)

theorem apart_of_not_prefix {field : String}
    (hbids : ¬ field.toList <+: "bids must be ordered by descending price".toList)
    (hasks : ¬ field.toList <+: "asks must be ordered by ascending price".toList) :
    Apart field := by
  rintro rest (h | h)
  · apply hbids
    rw [← Raised.valueError.inj h, String.toList_append]
    exact List.prefix_append _ _
  · apply hasks
    rw [← Raised.valueError.inj h, String.toList_append]
    exact List.prefix_append _ _

/-- The computation raises no error of levels out of order. -/
abbrev KeepsOrder {α : Type} (x : Except Raised α) : Prop :=
  Checks.RaisesOnly (fun error => ¬ OrderError error) x

namespace BookReadings

variable {readings : BookReadings} {field : String}

theorem exactDecimal_keepsOrder (hfield : Apart field) (value : LevelValue) :
    KeepsOrder (readings.exactDecimal value field) := by
  have hfinite (parsed : DecimalValue) : KeepsOrder (readings.exactDecimal (.decimal parsed) field) := by
    cases parsed with
    | finite parsed => exact Checks.raisesOnly_ok parsed
    | infinity negative => exact Checks.raisesOnly_error (hfield _)
    | nan => exact Checks.raisesOnly_error (hfield _)
  cases value with
  | inexact => exact Checks.raisesOnly_error (hfield _)
  | integer value => exact Checks.raisesOnly_ok _
  | decimal value => exact hfinite value
  | text value =>
      unfold exactDecimal
      dsimp only
      cases readings.decimal value with
      | none => exact Checks.raisesOnly_error (hfield _)
      | some parsed => exact hfinite parsed
  | other => exact Checks.raisesOnly_error (hfield _)

theorem toPriceMicros_keepsOrder (hfield : Apart field) (value : LevelValue) :
    KeepsOrder (readings.toPriceMicros value field) := by
  refine Checks.raisesOnly_bind (exactDecimal_keepsOrder hfield _) fun amount _ => ?_
  apply Checks.raisesOnly_ite
  · exact Checks.raisesOnly_error (hfield _)
  · exact Checks.raisesOnly_ite (Checks.raisesOnly_error (hfield _)) (Checks.raisesOnly_ok _)

theorem toContractQuantity_keepsOrder (hfield : Apart field) (value : LevelValue) :
    KeepsOrder (readings.toContractQuantity value field) := by
  refine Checks.raisesOnly_bind (exactDecimal_keepsOrder hfield _) fun amount _ => ?_
  apply Checks.raisesOnly_ite
  · exact Checks.raisesOnly_error (hfield _)
  · exact Checks.raisesOnly_ite (Checks.raisesOnly_error (hfield _)) (Checks.raisesOnly_ok _)

end BookReadings

theorem PriceGrid.require_keepsOrder {field : String} (hfield : Apart field) (grid : PriceGrid)
    (price : ℤ) : KeepsOrder (grid.require price field) :=
  Checks.raisesOnly_ite (Checks.raisesOnly_ok _) (Checks.raisesOnly_error (hfield _))

theorem CanonicalLevel.make_keepsOrder (price quantity : ℤ) :
    KeepsOrder (CanonicalLevel.make price quantity) := by
  unfold CanonicalLevel.make
  split
  · split
    · exact Checks.raisesOnly_ok _
    · exact Checks.raisesOnly_error (by decide)
  · exact Checks.raisesOnly_error (by decide)

theorem BookReadings.parseLevelsFrom_keepsOrder {readings : BookReadings} {field : String}
    (hfield : Apart field) (grid : PriceGrid) (index : ℕ) (parsed : List CanonicalLevel)
    (raw : List RawLevel) :
    KeepsOrder (readings.parseLevelsFrom grid field index parsed raw) := by
  induction raw generalizing index parsed with
  | nil => exact Checks.raisesOnly_ok parsed
  | cons first rest ih =>
      have hindex : ∀ text, Apart (field ++ "[" ++ toString index ++ text) := fun text =>
        ((hfield.append _).append _).append text
      cases first with
      | pair rawPrice rawQuantity =>
          refine Checks.raisesOnly_bind (toPriceMicros_keepsOrder (hindex _) _) fun price _ => ?_
          refine Checks.raisesOnly_bind (grid.require_keepsOrder (hindex _) _) fun price _ => ?_
          refine Checks.raisesOnly_bind (toContractQuantity_keepsOrder (hindex _) _)
            fun quantity _ => ?_
          apply Checks.raisesOnly_ite
          · exact Checks.raisesOnly_error (hfield _)
          · exact Checks.raisesOnly_bind (CanonicalLevel.make_keepsOrder _ _)
              fun level _ => ih (index + 1) (parsed ++ [level])
      | other =>
          have hraised := (hfield.append "[").append (toString index)
          exact Checks.raisesOnly_error (hraised "] must be [price, quantity]")

theorem BookReadings.parseBookLevels_keepsOrder {readings : BookReadings} {field : String}
    (hfield : Apart field) (grid : PriceGrid) (raw : RawLevels) :
    KeepsOrder (readings.parseBookLevels raw grid field) := by
  cases raw with
  | array levels =>
      intro error h
      refine @parseLevelsFrom_keepsOrder readings field hfield grid 0 [] levels error ?_
      unfold parseBookLevels at h
      cases hparsed : readings.parseLevelsFrom grid field 0 [] levels with
      | ok parsed => simp [hparsed, Except.map] at h
      | error raised => simpa [hparsed, Except.map] using h
  | other => exact Checks.raisesOnly_error (hfield _)

theorem derivedAsks_keepsOrder {field : String} (hfield : Apart field) (grid : PriceGrid)
    (levels : List CanonicalLevel) : KeepsOrder (derivedAsks grid levels field) := by
  apply Checks.raisesOnly_ite
  · refine Checks.raisesOnly_bind (Checks.raisesOnly_mapM fun level => ?_)
      fun derived _ => Checks.raisesOnly_ok _
    exact Checks.raisesOnly_bind (grid.require_keepsOrder hfield _)
      fun price _ => CanonicalLevel.make_keepsOrder _ _
  · exact Checks.raisesOnly_ok []

theorem requireAwareTime_keepsOrder {field : String} (hfield : Apart field) (value : Datetime) :
    KeepsOrder (requireAwareTime value field) :=
  Checks.raisesOnly_ite (Checks.raisesOnly_ok _) (Checks.raisesOnly_error (hfield _))

/-- Levels in order are not refused for their order. -/
theorem OrderBookFields.make_keepsOrder {book : OrderBookFields} (snapshotId : String)
    (hyesBids : Descending book.yesBids) (hyesAsks : Ascending book.yesAsks)
    (hnoBids : Descending book.noBids) (hnoAsks : Ascending book.noAsks) :
    KeepsOrder (book.make snapshotId) := by
  refine Checks.raisesOnly_build fun error hraised => ?_
  have hmem := Checks.exists_mem_of_raiseFirst_eq_error hraised
  simp only [hyesBids, hyesAsks, hnoBids, hnoAsks, not_true_eq_false, decide_false,
    List.mem_cons, Prod.mk.injEq, List.not_mem_nil, or_false, Bool.true_eq_false, false_and]
    at hmem
  rcases hmem with ⟨-, rfl⟩ | ⟨-, rfl⟩
  · decide
  · decide

/-- No bids of any kind make the book out of order. -/
theorem buildCanonicalOrderBook_keepsOrder (readings : BookReadings) (marketKey : MarketKey)
    (grid : PriceGrid) (yesBids noBids : RawLevels) (observedAt cutoff : Datetime)
    (artifact : RawArtifact) (sourceTimestamp : Option Datetime) :
    KeepsOrder (buildCanonicalOrderBook readings marketKey grid yesBids noBids observedAt cutoff
      artifact sourceTimestamp) := by
  have hyesField : Apart "yes_dollars" := apart_of_not_prefix (by decide) (by decide)
  have hnoField : Apart "no_dollars" := apart_of_not_prefix (by decide) (by decide)
  have hderived : Apart "derived" := apart_of_not_prefix (by decide) (by decide)
  have hbook : Apart "book" := apart_of_not_prefix (by decide) (by decide)
  refine Checks.raisesOnly_bind (BookReadings.parseBookLevels_keepsOrder hyesField grid yesBids)
    fun yes hyes => ?_
  refine Checks.raisesOnly_bind (BookReadings.parseBookLevels_keepsOrder hnoField grid noBids)
    fun no hno => ?_
  refine Checks.raisesOnly_bind (derivedAsks_keepsOrder (hderived.append " YES ask") grid no)
    fun yesAsks hyesAsks => ?_
  refine Checks.raisesOnly_bind (derivedAsks_keepsOrder (hderived.append " NO ask") grid yes)
    fun noAsks hnoAsks => ?_
  apply Checks.raisesOnly_ite
  · exact Checks.raisesOnly_error (by decide)
  refine Checks.raisesOnly_bind (requireAwareTime_keepsOrder (hbook.append " observed_at") _)
    fun observed _ => ?_
  refine Checks.raisesOnly_bind (requireAwareTime_keepsOrder (hbook.append " cutoff") _)
    fun until' _ => ?_
  have hsource : KeepsOrder (sourceTimestamp.mapM
      (requireAwareTime · "book source_timestamp")) := by
    cases sourceTimestamp with
    | none => exact Checks.raisesOnly_ok none
    | some time =>
        exact Checks.raisesOnly_bind
          (requireAwareTime_keepsOrder (hbook.append " source_timestamp") time)
          fun instant _ => Checks.raisesOnly_ok (some instant)
  refine Checks.raisesOnly_bind hsource fun source _ => ?_
  have hyesDown := BookReadings.parseBookLevels_descending hyes
  have hnoDown := BookReadings.parseBookLevels_descending hno
  obtain ⟨-, rfl⟩ := (derivedAsks_eq_ok_iff hnoDown).mp hyesAsks
  obtain ⟨-, rfl⟩ := (derivedAsks_eq_ok_iff hyesDown).mp hnoAsks
  exact OrderBookFields.make_keepsOrder _ hyesDown hnoDown.mirrored hnoDown hyesDown.mirrored

/-! ## Canonical books -/

/-- A book in canonical form: the asks mirror the bids for the other outcome, all sides run
strictly from the best price on, and the best bid is below the best ask. -/
structure CanonicalForm (book : CanonicalOrderBook) : Prop where
  yesAsks_mirror : book.yesAsks.map (fun level => (level.price, level.quantity)) =
    book.noBids.map fun level => (1000000 - level.price, level.quantity)
  noAsks_mirror : book.noAsks.map (fun level => (level.price, level.quantity)) =
    book.yesBids.map fun level => (1000000 - level.price, level.quantity)
  bids_strict : ∀ side, (book.bids side).Pairwise fun left right => right.price < left.price
  asks_strict : ∀ side, (book.asks side).Pairwise fun left right => left.price < right.price
  uncrossed : ∀ side, ∀ bid ∈ book.bestBid side, ∀ ask ∈ book.bestAsk side, bid.price < ask.price

theorem CanonicalOrderBook.asks_pairwise (book : CanonicalOrderBook) (side : OutcomeSide) :
    (book.asks side).Pairwise fun left right => left.price < right.price := by
  have : IsTrans CanonicalLevel fun left right => left.price < right.price :=
    ⟨fun _ _ _ h1 h2 => lt_trans h1 h2⟩
  cases side with
  | yes => exact List.isChain_iff_pairwise.mp book.yesAsks_ascending
  | no => exact List.isChain_iff_pairwise.mp book.noAsks_ascending

namespace Sample

/-- Prices of whole cents. -/
def centGrid : PriceGrid :=
  ⟨[cents], cents_ne_nil, cents_chain⟩

/-- Readings that read no text. -/
def bookReadings : BookReadings := ⟨fun _ => none, fun key _ _ => key.canonical⟩

/-- Two bids, the worse one first. -/
def yesBids : RawLevels :=
  .array [.pair (.decimal (.finite (38 / 100))) (.integer 2),
    .pair (.decimal (.finite (40 / 100))) (.integer 1)]

def noBids : RawLevels :=
  .array [.pair (.decimal (.finite (58 / 100))) (.decimal (.finite (3 / 2)))]

def bookArtifact : RawArtifact := ⟨digest, 1, "book", none, none, by decide, by decide⟩

end Sample

end VTrade
