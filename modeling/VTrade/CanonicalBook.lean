/-
# The canonical order book

The venue gives the bids of both outcomes only.  They are read level by level and sorted; a bid
for one outcome is an ask for the other one, at what is missing to a dollar.  A book whose best
bids make a dollar or more is refused.

What is read of the bids has no price twice and runs down from the best one, and what is mirrored
of it runs up.
-/

import Mathlib.Data.List.Sort
import VTrade.Budget
import VTrade.Domain.Evidence
import VTrade.Lib.DecimalContext

namespace VTrade

/-! ## Reading levels -/

/-- A value of a level as the payload is decoded. -/
inductive LevelValue
  /-- A boolean or a binary float. -/
  | inexact
  | integer (value : ℤ)
  | decimal (value : DecimalValue)
  | text (value : String)
  | other

/-- A level of the payload: a list of two values, or anything else. -/
inductive RawLevel
  | pair (price quantity : LevelValue)
  | other

/-- The levels of the payload: a list, or anything else. -/
inductive RawLevels
  | array (levels : List RawLevel)
  | other

/-- What a book depends on outside it: how `Decimal` reads a text, and the stable identifier of
an observation. -/
structure BookReadings where
  decimal : String → Option DecimalValue
  snapshotId : MarketKey → Instant → Sha256 → String

namespace BookReadings

variable (readings : BookReadings)

/-- `_exact_decimal`. -/
def exactDecimal (value : LevelValue) (field : String) : Except Raised ℚ :=
  let finite : DecimalValue → Except Raised ℚ
    | .finite parsed => .ok parsed
    | .infinity _ | .nan => .error (.valueError (field ++ " must be finite"))
  match value with
  | .inexact => .error (.valueError (field ++ " must be an exact decimal string or Decimal"))
  | .integer value => .ok value
  | .decimal value => finite value
  | .text value =>
      match readings.decimal value with
      | some parsed => finite parsed
      | none => .error (.valueError (field ++ " must be decimal-compatible"))
  | .other => .error (.valueError (field ++ " must be decimal-compatible"))

/-- The product of a decimal and an integer, with 28 significant digits. -/
def scaledDecimal (amount : ℚ) (factor : ℕ) : ℚ :=
  let product :=
    (DecimalContext.mul 28 ⟨amount.num.natAbs, amount.den⟩ (.ofNat factor)).value
  if amount < 0 then -product else product

/-- `value[1:]` where the text starts with a dollar sign. -/
def withoutDollar : LevelValue → LevelValue
  | .text value =>
      match value.toList with
      | '$' :: rest => .text (String.ofList rest)
      | _ => .text value
  | value => value

/-- Parse an exact dollar value into a micro-dollar price. -/
def toPriceMicros (value : LevelValue) (field : String) : Except Raised ℤ := do
  let amount ← readings.exactDecimal (withoutDollar value) field
  let scaled := scaledDecimal amount 1000000
  if scaled.den ≠ 1 then
    .error (.valueError (field ++ " has precision finer than one micro-dollar"))
  else if ¬ (0 ≤ scaled.num ∧ scaled.num ≤ 1000000) then
    .error (.valueError (field ++ " must be between zero and one dollar"))
  else .ok scaled.num

/-- Parse exact hundredths of a contract. -/
def toContractQuantity (value : LevelValue) (field : String) : Except Raised ℤ := do
  let amount ← readings.exactDecimal value field
  let scaled := scaledDecimal amount 100
  if scaled.den ≠ 1 then
    .error (.valueError (field ++ " must be representable in hundredths of a contract"))
  else if scaled.num < 0 then .error (.valueError (field ++ " cannot be negative"))
  else .ok scaled.num

end BookReadings

/-- `CanonicalLevel(price, quantity)`. -/
def CanonicalLevel.make (price quantity : ℤ) : Except Raised CanonicalLevel :=
  if price_range : 0 ≤ price ∧ price ≤ 1000000 then
    if quantity_pos : 0 < quantity then .ok ⟨price, quantity, price_range, quantity_pos⟩
    else .error (.valueError "canonical level quantity must be positive")
  else .error (.valueError "canonical level price is outside [0, 1]")

namespace BookReadings

variable (readings : BookReadings)

/-- The loop of `_parse_book_levels` over the levels from an index on. -/
def parseLevelsFrom (grid : PriceGrid) (field : String) (index : ℕ)
    (parsed : List CanonicalLevel) : List RawLevel → Except Raised (List CanonicalLevel)
  | [] => .ok parsed
  | .other :: _ => .error (.valueError
      (field ++ "[" ++ toString index ++ "] must be [price, quantity]"))
  | .pair rawPrice rawQuantity :: rest => do
      let price ← readings.toPriceMicros rawPrice (field ++ "[" ++ toString index ++ "].price")
      let price ← grid.require price (field ++ "[" ++ toString index ++ "].price")
      let quantity ← readings.toContractQuantity rawQuantity
        (field ++ "[" ++ toString index ++ "].quantity")
      if price ∈ parsed.map CanonicalLevel.price then
        .error (.valueError (field ++ " contains duplicate prices"))
      else
        let level ← CanonicalLevel.make price quantity
        parseLevelsFrom grid field (index + 1) (parsed ++ [level]) rest

/-- Best bids first. -/
def sortBids (levels : List CanonicalLevel) : List CanonicalLevel :=
  levels.insertionSort fun left right => right.price ≤ left.price

/-- Best asks first. -/
def sortAsks (levels : List CanonicalLevel) : List CanonicalLevel :=
  levels.insertionSort fun left right => left.price ≤ right.price

def parseBookLevels (rawLevels : RawLevels) (grid : PriceGrid) (field : String) :
    Except Raised (List CanonicalLevel) :=
  match rawLevels with
  | .other => .error (.valueError (field ++ " must be an array"))
  | .array levels => (readings.parseLevelsFrom grid field 0 [] levels).map sortBids

end BookReadings

/-! ## Building the book -/

/-- What `CanonicalOrderBook` is made of. -/
structure OrderBookFields where
  marketKey : MarketKey
  yesBids : List CanonicalLevel
  yesAsks : List CanonicalLevel
  noBids : List CanonicalLevel
  noAsks : List CanonicalLevel
  observedAt : Instant
  cutoff : Instant
  sourceTimestamp : Option Instant

/-- Bids run down from the best one. -/
abbrev Descending (levels : List CanonicalLevel) : Prop :=
  levels.IsChain fun left right => right.price < left.price

/-- Asks run up from the best one. -/
abbrev Ascending (levels : List CanonicalLevel) : Prop :=
  levels.IsChain fun left right => left.price < right.price

/-- `CanonicalOrderBook.__post_init__`, of times that are aware. -/
def OrderBookFields.postInit (book : OrderBookFields) : Except Raised Unit :=
  Checks.raiseFirst [
    (book.sourceTimestamp.any (book.cutoff < ·),
      .valueError "book source timestamp is newer than the requested cutoff"),
    (book.cutoff < book.observedAt,
      .valueError "book observation is newer than the requested cutoff"),
    (¬ Descending book.yesBids, .valueError "bids must be ordered by descending price"),
    (¬ Ascending book.yesAsks, .valueError "asks must be ordered by ascending price"),
    (¬ Descending book.noBids, .valueError "bids must be ordered by descending price"),
    (¬ Ascending book.noAsks, .valueError "asks must be ordered by ascending price")]

theorem OrderBookFields.postInit_eq_ok {book : OrderBookFields} :
    book.postInit = .ok () ↔ (∀ time ∈ book.sourceTimestamp, time ≤ book.cutoff) ∧
      book.observedAt ≤ book.cutoff ∧ Descending book.yesBids ∧ Ascending book.yesAsks ∧
      Descending book.noBids ∧ Ascending book.noAsks := by
  unfold postInit
  rw [Checks.raiseFirst_eq_ok_iff]
  simp only [List.forall_mem_cons, List.not_mem_nil, false_imp_iff, implies_true, and_true,
    decide_eq_false_iff_not, not_not, not_lt, Option.any_eq_false]
  simp

/-- `CanonicalOrderBook(...)`. -/
def OrderBookFields.make (book : OrderBookFields) (snapshotId : String) :
    Except Raised CanonicalOrderBook :=
  Checks.build book.postInit fun valid =>
    have h := OrderBookFields.postInit_eq_ok.mp valid
    { marketKey := book.marketKey
      yesBids := book.yesBids
      yesAsks := book.yesAsks
      noBids := book.noBids
      noAsks := book.noAsks
      observedAt := book.observedAt
      cutoff := book.cutoff
      snapshotId := snapshotId
      observed_le_cutoff := h.2.1
      yesBids_descending := h.2.2.1
      yesAsks_ascending := h.2.2.2.1
      noBids_descending := h.2.2.2.2.1
      noAsks_ascending := h.2.2.2.2.2 }

/-- `_require_aware`. -/
def requireAwareTime (value : Datetime) (field : String) : Except Raised Instant :=
  if value.isAware then .ok value.instant
  else .error (.valueError (field ++ " must be timezone-aware"))

/-- The asks for one outcome that the bids for the other one are. -/
def reciprocal (grid : PriceGrid) (levels : List CanonicalLevel) (field : String) :
    Except Raised (List CanonicalLevel) := do
  let derived ← levels.mapM fun level => do
    let price ← grid.require (1000000 - level.price) field
    CanonicalLevel.make price level.quantity
  .ok (BookReadings.sortAsks derived)

/-- The asks for one outcome, also where there is no bid for the other one. -/
def derivedAsks (grid : PriceGrid) (levels : List CanonicalLevel) (field : String) :
    Except Raised (List CanonicalLevel) :=
  if levels ≠ [] then reciprocal grid levels field else .ok []

/-- The best bids for both outcomes make a dollar. -/
def Crossed (yes no : List CanonicalLevel) : Prop :=
  ∃ bestYes ∈ yes.head?, ∃ bestNo ∈ no.head?, bestYes.price + bestNo.price ≥ 1000000

instance (yes no : List CanonicalLevel) : Decidable (Crossed yes no) :=
  inferInstanceAs (Decidable (∃ bestYes, bestYes ∈ yes.head? ∧ _))

/-- Normalize a bid-only book into deterministic reciprocal bids and asks. -/
def buildCanonicalOrderBook (readings : BookReadings) (marketKey : MarketKey) (grid : PriceGrid)
    (yesBids noBids : RawLevels) (observedAt cutoff : Datetime) (artifact : RawArtifact)
    (sourceTimestamp : Option Datetime) : Except Raised CanonicalOrderBook := do
  let yes ← readings.parseBookLevels yesBids grid "yes_dollars"
  let no ← readings.parseBookLevels noBids grid "no_dollars"
  let yesAsks ← derivedAsks grid no "derived YES ask"
  let noAsks ← derivedAsks grid yes "derived NO ask"
  if Crossed yes no then .error (.valueError "canonical reciprocal book is crossed")
  else
    let observedAt ← requireAwareTime observedAt "book observed_at"
    let cutoff ← requireAwareTime cutoff "book cutoff"
    let sourceTimestamp ← sourceTimestamp.mapM (requireAwareTime · "book source_timestamp")
    OrderBookFields.make
      { marketKey := marketKey
        yesBids := yes
        yesAsks := yesAsks
        noBids := no
        noAsks := noAsks
        observedAt := observedAt
        cutoff := cutoff
        sourceTimestamp := sourceTimestamp }
      (readings.snapshotId marketKey observedAt artifact.sha256)

/-! ## What is read -/

theorem CanonicalLevel.make_eq_ok {price quantity : ℤ} {level : CanonicalLevel} :
    CanonicalLevel.make price quantity = .ok level ↔
      level.price = price ∧ level.quantity = quantity := by
  unfold CanonicalLevel.make
  constructor
  · intro h
    split at h
    · split at h
      · cases h
        exact ⟨rfl, rfl⟩
      · cases h
    · cases h
  · rintro ⟨rfl, rfl⟩
    rw [dif_pos level.price_range, dif_pos level.quantity_pos]

theorem PriceGrid.require_eq_ok {grid : PriceGrid} {price result : ℤ} {field : String} :
    grid.require price field = .ok result ↔ grid.contains price = true ∧ price = result := by
  unfold PriceGrid.require
  split
  next h => simp [h]
  next h => simp [h]

namespace BookReadings

variable {readings : BookReadings}

/-- What is read of a value does not depend on the field that an error would name. -/
theorem exactDecimal_field {value : LevelValue} {field : String} {amount : ℚ}
    (h : readings.exactDecimal value field = .ok amount) (other : String) :
    readings.exactDecimal value other = .ok amount := by
  cases value with
  | inexact => cases h
  | integer value => exact h
  | decimal value =>
      cases value with
      | finite parsed => exact h
      | infinity negative => cases h
      | nan => cases h
  | text value =>
      unfold exactDecimal at h ⊢
      cases hread : readings.decimal value with
      | none => simp [hread] at h
      | some parsed =>
          simp only [hread] at h ⊢
          cases parsed with
          | finite parsed => exact h
          | infinity negative => cases h
          | nan => cases h
  | other => cases h

theorem toPriceMicros_field {value : LevelValue} {field : String} {price : ℤ}
    (h : readings.toPriceMicros value field = .ok price) (other : String) :
    readings.toPriceMicros value other = .ok price := by
  obtain ⟨amount, hamount, h⟩ := Checks.bind_eq_ok.mp h
  obtain ⟨hprecise, h⟩ := Checks.ite_error_eq_ok.mp h
  obtain ⟨hrange, h⟩ := Checks.ite_error_eq_ok.mp h
  exact Checks.bind_eq_ok.mpr ⟨amount, exactDecimal_field hamount other,
    Checks.ite_error_eq_ok.mpr ⟨hprecise, Checks.ite_error_eq_ok.mpr ⟨hrange, h⟩⟩⟩

theorem toContractQuantity_field {value : LevelValue} {field : String} {quantity : ℤ}
    (h : readings.toContractQuantity value field = .ok quantity) (other : String) :
    readings.toContractQuantity value other = .ok quantity := by
  obtain ⟨amount, hamount, h⟩ := Checks.bind_eq_ok.mp h
  obtain ⟨hprecise, h⟩ := Checks.ite_error_eq_ok.mp h
  obtain ⟨hrange, h⟩ := Checks.ite_error_eq_ok.mp h
  exact Checks.bind_eq_ok.mpr ⟨amount, exactDecimal_field hamount other,
    Checks.ite_error_eq_ok.mpr ⟨hprecise, Checks.ite_error_eq_ok.mpr ⟨hrange, h⟩⟩⟩

/-- What one level of the payload adds to the levels read. -/
theorem parseLevelsFrom_cons_eq_ok {grid : PriceGrid} {field : String} {index : ℕ}
    {parsed levels : List CanonicalLevel} {rawPrice rawQuantity : LevelValue}
    {rest : List RawLevel} :
    readings.parseLevelsFrom grid field index parsed (.pair rawPrice rawQuantity :: rest) =
        .ok levels ↔
      ∃ level : CanonicalLevel,
        readings.toPriceMicros rawPrice (field ++ "[" ++ toString index ++ "].price") =
          .ok level.price ∧
        grid.contains level.price = true ∧
        readings.toContractQuantity rawQuantity (field ++ "[" ++ toString index ++ "].quantity") =
          .ok level.quantity ∧
        level.price ∉ parsed.map CanonicalLevel.price ∧
        readings.parseLevelsFrom grid field (index + 1) (parsed ++ [level]) rest = .ok levels := by
  constructor
  · intro h
    obtain ⟨price, hprice, h⟩ := Checks.bind_eq_ok.mp h
    obtain ⟨required, hgrid, h⟩ := Checks.bind_eq_ok.mp h
    obtain ⟨hon, rfl⟩ := PriceGrid.require_eq_ok.mp hgrid
    obtain ⟨quantity, hquantity, h⟩ := Checks.bind_eq_ok.mp h
    obtain ⟨hnew, h⟩ := Checks.ite_error_eq_ok.mp h
    obtain ⟨level, hlevel, hrest⟩ := Checks.bind_eq_ok.mp h
    obtain ⟨rfl, rfl⟩ := CanonicalLevel.make_eq_ok.mp hlevel
    exact ⟨level, hprice, hon, hquantity, hnew, hrest⟩
  · rintro ⟨level, hprice, hon, hquantity, hnew, h⟩
    exact Checks.bind_eq_ok.mpr ⟨level.price, hprice, Checks.bind_eq_ok.mpr ⟨level.price,
      PriceGrid.require_eq_ok.mpr ⟨hon, rfl⟩, Checks.bind_eq_ok.mpr ⟨level.quantity, hquantity,
        Checks.ite_error_eq_ok.mpr ⟨hnew, Checks.bind_eq_ok.mpr ⟨level,
          CanonicalLevel.make_eq_ok.mpr ⟨rfl, rfl⟩, h⟩⟩⟩⟩⟩

theorem parseLevelsFrom_field {grid : PriceGrid} {field : String} {index : ℕ}
    {parsed levels : List CanonicalLevel} {raw : List RawLevel}
    (h : readings.parseLevelsFrom grid field index parsed raw = .ok levels) (other : String) :
    readings.parseLevelsFrom grid other index parsed raw = .ok levels := by
  induction raw generalizing index parsed with
  | nil => exact h
  | cons first rest ih =>
      cases first with
      | pair rawPrice rawQuantity =>
          obtain ⟨level, hprice, hon, hquantity, hnew, hrest⟩ :=
            parseLevelsFrom_cons_eq_ok.mp h
          exact parseLevelsFrom_cons_eq_ok.mpr ⟨level, toPriceMicros_field hprice _, hon,
            toContractQuantity_field hquantity _, hnew, ih hrest⟩
      | other => cases h

theorem parseBookLevels_field {grid : PriceGrid} {field : String} {raw : RawLevels}
    {levels : List CanonicalLevel} (h : readings.parseBookLevels raw grid field = .ok levels)
    (other : String) : readings.parseBookLevels raw grid other = .ok levels := by
  cases raw with
  | array raw =>
      obtain ⟨parsed, hparsed, hlevels⟩ := Checks.map_eq_ok.mp h
      exact Checks.map_eq_ok.mpr ⟨parsed, parseLevelsFrom_field hparsed other, hlevels⟩
  | other => cases h

/-- No two levels that are read have one price. -/
theorem parseLevelsFrom_nodup {grid : PriceGrid} {field : String} {index : ℕ}
    {parsed levels : List CanonicalLevel} {raw : List RawLevel}
    (h : readings.parseLevelsFrom grid field index parsed raw = .ok levels)
    (hparsed : (parsed.map CanonicalLevel.price).Nodup) :
    (levels.map CanonicalLevel.price).Nodup := by
  induction raw generalizing index parsed with
  | nil =>
      cases h
      exact hparsed
  | cons first rest ih =>
      cases first with
      | pair rawPrice rawQuantity =>
          obtain ⟨level, -, -, -, hnew, hrest⟩ := parseLevelsFrom_cons_eq_ok.mp h
          refine ih hrest ?_
          rw [List.map_append, List.map_singleton]
          exact hparsed.append (List.nodup_singleton _) (by simpa using hnew)
      | other => cases h

/-- Sorted levels of different prices run strictly down. -/
theorem sortBids_descending {levels : List CanonicalLevel}
    (h : (levels.map CanonicalLevel.price).Nodup) : Descending (sortBids levels) := by
  let le : CanonicalLevel → CanonicalLevel → Prop := fun left right => right.price ≤ left.price
  have : Std.Total le := ⟨fun left right => le_total right.price left.price⟩
  have : IsTrans CanonicalLevel le := ⟨fun _ _ _ h1 h2 => le_trans h2 h1⟩
  have hsorted : (sortBids levels).Pairwise le := List.pairwise_insertionSort le levels
  have hdistinct : (sortBids levels).Pairwise fun left right => left.price ≠ right.price :=
    List.pairwise_map.mp (((List.perm_insertionSort le levels).map _).nodup_iff.mpr h)
  exact ((hsorted.and hdistinct).imp fun ⟨hle, hne⟩ => lt_of_le_of_ne hle (Ne.symm hne)).isChain

theorem parseBookLevels_descending {grid : PriceGrid} {field : String} {raw : RawLevels}
    {levels : List CanonicalLevel} (h : readings.parseBookLevels raw grid field = .ok levels) :
    Descending levels := by
  cases raw with
  | array raw =>
      obtain ⟨parsed, hparsed, rfl⟩ := Checks.map_eq_ok.mp h
      exact sortBids_descending (parseLevelsFrom_nodup hparsed List.nodup_nil)
  | other => cases h

end BookReadings

/-! ## Mirrored levels -/

/-- The ask for one outcome that a bid for the other one is. -/
def CanonicalLevel.mirrored (level : CanonicalLevel) : CanonicalLevel where
  price := 1000000 - level.price
  quantity := level.quantity
  price_range := by
    have := level.price_range
    omega
  quantity_pos := level.quantity_pos

theorem Descending.pairwise {levels : List CanonicalLevel} (h : Descending levels) :
    levels.Pairwise fun left right => right.price < left.price := by
  have : IsTrans CanonicalLevel fun left right => right.price < left.price :=
    ⟨fun _ _ _ h1 h2 => lt_trans h2 h1⟩
  exact List.isChain_iff_pairwise.mp h

/-- Bids that run down are asks that run up. -/
theorem Descending.mirrored {levels : List CanonicalLevel} (h : Descending levels) :
    Ascending (levels.map CanonicalLevel.mirrored) := by
  rw [Ascending, List.isChain_map]
  refine h.imp fun left right hless => ?_
  unfold CanonicalLevel.mirrored
  simp only
  omega

theorem sortAsks_mirrored {levels : List CanonicalLevel} (h : Descending levels) :
    BookReadings.sortAsks (levels.map CanonicalLevel.mirrored) =
      levels.map CanonicalLevel.mirrored := by
  apply List.Pairwise.insertionSort_eq
  rw [List.pairwise_map]
  refine h.pairwise.imp fun hless => ?_
  unfold CanonicalLevel.mirrored
  simp only
  omega

/-- Bids in order are mirrored one by one, if the mirrored prices are on the grid. -/
theorem reciprocal_eq_ok_iff {grid : PriceGrid} {levels asks : List CanonicalLevel}
    {field : String} (h : Descending levels) :
    reciprocal grid levels field = .ok asks ↔
      (∀ level ∈ levels, grid.contains (1000000 - level.price) = true) ∧
        asks = levels.map CanonicalLevel.mirrored := by
  have hone : ∀ level ask : CanonicalLevel, (do
      let price ← grid.require (1000000 - level.price) field
      CanonicalLevel.make price level.quantity) = .ok ask ↔
        grid.contains (1000000 - level.price) = true ∧ ask = level.mirrored := by
    intro level ask
    rw [Checks.bind_eq_ok]
    constructor
    · rintro ⟨price, hprice, hmake⟩
      obtain ⟨hon, rfl⟩ := PriceGrid.require_eq_ok.mp hprice
      obtain ⟨hask, hquantity⟩ := CanonicalLevel.make_eq_ok.mp hmake
      exact ⟨hon, by cases ask; cases hask; cases hquantity; rfl⟩
    · rintro ⟨hon, rfl⟩
      exact ⟨_, PriceGrid.require_eq_ok.mpr ⟨hon, rfl⟩,
        CanonicalLevel.make_eq_ok.mpr ⟨rfl, rfl⟩⟩
  have hall : ∀ derived, (levels.mapM fun level => do
      let price ← grid.require (1000000 - level.price) field
      CanonicalLevel.make price level.quantity) = .ok derived ↔
        (∀ level ∈ levels, grid.contains (1000000 - level.price) = true) ∧
          derived = levels.map CanonicalLevel.mirrored := by
    intro derived
    rw [Checks.mapM_eq_ok_iff]
    simp only [hone]
    clear h
    induction levels generalizing derived with
    | nil => simp
    | cons level rest ih =>
        rw [List.forall₂_cons_left_iff, List.forall_mem_cons]
        constructor
        · rintro ⟨ask, later, ⟨hon, rfl⟩, hrest, rfl⟩
          obtain ⟨hgrid, rfl⟩ := (ih later).mp hrest
          exact ⟨⟨hon, hgrid⟩, rfl⟩
        · rintro ⟨⟨hon, hgrid⟩, rfl⟩
          exact ⟨_, _, ⟨hon, rfl⟩, (ih _).mpr ⟨hgrid, rfl⟩, rfl⟩
  unfold reciprocal
  rw [Checks.bind_eq_ok]
  constructor
  · rintro ⟨derived, hderived, hasks⟩
    obtain ⟨hgrid, rfl⟩ := (hall derived).mp hderived
    cases hasks
    exact ⟨hgrid, sortAsks_mirrored h⟩
  · rintro ⟨hgrid, rfl⟩
    exact ⟨_, (hall _).mpr ⟨hgrid, rfl⟩, congrArg Except.ok (sortAsks_mirrored h)⟩

end VTrade
