/-
# What a scan of the catalogue keeps

A scan that completes keeps every tradeable market that is asked for and the best of the
others, each once.  This depends on the markets that the pages list and not on how they are
divided into pages or ordered.  A scan follows no cursor twice.
-/

import VTrade.Accounting
import VTrade.Catalogue
import VTrade.Lib.Checks

namespace VTrade

namespace Kalshi

/-! ## The markets of the pages -/

/-- The tradeable market that a row lists. -/
def rowMarket (readings : Readings) : Json → Option CatalogueMarket
  | .object row =>
      match marketOf row, sizesOf readings row with
      | .ok (some (key, .active)), .ok (volume, liquidity) => some ⟨key, volume, liquidity⟩
      | _, _ => none
  | .null | .bool _ | .int _ | .float _ | .text _ | .array _ => none

def pageRows (archived : ArchivedResponse) : List Json :=
  match archived.payload with
  | .object root =>
      match Json.get root "markets" with
      | some (.array rows) => rows
      | _ => []
  | .null | .bool _ | .int _ | .float _ | .text _ | .array _ => []

/-- The cursor by which a page names the next one. -/
def pageCursor (readings : Readings) (archived : ArchivedResponse) : Option String :=
  match archived.payload with
  | .object root => (nextCursor readings root).toOption.join
  | .null | .bool _ | .int _ | .float _ | .text _ | .array _ => none

/-- The pages that a scan reads: up to the one that names no next page. -/
def scannedPages (readings : Readings) :
    List (Except KalshiError ArchivedResponse) → List ArchivedResponse
  | [] => []
  | .error _ :: _ => []
  | .ok archived :: rest =>
      archived :: if (pageCursor readings archived).isSome then scannedPages readings rest else []

def scannedRows (readings : Readings) (responses : List (Except KalshiError ArchivedResponse)) :
    List Json :=
  (scannedPages readings responses).flatMap pageRows

/-- The tradeable markets that a scan meets. -/
def scannedMarkets (readings : Readings)
    (responses : List (Except KalshiError ArchivedResponse)) : List CatalogueMarket :=
  (scannedRows readings responses).filterMap (rowMarket readings)

variable {readings : Readings} {request : CatalogueScanRequest}

/-- What a row is read as does not depend on where it stands. -/
theorem catalogueCandidate_spec {row : JsonObject} {pageIndex rowIndex : ℕ}
    {observedAt : Instant} {cutoff : Option Instant} {read : Option CatalogueCandidate}
    (h : catalogueCandidate readings row pageIndex rowIndex observedAt cutoff = .ok read) :
    rowMarket readings (.object row) =
      (read.filter fun candidate => candidate.tradeable).map
        CatalogueCandidate.toCatalogueMarket := by
  obtain ⟨market, hmarket, h⟩ := Checks.bind_eq_ok.mp h
  unfold rowMarket
  dsimp only
  rw [hmarket]
  match market with
  | none =>
      cases h
      rfl
  | some (key, status) =>
      obtain ⟨updated, -, h⟩ := Checks.bind_eq_ok.mp h
      obtain ⟨-, -, h⟩ := Checks.bind_eq_ok.mp h
      obtain ⟨-, h⟩ := Checks.ite_error_eq_ok.mp h
      obtain ⟨⟨volume, liquidity⟩, hsizes, h⟩ := Checks.bind_eq_ok.mp h
      cases h
      rw [hsizes]
      cases status <;> rfl

/-! ## Admitting candidates -/

/-- Candidates that were admitted: those that are asked for are retained, and of the others
the best are kept. -/
structure Admitted (request : CatalogueScanRequest) (candidates : List CatalogueCandidate)
    (state : ScanState) : Prop where
  retained : state.retained = candidates.filter fun candidate => request.requires candidate.key
  additional : Selection.Best (fun candidate : CatalogueCandidate =>
      candidateRank candidate.toCatalogueMarket) request.maximumAdditionalMarkets state.additional
    (candidates.filter fun candidate => !request.requires candidate.key)
  seen : ∀ candidate ∈ candidates, candidate.key ∈ state.seenMarketKeys
  unique : (candidates.map fun candidate => candidate.key).Nodup

theorem admitted_start : Admitted request [] .start :=
  ⟨rfl, Selection.best_nil, (fun _ hmem => by cases hmem), List.nodup_nil⟩

theorem Admitted.keepCandidate {candidates : List CatalogueCandidate} {state after : ScanState}
    {candidate : CatalogueCandidate} (h : Admitted request candidates state)
    (hkeep : keepCandidate request state candidate = .ok after) :
    Admitted request (candidates ++ (if candidate.tradeable then [candidate] else [])) after ∧
      after.seenCursors = state.seenCursors ∧ after.cursor = state.cursor := by
  obtain ⟨hnew, hkeep⟩ := Checks.ite_error_eq_ok.mp hkeep
  have hseen : ∀ other ∈ candidates, other.key ∈ state.seenMarketKeys ++ [candidate.key] :=
    fun other hmem => List.mem_append_left _ (h.seen other hmem)
  cases htradeable : candidate.tradeable with
  | false =>
      rw [if_pos htradeable] at hkeep
      cases hkeep
      rw [if_neg Bool.false_ne_true, List.append_nil]
      exact ⟨⟨h.retained, h.additional, hseen, h.unique⟩, rfl, rfl⟩
  | true =>
      rw [if_neg (by simp [htradeable])] at hkeep
      have hseen' : ∀ other ∈ candidates ++ [candidate],
          other.key ∈ state.seenMarketKeys ++ [candidate.key] := by
        intro other hmem
        rcases List.mem_append.mp hmem with hmem | hmem
        · exact hseen other hmem
        · obtain rfl := List.mem_singleton.mp hmem
          exact List.mem_append_right _ List.mem_cons_self
      have hunique : ((candidates ++ [candidate]).map fun candidate => candidate.key).Nodup := by
        rw [List.map_append, List.map_singleton, ← List.concat_eq_append]
        refine h.unique.concat fun hmem => ?_
        obtain ⟨other, hother, hsame⟩ := List.mem_map.mp hmem
        exact hnew (hsame ▸ h.seen other hother)
      rw [if_pos rfl]
      cases hrequired : request.requires candidate.key with
      | true =>
          rw [if_pos hrequired] at hkeep
          cases hkeep
          refine ⟨⟨?_, ?_, hseen', hunique⟩, rfl, rfl⟩
          · rw [List.filter_append, List.filter_singleton, hrequired, ← h.retained]
            rfl
          · rw [List.filter_append, List.filter_singleton, hrequired]
            simpa using h.additional
      | false =>
          rw [if_neg (by simp [hrequired])] at hkeep
          cases hkeep
          refine ⟨⟨?_, ?_, hseen', hunique⟩, rfl, rfl⟩
          · rw [List.filter_append, List.filter_singleton, hrequired, ← h.retained]
            simp
          · rw [List.filter_append, List.filter_singleton, hrequired]
            exact Selection.best_keep h.additional candidate

/-- The rows that were read, and the candidates that they list. -/
def Scanned (readings : Readings) (request : CatalogueScanRequest) (rows : List Json)
    (state : ScanState) : Prop :=
  ∃ candidates, Admitted request candidates state ∧
    candidates.map CatalogueCandidate.toCatalogueMarket = rows.filterMap (rowMarket readings)

/-- What a scan has kept does not depend on its cursors and pages. -/
theorem Scanned.congr {rows : List Json} {before after : ScanState}
    (h : Scanned readings request rows before) (hretained : after.retained = before.retained)
    (hadditional : after.additional = before.additional)
    (hseen : after.seenMarketKeys = before.seenMarketKeys) :
    Scanned readings request rows after := by
  obtain ⟨candidates, hadmitted, hmarkets⟩ := h
  refine ⟨candidates, ⟨hretained.trans hadmitted.retained, ?_, ?_, hadmitted.unique⟩, hmarkets⟩
  · rw [hadditional]
    exact hadmitted.additional
  · rw [hseen]
    exact hadmitted.seen

theorem Scanned.scanRow {rows : List Json} {state after : ScanState} {pageIndex : ℕ}
    {observedAt : Instant} {row : Json × ℕ} (h : Scanned readings request rows state)
    (hscan : scanRow readings request pageIndex observedAt state row = .ok after) :
    Scanned readings request (rows ++ [row.1]) after ∧ after.seenCursors = state.seenCursors ∧
      after.cursor = state.cursor := by
  obtain ⟨candidates, hadmitted, hmarkets⟩ := h
  obtain ⟨value, index⟩ := row
  cases value with
  | object fields =>
      obtain ⟨read, hread, hscan⟩ := Checks.bind_eq_ok.mp hscan
      have hmarket := catalogueCandidate_spec hread
      match read with
      | none =>
          cases hscan
          refine ⟨⟨candidates, hadmitted, ?_⟩, rfl, rfl⟩
          rw [List.filterMap_append, ← hmarkets, List.filterMap_cons, hmarket]
          exact (List.append_nil _).symm
      | some candidate =>
          obtain ⟨hafter, hcursors, hcursor⟩ := hadmitted.keepCandidate hscan
          refine ⟨⟨_, hafter, ?_⟩, hcursors, hcursor⟩
          rw [List.filterMap_append, ← hmarkets, List.filterMap_cons, hmarket, List.map_append]
          cases htradeable : candidate.tradeable with
          | false => simp [Option.filter, htradeable]
          | true => simp [Option.filter, htradeable]
  | null => cases hscan
  | bool value => cases hscan
  | int value => cases hscan
  | float value => cases hscan
  | text value => cases hscan
  | array values => cases hscan

/-- Reading a page reads its rows. -/
theorem Scanned.scanPage {rows : List Json} {state after : ScanState}
    {archived : ArchivedResponse} {next : Option String}
    (h : Scanned readings request rows state)
    (hscan : scanPage readings request state archived = .ok (after, next)) :
    Scanned readings request (rows ++ pageRows archived) after ∧
      after.seenCursors = state.seenCursors ∧ pageCursor readings archived = next := by
  obtain ⟨-, hscan⟩ := Checks.ite_error_eq_ok.mp hscan
  split at hscan
  next root hroot =>
    split at hscan
    next values hvalues =>
      have hrows : pageRows archived = values := by simp only [pageRows, hroot, hvalues]
      have hpage : pageCursor readings archived = (nextCursor readings root).toOption.join := by
        simp only [pageCursor, hroot]
      rw [hrows, hpage]
      obtain ⟨cursor, hcursor, hscan⟩ := Checks.bind_eq_ok.mp hscan
      obtain ⟨read, hread, hscan⟩ := Checks.bind_eq_ok.mp hscan
      cases hscan
      rw [hcursor]
      obtain ⟨hscanned, hcursors⟩ := Checks.foldlM_invariant (fun seen after =>
        Scanned readings request (rows ++ seen.map Prod.fst) after ∧
          after.seenCursors = state.seenCursors) [] (by
          intro seen before row after _ hbefore hrow
          obtain ⟨hafter, hcursors, -⟩ := hbefore.1.scanRow hrow
          rw [List.map_append, ← List.append_assoc]
          exact ⟨hafter, hcursors.trans hbefore.2⟩) hread ⟨by
            rw [List.map_nil, List.append_nil]
            exact h.congr rfl rfl rfl, rfl⟩
      rw [List.nil_append, List.zipIdx_map_fst] at hscanned
      exact ⟨hscanned, hcursors, rfl⟩
    next => cases hscan
  next => cases hscan

/-- The pages are read up to the last one, and no cursor is followed twice. -/
theorem Scanned.scanPages {rows : List Json} {state final : ScanState}
    {responses : List (Except KalshiError ArchivedResponse)}
    (h : Scanned readings request rows state)
    (hscan : scanPages readings request state responses = .ok final) :
    Scanned readings request (rows ++ scannedRows readings responses) final ∧
      (state.seenCursors.Nodup → (state.seenCursors ++
        (scannedPages readings responses).filterMap (pageCursor readings)).Nodup) := by
  induction responses generalizing state rows with
  | nil => cases hscan
  | cons response rest ih =>
      cases response with
      | error error => cases hscan
      | ok archived =>
          obtain ⟨⟨read, next⟩, hpage, hscan⟩ := Checks.bind_eq_ok.mp hscan
          obtain ⟨hread, hcursors, hcursor⟩ := h.scanPage hpage
          unfold scannedRows scannedPages
          rw [List.flatMap_cons, hcursor]
          match next with
          | none =>
              cases hscan
              simpa [hcursor] using hread
          | some next =>
              obtain ⟨hnew, hscan⟩ := Checks.ite_error_eq_ok.mp hscan
              rw [not_or] at hnew
              have hnext : Scanned readings request (rows ++ pageRows archived) { read with
                  seenCursors := read.seenCursors ++ [next]
                  cursor := some next } := hread.congr rfl rfl rfl
              obtain ⟨hfinal, hunique⟩ := ih hnext hscan
              rw [Option.isSome_some, if_pos rfl, ← List.append_assoc, List.filterMap_cons, hcursor]
              refine ⟨hfinal, fun hbefore => ?_⟩
              dsimp only at hunique
              rw [hcursors, List.append_assoc, List.singleton_append] at hunique
              apply hunique
              rw [← List.concat_eq_append]
              exact hbefore.concat (hcursors ▸ hnew.1)

/-! ## The keys that are found -/

theorem askedKeys_concat (found : MarketKey → Bool) (keys : List MarketKey) (key : MarketKey) :
    askedKeys found (keys ++ [key]) =
      if found key ∧ key ∉ askedKeys found keys then askedKeys found keys ++ [key]
      else askedKeys found keys := by
  unfold askedKeys
  rw [List.foldl_append, List.foldl_cons, List.foldl_nil]

theorem mem_askedKeys {found : MarketKey → Bool} {keys : List MarketKey} {key : MarketKey} :
    key ∈ askedKeys found keys ↔ key ∈ keys ∧ found key = true := by
  induction keys using List.reverseRecOn with
  | nil => simp [askedKeys]
  | append_singleton keys last ih =>
      rw [askedKeys_concat, List.mem_append, List.mem_singleton]
      split
      next h =>
        rw [List.mem_append, List.mem_singleton, ih]
        constructor
        · rintro (⟨hmem, hfound⟩ | rfl)
          · exact ⟨Or.inl hmem, hfound⟩
          · exact ⟨Or.inr rfl, h.1⟩
        · rintro ⟨hmem | rfl, hfound⟩
          · exact Or.inl ⟨hmem, hfound⟩
          · exact Or.inr rfl
      next h =>
        rw [ih]
        constructor
        · exact fun ⟨hmem, hfound⟩ => ⟨Or.inl hmem, hfound⟩
        · rintro ⟨hmem | rfl, hfound⟩
          · exact ⟨hmem, hfound⟩
          · rw [not_and_not_right] at h
            exact ih.mp (h hfound)

theorem nodup_askedKeys (found : MarketKey → Bool) (keys : List MarketKey) :
    (askedKeys found keys).Nodup := by
  induction keys using List.reverseRecOn with
  | nil => exact List.nodup_nil
  | append_singleton keys last ih =>
      rw [askedKeys_concat]
      split
      next h =>
        rw [← List.concat_eq_append]
        exact ih.concat h.2
      next => exact ih

theorem askedKeys_congr {first second : MarketKey → Bool} {keys : List MarketKey}
    (h : ∀ key ∈ keys, first key = second key) : askedKeys first keys = askedKeys second keys := by
  induction keys using List.reverseRecOn with
  | nil => rfl
  | append_singleton keys last ih =>
      rw [askedKeys_concat, askedKeys_concat,
        ih fun key hmem => h key (List.mem_append_left _ hmem),
        h last (List.mem_append_right _ List.mem_cons_self)]

/-! ## What is selected -/

/-- The selection from the tradeable markets of a catalogue: those that are asked for, in
the order in which they are asked for, and then the best of the others, the best one first.
No market is selected twice. -/
structure Selects (request : CatalogueScanRequest) (markets : List CatalogueMarket)
    (keys : List MarketKey) : Prop where
  nodup : keys.Nodup
  required : ∀ market ∈ markets, request.requires market.key = true → market.key ∈ keys
  best : ∃ additional : List CatalogueMarket,
    keys = askedKeys (fun key => markets.any fun market => decide (market.key = key))
      request.asked ++ additional.map (fun market => market.key) ∧
    (additional.map candidateRank).Pairwise (· ≤ ·) ∧
    Selection.Best candidateRank request.maximumAdditionalMarkets additional
      (markets.filter fun market => !request.requires market.key)

/-- The additional candidates of a scan in the order of their ranks. -/
def rankedCandidates (additional : List CatalogueCandidate) : List CatalogueCandidate :=
  additional.insertionSort fun first second =>
    candidateRank first.toCatalogueMarket ≤ candidateRank second.toCatalogueMarket

theorem Admitted.not_requires {candidates : List CatalogueCandidate} {state : ScanState}
    (h : Admitted request candidates state) {candidate : CatalogueCandidate}
    (hmem : candidate ∈ rankedCandidates state.additional) :
    candidate ∈ candidates ∧ request.requires candidate.key = false := by
  have hin := h.additional.subperm.subset ((List.mem_insertionSort _).mp hmem)
  rw [List.mem_filter] at hin
  simpa using hin

theorem discoveryKeys_eq {candidates : List CatalogueCandidate} {state : ScanState}
    (h : Admitted request candidates state) :
    discoveryKeys request state.retained state.additional =
      askedKeys (fun key => (candidates.map CatalogueCandidate.toCatalogueMarket).any
        fun market => decide (market.key = key)) request.asked ++
      (rankedCandidates state.additional).map fun candidate => candidate.key := by
  have hfound : askedKeys (fun key => state.retained.any fun candidate =>
      decide (candidate.key = key)) request.asked =
      askedKeys (fun key => (candidates.map CatalogueCandidate.toCatalogueMarket).any
        fun market => decide (market.key = key)) request.asked := by
    apply askedKeys_congr
    intro key hmem
    have hrequires : request.requires key = true := decide_eq_true hmem
    rw [h.retained, List.any_filter, List.any_map]
    congr 1
    funext candidate
    rw [Function.comp_apply]
    by_cases hkey : candidate.key = key
    · rw [hkey, hrequires, Bool.true_and]
    · rw [decide_eq_false hkey, Bool.and_false]
  unfold discoveryKeys
  dsimp only
  rw [hfound]
  congr 1
  apply List.filter_eq_self.mpr
  intro key hmem
  obtain ⟨candidate, hin, rfl⟩ := List.mem_map.mp hmem
  rw [decide_eq_true_iff, mem_askedKeys]
  intro hasked
  have hnot := (h.not_requires hin).2
  exact absurd hasked.1 (of_decide_eq_false hnot)

theorem discoveryKeys_selects {candidates : List CatalogueCandidate} {state : ScanState}
    (h : Admitted request candidates state) :
    Selects request (candidates.map CatalogueCandidate.toCatalogueMarket)
      (discoveryKeys request state.retained state.additional) := by
  rw [discoveryKeys_eq h]
  have hperm : (rankedCandidates state.additional).Perm state.additional :=
    List.perm_insertionSort _ _
  constructor
  case nodup =>
    rw [List.nodup_append']
    refine ⟨nodup_askedKeys _ _, ?_, ?_⟩
    · have hunique : ((candidates.filter fun candidate =>
          !request.requires candidate.key).map fun candidate => candidate.key).Nodup :=
        h.unique.sublist (List.filter_sublist.map _)
      obtain ⟨taken, htaken, hsub⟩ := h.additional.subperm
      have hkeys := ((hperm.trans htaken.symm).map fun candidate => candidate.key).nodup_iff
      exact hkeys.mpr (hunique.sublist (hsub.map _))
    · intro key hasked hmem
      obtain ⟨candidate, hin, rfl⟩ := List.mem_map.mp hmem
      exact absurd (mem_askedKeys.mp hasked).1 (of_decide_eq_false (h.not_requires hin).2)
  case required =>
    intro market hmem hrequires
    refine List.mem_append_left _ (mem_askedKeys.mpr ⟨of_decide_eq_true hrequires, ?_⟩)
    rw [List.any_eq_true]
    exact ⟨market, hmem, decide_eq_true rfl⟩
  case best =>
    refine ⟨(rankedCandidates state.additional).map CatalogueCandidate.toCatalogueMarket, ?_, ?_, ?_⟩
    · rw [List.map_map]
      rfl
    · rw [List.map_map]
      exact (List.pairwise_insertionSort _ _).map _ fun _ _ hle => hle
    · rw [List.filter_map]
      exact (h.additional.perm hperm.symm).map CatalogueCandidate.toCatalogueMarket

theorem marketRef_injective : Function.Injective MarketKey.marketRef := by
  rintro ⟨first, _⟩ ⟨second, _⟩ rfl
  rfl

/-- The keys that are selected are determined by the markets, whatever their order. -/
theorem Selects.unique {first second : List CatalogueMarket} {keys others : List MarketKey}
    (h : Selects request first keys) (h' : Selects request second others)
    (hperm : first.Perm second) : keys = others := by
  obtain ⟨additional, rfl, hsorted, hbest⟩ := h.best
  obtain ⟨additional', rfl, hsorted', hbest'⟩ := h'.best
  have hranks := hbest.ranks_unique hbest' (hperm.filter _) hsorted hsorted'
  have hkeys : additional.map (fun market => market.key) =
      additional'.map fun market => market.key := by
    apply List.map_injective_iff.mpr marketRef_injective
    have hrefs := congrArg (List.map fun rank => (ofLex (ofLex rank).2).2) hranks
    rw [List.map_map, List.map_map] at hrefs ⊢
    exact hrefs
  rw [hkeys]
  congr 1
  apply askedKeys_congr
  intro key _
  exact hperm.any_eq

/-- A scan that completes selects from the tradeable markets of the pages it reads, and it
follows no cursor twice. -/
theorem scanCatalogue_selects {Pages : Type} {historicalCutoff : Except KalshiError Instant}
    {responses : List (Except KalshiError ArchivedResponse)}
    {materialize : List CataloguePageEvidence → List CatalogueCandidate →
      Except KalshiError Pages} {completed : Instant} {result : CatalogueScanResult Pages}
    (h : scanCatalogue readings request historicalCutoff responses materialize completed =
      .ok result) :
    Selects request (scannedMarkets readings responses) result.discoveryMarketKeys ∧
      ((scannedPages readings responses).filterMap (pageCursor readings)).Nodup := by
  obtain ⟨cutoff, -, h⟩ := Checks.bind_eq_ok.mp h
  obtain ⟨state, hstate, h⟩ := Checks.bind_eq_ok.mp h
  obtain ⟨pages, -, h⟩ := Checks.bind_eq_ok.mp h
  obtain ⟨-, -, h⟩ := Checks.bind_eq_ok.mp h
  cases h
  have hstart : Scanned readings request [] .start := ⟨[], admitted_start, rfl⟩
  obtain ⟨⟨candidates, hadmitted, hmarkets⟩, hunique⟩ := hstart.scanPages hstate
  rw [List.nil_append] at hmarkets
  refine ⟨?_, hunique List.nodup_nil⟩
  unfold scannedMarkets
  rw [← hmarkets]
  exact discoveryKeys_selects hadmitted

/-- Every scan that completes selects the markets that are asked for and the best of the
others, each once, and follows no cursor twice; and another scan that meets the same rows, on
other pages or in another order, selects the same. -/
theorem scans_select (readings : Readings) (request : CatalogueScanRequest) {Pages : Type}
    {historicalCutoff : Except KalshiError Instant}
    {responses : List (Except KalshiError ArchivedResponse)}
    {materialize : List CataloguePageEvidence → List CatalogueCandidate →
      Except KalshiError Pages} {completed : Instant} {result : CatalogueScanResult Pages}
    (h : scanCatalogue readings request historicalCutoff responses materialize completed =
      .ok result) :
    Selects request (scannedMarkets readings responses) result.discoveryMarketKeys ∧
    ((scannedPages readings responses).filterMap (pageCursor readings)).Nodup ∧
    ∀ historicalCutoff' responses' materialize' completed' (result' : CatalogueScanResult Pages),
      scanCatalogue readings request historicalCutoff' responses' materialize' completed' =
        .ok result' →
      (scannedRows readings responses).Perm (scannedRows readings responses') →
      result'.discoveryMarketKeys = result.discoveryMarketKeys := by
  obtain ⟨hselects, hunique⟩ := scanCatalogue_selects h
  refine ⟨hselects, hunique, ?_⟩
  intro historicalCutoff' responses' materialize' completed' result' h' hperm
  obtain ⟨hselects', -⟩ := scanCatalogue_selects h'
  exact hselects'.unique hselects (hperm.symm.filterMap _)

end Kalshi

namespace Sample

/-- Quantities as they are spelled in `listing`, and no timestamps. -/
def listingReadings : Readings where
  same _ _ := false
  optionalTimestamp _ _ _ := .ok none
  contractQuantity
    | .text "3.00" => .ok 300
    | .text "5.00" => .ok 500
    | _ => .error (.payloadError "volume_fp must be decimal-compatible")
  moneyMicros
    | .int 0 => .ok 0
    | _ => .error (.payloadError "money must be an exact decimal value")

def listing (ticker volume : String) : Json :=
  .object [("ticker", .text ticker), ("event_ticker", .text "EVENT"), ("status", .text "active"),
    ("volume_fp", .text volume)]

/-- A catalogue of one page with two markets, of which one is kept. -/
def cataloguePage : Kalshi.ArchivedResponse :=
  ⟨.object [("markets", .array [listing "FIRST" "3.00", listing "SECOND" "5.00"])], digest, 0⟩

def scanRequest : Kalshi.CatalogueScanRequest := ⟨[], [], [], none, 20, 1⟩

def scanned : Kalshi.CatalogueScanResult Unit where
  pages := ()
  discoveryMarketKeys := [⟨"SECOND", by decide⟩]
  dataCutoff := 0
  historicalCutoff := 0
  scannedMarketCount := 2

theorem cataloguePage_scanned : Kalshi.scanCatalogue listingReadings scanRequest (.ok 0)
    [.ok cataloguePage] (fun _ _ => .ok ()) 0 = .ok scanned := by
  rfl

theorem cataloguePage_selects :
    Kalshi.Selects scanRequest (Kalshi.scannedMarkets listingReadings [.ok cataloguePage])
      scanned.discoveryMarketKeys ∧
    ((Kalshi.scannedPages listingReadings [.ok cataloguePage]).filterMap
      (Kalshi.pageCursor listingReadings)).Nodup ∧
    ∀ historicalCutoff' responses' materialize' completed'
      (result' : Kalshi.CatalogueScanResult Unit),
      Kalshi.scanCatalogue listingReadings scanRequest historicalCutoff' responses' materialize'
        completed' = .ok result' →
      (Kalshi.scannedRows listingReadings [.ok cataloguePage]).Perm
        (Kalshi.scannedRows listingReadings responses') →
      result'.discoveryMarketKeys = scanned.discoveryMarketKeys :=
  Kalshi.scans_select listingReadings scanRequest cataloguePage_scanned

end Sample

end VTrade
