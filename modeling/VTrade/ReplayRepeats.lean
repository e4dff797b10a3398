/-
# Entries that a replay meets again

The ledger takes an entry once: appended again under its key, it changes nothing.  The replay
appends every entry to a ledger of its own, but does not ask whether the ledger had it.  So it
posts a repeated entry again, and counts it in the version.
-/

import VTrade.Replay

namespace VTrade

/-! ## Entries without repeats -/

/-- The entries, each where it first occurs. -/
def withoutRepeats (entries : List LedgerEntry) : List LedgerEntry := KeyedList.firsts id entries

theorem withoutRepeats_concat (entries : List LedgerEntry) (entry : LedgerEntry) :
    withoutRepeats (entries ++ [entry]) =
      if entry ∈ entries then withoutRepeats entries else withoutRepeats entries ++ [entry] := by
  have hfound : (KeyedList.lookup id entry (KeyedList.firsts id entries)).isSome = true ↔
      entry ∈ entries := by
    rw [KeyedList.lookup_firsts, Option.isSome_iff_ne_none, Ne, KeyedList.lookup_eq_none_iff]
    simp
  unfold withoutRepeats
  rw [KeyedList.firsts_concat]
  exact if_congr hfound rfl rfl

theorem withoutRepeats_sublist (entries : List LedgerEntry) :
    (withoutRepeats entries).Sublist entries := by
  induction entries using List.reverseRecOn with
  | nil => exact List.Sublist.slnil
  | append_singleton entries entry ih =>
      rw [withoutRepeats_concat]
      split
      · exact ih.trans (List.sublist_append_left _ _)
      · exact ih.append_right _

theorem withoutRepeats_eq_self_iff {entries : List LedgerEntry} :
    withoutRepeats entries = entries ↔ entries.Nodup := by
  constructor
  · intro h
    have hnodup := @KeyedList.nodup_firsts _ _ _ id entries
    rw [List.map_id] at hnodup
    rw [← h]
    exact hnodup
  · intro h
    induction entries using List.reverseRecOn with
    | nil => rfl
    | append_singleton entries entry ih =>
        obtain ⟨hentries, -, hnew⟩ := List.nodup_append.mp h
        have hmem : entry ∉ entries := fun hmem =>
          hnew entry hmem entry (List.mem_singleton_self entry) rfl
        rw [withoutRepeats_concat, if_neg hmem, ih hentries]

/-! ## What a replay counts -/

/-- The new state of a position leaves cash as it is. -/
theorem replayPosition_cash {occurredAt : Instant} {loop next : ReplayLoop} {key : PositionKey}
    {units basis entryFees realized realizedDelta : ℤ}
    (h : replayPosition occurredAt loop key units basis entryFees realized realizedDelta =
      .ok next) : next.cash = loop.cash := by
  unfold replayPosition at h
  obtain ⟨-, h⟩ := Checks.ite_error_eq_ok.mp h
  split at h
  · obtain ⟨-, h⟩ := Checks.ite_error_eq_ok.mp h
    cases h
    rfl
  · obtain ⟨updated, -, h⟩ := Checks.bind_eq_ok.mp h
    cases h
    rfl

theorem replayPosting_cash {entry : LedgerEntry} {loop next : ReplayLoop} {posting : Posting}
    (h : replayPosting entry loop posting = .ok next) : next.cash = loop.cash := by
  unfold replayPosting at h
  split at h
  · cases h
    rfl
  · split at h
    · cases h
    · exact replayPosition_cash h

/-- Every entry moves cash by what it posts on cash. -/
theorem replayEntry_cash {agentId : String} {loop next : ReplayLoop} {entry : LedgerEntry}
    (h : replayEntry agentId loop entry = .ok next) :
    next.cash = loop.cash + cashPosted entry := by
  obtain ⟨-, h⟩ := Checks.ite_error_eq_ok.mp h
  obtain ⟨⟨ledger, result⟩, -, h⟩ := Checks.bind_eq_ok.mp h
  exact Checks.foldlM_invariant (fun _ (reached : ReplayLoop) =>
    reached.cash = loop.cash + cashPosted entry) []
    (fun _ _ _ _ _ hcash hstep => (replayPosting_cash hstep).trans hcash) h rfl

theorem foldlM_replayEntry_cash {agentId : String} {start final : ReplayLoop}
    {entries : List LedgerEntry} (h : entries.foldlM (replayEntry agentId) start = .ok final) :
    final.cash = start.cash + (entries.map cashPosted).sum := by
  refine Checks.foldlM_invariant (fun consumed (reached : ReplayLoop) =>
    reached.cash = start.cash + (consumed.map cashPosted).sum) [] ?_ h ?_
  · intro consumed current entry next _ hcash hstep
    rw [replayEntry_cash hstep, hcash, List.map_append, List.sum_append, List.map_singleton,
      List.sum_singleton, add_assoc]
  · rw [List.map_nil, List.sum_nil, add_zero]

/-- A replay counts all entries, and adds up what they post on cash. -/
theorem replayContractPortfolio_counts {initial replayed : ContractPortfolio}
    {entries : List LedgerEntry} (h : replayContractPortfolio initial entries = .ok replayed) :
    replayed.version = initial.version + entries.length ∧
      replayed.cashMicros = initial.cashMicros + (entries.map cashPosted).sum := by
  obtain ⟨loop, hloop, -, hfields⟩ := replayContractPortfolio_eq_ok_iff.mp h
  rw [hfields]
  exact ⟨rfl, foldlM_replayEntry_cash hloop⟩

/-- A replay of entries some of which occur again gives what it gives without the repeats only if
there are none.  What it gives otherwise has counted the repeats, and their cash. -/
theorem replay_withoutRepeats_iff {initial once : ContractPortfolio} {entries : List LedgerEntry}
    (h : replayContractPortfolio initial (withoutRepeats entries) = .ok once) :
    (replayContractPortfolio initial entries = .ok once ↔ entries.Nodup) ∧
      ∀ again, replayContractPortfolio initial entries = .ok again →
        again.version + (withoutRepeats entries).length = once.version + entries.length ∧
        again.cashMicros + ((withoutRepeats entries).map cashPosted).sum =
          once.cashMicros + (entries.map cashPosted).sum := by
  obtain ⟨hversion, hcash⟩ := replayContractPortfolio_counts h
  constructor
  · constructor
    · intro hsame
      have hcount := (replayContractPortfolio_counts hsame).1
      have hlength : (withoutRepeats entries).length = entries.length := by omega
      exact withoutRepeats_eq_self_iff.mp ((withoutRepeats_sublist entries).eq_of_length hlength)
    · intro hnodup
      rw [withoutRepeats_eq_self_iff.mpr hnodup] at h
      exact h
  · intro again hagain
    obtain ⟨hversion', hcash'⟩ := replayContractPortfolio_counts hagain
    constructor <;> omega

namespace Sample

theorem oneOrder_fill : (fillFields .buy 200 500000 1000000 100).postInit = .ok () := by decide

/-- Two hundred units bought. -/
def oneOrder : List FilledOrder :=
  [order (market, .yes) .buy 200 500000 1000000 100 "buy" twoHundred_pos oneOrder_fill]

end Sample

set_option maxRecDepth 10000 in
theorem replay_withoutRepeats_order :
    ∃ state once, Sample.oneOrder.foldlM bookOrder ⟨Sample.portfolio, []⟩ = .ok state ∧
      replayContractPortfolio Sample.portfolio (withoutRepeats state.entries) = .ok once ∧
      (replayContractPortfolio Sample.portfolio state.entries = .ok once ↔
        state.entries.Nodup) := by
  obtain ⟨state, hrun, hreplays⟩ := Checks.exists_ok_of_any
    (Sample.oneOrder.foldlM bookOrder ⟨Sample.portfolio, []⟩)
    (fun state => (replayContractPortfolio Sample.portfolio
      (withoutRepeats state.entries)).toOption.any fun _ => true) (by decide)
  obtain ⟨once, honce, -⟩ := Checks.exists_ok_of_any _ _ hreplays
  exact ⟨state, once, hrun, honce, (replay_withoutRepeats_iff honce).1⟩

set_option maxRecDepth 10000 in
/-- The purchase is paid for twice when its entry comes twice. -/
theorem replay_pays_twice :
    ∃ state once again, Sample.oneOrder.foldlM bookOrder ⟨Sample.portfolio, []⟩ = .ok state ∧
      withoutRepeats (state.entries ++ state.entries) = state.entries ∧
      replayContractPortfolio Sample.portfolio state.entries = .ok once ∧
      replayContractPortfolio Sample.portfolio (state.entries ++ state.entries) = .ok again ∧
      again.cashMicros < once.cashMicros ∧ again.positions ≠ once.positions ∧ again ≠ once := by
  obtain ⟨state, hrun, htest⟩ := Checks.exists_ok_of_any
    (Sample.oneOrder.foldlM bookOrder ⟨Sample.portfolio, []⟩)
    (fun state => withoutRepeats (state.entries ++ state.entries) = state.entries ∧
      (replayContractPortfolio Sample.portfolio state.entries).toOption.any fun once =>
        (replayContractPortfolio Sample.portfolio (state.entries ++ state.entries)).toOption.any
          fun again => again.cashMicros < once.cashMicros ∧ again.positions ≠ once.positions)
    (by decide)
  obtain ⟨hkept, htest⟩ := of_decide_eq_true htest
  obtain ⟨once, honce, htest⟩ := Checks.exists_ok_of_any _ _ htest
  obtain ⟨again, hagain, htest⟩ := Checks.exists_ok_of_any _ _ htest
  obtain ⟨hcash, hpositions⟩ := of_decide_eq_true htest
  refine ⟨state, once, again, hrun, hkept, honce, hagain, hcash, hpositions, ?_⟩
  rintro rfl
  exact hpositions rfl

end VTrade
