/-
# Reading the portfolio

Following the cursors of a portfolio gives every open position of the agent once, in the order of
the identifiers, unless a position is too large for a page or the question of its market is missing.
No page is larger than the limit, which the handler's own check never finds, and the cursor of one
agent is refused for another that it is not bound to.
-/

import VTrade.PortfolioPages

namespace VTrade

/-! ## Sizes of pages -/

/-- A cursor is shorter than what a page is tried with. -/
theorem size_cursor_le (binding : CursorBinding) (agentId positionId : Uuid) :
    JsonText.size false (.text (binding.cursorForPosition agentId positionId)) ≤
      JsonText.size false (.text (String.ofList (List.replicate 64 'x'))) := by
  unfold CursorBinding.cursorForPosition
  rw [Base64.size_token, binding.length_payload, JsonText.size_text_of_plain]
  · decide
  · intro c hc
    rw [List.eq_of_mem_replicate hc]
    decide

/-- A page with its cursor is not larger than what it was tried with. -/
theorem tokenUpperBound_cursor_le (binding : CursorBinding) (agentId positionId : Uuid)
    (items : List Json) :
    tokenUpperBound (portfolioOutput items
        (some (binding.cursorForPosition agentId positionId)) true) ≤
      tokenUpperBound (probe items true) := by
  have hcursor := size_cursor_le binding agentId positionId
  unfold tokenUpperBound probe portfolioOutput
  rw [if_pos rfl, JsonText.size_sorted, JsonText.size_sorted, JsonText.size_object,
    JsonText.size_object]
  simp only [List.map_cons, List.map_nil, List.sum_cons, List.sum_nil, List.length_cons,
    JsonText.fieldSize]
  omega

theorem tokenUpperBound_empty : tokenUpperBound (portfolioOutput [] none false) ≤
    maximumResultTokens := by
  unfold tokenUpperBound portfolioOutput
  rw [JsonText.size_sorted]
  decide

/-! ## The rows of a page -/

/-- A position with its item. -/
def itemOf (row : PortfolioRow) : Uuid × Json := (row.id, positionItem row (row.question.getD ""))

/-- The question of the market is missing. -/
def PortfolioRow.Unnamed (row : PortfolioRow) : Prop := row.question = none ∨ row.question = some ""

theorem positionRow_eq_ok {row : PortfolioRow} {item : Uuid × Json}
    (h : positionRow row = .ok item) : item = itemOf row := by
  unfold positionRow at h
  split at h
  · cases h
  · cases h
  next question hquestion =>
    cases h
    unfold itemOf
    rw [hquestion]
    rfl

theorem positionRow_eq_error {row : PortfolioRow} {error : PortfolioError}
    (h : positionRow row = .error error) :
    row.Unnamed ∧ error = .runtime "portfolio market question is missing" := by
  unfold positionRow at h
  split at h
  next hquestion =>
    cases h
    exact ⟨.inl hquestion, rfl⟩
  next hquestion =>
    cases h
    exact ⟨.inr hquestion, rfl⟩
  · cases h

theorem mapM_positionRow_eq_ok {rows : List PortfolioRow} {items : List (Uuid × Json)}
    (h : rows.mapM positionRow = .ok items) : items = rows.map itemOf := by
  rw [Checks.mapM_eq_ok_iff] at h
  induction h with
  | nil => rfl
  | cons hfirst _ ih => rw [List.map_cons, ← ih, positionRow_eq_ok hfirst]

theorem mapM_positionRow_eq_error {rows : List PortfolioRow} {error : PortfolioError}
    (h : rows.mapM positionRow = .error error) :
    (∃ row ∈ rows, row.Unnamed) ∧ error = .runtime "portfolio market question is missing" := by
  induction rows with
  | nil => cases h
  | cons row rest ih =>
      rw [List.mapM_cons] at h
      rcases Checks.bind_eq_error.mp h with hfirst | ⟨item, -, hrest⟩
      · obtain ⟨hunnamed, herror⟩ := positionRow_eq_error hfirst
        exact ⟨⟨row, List.mem_cons_self, hunnamed⟩, herror⟩
      · rcases Checks.bind_eq_error.mp hrest with hlater | ⟨items, -, hlast⟩
        · obtain ⟨⟨other, hother, hunnamed⟩, herror⟩ := ih hlater
          exact ⟨⟨other, List.mem_cons_of_mem row hother, hunnamed⟩, herror⟩
        · cases hlast

namespace ContractPortfolioHandler

variable {handler : ContractPortfolioHandler} {after : Option Uuid}

theorem mem_positionsAfter {row : PortfolioRow} : row ∈ handler.positionsAfter after ↔
    row ∈ handler.positions.rows ∧ row.agentId = handler.agentId ∧ 0 < row.contractUnits ∧
      (after.all fun position => position.value < row.id.value) = true := by
  unfold positionsAfter
  rw [(List.perm_insertionSort _ _).mem_iff, List.mem_filter, decide_eq_true_iff]

/-- The positions of a page are in the order of their identifiers, each once. -/
theorem positionsAfter_sorted (handler : ContractPortfolioHandler) (after : Option Uuid) :
    (handler.positionsAfter after).Pairwise fun first second =>
      first.id.value < second.id.value := by
  have hle : (handler.positionsAfter after).Pairwise fun first second =>
      first.id.value ≤ second.id.value := by
    have htotal : Std.Total fun first second : PortfolioRow => first.id.value ≤ second.id.value :=
      ⟨fun first second => Nat.le_total _ _⟩
    have htrans : IsTrans PortfolioRow fun first second => first.id.value ≤ second.id.value :=
      ⟨fun _ _ _ => Nat.le_trans⟩
    exact List.pairwise_insertionSort _ _
  have hunique : ((handler.positionsAfter after).map PortfolioRow.id).Nodup := by
    have hfilter := handler.positions.ids_unique.sublist
      ((List.filter_sublist (p := fun row : PortfolioRow => row.agentId = handler.agentId ∧
        0 < row.contractUnits ∧ after.all fun position => position.value < row.id.value)
        (l := handler.positions.rows)).map PortfolioRow.id)
    exact ((List.perm_insertionSort _ _).map PortfolioRow.id).nodup_iff.mpr hfilter
  rw [List.nodup_iff_pairwise_ne, List.pairwise_map] at hunique
  refine (hle.and hunique).imp ?_
  rintro first second ⟨hle, hne⟩
  refine lt_of_le_of_ne hle fun hsame => hne ?_
  cases hfirst : first.id with
  | mk one hone =>
      cases hsecond : second.id with
      | mk other hother =>
          rw [hfirst, hsecond] at hsame
          subst hsame
          rfl

/-- After the last of the first positions come the others. -/
theorem positionsAfter_last {first later : List PortfolioRow} {row : PortfolioRow}
    (hrows : handler.positionsAfter after = first ++ later) (hlast : first.getLast? = some row) :
    handler.positionsAfter (some row.id) = later := by
  have hsorted := handler.positionsAfter_sorted after
  rw [hrows] at hsorted
  have hlater := Paging.filter_after (fun row : PortfolioRow => row.id.value) hsorted hlast
  have hrow : row ∈ handler.positionsAfter after := by
    rw [hrows]
    exact List.mem_append_left later (List.mem_of_getLast? hlast)
  rw [← hlater, ← hrows]
  have hirrefl : Std.Irrefl fun first second : PortfolioRow => first.id.value < second.id.value :=
    ⟨fun _ => Nat.lt_irrefl _⟩
  have hasymm : Std.Asymm fun first second : PortfolioRow => first.id.value < second.id.value :=
    ⟨fun _ _ => Nat.lt_asymm⟩
  apply (handler.positionsAfter_sorted _).eq_of_mem_iff
    ((handler.positionsAfter_sorted after).filter _)
  intro other
  rw [List.mem_filter, mem_positionsAfter, mem_positionsAfter, decide_eq_true_iff]
  constructor
  · rintro ⟨hmem, hagent, hunits, hafter⟩
    have hlt : row.id.value < other.id.value := of_decide_eq_true hafter
    refine ⟨⟨hmem, hagent, hunits, ?_⟩, hlt⟩
    cases after with
    | none => rfl
    | some position =>
        have hposition : position.value < row.id.value :=
          of_decide_eq_true (mem_positionsAfter.mp hrow).2.2.2
        exact decide_eq_true (hposition.trans hlt)
  · rintro ⟨⟨hmem, hagent, hunits, -⟩, hlt⟩
    exact ⟨hmem, hagent, hunits, decide_eq_true hlt⟩

/-- Positions are told apart by their items. -/
theorem eq_of_map_itemOf {first second : List PortfolioRow}
    (hfirst : ∀ row ∈ first, row ∈ handler.positions.rows)
    (hsecond : ∀ row ∈ second, row ∈ handler.positions.rows)
    (h : first.map itemOf = second.map itemOf) : first = second := by
  induction first generalizing second with
  | nil => exact (List.map_eq_nil_iff.mp h.symm).symm
  | cons row rest ih =>
      cases second with
      | nil => cases h
      | cons other others =>
          obtain ⟨hitem, hrest⟩ := List.cons.inj h
          have hid : row.id = other.id := congrArg Prod.fst hitem
          have hrow : row = other := List.inj_on_of_nodup_map handler.positions.ids_unique
            (hfirst row List.mem_cons_self) (hsecond other List.mem_cons_self) hid
          rw [hrow, ih (fun row hrow => hfirst row (List.mem_cons_of_mem _ hrow))
            (fun row hrow => hsecond row (List.mem_cons_of_mem _ hrow)) hrest]

/-! ## Pages -/

/-- What a page is made from: the items of the positions that are fetched. -/
def fetchedItems (handler : ContractPortfolioHandler) (after : Option Uuid) (limit : ℕ) :
    List (Uuid × Json) :=
  ((handler.positionsAfter after).take (limit + 1)).map itemOf

/-- The items of a page are those that are fetched, in their order. -/
theorem fetchedItems_sorted (handler : ContractPortfolioHandler) (after : Option Uuid)
    (limit : ℕ) :
    ((handler.fetchedItems after limit).insertionSort fun first second =>
      first.1.value ≤ second.1.value).filter (fun row =>
        after.all fun position => position.value < row.1.value) =
      handler.fetchedItems after limit := by
  have hsorted : (handler.fetchedItems after limit).Pairwise fun first second =>
      first.1.value ≤ second.1.value := by
    unfold fetchedItems
    rw [List.pairwise_map]
    exact ((handler.positionsAfter_sorted after).sublist (List.take_sublist _ _)).imp Nat.le_of_lt
  rw [hsorted.insertionSort_eq, List.filter_eq_self]
  intro item hitem
  obtain ⟨row, hrow, rfl⟩ := List.mem_map.mp hitem
  exact (mem_positionsAfter.mp (List.mem_of_mem_take hrow)).2.2.2

/-- The items that fit on a page, and whether there are more. -/
def selectedItems (handler : ContractPortfolioHandler) (after : Option Uuid) (limit : ℕ) :
    List (Uuid × Json) × Bool :=
  boundedItems (handler.fetchedItems after limit) limit

/-- The page that is built of what fits. -/
def builtPage (handler : ContractPortfolioHandler) (after : Option Uuid) (limit : ℕ) :
    PortfolioPage :=
  let (selected, hasMore) := handler.selectedItems after limit
  ⟨selected, if hasMore then
      selected.getLast?.map fun row => handler.binding.cursorForPosition handler.agentId row.1
    else none, hasMore⟩

/-- There are more positions and not one fits. -/
def Overlarge (handler : ContractPortfolioHandler) (after : Option Uuid) (limit : ℕ) : Prop :=
  (handler.selectedItems after limit).2 = true ∧ (handler.selectedItems after limit).1 = []

variable {cursor : Option String} {limit : ℕ}

/-- What fits is where the positions start, and there are more unless it is all of them. -/
theorem selectedItems_split (handler : ContractPortfolioHandler) (after : Option Uuid)
    (limit : ℕ) : ∃ later,
      (handler.positionsAfter after).map itemOf = (handler.selectedItems after limit).1 ++ later ∧
        ((handler.selectedItems after limit).2 = false → later = []) := by
  let fetched := handler.fetchedItems after limit
  let selected := (handler.selectedItems after limit).1
  have hselected : selected = Paging.fitting _ [] (fetched.take limit) := rfl
  have hprefix : fetched.take limit = selected ++ (fetched.take limit).drop selected.length := by
    rw [hselected]
    exact Paging.fitting_nil_prefix _ (fetched.take limit)
  have hle : selected.length ≤ min limit fetched.length := by
    have hlength := congrArg List.length hprefix
    rw [List.length_append, List.length_take] at hlength
    omega
  have hfetched : fetched = ((handler.positionsAfter after).map itemOf).take (limit + 1) :=
    List.map_take
  have hstart : selected = ((handler.positionsAfter after).map itemOf).take selected.length := by
    have htake := congrArg (List.take selected.length) hprefix
    have hmin : min (min selected.length limit) (limit + 1) = selected.length := by omega
    rw [List.take_left' rfl, List.take_take, hfetched, List.take_take, hmin] at htake
    exact htake.symm
  refine ⟨((handler.positionsAfter after).map itemOf).drop selected.length, ?_, fun hall => ?_⟩
  · calc (handler.positionsAfter after).map itemOf
        = ((handler.positionsAfter after).map itemOf).take selected.length ++
            ((handler.positionsAfter after).map itemOf).drop selected.length :=
          (List.take_append_drop _ _).symm
      _ = selected ++ ((handler.positionsAfter after).map itemOf).drop selected.length := by
          rw [← hstart]
  · have hnotless : ¬ selected.length < fetched.length := of_decide_eq_false hall
    rw [List.drop_eq_nil_iff]
    rw [hfetched, List.length_take] at hnotless hle
    omega

theorem probe_selected_le {after : Option Uuid}
    (h : (handler.selectedItems after limit).1 ≠ []) :
    tokenUpperBound (probe ((handler.selectedItems after limit).1.map Prod.snd)
      (handler.selectedItems after limit).2) ≤ maximumResultTokens := by
  rcases Paging.fitting_fits (fun candidate : List (Uuid × Json) =>
      tokenUpperBound (probe (candidate.map Prod.snd)
        (candidate.length < (handler.fetchedItems after limit).length)) ≤ maximumResultTokens)
      [] ((handler.fetchedItems after limit).take limit) with hnone | hfits
  · exact absurd hnone h
  · exact of_decide_eq_true hfits

/-- A page that is built is not too large. -/
theorem builtPage_fits (h : ¬ handler.Overlarge after limit) :
    tokenUpperBound (handler.builtPage after limit).document ≤ maximumResultTokens := by
  cases hmore : (handler.selectedItems after limit).2 with
  | false =>
      have hdocument : (handler.builtPage after limit).document =
          portfolioOutput ((handler.selectedItems after limit).1.map Prod.snd) none false := by
        unfold builtPage PortfolioPage.document
        simp only [hmore]
        rfl
      rw [hdocument]
      by_cases hnone : (handler.selectedItems after limit).1 = []
      · rw [hnone]
        exact tokenUpperBound_empty
      · have hprobe := probe_selected_le hnone
        rw [hmore] at hprobe
        exact hprobe
  | true =>
      have hsome : (handler.selectedItems after limit).1 ≠ [] := fun hnone => h ⟨hmore, hnone⟩
      have hdocument : (handler.builtPage after limit).document =
          portfolioOutput ((handler.selectedItems after limit).1.map Prod.snd)
            (some (handler.binding.cursorForPosition handler.agentId
              ((handler.selectedItems after limit).1.getLast hsome).1)) true := by
        unfold builtPage PortfolioPage.document
        simp only [hmore, if_true, List.getLast?_eq_some_getLast hsome, Option.map_some]
      rw [hdocument]
      have hprobe := probe_selected_le hsome
      rw [hmore] at hprobe
      exact (tokenUpperBound_cursor_le _ _ _ _).trans hprobe

/-- A page is built if every question is there and a position fits. -/
theorem page_eq (hafter : handler.afterPositionId cursor = .ok after) :
    handler.page cursor limit =
      (((handler.positionsAfter after).take (limit + 1)).mapM positionRow).bind fun _ =>
        if (handler.selectedItems after limit).2 = true ∧
            (handler.selectedItems after limit).1 = [] then
          .error (.pagination "one portfolio item exceeds the 24000-token result ceiling")
        else .ok (handler.builtPage after limit) := by
  unfold page
  rw [hafter]
  dsimp only [bind, Except.bind]
  cases hrows : ((handler.positionsAfter after).take (limit + 1)).mapM positionRow with
  | error error => rfl
  | ok items =>
      have hitems : items = handler.fetchedItems after limit := mapM_positionRow_eq_ok hrows
      subst hitems
      dsimp only
      rw [handler.fetchedItems_sorted after limit]
      by_cases hover : handler.Overlarge after limit
      · exact (if_pos hover).trans (if_pos hover).symm
      · refine (if_neg hover).trans (Eq.trans ?_ (if_neg hover).symm)
        exact if_neg (not_lt.mpr (builtPage_fits hover))

/-! ## Cursors that are given out -/

/-- A cursor that is given out to the agent. -/
inductive Issued (handler : ContractPortfolioHandler) : Option String → Option Uuid → Prop
  | start : Issued handler none none
  | issued (positionId : Uuid) : Issued handler
      (some (handler.binding.cursorForPosition handler.agentId positionId)) (some positionId)

theorem Issued.afterPositionId (h : handler.Issued cursor after) :
    handler.afterPositionId cursor = .ok after := by
  cases h with
  | start => rfl
  | issued positionId =>
      unfold ContractPortfolioHandler.afterPositionId
      simp only [CursorBinding.positionIdFromCursor_self]
      rfl

/-- The positions that a cursor leaves to be read. -/
def remaining (handler : ContractPortfolioHandler) (cursor : Option String) :
    List PortfolioRow :=
  match handler.afterPositionId cursor with
  | .ok after => handler.positionsAfter after
  | .error _ => []

theorem Issued.remaining (h : handler.Issued cursor after) :
    handler.remaining cursor = handler.positionsAfter after := by
  unfold ContractPortfolioHandler.remaining
  rw [h.afterPositionId]

/-- What keeps positions from being read: the first of them does not fit, or the question of a
market is missing. -/
inductive Unreadable (left : List PortfolioRow) : PortfolioError → Prop
  | overlarge {row : PortfolioRow} {later : List PortfolioRow} {hasMore : Bool} :
      left = row :: later →
      maximumResultTokens < tokenUpperBound (probe [(itemOf row).2] hasMore) →
      Unreadable left (.pagination "one portfolio item exceeds the 24000-token result ceiling")
  | unnamed {row : PortfolioRow} : row ∈ left → row.Unnamed →
      Unreadable left (.runtime "portfolio market question is missing")

/-- A page of positions of which there are more and none fits has a position that is too large. -/
theorem Overlarge.exists_row (h : handler.Overlarge after limit) (hlimit : 0 < limit) :
    ∃ row later hasMore, handler.positionsAfter after = row :: later ∧
      maximumResultTokens < tokenUpperBound (probe [(itemOf row).2] hasMore) := by
  cases hrows : handler.positionsAfter after with
  | nil =>
      have hfetched : handler.fetchedItems after limit = [] := by
        unfold fetchedItems
        rw [hrows, List.take_nil, List.map_nil]
      have hmore := h.1
      have hfalse : (boundedItems [] limit).2 = false := by
        unfold boundedItems
        simp
      unfold selectedItems at hmore
      rw [hfetched, hfalse] at hmore
      cases hmore
  | cons row later =>
      obtain ⟨count, rfl⟩ := Nat.exists_eq_succ_of_ne_zero hlimit.ne'
      have hfetched : (handler.fetchedItems after (count + 1)).take (count + 1) =
          itemOf row :: ((later.take (count + 1)).map itemOf).take count := by
        unfold fetchedItems
        rw [hrows, List.take_succ_cons, List.map_cons, List.take_succ_cons]
      have hnone := h.2
      unfold selectedItems boundedItems at hnone
      dsimp only at hnone
      rw [hfetched] at hnone
      have hlarge := of_decide_eq_false (Paging.fitting_eq_nil hnone)
      exact ⟨row, later, _, rfl, not_le.mp hlarge⟩

/-- A page is that which is built, or there is what keeps the positions from being read. -/
theorem page_cases (hissued : handler.Issued cursor after) (hlimit : 0 < limit) :
    handler.page cursor limit = .ok (handler.builtPage after limit) ∧
        ¬ handler.Overlarge after limit ∨
      ∃ error, handler.page cursor limit = .error error ∧
        Unreadable (handler.positionsAfter after) error := by
  rw [page_eq hissued.afterPositionId]
  cases hrows : ((handler.positionsAfter after).take (limit + 1)).mapM positionRow with
  | error error =>
      obtain ⟨⟨row, hrow, hunnamed⟩, rfl⟩ := mapM_positionRow_eq_error hrows
      exact .inr ⟨_, rfl, .unnamed (List.mem_of_mem_take hrow) hunnamed⟩
  | ok items =>
      by_cases hover : handler.Overlarge after limit
      · obtain ⟨row, later, hasMore, hpositions, hlarge⟩ := hover.exists_row hlimit
        exact .inr ⟨_, if_pos hover, .overlarge hpositions hlarge⟩
      · exact .inl ⟨if_neg hover, hover⟩

/-! ## Requests -/

/-- A limit that is admitted. -/
abbrev Limit := { limit : ℤ // 1 ≤ limit ∧ limit ≤ 200 }

/-- The arguments with a cursor, if there is one, and a limit, if one is given. -/
def request (cursor : Option String) (limit : Option Limit) : JsonObject :=
  (cursor.map fun cursor => ("cursor", Json.text cursor)).toList ++
    (limit.map fun limit => ("limit", Json.int limit.1)).toList

def limitOf (limit : Option Limit) : ℕ := limit.elim 100 fun limit => limit.1.toNat

theorem limitOf_pos (limit : Option Limit) : 0 < limitOf limit := by
  cases limit with
  | none => exact Nat.succ_pos 99
  | some limit =>
      have hlimit := limit.2.1
      show 0 < limit.1.toNat
      omega

/-- A cursor is not empty and short enough. -/
theorem cursor_admitted (binding : CursorBinding) (agentId positionId : Uuid) :
    ¬ (binding.cursorForPosition agentId positionId = "" ∨
      64 < JsonText.byteLength (binding.cursorForPosition agentId positionId).toList) := by
  have hlength : (Base64.token (binding.payload agentId positionId)).length = 34 := by
    rw [Base64.token_eq, Base64.length_characters, binding.length_payload]
  have hbytes : JsonText.byteLength (binding.cursorForPosition agentId positionId).toList = 34 := by
    unfold CursorBinding.cursorForPosition
    rw [String.toList_ofList, ← hlength, Base64.token_eq]
    apply JsonText.byteLength_of_single
    intro c hc
    obtain ⟨bits, hbits, rfl⟩ := Base64.mem_characters hc
    exact (Base64.plain_character hbits).2
  rintro (hempty | hlong)
  · rw [hempty] at hbytes
    cases hbytes
  · omega

theorem cursorArgument_request {token : String} (limit : Option Limit)
    (h : ¬ (token = "" ∨ 64 < JsonText.byteLength token.toList)) :
    cursorArgument (request (some token) limit) = .ok (some token) := by
  cases limit <;> exact if_neg h

theorem limitArgument_request (cursor : Option String) (limit : Option Limit) :
    limitArgument (request cursor limit) = .ok (limitOf limit) := by
  cases limit with
  | none => cases cursor <;> rfl
  | some limit => cases cursor <;> exact if_pos limit.2

theorem validateArguments_request (hissued : handler.Issued cursor after) (limit : Option Limit) :
    validateArguments (request cursor limit) = .ok (cursor, limitOf limit) := by
  have hcursor : cursorArgument (request cursor limit) = .ok cursor := by
    cases hissued with
    | start => cases limit <;> rfl
    | issued positionId =>
        exact cursorArgument_request limit
          (cursor_admitted handler.binding handler.agentId positionId)
  have hknown : ((request cursor limit).map Prod.fst).filter
      (fun name => name ≠ "cursor" ∧ name ≠ "limit") = [] := by
    cases cursor <;> cases limit <;> rfl
  unfold validateArguments
  rw [hknown, hcursor, limitArgument_request]
  rfl

/-! ## Following the cursors -/

/-- The pages that an agent is given, with a limit of its choice for each. -/
def serve (handler : ContractPortfolioHandler) (limits : ℕ → Option Limit) (step : ℕ)
    (cursor : Option String) : Except PortfolioError (Paging.Page (Uuid × Json) String) :=
  (handler.call (request cursor (limits step))).map fun page => ⟨page.items, page.nextCursor⟩

variable {limits : ℕ → Option Limit} {step : ℕ}

theorem call_request (hissued : handler.Issued cursor after) (limit : Option Limit) :
    handler.call (request cursor limit) = handler.page cursor (limitOf limit) := by
  unfold call
  rw [validateArguments_request hissued]
  rfl

/-- A page that is served is the one that is built. -/
theorem serve_eq_ok (hissued : handler.Issued cursor after)
    {page : Paging.Page (Uuid × Json) String} (h : handler.serve limits step cursor = .ok page) :
    ¬ handler.Overlarge after (limitOf (limits step)) ∧
      page = ⟨(handler.builtPage after (limitOf (limits step))).items,
        (handler.builtPage after (limitOf (limits step))).nextCursor⟩ := by
  unfold serve at h
  rw [call_request hissued] at h
  rcases page_cases hissued (limitOf_pos (limits step)) with ⟨hpage, hover⟩ | ⟨error, hpage, -⟩
  · rw [hpage] at h
    exact ⟨hover, (Except.ok.inj h).symm⟩
  · rw [hpage] at h
    cases h

theorem serve_eq_error (hissued : handler.Issued cursor after) {error : PortfolioError}
    (h : handler.serve limits step cursor = .error error) :
    Unreadable (handler.positionsAfter after) error := by
  unfold serve at h
  rw [call_request hissued] at h
  rcases page_cases hissued (limitOf_pos (limits step)) with ⟨hpage, -⟩ | ⟨raised, hpage, hleft⟩
  · rw [hpage] at h
    cases h
  · rw [hpage] at h
    cases h
    exact hleft

/-- The next cursor of a page names its last position. -/
theorem builtPage_next {next : String} (h : (handler.builtPage after limit).nextCursor = some next) :
    ∃ item, (handler.builtPage after limit).items.getLast? = some item ∧
      next = handler.binding.cursorForPosition handler.agentId item.1 := by
  unfold builtPage at h ⊢
  dsimp only at h ⊢
  split at h
  · obtain ⟨item, hlast, rfl⟩ := Option.map_eq_some_iff.mp h
    exact ⟨item, hlast, rfl⟩
  · cases h

/-- A page without a next cursor has no more positions. -/
theorem hasMore_of_nextCursor_eq_none (hover : ¬ handler.Overlarge after limit)
    (h : (handler.builtPage after limit).nextCursor = none) :
    (handler.selectedItems after limit).2 = false := by
  by_contra hmore
  rw [Bool.not_eq_false] at hmore
  have hsome : (handler.selectedItems after limit).1 ≠ [] := fun hnone => hover ⟨hmore, hnone⟩
  unfold builtPage at h
  simp only [hmore, if_true, List.getLast?_eq_some_getLast hsome, Option.map_some] at h
  cases h

/-- The pages tile what their cursors leave to be read. -/
theorem serve_tiles (handler : ContractPortfolioHandler) (limits : ℕ → Option Limit) :
    Paging.Tiles (handler.serve limits) (fun cursor => ∃ after, handler.Issued cursor after)
      fun cursor => (handler.remaining cursor).map itemOf where
  last := by
    rintro step cursor page ⟨after, hissued⟩ hserve hlast
    obtain ⟨hover, rfl⟩ := serve_eq_ok hissued hserve
    obtain ⟨later, hsplit, hnone⟩ :=
      handler.selectedItems_split after (limitOf (limits step))
    rw [hnone (hasMore_of_nextCursor_eq_none hover hlast), List.append_nil] at hsplit
    show (handler.selectedItems after _).1 = _
    rw [hissued.remaining, hsplit]
  next := by
    rintro step cursor page next ⟨after, hissued⟩ hserve hnext
    obtain ⟨hover, rfl⟩ := serve_eq_ok hissued hserve
    obtain ⟨item, hitem, rfl⟩ := builtPage_next hnext
    obtain ⟨later, hsplit, -⟩ := handler.selectedItems_split after (limitOf (limits step))
    obtain ⟨first, others, hrows, hfirst, rfl⟩ := List.map_eq_append_iff.mp hsplit
    have hlast : (handler.selectedItems after (limitOf (limits step))).1.getLast? = some item :=
      hitem
    rw [← hfirst, List.getLast?_map] at hlast
    obtain ⟨row, hrow, rfl⟩ := Option.map_eq_some_iff.mp hlast
    have hlater : handler.positionsAfter (some row.id) = others :=
      positionsAfter_last hrows hrow
    have hissuedNext : handler.Issued
        (some (handler.binding.cursorForPosition handler.agentId (itemOf row).1)) (some row.id) :=
      .issued row.id
    refine ⟨⟨_, hissuedNext⟩, ?_, ?_⟩
    · intro hnil
      rw [show (handler.builtPage after _).items = [] from hnil] at hitem
      cases hitem
    · show (handler.remaining cursor).map itemOf = (handler.selectedItems after _).1 ++ _
      rw [hissued.remaining, hissuedNext.remaining, hlater, hsplit]

/-- What an agent that follows the cursors gets: every position once, in the order of the
identifiers, or the first of them and what keeps the others from being read. -/
inductive Reads (handler : ContractPortfolioHandler) :
    Paging.Reading (Uuid × Json) PortfolioError → Prop
  | all : Reads handler ⟨(handler.positionsAfter none).map itemOf, none⟩
  | stopped {seen left : List PortfolioRow} {error : PortfolioError} :
      handler.positionsAfter none = seen ++ left → Unreadable left error →
      Reads handler ⟨seen.map itemOf, some error⟩

theorem follow_serve (handler : ContractPortfolioHandler) (limits : ℕ → Option Limit) :
    ∃ reading, Paging.follow (handler.serve limits) ((handler.positionsAfter none).length + 1) 0
      none = some reading ∧ handler.Reads reading := by
  have hstart : handler.Issued none none := .start
  have hfuel : ((handler.remaining none).map itemOf).length <
      (handler.positionsAfter none).length + 1 := by
    rw [hstart.remaining, List.length_map]
    exact Nat.lt_succ_self _
  obtain ⟨reading, hreading, hends⟩ := (handler.serve_tiles limits).follow_ends 0 ⟨none, hstart⟩ hfuel
  refine ⟨reading, hreading, ?_⟩
  cases hends with
  | all =>
      rw [hstart.remaining]
      exact .all
  | @raised items error step stop hstop herror hleft =>
      obtain ⟨after, hissued⟩ := hstop
      rw [hstart.remaining, hissued.remaining] at hleft
      obtain ⟨seen, left, hrows, rfl, hmap⟩ := List.map_eq_append_iff.mp hleft
      have hsame : left = handler.positionsAfter after := by
        refine eq_of_map_itemOf (fun row hrow => ?_)
          (fun row hrow => (mem_positionsAfter.mp hrow).1) hmap
        have hmem : row ∈ handler.positionsAfter none := by
          rw [hrows]
          exact List.mem_append_right seen hrow
        exact (mem_positionsAfter.mp hmem).1
      subst hsame
      exact .stopped hrows (serve_eq_error hissued herror)

/-! ## Bounds and foreign cursors -/

/-- Whatever is asked for, a page that is returned is not too large. -/
theorem size_document_le {arguments : JsonObject} {page : PortfolioPage}
    (h : handler.call arguments = .ok page) :
    JsonText.size false page.document.sorted ≤ maximumResultTokens := by
  obtain ⟨⟨cursor, limit⟩, -, hpage⟩ := Checks.bind_eq_ok.mp h
  obtain ⟨after, hafter, -⟩ := Checks.bind_eq_ok.mp hpage
  have hpage : handler.page cursor limit = .ok page := hpage
  rw [page_eq hafter] at hpage
  obtain ⟨items, -, hbuilt⟩ := Checks.bind_eq_ok.mp hpage
  obtain ⟨hover, hbuilt⟩ := Checks.ite_error_eq_ok.mp hbuilt
  rw [← Except.ok.inj hbuilt]
  exact (le_max_right _ _).trans (builtPage_fits hover)

/-- An error other than that of the handler's own check. -/
abbrev Foreseen (error : PortfolioError) : Prop :=
  error ≠ .runtime "portfolio page bound invariant violated"

theorem validateArguments_raises (arguments : JsonObject) :
    Checks.RaisesOnly Foreseen (validateArguments arguments) := by
  refine Checks.raisesOnly_ite (Checks.raisesOnly_error nofun) ?_
  apply Checks.raisesOnly_bind
  · unfold cursorArgument
    split
    · exact Checks.raisesOnly_ok none
    · exact Checks.raisesOnly_ok none
    · exact Checks.raisesOnly_ite (Checks.raisesOnly_error nofun) (Checks.raisesOnly_ok _)
    · exact Checks.raisesOnly_error nofun
  intro cursor _
  apply Checks.raisesOnly_bind
  · unfold limitArgument
    split
    · exact Checks.raisesOnly_ok 100
    · exact Checks.raisesOnly_ite (Checks.raisesOnly_ok _) (Checks.raisesOnly_error nofun)
    · exact Checks.raisesOnly_error nofun
  intro limit _
  exact Checks.raisesOnly_ok (cursor, limit)

theorem afterPositionId_raises (handler : ContractPortfolioHandler) (cursor : Option String) :
    Checks.RaisesOnly Foreseen (handler.afterPositionId cursor) := by
  cases cursor with
  | none => exact Checks.raisesOnly_ok none
  | some token =>
      intro error h
      unfold afterPositionId CursorBinding.positionIdFromCursor at h
      dsimp only at h
      split at h
      · cases h
        exact nofun
      · split at h
        · cases h
          exact nofun
        · cases h

/-- The handler's own check never finds a page that is too large. -/
theorem call_raises (handler : ContractPortfolioHandler) (arguments : JsonObject) :
    Checks.RaisesOnly Foreseen (handler.call arguments) := by
  apply Checks.raisesOnly_bind (validateArguments_raises arguments)
  rintro ⟨cursor, limit⟩ -
  show Checks.RaisesOnly Foreseen (handler.page cursor limit)
  cases hafter : handler.afterPositionId cursor with
  | error error =>
      have hpage : handler.page cursor limit = .error error :=
        Checks.bind_eq_error.mpr (.inl hafter)
      rw [hpage]
      exact Checks.raisesOnly_error (handler.afterPositionId_raises cursor error hafter)
  | ok after =>
      rw [page_eq hafter]
      apply Checks.raisesOnly_bind
      · intro error h
        rw [(mapM_positionRow_eq_error h).2]
        decide
      · intro items _
        exact Checks.raisesOnly_ite (Checks.raisesOnly_error nofun) (Checks.raisesOnly_ok _)

/-- The next cursor of a page that is returned names one of the positions. -/
theorem exists_row_of_next {arguments : JsonObject} {page : PortfolioPage} {next : String}
    (hpage : handler.call arguments = .ok page) (hnext : page.nextCursor = some next) :
    ∃ row ∈ handler.positionsAfter none,
      next = handler.binding.cursorForPosition handler.agentId row.id := by
  obtain ⟨⟨cursor, limit⟩, -, hpage⟩ := Checks.bind_eq_ok.mp hpage
  obtain ⟨after, hafter, -⟩ := Checks.bind_eq_ok.mp hpage
  have hpage : handler.page cursor limit = .ok page := hpage
  rw [page_eq hafter] at hpage
  obtain ⟨items, -, hbuilt⟩ := Checks.bind_eq_ok.mp hpage
  obtain ⟨-, hbuilt⟩ := Checks.ite_error_eq_ok.mp hbuilt
  rw [← Except.ok.inj hbuilt] at hnext
  obtain ⟨item, hitem, rfl⟩ := builtPage_next hnext
  obtain ⟨later, hsplit, -⟩ := handler.selectedItems_split after limit
  have hmem : item ∈ (handler.positionsAfter after).map itemOf := by
    rw [hsplit]
    exact List.mem_append_left later (List.mem_of_getLast? hitem)
  obtain ⟨row, hrow, rfl⟩ := List.mem_map.mp hmem
  obtain ⟨hknown, hagent, hunits, -⟩ := mem_positionsAfter.mp hrow
  exact ⟨row, mem_positionsAfter.mpr ⟨hknown, hagent, hunits, rfl⟩, rfl⟩

/-- A cursor that a page gives out is refused for another agent that it is not bound to. -/
theorem call_foreign {other : ContractPortfolioHandler} {arguments : JsonObject}
    {page : PortfolioPage} {next : String} (limit : Option Limit)
    (hbinding : other.binding = handler.binding)
    (hdistinct : ∀ row ∈ handler.positionsAfter none,
      handler.binding.digest handler.agentId row.id ≠ handler.binding.digest other.agentId row.id)
    (hpage : handler.call arguments = .ok page) (hnext : page.nextCursor = some next) :
    other.call (request (some next) limit) =
      .error (.pagination "cursor is invalid or foreign") := by
  obtain ⟨row, hrow, rfl⟩ := exists_row_of_next hpage hnext
  have hissued : handler.Issued
      (some (handler.binding.cursorForPosition handler.agentId row.id)) (some row.id) :=
    .issued row.id
  have hafter : other.afterPositionId
      (some (handler.binding.cursorForPosition handler.agentId row.id)) =
        .error (.pagination "cursor is invalid or foreign") := by
    unfold afterPositionId
    simp only [hbinding, CursorBinding.positionIdFromCursor_foreign _ (hdistinct row hrow)]
    rfl
  refine Checks.bind_eq_error.mpr (.inr ⟨_, validateArguments_request hissued limit, ?_⟩)
  exact Checks.bind_eq_error.mpr (.inl hafter)

/-- Following the cursors gives every open position of the agent once, in the order of the
identifiers, and ends, unless a position is too large for a page or a question is missing, which is
raised.  No page is too large, which the handler's own check never finds, and a cursor is refused for
another agent. -/
theorem pages_spec (handler : ContractPortfolioHandler) (limits : ℕ → Option Limit) :
    (∃ reading, Paging.follow (handler.serve limits) ((handler.positionsAfter none).length + 1) 0
        none = some reading ∧ handler.Reads reading) ∧
      (∀ arguments page, handler.call arguments = .ok page →
        JsonText.size false page.document.sorted ≤ maximumResultTokens) ∧
      (∀ arguments, handler.call arguments ≠
        .error (.runtime "portfolio page bound invariant violated")) ∧
      ∀ other : ContractPortfolioHandler, other.binding = handler.binding →
        (∀ row ∈ handler.positionsAfter none, handler.binding.digest handler.agentId row.id ≠
          handler.binding.digest other.agentId row.id) →
        ∀ arguments page next limit, handler.call arguments = .ok page →
          page.nextCursor = some next → other.call (request (some next) limit) =
            .error (.pagination "cursor is invalid or foreign") :=
  ⟨handler.follow_serve limits, fun _ _ h => size_document_le h,
    fun arguments h => handler.call_raises arguments _ h rfl,
    fun _ hbinding hdistinct _ _ _ limit hpage hnext =>
      call_foreign limit hbinding hdistinct hpage hnext⟩

end ContractPortfolioHandler

end VTrade
