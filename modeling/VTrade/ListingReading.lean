/-
# Reading a listing

A page from which everything was popped gives out the cursor it was asked for, and an agent that
follows the cursors asks for it again and again.  That is so where the page without items fits and
neither all that was asked for nor the first item alone does.  Everywhere else a page has an item
or the tool raises, and the cursors lead through the whole listing.
-/

import VTrade.ListingPages

namespace VTrade

/-! ## Sizes of pages -/

namespace ListingCursor

theorem size_cursor (name : String) (cutoff : Datetime) (offset : ℕ) :
    JsonText.size false (.text (cursor name cutoff offset)) =
      (JsonText.size true (payload name cutoff offset) * 4 + 2) / 3 + 2 := by
  unfold cursor
  rw [Base64.size_token, JsonText.length_utf8Bytes]
  rfl

/-- The cursor of a later offset is not shorter. -/
theorem size_cursor_le (name : String) (cutoff : Datetime) {first second : ℕ}
    (h : first ≤ second) : JsonText.size false (.text (cursor name cutoff first)) ≤
      JsonText.size false (.text (cursor name cutoff second)) := by
  have hpayload : JsonText.size true (payload name cutoff first) ≤
      JsonText.size true (payload name cutoff second) := by
    have hoffset : JsonText.size true (.int first) ≤ JsonText.size true (.int second) :=
      JsonText.size_natural_le h
    unfold payload
    rw [JsonText.size_object, JsonText.size_object]
    simp only [List.map_cons, List.map_nil, List.sum_cons, List.sum_nil, List.length_cons,
      JsonText.fieldSize]
    omega
  rw [size_cursor, size_cursor]
  omega

end ListingCursor

namespace ToolListing

variable {listing : ToolListing} {limit offset : ℕ}

/-- The size of what differs from page to page. -/
def weight (page : ListingPage) : ℕ :=
  JsonText.size false (.array (page.selected.map .object)) +
    JsonText.size false (page.nextCursor.elim .null .text) +
    JsonText.size false (.bool page.hasMore) + JsonText.size false (.bool page.payloadTruncated)

theorem weight_output_more (listing : ToolListing) (offset : ℕ) (selected : List JsonObject)
    (truncated : Bool) : weight (listing.output offset selected true truncated) =
      JsonText.size false (.array (selected.map .object)) +
        JsonText.size false (.text (ListingCursor.cursor listing.name listing.cutoff
          (offset + selected.length))) +
        JsonText.size false (.bool true) + JsonText.size false (.bool truncated) :=
  rfl

theorem weight_output_last (listing : ToolListing) (offset : ℕ) (selected : List JsonObject)
    (truncated : Bool) : weight (listing.output offset selected false truncated) =
      JsonText.size false (.array (selected.map .object)) + JsonText.size false .null +
        JsonText.size false (.bool false) + JsonText.size false (.bool truncated) :=
  rfl

theorem size_document (listing : ToolListing) : ∃ fixed, ∀ page,
    JsonText.size false (listing.document page) = fixed + weight page := by
  refine ⟨JsonText.size false (listing.document (listing.output 0 [] false false)) -
    weight (listing.output 0 [] false false), fun page => ?_⟩
  unfold document weight
  rw [JsonText.size_object, JsonText.size_object]
  cases listing.includeDataCutoff <;>
    · simp only [Bool.false_eq_true, if_true, if_false, List.nil_append, List.cons_append,
        List.map_cons, List.map_nil, List.sum_cons, List.sum_nil, List.length_cons,
        JsonText.fieldSize]
      omega

/-- A page that is not heavier than one that fits, fits. -/
theorem fits_of_weight_le {page other : ListingPage} (hweight : weight page ≤ weight other)
    (hother : listing.fits other = true) : listing.fits page = true := by
  obtain ⟨fixed, hsize⟩ := listing.size_document
  have hbytes : JsonText.size false (listing.document page) ≤
      JsonText.size false (listing.document other) := by
    rw [hsize, hsize]
    exact Nat.add_le_add_left hweight fixed
  rw [← JsonText.size_sorted, ← JsonText.size_sorted (listing.document other)] at hbytes
  have htokens : outputTokens (listing.document page) ≤ outputTokens (listing.document other) :=
    max_le_max_left 1 (Int.ofNat_le.mpr (Nat.div_le_div_right (Nat.add_le_add_right hbytes 3)))
  exact decide_eq_true (htokens.trans (of_decide_eq_true hother))

/-- A page with fewer items that does not end later is not heavier. -/
theorem weight_output_le {first second : ℕ} {selected others : List JsonObject}
    {hasMore truncated shortened : Bool} (hitems : selected.Sublist others)
    (hend : first + selected.length ≤ second + others.length)
    (hshortened : shortened = true → truncated = true) :
    weight (listing.output first selected hasMore truncated) ≤
      weight (listing.output second others hasMore shortened) := by
  have harray : JsonText.size false (.array (selected.map .object)) ≤
      JsonText.size false (.array (others.map .object)) :=
    JsonText.size_array_le (hitems.map Json.object)
  have hcursor := ListingCursor.size_cursor_le listing.name listing.cutoff hend
  have hflag : JsonText.size false (.bool truncated) ≤ JsonText.size false (.bool shortened) := by
    cases shortened with
    | false => cases truncated <;> decide
    | true => rw [hshortened rfl]
  cases hasMore with
  | false =>
      rw [weight_output_last, weight_output_last]
      omega
  | true =>
      rw [weight_output_more, weight_output_more]
      omega

/-! ## Popping items -/

/-- The page that is returned: all the items if they fit, else as many of the first as fit. -/
theorem fitted_eq_ok_iff {items : List JsonObject} {count : ℕ} {hasMore truncated : Bool}
    {page : ListingPage} :
    listing.fitted offset items count hasMore truncated = .ok page ↔
      listing.fits page = true ∧
        (page = listing.output offset (items.take count) hasMore truncated ∨
          listing.fits (listing.output offset (items.take count) hasMore truncated) = false ∧
            ∃ kept < count, page = listing.output offset (items.take kept) true true ∧
              ∀ more, kept < more → more < count →
                listing.fits (listing.output offset (items.take more) true true) = false) := by
  induction count generalizing hasMore truncated with
  | zero =>
      unfold fitted
      dsimp only
      rw [List.take_zero]
      constructor
      · intro h
        split at h
        next hfits =>
          rw [← Except.ok.inj h]
          exact ⟨hfits, .inl rfl⟩
        · cases h
      · rintro ⟨hfits, rfl | ⟨-, kept, hkept, -⟩⟩
        · exact if_pos hfits
        · exact absurd hkept (Nat.not_lt_zero kept)
  | succ count ih =>
      unfold fitted
      dsimp only
      cases hfirst : listing.fits (listing.output offset (items.take (count + 1)) hasMore
          truncated) with
      | true =>
          rw [if_pos rfl]
          constructor
          · intro h
            rw [← Except.ok.inj h]
            exact ⟨hfirst, .inl rfl⟩
          · rintro ⟨-, rfl | ⟨hfalse, -⟩⟩
            · rfl
            · cases hfalse
      | false =>
          rw [if_neg Bool.false_ne_true, ih]
          constructor
          · rintro ⟨hfits, rfl | ⟨hcount, kept, hkept, rfl, hlarge⟩⟩
            · refine ⟨hfits, .inr ⟨rfl, count, Nat.lt_succ_self count, rfl, ?_⟩⟩
              intro more hmore hless
              omega
            · refine ⟨hfits, .inr ⟨rfl, kept, Nat.lt_succ_of_lt hkept, rfl, ?_⟩⟩
              intro more hmore hless
              rcases Nat.lt_succ_iff_lt_or_eq.mp hless with hlt | rfl
              · exact hlarge more hmore hlt
              · exact hcount
          · rintro ⟨hfits, rfl | ⟨-, kept, hkept, rfl, hlarge⟩⟩
            · rw [hfirst] at hfits
              cases hfits
            · rcases Nat.lt_succ_iff_lt_or_eq.mp hkept with hlt | rfl
              · refine ⟨hfits, .inr ⟨hlarge count hlt (Nat.lt_succ_self count), kept, hlt, rfl, ?_⟩⟩
                intro more hmore hless
                exact hlarge more hmore (Nat.lt_succ_of_lt hless)
              · exact ⟨hfits, .inl rfl⟩

/-- Where the page without items fits, popping comes to a page that fits. -/
theorem exists_fitted {items : List JsonObject} (hempty : listing.fits
    (listing.output offset [] true true) = true) (count : ℕ) :
    ∃ page, listing.fitted offset items count true true = .ok page := by
  induction count with
  | zero => exact ⟨_, if_pos hempty⟩
  | succ count ih =>
      cases hfirst : listing.fits (listing.output offset (items.take (count + 1)) true true) with
      | true => exact ⟨_, if_pos hfirst⟩
      | false =>
          obtain ⟨page, hpage⟩ := ih
          refine ⟨page, ?_⟩
          unfold fitted
          dsimp only
          rw [hfirst, if_neg Bool.false_ne_true, hpage]

/-! ## Where the page without items is returned -/

/-- The page of all that was asked for. -/
def wholePage (listing : ToolListing) (limit offset : ℕ) : ListingPage :=
  listing.output offset (listing.window offset limit) (listing.hasMore offset limit) false

/-- The page of some of the first items that were asked for, after popping. -/
def poppedPage (listing : ToolListing) (limit offset kept : ℕ) : ListingPage :=
  listing.output offset ((listing.window offset limit).take kept) true true

/-- All that was asked for fits, or the first item alone, if it is not all. -/
def Advances (listing : ToolListing) (limit offset : ℕ) : Prop :=
  listing.fits (listing.wholePage limit offset) = true ∨
    1 < (listing.window offset limit).length ∧
      listing.fits (listing.poppedPage limit offset 1) = true

/-- Only the page without items fits. -/
def Stuck (listing : ToolListing) (limit offset : ℕ) : Prop :=
  offset < listing.items.length ∧ listing.fits (listing.output offset [] true true) = true ∧
    ¬ listing.Advances limit offset

theorem length_window (listing : ToolListing) (offset limit : ℕ) :
    (listing.window offset limit).length = min limit (listing.items.length - offset) := by
  unfold window
  rw [List.length_take, List.length_drop]

theorem pageAt_eq_ok_iff {page : ListingPage} : listing.pageAt limit offset = .ok page ↔
    listing.fits page = true ∧
      (page = listing.wholePage limit offset ∨
        listing.fits (listing.wholePage limit offset) = false ∧
          ∃ kept < (listing.window offset limit).length,
            page = listing.poppedPage limit offset kept ∧
              ∀ more, kept < more → more < (listing.window offset limit).length →
                listing.fits (listing.poppedPage limit offset more) = false) := by
  unfold ToolListing.pageAt wholePage
  dsimp only
  rw [fitted_eq_ok_iff, List.take_length]
  rfl

/-- If some items fit after popping, the first of them does. -/
theorem fits_one_of_fits {kept : ℕ} (hkept : 0 < kept)
    (hless : kept < (listing.window offset limit).length)
    (hfits : listing.fits (listing.poppedPage limit offset kept) = true) :
    listing.fits (listing.poppedPage limit offset 1) = true := by
  apply fits_of_weight_le _ hfits
  apply weight_output_le (List.take_sublist_take_left hkept)
  · rw [List.length_take, List.length_take]
    omega
  · exact fun h => h

/-- Where only the page without items fits, it is returned, with the cursor of the same offset. -/
theorem Stuck.pageAt (h : listing.Stuck limit offset) (hlimit : 0 < limit) :
    listing.pageAt limit offset = .ok (listing.output offset [] true true) := by
  obtain ⟨hoffset, hempty, hnot⟩ := h
  have hlength := listing.length_window offset limit
  have hwhole : listing.fits (listing.wholePage limit offset) = false := by
    by_contra hfits
    exact hnot (.inl (Bool.not_eq_false _ ▸ hfits))
  refine pageAt_eq_ok_iff.mpr ⟨hempty, .inr ⟨hwhole, 0, by omega, rfl, ?_⟩⟩
  intro more hmore hless
  by_contra hfits
  rw [Bool.not_eq_false] at hfits
  exact hnot (.inr ⟨by omega, fits_one_of_fits hmore hless hfits⟩)

/-- A page without items is returned only where nothing else fits. -/
theorem stuck_of_pageAt {page : ListingPage} (hoffset : offset < listing.items.length)
    (hlimit : 0 < limit) (hpage : listing.pageAt limit offset = .ok page)
    (hnone : page.selected = []) : listing.Stuck limit offset := by
  have hlength := listing.length_window offset limit
  obtain ⟨hfits, rfl | ⟨hwhole, kept, hkept, rfl, hlarge⟩⟩ := pageAt_eq_ok_iff.mp hpage
  · have hzero : (listing.window offset limit).length = 0 := congrArg List.length hnone
    omega
  · have hzero : ((listing.window offset limit).take kept).length = 0 := congrArg List.length hnone
    rw [List.length_take] at hzero
    have hkept : kept = 0 := by omega
    subst hkept
    refine ⟨hoffset, hfits, ?_⟩
    rintro (hall | ⟨hone, hfirst⟩)
    · rw [hwhole] at hall
      cases hall
    · rw [hlarge 1 Nat.zero_lt_one hone] at hfirst
      cases hfirst

/-- A page is where the items at its offset start, and its cursor is for what comes after it. -/
theorem pageAt_split {page : ListingPage} (hpage : listing.pageAt limit offset = .ok page) :
    (page.nextCursor = none ∧ page.selected = listing.items.drop offset) ∨
      ∃ truncated,
        page = listing.output offset ((listing.items.drop offset).take page.selected.length)
          true truncated ∧
          page.nextCursor = some (ListingCursor.cursor listing.name listing.cutoff
            (offset + page.selected.length)) ∧
          page.selected.length ≤ limit ∧ offset + page.selected.length < listing.items.length := by
  have hlength := listing.length_window offset limit
  obtain ⟨-, rfl | ⟨-, kept, hkept, rfl, -⟩⟩ := pageAt_eq_ok_iff.mp hpage
  · have hselected : (listing.wholePage limit offset).selected = listing.window offset limit := rfl
    cases hmore : listing.hasMore offset limit with
    | false =>
        have hend := of_decide_eq_false hmore
        refine .inl ⟨?_, ?_⟩
        · unfold wholePage output
          simp only [hmore, Bool.false_eq_true, if_false]
        · rw [hselected]
          refine List.take_of_length_le ?_
          rw [List.length_drop]
          omega
    | true =>
        have hend : offset + (listing.window offset limit).length < listing.items.length :=
          of_decide_eq_true hmore
        refine .inr ⟨false, ?_, ?_, ?_, ?_⟩
        · rw [hselected]
          unfold wholePage
          rw [hmore, hlength]
          unfold window
          congr 1
          congr 1
          omega
        · unfold wholePage
          rw [hmore]
          rfl
        · rw [hselected]
          omega
        · rw [hselected]
          exact hend
  · have hselected : (listing.poppedPage limit offset kept).selected =
        (listing.window offset limit).take kept := rfl
    have hkeptLength : ((listing.window offset limit).take kept).length = kept := by
      rw [List.length_take]
      omega
    refine .inr ⟨true, ?_, rfl, ?_, ?_⟩
    · rw [hselected, hkeptLength]
      unfold poppedPage window
      rw [List.take_take]
      congr 2
      omega
    · rw [hselected]
      omega
    · rw [hselected]
      omega

/-- A page with items after a place that fits leaves a page that fits there. -/
theorem advances_of_output {first count : ℕ} {truncated : Bool} (hbefore : first < offset)
    (hafter : offset < first + count) (hlimit : count ≤ limit)
    (hend : first + count < listing.items.length)
    (hfits : listing.fits (listing.output first ((listing.items.drop first).take count) true
      truncated) = true) : listing.Advances limit offset := by
  have hlength := listing.length_window offset limit
  have hkept : first + count - offset < (listing.window offset limit).length := by omega
  have hsame : (listing.window offset limit).take (first + count - offset) =
      ((listing.items.drop first).take count).drop (offset - first) := by
    unfold window
    rw [List.take_take, List.drop_take, List.drop_drop]
    congr 1
    · omega
    · congr 1
      omega
  refine .inr ⟨by omega, fits_one_of_fits (by omega) hkept (fits_of_weight_le ?_ hfits)⟩
  apply weight_output_le
  · rw [hsame]
    exact List.drop_sublist _ _
  · rw [List.length_take, List.length_take, List.length_drop]
    omega
  · exact fun _ => rfl

/-- A last page leaves a last page at any place of it. -/
theorem advances_of_last {first : ℕ} {page : ListingPage} (hbefore : first ≤ offset)
    (hoffset : offset < listing.items.length) (hpage : listing.pageAt limit first = .ok page)
    (hlast : page.nextCursor = none) : listing.Advances limit offset := by
  obtain ⟨hfits, rfl | ⟨-, kept, -, rfl, -⟩⟩ := pageAt_eq_ok_iff.mp hpage
  · have hmore : listing.hasMore first limit = false := by
      by_contra hmore
      rw [Bool.not_eq_false] at hmore
      unfold wholePage output at hlast
      simp only [hmore, if_true] at hlast
      cases hlast
    have hend := of_decide_eq_false hmore
    have hfirst := listing.length_window first limit
    have hlater := listing.length_window offset limit
    have hnone : listing.hasMore offset limit = false := decide_eq_false (by omega)
    refine .inl (fits_of_weight_le ?_ hfits)
    unfold wholePage
    rw [hmore, hnone]
    apply weight_output_le
    · unfold window
      rw [List.take_of_length_le (by rw [List.length_drop]; omega),
        List.take_of_length_le (by rw [List.length_drop]; omega)]
      exact List.drop_sublist_drop_left _ hbefore
    · omega
    · exact fun h => h
  · cases hlast

/-- Before a place where only the page without items fits, that page fits as well. -/
theorem Stuck.exists_pageAt (h : listing.Stuck limit offset) {first : ℕ} (hbefore : first ≤ offset)
    (hlimit : 0 < limit) : ∃ page, listing.pageAt limit first = .ok page := by
  obtain ⟨hoffset, hempty, -⟩ := h
  have hlength := listing.length_window first limit
  have hfirst : listing.fits (listing.output first [] true true) = true := by
    apply fits_of_weight_le _ hempty
    exact weight_output_le (List.Sublist.refl []) (Nat.add_le_add_right hbefore 0) fun h => h
  obtain ⟨count, hcount⟩ : ∃ count, (listing.window first limit).length = count + 1 :=
    ⟨(listing.window first limit).length - 1, by omega⟩
  cases hwhole : listing.fits (listing.wholePage limit first) with
  | true => exact ⟨_, pageAt_eq_ok_iff.mpr ⟨hwhole, .inl rfl⟩⟩
  | false =>
      obtain ⟨page, hpage⟩ : ∃ page,
          listing.fitted first (listing.window first limit) count true true = .ok page :=
        exists_fitted hfirst count
      refine ⟨page, ?_⟩
      have hstep : listing.fits (listing.output first ((listing.window first limit).take (count + 1))
          (listing.hasMore first limit) false) = false := by
        rw [← hcount, List.take_length]
        exact hwhole
      unfold ToolListing.pageAt
      dsimp only
      rw [hcount, fitted, hstep, if_neg Bool.false_ne_true, hpage]

/-- A page from before such a place does not lead past it. -/
theorem Stuck.not_past (h : listing.Stuck limit offset) {first : ℕ} {page : ListingPage}
    (hbefore : first < offset) (hpage : listing.pageAt limit first = .ok page) :
    page.nextCursor = some (ListingCursor.cursor listing.name listing.cutoff
      (first + page.selected.length)) ∧ first + page.selected.length ≤ offset := by
  obtain ⟨hoffset, -, hnot⟩ := h
  rcases pageAt_split hpage with ⟨hlast, -⟩ | ⟨truncated, hsame, hnext, hcount, hend⟩
  · exact absurd (advances_of_last hbefore.le hoffset hpage hlast) hnot
  · refine ⟨hnext, ?_⟩
    by_contra hpast
    have hfits := (pageAt_eq_ok_iff.mp hpage).1
    rw [hsame] at hfits
    exact hnot (advances_of_output hbefore (not_le.mp hpast) hcount hend hfits)

/-! ## Requests -/

/-- The same arguments with a cursor. -/
def request (arguments : JsonObject) (cursor : Option String) : JsonObject :=
  (cursor.map fun cursor => ("cursor", Json.text cursor)).toList ++
    arguments.filter fun field => field.1 ≠ "cursor"

theorem get_filter_ne (fields : JsonObject) {key other : String} (h : other ≠ key) :
    Json.get (fields.filter fun field => field.1 ≠ key) other = Json.get fields other := by
  unfold Json.get
  induction fields with
  | nil => rfl
  | cons field rest ih =>
      obtain ⟨name, value⟩ := field
      by_cases hname : name = key
      · subst hname
        rw [List.filter_cons_of_neg (by simp), ih, List.lookup_cons,
          show (other == name) = false from beq_false_of_ne h]
      · rw [List.filter_cons_of_pos (by simpa using hname), List.lookup_cons, List.lookup_cons, ih]

theorem get_filter_self (fields : JsonObject) (key : String) :
    Json.get (fields.filter fun field => field.1 ≠ key) key = none := by
  unfold Json.get
  induction fields with
  | nil => rfl
  | cons field rest ih =>
      obtain ⟨name, value⟩ := field
      by_cases hname : name = key
      · rw [List.filter_cons_of_neg (by simpa using hname), ih]
      · rw [List.filter_cons_of_pos (by simpa using hname), List.lookup_cons,
          show (key == name) = false from beq_false_of_ne (Ne.symm hname), ih]

theorem limit_request (arguments : JsonObject) (cursor : Option String) :
    ListingCursor.limit (request arguments cursor) = ListingCursor.limit arguments := by
  have hget : Json.get (request arguments cursor) "limit" = Json.get arguments "limit" := by
    have hne : "limit" ≠ "cursor" := by decide
    rw [← get_filter_ne arguments hne]
    cases cursor <;> rfl
  unfold ListingCursor.limit
  rw [hget]

theorem get_request_cursor (arguments : JsonObject) (cursor : Option String) :
    Json.get (request arguments cursor) "cursor" = cursor.map .text := by
  cases cursor with
  | none => exact get_filter_self arguments "cursor"
  | some cursor => rfl

/-- A cursor that is given out for an offset, or none for the first page. -/
inductive Issued (listing : ToolListing) : Option String → ℕ → Prop
  | start : Issued listing none 0
  | issued (offset : ℕ) : Issued listing
      (some (ListingCursor.cursor listing.name listing.cutoff offset)) offset

variable {cursor : Option String} {arguments : JsonObject}

theorem Issued.cursorOffset (h : listing.Issued cursor offset) :
    ListingCursor.cursorOffset (cursor.map .text) listing.name listing.cutoff = .ok offset := by
  cases h with
  | start => rfl
  | issued offset => exact ListingCursor.cursorOffset_cursor listing.name listing.cutoff offset

/-- The page for a cursor that is given out is the one at its offset. -/
theorem Issued.page (h : listing.Issued cursor offset)
    (hlimit : ListingCursor.limit arguments = .ok limit) :
    listing.page (request arguments cursor) = listing.pageAt limit offset := by
  unfold ToolListing.page
  rw [limit_request, hlimit, get_request_cursor]
  show (ListingCursor.cursorOffset _ _ _ >>= fun offset => listing.pageAt limit offset) = _
  rw [h.cursorOffset]
  rfl

/-- The pages that an agent is given for the same arguments. -/
def serve (listing : ToolListing) (arguments : JsonObject) (_step : ℕ) (cursor : Option String) :
    Except ListingError (Paging.Page JsonObject String) :=
  (listing.page (request arguments cursor)).map fun page => ⟨page.selected, page.nextCursor⟩

/-- The items that a cursor leaves to be read. -/
def remaining (listing : ToolListing) (cursor : Option String) : List JsonObject :=
  match ListingCursor.cursorOffset (cursor.map .text) listing.name listing.cutoff with
  | .ok offset => listing.items.drop offset
  | .error _ => []

theorem Issued.remaining (h : listing.Issued cursor offset) :
    listing.remaining cursor = listing.items.drop offset := by
  unfold ToolListing.remaining
  rw [h.cursorOffset]

/-- Wherever the page without items fits, one with items does. -/
def NeverStuck (listing : ToolListing) (arguments : JsonObject) : Prop :=
  ∀ limit, ListingCursor.limit arguments = .ok limit → ∀ offset < listing.items.length,
    listing.fits (listing.output offset [] true true) = true → listing.Advances limit offset

/-- The pages tile what their cursors leave to be read, unless only a page without items fits
somewhere. -/
theorem serve_tiles (hlimit : ListingCursor.limit arguments = .ok limit)
    (hnever : listing.NeverStuck arguments) : Paging.Tiles (listing.serve arguments)
      (fun cursor => ∃ offset, listing.Issued cursor offset) listing.remaining where
  last := by
    rintro step cursor page ⟨offset, hissued⟩ hserve hlast
    obtain ⟨page, hpage, rfl⟩ := Checks.map_eq_ok.mp hserve
    rw [hissued.page hlimit] at hpage
    rw [hissued.remaining]
    rcases pageAt_split hpage with ⟨-, hall⟩ | ⟨-, -, hnext, -⟩
    · exact hall
    · rw [show page.nextCursor = none from hlast] at hnext
      cases hnext
  next := by
    rintro step cursor page next ⟨offset, hissued⟩ hserve hnext
    obtain ⟨page, hpage, rfl⟩ := Checks.map_eq_ok.mp hserve
    have hnext : page.nextCursor = some next := hnext
    rw [hissued.page hlimit] at hpage
    rcases pageAt_split hpage with ⟨hlast, -⟩ | ⟨truncated, hsame, hcursor, -, hend⟩
    · rw [hlast] at hnext
      cases hnext
    · rw [hcursor] at hnext
      obtain rfl := Option.some.inj hnext
      have hlater : listing.Issued (some (ListingCursor.cursor listing.name listing.cutoff
          (offset + page.selected.length))) (offset + page.selected.length) := .issued _
      refine ⟨⟨_, hlater⟩, ?_, ?_⟩
      · intro hnone
        have hoffset : offset < listing.items.length := by omega
        obtain ⟨-, hempty, hnot⟩ :=
          stuck_of_pageAt hoffset (ListingCursor.limit_pos hlimit) hpage hnone
        exact hnot (hnever limit hlimit offset hoffset hempty)
      · have hselected : page.selected = (listing.items.drop offset).take page.selected.length :=
          congrArg ListingPage.selected hsame
        rw [hissued.remaining, hlater.remaining]
        calc listing.items.drop offset
            = (listing.items.drop offset).take page.selected.length ++
                (listing.items.drop offset).drop page.selected.length :=
              (List.take_append_drop _ _).symm
          _ = page.selected ++ listing.items.drop (offset + page.selected.length) := by
              rw [← hselected, List.drop_drop]

/-! ## Following the cursors -/

/-- What an agent that follows the cursors gets: every item once and in order, or the first of them
and what was raised. -/
inductive Reads (listing : ToolListing) : Paging.Reading JsonObject ListingError → Prop
  | all : Reads listing ⟨listing.items, none⟩
  | raised {seen left : List JsonObject} {error : ListingError} :
      listing.items = seen ++ left → Reads listing ⟨seen, some error⟩

/-- Reading ends where a page without items never comes alone. -/
theorem NeverStuck.follow (hnever : listing.NeverStuck arguments) :
    ∃ reading, Paging.follow (listing.serve arguments) (listing.items.length + 1) 0 none =
      some reading ∧ listing.Reads reading := by
  cases hlimit : ListingCursor.limit arguments with
  | error error =>
      have hserve : listing.serve arguments 0 none = .error error := by
        unfold serve page
        rw [limit_request, hlimit]
        rfl
      exact ⟨_, Paging.follow_of_error hserve, .raised (List.nil_append _).symm⟩
  | ok limit =>
      have hstart : listing.Issued none 0 := .start
      have hrest : listing.remaining none = listing.items := hstart.remaining
      obtain ⟨reading, hreading, hends⟩ := (serve_tiles hlimit hnever).follow_ends 0 ⟨0, hstart⟩
        (Nat.lt_succ_of_le (congrArg List.length hrest).le)
      refine ⟨reading, hreading, ?_⟩
      cases hends with
      | all =>
          rw [hrest]
          exact .all
      | raised _ _ hleft =>
          rw [hrest] at hleft
          exact .raised hleft

/-- Where only a page without items fits, an agent that comes there never ends. -/
theorem Stuck.follow (h : listing.Stuck limit offset)
    (hlimit : ListingCursor.limit arguments = .ok limit) {first fuel step : ℕ}
    (hissued : listing.Issued cursor first) (hbefore : first ≤ offset) :
    Paging.follow (listing.serve arguments) fuel step cursor = none := by
  have hpositive := ListingCursor.limit_pos hlimit
  induction fuel generalizing cursor first step with
  | zero => rfl
  | succ fuel ih =>
      obtain ⟨page, hpage⟩ := h.exists_pageAt hbefore hpositive
      have hserve : listing.serve arguments step cursor = .ok ⟨page.selected, page.nextCursor⟩ := by
        unfold serve
        rw [hissued.page hlimit, hpage]
        rfl
      obtain ⟨later, hnext, hlater⟩ : ∃ later, page.nextCursor =
          some (ListingCursor.cursor listing.name listing.cutoff later) ∧ later ≤ offset := by
        rcases hbefore.lt_or_eq with hlt | rfl
        · exact ⟨_, h.not_past hlt hpage⟩
        · rw [h.pageAt hpositive] at hpage
          rw [← Except.ok.inj hpage]
          exact ⟨first, rfl, Nat.le_refl first⟩
      rw [Paging.follow_of_next hserve hnext, ih (.issued later) hlater, Option.map_none]

/-- Reading ends only where a page without items never comes alone. -/
theorem neverStuck_of_follow {fuel : ℕ} {reading : Paging.Reading JsonObject ListingError}
    (h : Paging.follow (listing.serve arguments) fuel 0 none = some reading) :
    listing.NeverStuck arguments := by
  intro limit hlimit offset hoffset hempty
  by_contra hnot
  have hstuck : listing.Stuck limit offset := ⟨hoffset, hempty, hnot⟩
  rw [hstuck.follow hlimit .start (Nat.zero_le offset)] at h
  cases h

/-- A page that gives back its own cursor has no items, though there are some at its offset. -/
theorem stuck_of_same {page : ListingPage} (hpage : listing.page (request arguments cursor) = .ok page)
    (hsame : page.nextCursor = cursor) (hcursor : cursor ≠ none) :
    ∃ limit offset, ListingCursor.limit arguments = .ok limit ∧ listing.Stuck limit offset := by
  obtain ⟨limit, hlimit, hpage⟩ := Checks.bind_eq_ok.mp hpage
  obtain ⟨offset, hoffset, hpage⟩ := Checks.bind_eq_ok.mp hpage
  rw [limit_request] at hlimit
  rw [get_request_cursor] at hoffset
  refine ⟨limit, offset, hlimit, ?_⟩
  rcases pageAt_split hpage with ⟨hlast, -⟩ | ⟨truncated, -, hnext, -, hend⟩
  · exact absurd (hsame.symm.trans hlast) hcursor
  · rw [← hsame, hnext] at hoffset
    have hread := ListingCursor.cursorOffset_cursor listing.name listing.cutoff
      (offset + page.selected.length)
    have hnone : page.selected.length = 0 := by
      have hoffsets := Except.ok.inj (hread.symm.trans hoffset)
      omega
    exact stuck_of_pageAt (by omega) (ListingCursor.limit_pos hlimit) hpage
      (List.length_eq_zero_iff.mp hnone)

/-- A page that is returned is within the ceiling. -/
theorem page_fits {page : ListingPage} (hpage : listing.page arguments = .ok page) :
    outputTokens (listing.document page) ≤ listing.maximumTokens := by
  obtain ⟨limit, -, hpage⟩ := Checks.bind_eq_ok.mp hpage
  obtain ⟨offset, -, hpage⟩ := Checks.bind_eq_ok.mp hpage
  exact of_decide_eq_true (pageAt_eq_ok_iff.mp hpage).1

/-- Following the cursors ends, with every item once and in order or with what was raised, every
page is within the ceiling and none gives back its own cursor, if and only if a page with items fits
wherever the page without items does. -/
theorem pages_iff (listing : ToolListing) (arguments : JsonObject) :
    ((∃ fuel reading, Paging.follow (listing.serve arguments) fuel 0 none = some reading ∧
          listing.Reads reading) ∧
        (∀ cursor page, listing.page (request arguments cursor) = .ok page →
          outputTokens (listing.document page) ≤ listing.maximumTokens) ∧
        ∀ cursor page, listing.page (request arguments (some cursor)) = .ok page →
          page.nextCursor ≠ some cursor) ↔
      listing.NeverStuck arguments := by
  constructor
  · rintro ⟨⟨fuel, reading, hreading, -⟩, -, -⟩
    exact neverStuck_of_follow hreading
  · intro hnever
    refine ⟨⟨_, hnever.follow⟩, fun cursor page hpage => page_fits hpage, ?_⟩
    intro cursor page hpage hsame
    obtain ⟨limit, offset, hlimit, hoffset, hempty, hnot⟩ :=
      stuck_of_same hpage hsame (Option.some_ne_none cursor)
    exact hnot (hnever limit hlimit offset hoffset hempty)

end ToolListing

namespace Sample

theorem cutoff_date : 1 ≤ 2025 ∧ 2025 ≤ 9999 ∧ 1 ≤ 1 ∧ 1 ≤ 12 ∧ 1 ≤ 1 ∧ 1 ≤ daysInMonth 2025 1 := by
  decide

theorem cutoff_time : 0 < 24 ∧ 0 < 60 ∧ 0 < 60 ∧ 0 < 1000000 := by
  decide

theorem cutoff_offset : ∀ offset ∈ some (0 : ℤ), -86400000000 < offset ∧ offset < 86400000000 := by
  decide

def cutoff : Datetime where
  year := 2025
  month := 1
  day := 1
  hour := 0
  minute := 0
  second := 0
  microsecond := 0
  utcoffset := some 0
  date_valid := cutoff_date
  time_valid := cutoff_time
  offset_valid := cutoff_offset

/-- A belief with a content of a hundred characters. -/
def longBelief : JsonObject := [("content", .text (String.ofList (List.replicate 100 'x')))]

theorem beliefs_fresh : "beliefs" ∉
    ["as_of", "data_cutoff", "next_cursor", "has_more", "payload_truncated"] := by
  decide

/-- One belief, of which a page would take 57 tokens, and a page without it 53. -/
def beliefs : ToolListing where
  itemKey := "beliefs"
  items := [longBelief]
  name := "get_general_beliefs"
  cutoff := cutoff
  maximumTokens := 53
  includeDataCutoff := false
  itemKey_fresh := beliefs_fresh

end Sample

/-- The page without the belief is given back with its own cursor again and again. -/
theorem beliefs_endless : ¬ ((∃ fuel reading,
        Paging.follow (Sample.beliefs.serve []) fuel 0 none = some reading ∧
          Sample.beliefs.Reads reading) ∧
      (∀ cursor page, Sample.beliefs.page (ToolListing.request [] cursor) = .ok page →
        outputTokens (Sample.beliefs.document page) ≤ Sample.beliefs.maximumTokens) ∧
      ∀ cursor page, Sample.beliefs.page (ToolListing.request [] (some cursor)) = .ok page →
        page.nextCursor ≠ some cursor) := by
  rintro ⟨⟨fuel, reading, hreading, -⟩, -, -⟩
  have hempty : Sample.beliefs.fits (Sample.beliefs.output 0 [] true true) = true := by
    decide +kernel
  have hwhole : Sample.beliefs.fits (Sample.beliefs.wholePage 100 0) = false := by
    decide +kernel
  rcases ToolListing.neverStuck_of_follow hreading 100 rfl 0 Nat.zero_lt_one hempty with
    hfits | ⟨hone, -⟩
  · rw [hwhole] at hfits
    cases hfits
  · exact absurd hone (by decide)

end VTrade
