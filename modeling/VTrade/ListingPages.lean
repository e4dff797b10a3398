/-
# Pages of listings

The tools that list events, markets and beliefs return them page by page.  A page starts at the
offset of its cursor with as many items as were asked for, and items are popped from its end until
it fits.  What is left is returned with a cursor for the item after it, also when nothing is left.
-/

import VTrade.Domain.Datetime
import VTrade.Lib.Base64
import VTrade.Lib.Checks
import VTrade.Lib.JsonParser
import VTrade.Lib.Paging
import VTrade.ResultCompaction

namespace VTrade

/-- What `_page` raises. -/
inductive ListingError
  /-- `ValueError`. -/
  | value (message : String)
  | unavailable (error : ToolContextUnavailable)
  deriving DecidableEq

/-! ## Arguments -/

namespace ListingCursor

/-- What a cursor is made of. -/
def payload (name : String) (cutoff : Datetime) (offset : ℕ) : Json :=
  .object [("tool", .text name), ("cutoff", .text cutoff.isoformat), ("offset", .int offset)]

/-- `_cursor`. -/
def cursor (name : String) (cutoff : Datetime) (offset : ℕ) : String :=
  String.ofList (Base64.token (JsonText.utf8Bytes (JsonText.dumps true (payload name cutoff offset))))

/-- `json.loads(base64.urlsafe_b64decode(padded).decode())`, of ASCII characters only. -/
def decoded (token : String) : Option JsonParser.Decoded :=
  if token.toList.any fun c => 128 ≤ c.toNat then none
  else
    match Base64.decode false (token.toList ++ Base64.padding token.toList.length) with
    | none => none
    | some bytes => (JsonText.utf8Chars bytes).bind JsonParser.loads

/-- The offset of a cursor for this tool and cutoff. -/
def offsetOf (name : String) (cutoff : Datetime) :
    JsonParser.Decoded → Except ListingError ℕ
  | .object fields =>
      let hasText (key expected : String) : Bool :=
        match JsonParser.Decoded.get key fields with
        | some (.text (some value)) => value = expected
        | _ => false
      if hasText "tool" name && hasText "cutoff" cutoff.isoformat then
        match JsonParser.Decoded.get "offset" fields with
        | some (.int offset) =>
            if offset < 0 then .error (.value "cursor offset is invalid") else .ok offset.toNat
        | _ => .error (.value "cursor offset is invalid")
      else .error (.value "cursor is foreign to this tool or cutoff")
  | _ => .error (.value "cursor is foreign to this tool or cutoff")

/-- `_cursor_offset`. -/
def cursorOffset (value : Option Json) (name : String) (cutoff : Datetime) :
    Except ListingError ℕ :=
  match value with
  | none | some .null => .ok 0
  | some (.text token) =>
      if token = "" then .error (.value "cursor must be an opaque non-empty string")
      else
        match decoded token with
        | none => .error (.value "cursor is invalid")
        | some value => offsetOf name cutoff value
  | some _ => .error (.value "cursor must be an opaque non-empty string")

/-- `_limit`. -/
def limit (arguments : JsonObject) : Except ListingError ℕ :=
  match Json.get arguments "limit" with
  | none => .ok 100
  | some (.int value) =>
      if 1 ≤ value ∧ value ≤ 200 then .ok value.toNat
      else .error (.value "limit must be an integer between 1 and 200")
  | some _ => .error (.value "limit must be an integer between 1 and 200")

theorem limit_pos {arguments : JsonObject} {count : ℕ} (h : limit arguments = .ok count) :
    0 < count := by
  unfold limit at h
  split at h
  · cases h
    decide
  next value _ =>
    split at h
    next hrange =>
      rw [← Except.ok.inj h]
      omega
    · cases h
  · cases h

variable (name : String) (cutoff : Datetime) (offset : ℕ)

theorem decoded_cursor : decoded (cursor name cutoff offset) =
    some (JsonParser.decoded (payload name cutoff offset)) := by
  have hascii : ¬ ((cursor name cutoff offset).toList.any fun c => 128 ≤ c.toNat) = true := by
    unfold cursor
    rw [String.toList_ofList, Base64.token_eq, List.any_eq_true]
    rintro ⟨c, hc, hlarge⟩
    obtain ⟨bits, hbits, rfl⟩ := Base64.mem_characters hc
    exact absurd (of_decide_eq_true hlarge) (Nat.not_le.mpr (Base64.toNat_character_lt hbits))
  unfold decoded
  rw [if_neg hascii]
  unfold cursor
  rw [String.toList_ofList, Base64.decode_token]
  show (JsonText.utf8Chars _).bind JsonParser.loads = _
  rw [JsonText.utf8Chars_utf8Bytes]
  exact JsonParser.loads_dumps true rfl

/-- A cursor is read as the offset that it was made for. -/
theorem cursorOffset_cursor :
    cursorOffset (some (.text (cursor name cutoff offset))) name cutoff = .ok offset := by
  have hdecoded := decoded_cursor name cutoff offset
  have hsome : cursor name cutoff offset ≠ "" := by
    intro hempty
    rw [hempty] at hdecoded
    cases hdecoded
  unfold cursorOffset
  simp only [if_neg hsome, hdecoded]
  show (if (decide (name = name) && decide (cutoff.isoformat = cutoff.isoformat)) = true then
    (if (offset : ℤ) < 0 then _ else Except.ok (offset : ℤ).toNat) else _) = _
  rw [decide_eq_true rfl, decide_eq_true rfl, Bool.and_self, if_pos rfl, if_neg (by omega),
    Int.toNat_natCast]

end ListingCursor

/-! ## Pages -/

/-- What a tool lists, for which the key is `events`, `markets` or `beliefs`. -/
structure ToolListing where
  itemKey : String
  items : List JsonObject
  name : String
  cutoff : Datetime
  maximumTokens : ℤ
  includeDataCutoff : Bool
  itemKey_fresh : itemKey ∉
    ["as_of", "data_cutoff", "next_cursor", "has_more", "payload_truncated"]

structure ListingPage where
  selected : List JsonObject
  nextCursor : Option String
  hasMore : Bool
  payloadTruncated : Bool

namespace ToolListing

variable (listing : ToolListing)

/-- The `output` that is returned for a page. -/
def document (page : ListingPage) : Json :=
  let cutoff : Json := .text listing.cutoff.isoformat
  .object (("as_of", cutoff) ::
    ((if listing.includeDataCutoff then [("data_cutoff", cutoff)] else []) ++
      [(listing.itemKey, .array (page.selected.map .object)),
        ("next_cursor", page.nextCursor.elim .null .text),
        ("has_more", .bool page.hasMore),
        ("payload_truncated", .bool page.payloadTruncated)]))

def fits (page : ListingPage) : Bool :=
  outputTokens (listing.document page) ≤ listing.maximumTokens

/-- The page of what is selected at an offset. -/
def output (offset : ℕ) (selected : List JsonObject) (hasMore truncated : Bool) : ListingPage where
  selected := selected
  nextCursor :=
    if hasMore then
      some (ListingCursor.cursor listing.name listing.cutoff (offset + selected.length))
    else none
  hasMore := hasMore
  payloadTruncated := truncated

/-- `while True`, with the first `count` items at an offset selected. -/
def fitted (offset : ℕ) (items : List JsonObject) :
    ℕ → Bool → Bool → Except ListingError ListingPage
  | 0, hasMore, truncated =>
      let page := listing.output offset [] hasMore truncated
      if listing.fits page then .ok page
      else .error (.unavailable ⟨"one tool page cannot fit the configured result ceiling"⟩)
  | count + 1, hasMore, truncated =>
      let page := listing.output offset (items.take (count + 1)) hasMore truncated
      if listing.fits page then .ok page else fitted offset items count true true

/-- `items[offset : offset + limit]`. -/
def window (offset limit : ℕ) : List JsonObject := (listing.items.drop offset).take limit

/-- Whether there are items after those that were asked for. -/
def hasMore (offset limit : ℕ) : Bool :=
  offset + (listing.window offset limit).length < listing.items.length

/-- The page at an offset. -/
def pageAt (limit offset : ℕ) : Except ListingError ListingPage :=
  let selected := listing.window offset limit
  listing.fitted offset selected selected.length (listing.hasMore offset limit) false

/-- `_page`. -/
def page (arguments : JsonObject) : Except ListingError ListingPage := do
  let limit ← ListingCursor.limit arguments
  let offset ← ListingCursor.cursorOffset (Json.get arguments "cursor") listing.name listing.cutoff
  listing.pageAt limit offset

end ToolListing

end VTrade
