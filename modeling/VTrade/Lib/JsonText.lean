/-
# JSON texts

What `json.dumps` writes for a value without spaces, and how many bytes of UTF-8 it takes.  The
text of a container is put together from the texts of its parts, so its size is the sum of theirs
and does not depend on the order of keys.
-/

import Mathlib.Algebra.Order.BigOperators.Group.List
import Mathlib.Data.Nat.Digits.Lemmas
import VTrade.Lib.Json

namespace JsonText

/-! ## Numbers -/

/-- The digits of a number, the first one first. -/
def natText (n : ℕ) : List Char :=
  if n = 0 then ['0'] else (Nat.digits 10 n).reverse.map fun digit => Char.ofNat (48 + digit)

def intText : ℤ → List Char
  | .ofNat n => natText n
  | .negSucc n => '-' :: natText (n + 1)

/-- `float.__repr__`: with an exponent if the point is far from the digits. -/
def magnitudeText (value : JsonFloat) : List Char :=
  let digits := natText value.digits
  let point : ℤ := digits.length + value.exponent
  if value.digits = 0 then "0.0".toList
  else if -4 < point ∧ point ≤ 16 then
    if point ≤ 0 then "0.".toList ++ List.replicate (-point).toNat '0' ++ digits
    else if (digits.length : ℤ) ≤ point then
      digits ++ List.replicate (point - digits.length).toNat '0' ++ ".0".toList
    else digits.take point.toNat ++ '.' :: digits.drop point.toNat
  else
    let fraction := if digits.length = 1 then [] else '.' :: digits.drop 1
    let magnitude := natText (point - 1).natAbs
    digits.take 1 ++ fraction ++ 'e' :: (if point - 1 < 0 then '-' else '+') ::
      (if magnitude.length = 1 then '0' :: magnitude else magnitude)

def floatText (value : JsonFloat) : List Char :=
  if value.negative then '-' :: magnitudeText value else magnitudeText value

/-! ## Texts -/

def hexDigit (n : ℕ) : Char := if n < 10 then Char.ofNat (48 + n) else Char.ofNat (87 + n)

/-- `\uXXXX`. -/
def unicodeEscape (unit : ℕ) : List Char :=
  ['\\', 'u', hexDigit (unit / 4096 % 16), hexDigit (unit / 256 % 16), hexDigit (unit / 16 % 16),
    hexDigit (unit % 16)]

/-- A character as one or two UTF-16 units. -/
def utf16Escape (code : ℕ) : List Char :=
  if code < 0x10000 then unicodeEscape code
  else unicodeEscape (0xd800 + (code - 0x10000) / 1024) ++
    unicodeEscape (0xdc00 + (code - 0x10000) % 1024)

/-- A character of a text; all that are not ASCII are escaped with `ensure_ascii`. -/
def escape (ensureAscii : Bool) (c : Char) : List Char :=
  if c = '"' then ['\\', '"']
  else if c = '\\' then ['\\', '\\']
  else if c = '\n' then ['\\', 'n']
  else if c = '\r' then ['\\', 'r']
  else if c = '\t' then ['\\', 't']
  else if c.toNat = 8 then ['\\', 'b']
  else if c.toNat = 12 then ['\\', 'f']
  else if c.toNat < 32 ∨ ensureAscii = true ∧ 127 ≤ c.toNat then utf16Escape c.toNat
  else [c]

def quote (ensureAscii : Bool) (text : String) : List Char :=
  '"' :: text.toList.flatMap (escape ensureAscii) ++ ['"']

/-! ## Values -/

/-- Parts with commas between them. -/
def commas : List (List Char) → List Char
  | [] => []
  | [part] => part
  | part :: second :: rest => part ++ ',' :: commas (second :: rest)

mutual

/-- `json.dumps(value, separators=(",", ":"))`. -/
def dumps (ensureAscii : Bool) : Json → List Char
  | .null => "null".toList
  | .bool value => if value then "true".toList else "false".toList
  | .int value => intText value
  | .float value => floatText value
  | .text value => quote ensureAscii value
  | .array values => '[' :: commas (dumpsValues ensureAscii values) ++ [']']
  | .object fields => '{' :: commas (dumpsFields ensureAscii fields) ++ ['}']

def dumpsValues (ensureAscii : Bool) : List Json → List (List Char)
  | [] => []
  | value :: rest => dumps ensureAscii value :: dumpsValues ensureAscii rest

def dumpsFields (ensureAscii : Bool) : List (String × Json) → List (List Char)
  | [] => []
  | (key, value) :: rest =>
      (quote ensureAscii key ++ ':' :: dumps ensureAscii value) :: dumpsFields ensureAscii rest

end

/-- The bytes of a text in UTF-8. -/
def byteLength (text : List Char) : ℕ := (text.map Char.utf8Size).sum

@[simp]
theorem byteLength_nil : byteLength [] = 0 := rfl

@[simp]
theorem byteLength_cons (c : Char) (text : List Char) :
    byteLength (c :: text) = c.utf8Size + byteLength text := by
  simp [byteLength]

@[simp]
theorem byteLength_append (first second : List Char) :
    byteLength (first ++ second) = byteLength first + byteLength second := by
  simp [byteLength]

/-- `text.encode()`. -/
def utf8Bytes (text : List Char) : List UInt8 := text.flatMap String.utf8EncodeChar

/-- `bytes.decode()`. -/
def utf8Chars (bytes : List UInt8) : Option (List Char) :=
  (ByteArray.mk bytes.toArray).utf8Decode?.map Array.toList

theorem utf8Chars_utf8Bytes (text : List Char) : utf8Chars (utf8Bytes text) = some text := by
  have hbytes : ByteArray.mk (utf8Bytes text).toArray = text.utf8Encode := by
    apply ByteArray.ext
    exact Array.toList_inj.mp List.toList_data_toByteArray.symm
  unfold utf8Chars
  rw [hbytes, List.utf8Decode?_utf8Encode, Option.map_some]

theorem length_utf8Bytes (text : List Char) : (utf8Bytes text).length = byteLength text := by
  induction text with
  | nil => rfl
  | cons c rest ih =>
      have hbytes : utf8Bytes (c :: rest) = String.utf8EncodeChar c ++ utf8Bytes rest := rfl
      rw [hbytes, List.length_append, ih, String.length_utf8EncodeChar, byteLength_cons]

/-! ## Sizes -/

theorem byteLength_of_single {chars : List Char} (h : ∀ c ∈ chars, c.utf8Size = 1) :
    byteLength chars = chars.length := by
  induction chars with
  | nil => rfl
  | cons c rest ih =>
      rw [byteLength_cons, h c List.mem_cons_self,
        ih fun other hother => h other (List.mem_cons_of_mem c hother), List.length_cons,
        Nat.add_comm]

/-- A larger number has no fewer digits. -/
theorem length_natText_le {m n : ℕ} (h : m ≤ n) : (natText m).length ≤ (natText n).length := by
  have hdigits := Nat.le_length_digits_le 10 m n h
  unfold natText
  split
  · split
    · exact Nat.le_refl _
    next hpositive =>
      rw [List.length_map, List.length_reverse]
      exact List.length_pos_of_ne_nil (Nat.digits_ne_nil_iff_ne_zero.mpr hpositive)
  next hpositive =>
    rw [if_neg (by omega)]
    simpa using hdigits

theorem utf8Size_natText (n : ℕ) : ∀ c ∈ natText n, c.utf8Size = 1 := by
  have hdigits : ∀ digit < 10, (Char.ofNat (48 + digit)).utf8Size = 1 := by decide
  intro c hc
  unfold natText at hc
  split at hc
  · rw [List.mem_singleton.mp hc]
    rfl
  · obtain ⟨digit, hdigit, rfl⟩ := List.mem_map.mp hc
    exact hdigits digit (Nat.digits_lt_base (by decide) (List.mem_reverse.mp hdigit))

theorem byteLength_commas (parts : List (List Char)) :
    byteLength (commas parts) = (parts.map byteLength).sum + (parts.length - 1) := by
  induction parts using commas.induct with
  | case1 => rfl
  | case2 part => simp [commas]
  | case3 part second rest ih =>
      rw [commas, byteLength_append, byteLength_cons, ih]
      simp only [List.map_cons, List.sum_cons, List.length_cons]
      show byteLength part + (1 + _) = _
      omega

theorem dumpsValues_eq_map (ensureAscii : Bool) (values : List Json) :
    dumpsValues ensureAscii values = values.map (dumps ensureAscii) := by
  induction values with
  | nil => rfl
  | cons value rest ih => rw [dumpsValues, ih, List.map_cons]

theorem dumpsFields_eq_map (ensureAscii : Bool) (fields : JsonObject) :
    dumpsFields ensureAscii fields = fields.map fun field =>
      quote ensureAscii field.1 ++ ':' :: dumps ensureAscii field.2 := by
  induction fields with
  | nil => rfl
  | cons field rest ih =>
      obtain ⟨key, value⟩ := field
      rw [dumpsFields, ih, List.map_cons]

/-- The size of a value. -/
def size (ensureAscii : Bool) (value : Json) : ℕ := byteLength (dumps ensureAscii value)

/-- The size of a field. -/
def fieldSize (ensureAscii : Bool) (field : String × Json) : ℕ :=
  byteLength (quote ensureAscii field.1) + 1 + size ensureAscii field.2

variable {ensureAscii : Bool}

/-- A text of plain characters takes a byte for each, and its quotes. -/
theorem size_text_of_plain {chars : List Char}
    (h : ∀ c ∈ chars, escape ensureAscii c = [c] ∧ c.utf8Size = 1) :
    size ensureAscii (.text (String.ofList chars)) = chars.length + 2 := by
  have hplain : chars.flatMap (escape ensureAscii) = chars := by
    rw [List.flatMap_congr fun c hc => (h c hc).1]
    exact List.flatMap_singleton' chars
  have hbody : byteLength (chars.flatMap (escape ensureAscii)) = chars.length := by
    rw [hplain]
    exact byteLength_of_single fun c hc => (h c hc).2
  show byteLength ('"' :: (String.ofList chars).toList.flatMap _ ++ ['"']) = _
  rw [String.toList_ofList, List.cons_append, byteLength_cons, byteLength_append, hbody]
  show 1 + (chars.length + 1) = chars.length + 2
  omega

/-- A larger number takes no fewer bytes. -/
theorem size_natural_le {m n : ℕ} (h : m ≤ n) :
    size ensureAscii (.int m) ≤ size ensureAscii (.int n) := by
  show byteLength (natText m) ≤ byteLength (natText n)
  rw [byteLength_of_single (utf8Size_natText m), byteLength_of_single (utf8Size_natText n)]
  exact length_natText_le h

theorem size_array (values : List Json) : size ensureAscii (.array values) =
    (values.map (size ensureAscii)).sum + (values.length - 1) + 2 := by
  have hparts : size ensureAscii (.array values) =
      1 + (byteLength (commas (dumpsValues ensureAscii values)) + 1) := by
    unfold size dumps
    rw [List.cons_append, byteLength_cons, byteLength_append]
    rfl
  rw [hparts, byteLength_commas, dumpsValues_eq_map, List.map_map, List.length_map]
  show 1 + ((values.map (size ensureAscii)).sum + _ + 1) = _
  omega

/-- Fewer values take no more bytes. -/
theorem size_array_le {values others : List Json} (h : values.Sublist others) :
    size ensureAscii (.array values) ≤ size ensureAscii (.array others) := by
  have hsum : (values.map (size ensureAscii)).sum ≤ (others.map (size ensureAscii)).sum :=
    (h.map (size ensureAscii)).sum_le_sum fun _ _ => Nat.zero_le _
  have hlength := h.length_le
  rw [size_array, size_array]
  omega

theorem size_object (fields : JsonObject) : size ensureAscii (.object fields) =
    (fields.map (fieldSize ensureAscii)).sum + (fields.length - 1) + 2 := by
  have hparts : size ensureAscii (.object fields) =
      1 + (byteLength (commas (dumpsFields ensureAscii fields)) + 1) := by
    unfold size dumps
    rw [List.cons_append, byteLength_cons, byteLength_append]
    rfl
  have hfields : (byteLength ∘ fun field : String × Json =>
      quote ensureAscii field.1 ++ ':' :: dumps ensureAscii field.2) = fieldSize ensureAscii := by
    funext field
    show byteLength (quote ensureAscii field.1 ++ ':' :: dumps ensureAscii field.2) = _
    rw [byteLength_append, byteLength_cons]
    exact (Nat.add_assoc _ _ _).symm
  rw [hparts, byteLength_commas, dumpsFields_eq_map, List.map_map, List.length_map, hfields]
  omega

mutual

/-- The order of keys does not change the size. -/
theorem size_sorted (value : Json) :
    size ensureAscii value.sorted = size ensureAscii value := by
  cases value with
  | null => rfl
  | bool value => rfl
  | int value => rfl
  | float value => rfl
  | text value => rfl
  | array values =>
      show size ensureAscii (.array (Json.sortedValues values)) = _
      rw [size_array, size_array, sizes_sorted values, length_sortedValues]
  | object fields =>
      show size ensureAscii (.object (List.insertionSort _ (Json.sortedFields fields))) = _
      have hperm := List.perm_insertionSort
        (fun first second : String × Json => first.1 ≤ second.1) (Json.sortedFields fields)
      rw [size_object, size_object, (hperm.map (fieldSize ensureAscii)).sum_eq, hperm.length_eq,
        fieldSizes_sorted fields, length_sortedFields]

theorem sizes_sorted (values : List Json) :
    (Json.sortedValues values).map (size ensureAscii) = values.map (size ensureAscii) := by
  cases values with
  | nil => rfl
  | cons value rest =>
      rw [Json.sortedValues, List.map_cons, List.map_cons, size_sorted value, sizes_sorted rest]

theorem fieldSizes_sorted (fields : JsonObject) :
    (Json.sortedFields fields).map (fieldSize ensureAscii) =
      fields.map (fieldSize ensureAscii) := by
  cases fields with
  | nil => rfl
  | cons field rest =>
      obtain ⟨key, value⟩ := field
      rw [Json.sortedFields, List.map_cons, List.map_cons, fieldSizes_sorted rest, fieldSize,
        fieldSize, size_sorted value]

theorem length_sortedValues (values : List Json) :
    (Json.sortedValues values).length = values.length := by
  cases values with
  | nil => rfl
  | cons value rest =>
      rw [Json.sortedValues, List.length_cons, List.length_cons, length_sortedValues rest]

theorem length_sortedFields (fields : JsonObject) :
    (Json.sortedFields fields).length = fields.length := by
  cases fields with
  | nil => rfl
  | cons field rest =>
      obtain ⟨key, value⟩ := field
      rw [Json.sortedFields, List.length_cons, List.length_cons, length_sortedFields rest]

end

end JsonText
