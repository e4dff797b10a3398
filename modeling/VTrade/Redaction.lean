/-
# Redaction

What is kept of a run goes through redaction: what is stored under a key that names a secret is
replaced, and so is a bearer token in a text.  Redaction goes into dictionaries and lists.  A tuple
is kept as it is, although it is encoded as a list, and so are the keys of a dictionary.
-/

import VTrade.Lib.Json
import VTrade.Lib.Substitution
import VTrade.Lib.Text

namespace VTrade

/-! ## Patterns without regard to case -/

/-- The character that a letter of a pattern is compared with. -/
def foldCase (c : Char) : Char :=
  if 'A' ≤ c ∧ c ≤ 'Z' then Char.ofNat (c.toNat + 32)
  else if c.toNat = 0x130 ∨ c.toNat = 0x131 then 'i'
  else if c.toNat = 0x17f then 's'
  else if c.toNat = 0x212a then 'k'
  else c

/-- `(authorization|api_?key|token|secret|password|cookie)`. -/
def secretWords : List (List Char) :=
  ["authorization".toList, "api_key".toList, "apikey".toList, "token".toList, "secret".toList,
    "password".toList, "cookie".toList]

/-- `(_|$)`, where the end may be before a newline. -/
def endsWord : List Char → Bool
  | [] => true
  | [c] => c = '_' || c = '\n'
  | c :: _ :: _ => c = '_'

/-- `_SECRET_KEYS.search`, from a place that is or is not the start of a word. -/
def namesSecret (starts : Bool) : List Char → Bool
  | [] => false
  | c :: rest =>
      starts && secretWords.any (fun word =>
          word.isPrefixOf (c :: rest) && endsWord ((c :: rest).drop word.length)) ||
        namesSecret (c = '_') rest

/-- `_SECRET_KEYS`. -/
def isSecretKey (key : String) : Bool := namesSecret true (key.toList.map foldCase)

namespace Bearer

/-- `[A-Za-z0-9._~+/=-]`. -/
def isTokenChar (c : Char) : Bool :=
  let folded := foldCase c
  ('a' ≤ folded && folded ≤ 'z') || ('0' ≤ folded && folded ≤ '9') ||
    "._~+/=-".toList.contains folded

/-- `\s*[A-Za-z0-9._~+/=-]`. -/
def startsSpaced : List Char → Bool
  | [] => false
  | c :: rest => if Text.isSpace c then startsSpaced rest else isTokenChar c

/-- `\s+[A-Za-z0-9._~+/=-]`. -/
def startsParted : List Char → Bool
  | [] => false
  | c :: rest => Text.isSpace c && startsSpaced rest

/-- The rest of a word, and what is after it. -/
def startsWith : List Char → List Char → Bool
  | [], chars => startsParted chars
  | _ :: _, [] => false
  | letter :: word, c :: rest => foldCase c = letter && startsWith word rest

/-- The length of a match of `_BEARER` that starts here. -/
def matched (chars : List Char) : ℕ :=
  if startsWith "bearer".toList chars then
    let spaced := chars.drop 6
    6 + (spaced.takeWhile Text.isSpace).length +
      ((spaced.dropWhile Text.isSpace).takeWhile isTokenChar).length
  else 0

def redacted : List Char := "Bearer [REDACTED]".toList

/-- Whether a text has a bearer token. -/
def occursIn (text : String) : Bool := Substitution.occurs matched text.toList

/-- `_BEARER.sub("Bearer [REDACTED]", value)`. -/
def sub (text : String) : String :=
  String.ofList (Substitution.substitute matched redacted text.toList)

end Bearer

namespace Bearer

/-! ## Tokens that are replaced -/

theorem matched_eq_zero {chars : List Char} :
    matched chars = 0 ↔ startsWith "bearer".toList chars = false := by
  unfold matched
  by_cases h : startsWith "bearer".toList chars = true
  · rw [if_pos h, h]
    simp
  · rw [if_neg h]
    simpa using h

theorem startsWith_of_matched {c : Char} {rest : List Char} {passed : ℕ}
    (h : matched (c :: rest) = passed + 1) : foldCase c = 'b' := by
  by_contra hletter
  have hzero : matched (c :: rest) = 0 := by
    rw [matched_eq_zero]
    show (foldCase c = 'b' && _) = false
    simp [hletter]
  omega

/-- What starts with a `b` is a character of a token and no whitespace. -/
theorem startsSpaced_of_letter {c : Char} {rest : List Char} (h : foldCase c = 'b') :
    startsSpaced (c :: rest) = true := by
  have htoken : isTokenChar c = true := by
    unfold isTokenChar
    rw [h]
    rfl
  have hspace : Text.isSpace c = false := by
    unfold foldCase at h
    by_cases hupper : 'A' ≤ c ∧ c ≤ 'Z'
    · have hcode : 65 ≤ c.toNat ∧ c.toNat ≤ 90 := hupper
      simp [Text.isSpace]
      omega
    · rw [if_neg hupper] at h
      split_ifs at h
      · cases h
      · cases h
      · cases h
      · rw [h]
        rfl
  unfold startsSpaced
  rw [hspace]
  exact htoken

/-- Replacing tokens starts no token after whitespace. -/
theorem startsSpaced_substitute {chars : List Char}
    (h : startsSpaced (Substitution.substitute matched redacted chars) = true) :
    startsSpaced chars = true := by
  induction chars with
  | nil => cases h
  | cons c rest ih =>
      cases hmatched : matched (c :: rest) with
      | succ passed => exact startsSpaced_of_letter (startsWith_of_matched hmatched)
      | zero =>
          rw [Substitution.substitute_cons_of_zero hmatched] at h
          unfold startsSpaced at h ⊢
          by_cases hspace : Text.isSpace c = true
          · rw [if_pos hspace] at h ⊢
            exact ih h
          · rw [if_neg hspace] at h ⊢
            exact h

theorem startsParted_substitute {chars : List Char}
    (h : startsParted (Substitution.substitute matched redacted chars) = true) :
    startsParted chars = true := by
  cases chars with
  | nil => cases h
  | cons c rest =>
      cases hmatched : matched (c :: rest) with
      | succ passed =>
          rw [Substitution.substitute_cons_of_succ hmatched] at h
          cases h
      | zero =>
          rw [Substitution.substitute_cons_of_zero hmatched] at h
          obtain ⟨hspace, hspaced⟩ := (Bool.and_eq_true _ _).mp h
          exact (Bool.and_eq_true _ _).mpr ⟨hspace, startsSpaced_substitute hspaced⟩

/-- Replacing tokens starts no rest of a word that has no `b`. -/
theorem startsWith_substitute {word chars : List Char} (hword : 'b' ∉ word)
    (h : startsWith word (Substitution.substitute matched redacted chars) = true) :
    startsWith word chars = true := by
  induction word generalizing chars with
  | nil => exact startsParted_substitute h
  | cons letter word ih =>
      have hletter : 'b' ≠ letter := fun hsame => hword (hsame ▸ List.mem_cons_self)
      cases chars with
      | nil => cases h
      | cons c rest =>
          cases hmatched : matched (c :: rest) with
          | succ passed =>
              rw [Substitution.substitute_cons_of_succ hmatched] at h
              have hfirst : foldCase 'B' = letter :=
                of_decide_eq_true ((Bool.and_eq_true _ _).mp h).1
              exact absurd hfirst hletter
          | zero =>
              rw [Substitution.substitute_cons_of_zero hmatched] at h
              obtain ⟨hfirst, hrest⟩ := (Bool.and_eq_true _ _).mp h
              refine (Bool.and_eq_true _ _).mpr ⟨hfirst, ih ?_ hrest⟩
              exact fun hmem => hword (List.mem_cons_of_mem _ hmem)

theorem settled : Substitution.Settled matched redacted where
  replaced rest h := h
  kept c rest h := by
    rw [matched_eq_zero] at h ⊢
    by_contra hstarts
    rw [Bool.not_eq_false] at hstarts
    obtain ⟨hfirst, hrest⟩ := (Bool.and_eq_true _ _).mp hstarts
    have hkept : startsWith "bearer".toList (c :: rest) = true :=
      (Bool.and_eq_true _ _).mpr ⟨hfirst, startsWith_substitute (by decide) hrest⟩
    rw [h] at hkept
    cases hkept

/-- A redacted text has no token. -/
@[simp]
theorem occursIn_sub (text : String) : occursIn (sub text) = false := by
  unfold occursIn sub
  rw [String.toList_ofList]
  exact settled.occurs_substitute text.toList

/-- A text without a token is not changed. -/
theorem sub_eq_self {text : String} (h : occursIn text = false) : sub text = text := by
  unfold sub
  rw [Substitution.substitute_eq_self h, String.ofList_toList]

@[simp]
theorem sub_sub (text : String) : sub (sub text) = sub text :=
  sub_eq_self (occursIn_sub text)

end Bearer

/-! ## Values -/

/-- What is redacted. -/
inductive PyValue
  | none
  | bool (value : Bool)
  | int (value : ℤ)
  | float (value : JsonFloat)
  | text (value : String)
  | list (items : List PyValue)
  | tuple (items : List PyValue)
  | dict (fields : List (String × PyValue))

namespace PyValue

mutual

/-- What `json.dumps` writes for a value. -/
def document : PyValue → Json
  | .none => .null
  | .bool value => .bool value
  | .int value => .int value
  | .float value => .float value
  | .text value => .text value
  | .list items | .tuple items => .array (documents items)
  | .dict fields => .object (documentFields fields)

def documents : List PyValue → List Json
  | [] => []
  | item :: rest => item.document :: documents rest

def documentFields : List (String × PyValue) → List (String × Json)
  | [] => []
  | (key, item) :: rest => (key, item.document) :: documentFields rest

end

mutual

def redactSecrets : PyValue → PyValue
  | .none => .none
  | .bool value => .bool value
  | .int value => .int value
  | .float value => .float value
  | .text value => .text (Bearer.sub value)
  | .list items => .list (redactItems items)
  | .tuple items => .tuple items
  | .dict fields => .dict (redactFields fields)

def redactItems : List PyValue → List PyValue
  | [] => []
  | item :: rest => item.redactSecrets :: redactItems rest

def redactFields : List (String × PyValue) → List (String × PyValue)
  | [] => []
  | (key, item) :: rest =>
      (key, if isSecretKey key then .text "[REDACTED]" else item.redactSecrets) ::
        redactFields rest

end

/-- `canonical_redacted_json`: the document that is encoded. -/
def canonicalRedactedJson (value : PyValue) : Json := value.redactSecrets.document.sorted

end PyValue

/-! ## Documents without secrets -/

namespace Redacted

open Json

mutual

/-- A document has no value under a key that names a secret, and no bearer token. -/
def isClean : Json → Bool
  | .null | .bool _ | .int _ | .float _ => true
  | .text value => !Bearer.occursIn value
  | .array values => areClean values
  | .object fields => fieldsClean fields

def areClean : List Json → Bool
  | [] => true
  | value :: rest => isClean value && areClean rest

def fieldsClean : List (String × Json) → Bool
  | [] => true
  | (key, value) :: rest =>
      !Bearer.occursIn key && (!isSecretKey key || value.isText "[REDACTED]") && isClean value &&
        fieldsClean rest

end

/-- A field of a document without secrets. -/
def fieldClean (field : String × Json) : Bool :=
  !Bearer.occursIn field.1 && (!isSecretKey field.1 || field.2.isText "[REDACTED]") &&
    isClean field.2

theorem fieldsClean_eq_all (fields : List (String × Json)) :
    fieldsClean fields = fields.all fieldClean := by
  induction fields with
  | nil => rfl
  | cons field rest ih => rw [List.all_cons, ← ih, fieldsClean, fieldClean]

theorem isText_sorted (expected : String) (value : Json) :
    value.sorted.isText expected = value.isText expected := by
  cases value <;> rfl

mutual

/-- The order of keys does not matter. -/
theorem isClean_sorted (value : Json) : isClean value.sorted = isClean value := by
  cases value with
  | null => rfl
  | bool value => rfl
  | int value => rfl
  | float value => rfl
  | text value => rfl
  | array values => exact areClean_sorted values
  | object fields =>
      show fieldsClean (List.insertionSort _ (sortedFields fields)) = fieldsClean fields
      rw [fieldsClean_eq_all, (List.perm_insertionSort _ _).all_eq, ← fieldsClean_eq_all]
      exact fieldsClean_sorted fields

theorem areClean_sorted (values : List Json) : areClean (sortedValues values) = areClean values := by
  cases values with
  | nil => rfl
  | cons value rest =>
      rw [sortedValues, areClean, areClean, isClean_sorted value, areClean_sorted rest]

theorem fieldsClean_sorted (fields : List (String × Json)) :
    fieldsClean (sortedFields fields) = fieldsClean fields := by
  cases fields with
  | nil => rfl
  | cons field rest =>
      obtain ⟨key, value⟩ := field
      rw [sortedFields, fieldsClean, fieldsClean, isClean_sorted value, isText_sorted,
        fieldsClean_sorted rest]

end

end Redacted

/-! ## What redaction reaches -/

namespace PyValue

mutual

/-- The tuples that redaction comes to have no secret already, and the keys no bearer token. -/
def isCovered : PyValue → Bool
  | .none | .bool _ | .int _ | .float _ | .text _ => true
  | .list items => areCovered items
  | .tuple items => Redacted.areClean (documents items)
  | .dict fields => fieldsCovered fields

def areCovered : List PyValue → Bool
  | [] => true
  | item :: rest => item.isCovered && areCovered rest

def fieldsCovered : List (String × PyValue) → Bool
  | [] => true
  | (key, item) :: rest =>
      !Bearer.occursIn key && (isSecretKey key || item.isCovered) && fieldsCovered rest

end

theorem redacted_clean : Redacted.isClean (.text "[REDACTED]") = true := by decide

mutual

theorem isClean_redactSecrets (value : PyValue) :
    Redacted.isClean value.redactSecrets.document = value.isCovered := by
  cases value with
  | none => rfl
  | bool value => rfl
  | int value => rfl
  | float value => rfl
  | text value =>
      show (!Bearer.occursIn (Bearer.sub value)) = true
      rw [Bearer.occursIn_sub]
      rfl
  | list items => exact areClean_redactItems items
  | tuple items => rfl
  | dict fields => exact fieldsClean_redactFields fields

theorem areClean_redactItems (items : List PyValue) :
    Redacted.areClean (documents (redactItems items)) = areCovered items := by
  cases items with
  | nil => rfl
  | cons item rest =>
      rw [redactItems, documents, Redacted.areClean, areCovered, isClean_redactSecrets item,
        areClean_redactItems rest]

theorem fieldsClean_redactFields (fields : List (String × PyValue)) :
    Redacted.fieldsClean (documentFields (redactFields fields)) = fieldsCovered fields := by
  cases fields with
  | nil => rfl
  | cons field rest =>
      obtain ⟨key, item⟩ := field
      rw [redactFields, documentFields, Redacted.fieldsClean, fieldsCovered,
        fieldsClean_redactFields rest]
      by_cases hsecret : isSecretKey key = true
      · rw [if_pos hsecret, hsecret, document, redacted_clean]
        simp [Json.isText]
      · rw [if_neg hsecret, isClean_redactSecrets item, eq_false_of_ne_true hsecret]
        simp

end

mutual

/-- Redacting twice is redacting once. -/
theorem redactSecrets_redactSecrets (value : PyValue) :
    value.redactSecrets.redactSecrets = value.redactSecrets := by
  cases value with
  | none => rfl
  | bool value => rfl
  | int value => rfl
  | float value => rfl
  | text value => exact congrArg PyValue.text (Bearer.sub_sub value)
  | list items => exact congrArg PyValue.list (redactItems_redactItems items)
  | tuple items => rfl
  | dict fields => exact congrArg PyValue.dict (redactFields_redactFields fields)

theorem redactItems_redactItems (items : List PyValue) :
    redactItems (redactItems items) = redactItems items := by
  cases items with
  | nil => rfl
  | cons item rest =>
      rw [redactItems, redactItems, redactSecrets_redactSecrets item,
        redactItems_redactItems rest]

theorem redactFields_redactFields (fields : List (String × PyValue)) :
    redactFields (redactFields fields) = redactFields fields := by
  cases fields with
  | nil => rfl
  | cons field rest =>
      obtain ⟨key, item⟩ := field
      rw [redactFields, redactFields, redactFields_redactFields rest]
      by_cases hsecret : isSecretKey key = true
      · rw [if_pos hsecret, if_pos hsecret]
      · rw [if_neg hsecret, if_neg hsecret, redactSecrets_redactSecrets item]

end

/-- What is encoded has no secret and redacting changes nothing more, exactly when every tuple that
redaction comes to has no secret already and no key that it comes to has a bearer token. -/
theorem canonicalRedactedJson_clean_iff (value : PyValue) :
    Redacted.isClean value.canonicalRedactedJson = true ∧
        value.redactSecrets.redactSecrets = value.redactSecrets ↔
      value.isCovered = true := by
  unfold canonicalRedactedJson
  rw [Redacted.isClean_sorted, isClean_redactSecrets]
  exact and_iff_left (redactSecrets_redactSecrets value)

end PyValue

namespace Sample

/-- A transcript, whose messages are a tuple. -/
def transcript : PyValue :=
  .dict [("messages", .tuple [.dict [("role", .text "user"),
    ("content", .text "Authorization: Bearer abc.def")]]),
    ("termination_status", .text "COMPLETED")]

end Sample

/-- The messages of a transcript are not redacted. -/
theorem transcript_not_clean :
    ¬ ∀ value : PyValue, Redacted.isClean value.canonicalRedactedJson = true ∧
      value.redactSecrets.redactSecrets = value.redactSecrets := by
  intro h
  have hclean := (h Sample.transcript).1
  unfold PyValue.canonicalRedactedJson at hclean
  rw [Redacted.isClean_sorted] at hclean
  revert hclean
  decide

end VTrade
