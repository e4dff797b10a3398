/-
# Reading JSON texts

What `json.loads` reads from a text, and that it reads what `json.dumps` wrote.  A text may have
UTF-16 units of a surrogate pair that are not paired, which are characters of no text here, and the
value of a number with a fraction or an exponent is not kept.
-/

import VTrade.Lib.JsonText

namespace JsonParser

/-- What is read. -/
inductive Decoded
  | null
  | bool (value : Bool)
  | int (value : ℤ)
  /-- A number with a fraction or an exponent, or one that is not finite. -/
  | float
  /-- A text, unless it has a unit of a surrogate pair that is not paired. -/
  | text (value : Option String)
  | array (values : List Decoded)
  | object (fields : List (Option String × Decoded))

/-- The value of a key, the last one if there are several. -/
def Decoded.get (key : String) (fields : List (Option String × Decoded)) : Option Decoded :=
  fields.reverse.lookup (some key)

/-! ## Numbers -/

def isDigit (c : Char) : Bool := '0' ≤ c && c ≤ '9'

def digitsValue (digits : List Char) : ℕ :=
  digits.foldl (fun n digit => n * 10 + (digit.toNat - 48)) 0

/-- `(\.[0-9]+)?`, and what comes after it. -/
def skipFraction : List Char → Bool × List Char
  | '.' :: rest => if rest.takeWhile isDigit = [] then (false, '.' :: rest)
      else (true, rest.dropWhile isDigit)
  | chars => (false, chars)

/-- `([eE][-+]?[0-9]+)?`, and what comes after it. -/
def skipExponent : List Char → Bool × List Char
  | c :: rest =>
      let digits := match rest with
        | sign :: digits => if sign = '-' ∨ sign = '+' then digits else rest
        | [] => []
      if (c = 'e' ∨ c = 'E') ∧ digits.takeWhile isDigit ≠ [] then (true, digits.dropWhile isDigit)
      else (false, c :: rest)
  | [] => (false, [])

/-- A number without a sign. -/
def parseMagnitude (negative : Bool) (chars : List Char) : Option (Decoded × List Char) :=
  let digits := match chars with
    | '0' :: _ => ['0']
    | chars => chars.takeWhile isDigit
  if digits = [] then none
  else
    let (fraction, afterFraction) := skipFraction (chars.drop digits.length)
    let (exponent, rest) := skipExponent afterFraction
    if fraction || exponent then some (.float, rest)
    else
      let value : ℤ := digitsValue digits
      some (.int (if negative then -value else value), rest)

def parseNumber : List Char → Option (Decoded × List Char)
  | '-' :: rest => parseMagnitude true rest
  | chars => parseMagnitude false chars

/-! ## Texts -/

def hexValue (c : Char) : Option ℕ :=
  if '0' ≤ c ∧ c ≤ '9' then some (c.toNat - 48)
  else if 'a' ≤ c ∧ c ≤ 'f' then some (c.toNat - 87)
  else if 'A' ≤ c ∧ c ≤ 'F' then some (c.toNat - 55)
  else none

/-- What a backslash and a character other than `u` stand for. -/
def unescape (c : Char) : Option ℕ :=
  if c = '"' ∨ c = '\\' ∨ c = '/' then some c.toNat
  else if c = 'b' then some 8
  else if c = 'f' then some 12
  else if c = 'n' then some 10
  else if c = 'r' then some 13
  else if c = 't' then some 9
  else none

/-- The units of a text up to its closing quote, and what comes after it. -/
def parseUnits : List Char → Option (List ℕ × List Char)
  | [] => none
  | '"' :: rest => some ([], rest)
  | '\\' :: 'u' :: first :: second :: third :: fourth :: rest =>
      match hexValue first, hexValue second, hexValue third, hexValue fourth with
      | some first, some second, some third, some fourth =>
          (parseUnits rest).map fun parsed =>
            ((((first * 16 + second) * 16 + third) * 16 + fourth) :: parsed.1, parsed.2)
      | _, _, _, _ => none
  | '\\' :: c :: rest =>
      match unescape c with
      | some unit => (parseUnits rest).map fun parsed => (unit :: parsed.1, parsed.2)
      | none => none
  | c :: rest =>
      if c.toNat < 32 ∨ c = '\\' then none
      else (parseUnits rest).map fun parsed => (c.toNat :: parsed.1, parsed.2)

def isHigh (unit : ℕ) : Bool := 0xd800 ≤ unit && unit ≤ 0xdbff

def isLow (unit : ℕ) : Bool := 0xdc00 ≤ unit && unit ≤ 0xdfff

/-- The characters of units, unless a unit of a pair is not paired. -/
def joinUnits : List ℕ → Option (List Char)
  | [] => some []
  | [unit] => if isHigh unit || isLow unit then none else some [Char.ofNat unit]
  | unit :: next :: rest =>
      if isHigh unit && isLow next then
        (joinUnits rest).map (Char.ofNat (0x10000 + (unit - 0xd800) * 1024 + (next - 0xdc00)) :: ·)
      else if isHigh unit || isLow unit then none
      else (joinUnits (next :: rest)).map (Char.ofNat unit :: ·)

def parseText (chars : List Char) : Option (Option String × List Char) :=
  (parseUnits chars).map fun parsed => ((joinUnits parsed.1).map String.ofList, parsed.2)

/-! ## Values -/

def isSpace (c : Char) : Bool := c = ' ' || c = '\t' || c = '\n' || c = '\r'

def skipSpace (chars : List Char) : List Char := chars.dropWhile isSpace

/-- The words that are values. -/
def words : List (List Char × Decoded) :=
  [("null".toList, .null), ("true".toList, .bool true), ("false".toList, .bool false),
    ("NaN".toList, .float), ("Infinity".toList, .float), ("-Infinity".toList, .float)]

/-- A word or a number. -/
def parseScalar (chars : List Char) : Option (Decoded × List Char) :=
  match words.find? fun word => word.1.isPrefixOf chars with
  | some word => some (word.2, chars.drop word.1.length)
  | none => parseNumber chars

mutual

/-- A value, and what comes after it. -/
def parseValue : ℕ → List Char → Option (Decoded × List Char)
  | 0, _ | _ + 1, [] => none
  | fuel + 1, c :: rest =>
      if c = '"' then (parseText rest).map fun parsed => (.text parsed.1, parsed.2)
      else if c = '[' then
        match skipSpace rest with
        | ']' :: rest => some (.array [], rest)
        | rest => (parseItems fuel rest).map fun parsed => (.array parsed.1, parsed.2)
      else if c = '{' then
        match skipSpace rest with
        | '}' :: rest => some (.object [], rest)
        | rest => (parseFields fuel rest).map fun parsed => (.object parsed.1, parsed.2)
      else parseScalar (c :: rest)

/-- The items of an array up to its closing bracket. -/
def parseItems : ℕ → List Char → Option (List Decoded × List Char)
  | 0, _ => none
  | fuel + 1, chars =>
      match parseValue fuel chars with
      | none => none
      | some (value, rest) =>
          match skipSpace rest with
          | ']' :: rest => some ([value], rest)
          | ',' :: rest => (parseItems fuel (skipSpace rest)).map fun parsed =>
              (value :: parsed.1, parsed.2)
          | _ => none

/-- The fields of an object up to its closing brace. -/
def parseFields : ℕ → List Char → Option (List (Option String × Decoded) × List Char)
  | fuel + 1, '"' :: chars =>
      match parseText chars with
      | none => none
      | some (key, rest) =>
          match skipSpace rest with
          | ':' :: rest =>
              match parseValue fuel (skipSpace rest) with
              | none => none
              | some (value, rest) =>
                  match skipSpace rest with
                  | '}' :: rest => some ([(key, value)], rest)
                  | ',' :: rest => (parseFields fuel (skipSpace rest)).map fun parsed =>
                      ((key, value) :: parsed.1, parsed.2)
                  | _ => none
          | _ => none
  | _, _ => none

end

theorem parseValue_cons (fuel : ℕ) (c : Char) (rest : List Char) :
    parseValue (fuel + 1) (c :: rest) =
      if c = '"' then (parseText rest).map fun parsed => (.text parsed.1, parsed.2)
      else if c = '[' then
        match skipSpace rest with
        | ']' :: rest => some (.array [], rest)
        | rest => (parseItems fuel rest).map fun parsed => (.array parsed.1, parsed.2)
      else if c = '{' then
        match skipSpace rest with
        | '}' :: rest => some (.object [], rest)
        | rest => (parseFields fuel rest).map fun parsed => (.object parsed.1, parsed.2)
      else parseScalar (c :: rest) :=
  rfl

theorem parseItems_succ (fuel : ℕ) (chars : List Char) : parseItems (fuel + 1) chars =
    match parseValue fuel chars with
    | none => none
    | some (value, rest) =>
        match skipSpace rest with
        | ']' :: rest => some ([value], rest)
        | ',' :: rest => (parseItems fuel (skipSpace rest)).map fun parsed =>
            (value :: parsed.1, parsed.2)
        | _ => none :=
  rfl

theorem parseFields_succ (fuel : ℕ) (chars : List Char) : parseFields (fuel + 1) ('"' :: chars) =
    match parseText chars with
    | none => none
    | some (key, rest) =>
        match skipSpace rest with
        | ':' :: rest =>
            match parseValue fuel (skipSpace rest) with
            | none => none
            | some (value, rest) =>
                match skipSpace rest with
                | '}' :: rest => some ([(key, value)], rest)
                | ',' :: rest => (parseFields fuel (skipSpace rest)).map fun parsed =>
                    ((key, value) :: parsed.1, parsed.2)
                | _ => none
        | _ => none :=
  rfl

/-- `json.loads`. -/
def loads (text : List Char) : Option Decoded :=
  if text.head? = some '\ufeff' then none
  else
    match parseValue (text.length + 1) (skipSpace text) with
    | some (value, rest) => if skipSpace rest = [] then some value else none
    | none => none

/-! ## Numbers that were written -/

/-- What may follow a value in a container, or at the end of a text. -/
def Closes (rest : List Char) : Prop := ∀ c ∈ rest.head?, c = ',' ∨ c = ']' ∨ c = '}'

theorem closes_nil : Closes [] := nofun

theorem closes_cons {c : Char} {rest : List Char} (h : c = ',' ∨ c = ']' ∨ c = '}') :
    Closes (c :: rest) := by
  rintro _ ⟨⟩
  exact h

theorem isDigit_of_lt {digit : ℕ} (h : digit < 10) :
    isDigit (Char.ofNat (48 + digit)) = true ∧ (Char.ofNat (48 + digit)).toNat - 48 = digit := by
  revert digit
  decide

theorem isDigit_natText (n : ℕ) : ∀ c ∈ JsonText.natText n, isDigit c = true := by
  intro c hc
  unfold JsonText.natText at hc
  split at hc
  · rw [List.mem_singleton.mp hc]
    rfl
  · obtain ⟨digit, hdigit, rfl⟩ := List.mem_map.mp hc
    exact (isDigit_of_lt (Nat.digits_lt_base (by decide) (List.mem_reverse.mp hdigit))).1

theorem digitsValue_map {digits : List ℕ} (h : ∀ digit ∈ digits, digit < 10) :
    digitsValue (digits.reverse.map fun digit => Char.ofNat (48 + digit)) =
      Nat.ofDigits 10 digits := by
  induction digits with
  | nil => rfl
  | cons digit rest ih =>
      have hrest := ih fun other hother => h other (List.mem_cons_of_mem digit hother)
      unfold digitsValue at hrest ⊢
      rw [List.reverse_cons, List.map_append, List.foldl_append, hrest, Nat.ofDigits_cons]
      simp only [List.map_cons, List.map_nil, List.foldl_cons, List.foldl_nil,
        (isDigit_of_lt (h digit List.mem_cons_self)).2]
      omega

/-- The digits of a number have its value. -/
theorem digitsValue_natText (n : ℕ) : digitsValue (JsonText.natText n) = n := by
  unfold JsonText.natText
  split
  next hzero =>
    rw [hzero]
    rfl
  · rw [digitsValue_map fun digit hdigit => Nat.digits_lt_base (by decide) hdigit,
      Nat.ofDigits_digits]

/-- A number starts with a zero only if it is zero. -/
theorem natText_cases (n : ℕ) : n = 0 ∧ JsonText.natText n = ['0'] ∨
    ∃ c rest, JsonText.natText n = c :: rest ∧ c ≠ '0' := by
  unfold JsonText.natText
  split
  next hzero => exact .inl ⟨hzero, rfl⟩
  next hpositive =>
    have hdigits : Nat.digits 10 n ≠ [] := Nat.digits_ne_nil_iff_ne_zero.mpr hpositive
    have hlast := Nat.getLast_digit_ne_zero 10 hpositive
    have hlt : (Nat.digits 10 n).getLast hdigits < 10 :=
      Nat.digits_lt_base (by decide) (List.getLast_mem hdigits)
    refine .inr ⟨Char.ofNat (48 + (Nat.digits 10 n).getLast hdigits),
      (Nat.digits 10 n).dropLast.reverse.map fun digit => Char.ofNat (48 + digit), ?_, ?_⟩
    · rw [← List.map_cons (f := fun digit => Char.ofNat (48 + digit)), ← List.reverse_concat,
        List.dropLast_append_getLast]
    · intro hzero
      have hsame := (isDigit_of_lt hlt).2
      rw [hzero] at hsame
      exact hlast hsame.symm

theorem skipFraction_of_closes {rest : List Char} (h : Closes rest) :
    skipFraction rest = (false, rest) := by
  cases rest with
  | nil => rfl
  | cons c rest =>
      rcases h c rfl with rfl | rfl | rfl
      · rfl
      · rfl
      · rfl

theorem skipExponent_of_closes {rest : List Char} (h : Closes rest) :
    skipExponent rest = (false, rest) := by
  cases rest with
  | nil => rfl
  | cons c rest =>
      unfold skipExponent
      rcases h c rfl with rfl | rfl | rfl
      · exact if_neg fun hexponent => absurd hexponent.1 (by decide)
      · exact if_neg fun hexponent => absurd hexponent.1 (by decide)
      · exact if_neg fun hexponent => absurd hexponent.1 (by decide)

theorem takeWhile_natText {n : ℕ} {rest : List Char} (h : Closes rest) :
    (JsonText.natText n ++ rest).takeWhile isDigit = JsonText.natText n := by
  rw [List.takeWhile_append_of_pos (isDigit_natText n)]
  cases rest with
  | nil => simp
  | cons c rest =>
      have hdigit : isDigit c = false := by
        rcases h c rfl with rfl | rfl | rfl
        · rfl
        · rfl
        · rfl
      rw [List.takeWhile_cons_of_neg (by simp [hdigit]), List.append_nil]

/-- The digits of a number that was written are read again. -/
theorem parseMagnitude_natText (negative : Bool) (n : ℕ) {rest : List Char} (h : Closes rest) :
    parseMagnitude negative (JsonText.natText n ++ rest) =
      some (.int (if negative then -(n : ℤ) else n), rest) := by
  have hdigits : (match JsonText.natText n ++ rest with
      | '0' :: _ => ['0']
      | chars => chars.takeWhile isDigit) = JsonText.natText n := by
    rcases natText_cases n with ⟨-, hzero⟩ | ⟨c, others, htext, hne⟩
    · rw [hzero]
      rfl
    · split
      next hhead =>
        rw [htext] at hhead
        exact absurd (List.cons.inj hhead).1 hne
      · exact takeWhile_natText h
  have hnonempty : JsonText.natText n ≠ [] := by
    rcases natText_cases n with ⟨-, hzero⟩ | ⟨c, others, htext, -⟩
    · rw [hzero]
      exact List.cons_ne_nil _ _
    · rw [htext]
      exact List.cons_ne_nil _ _
  unfold parseMagnitude
  simp only [hdigits, hnonempty, if_false, List.drop_left', skipFraction_of_closes h,
    skipExponent_of_closes h, Bool.or_self, digitsValue_natText]
  rfl

theorem parseNumber_intText (value : ℤ) {rest : List Char} (h : Closes rest) :
    parseNumber (JsonText.intText value ++ rest) = some (.int value, rest) := by
  cases value with
  | ofNat n =>
      have hmagnitude := parseMagnitude_natText false n h
      show parseNumber (JsonText.natText n ++ rest) = _
      unfold parseNumber
      split
      next others hsign =>
        have hdigit : isDigit '-' = true := by
          apply isDigit_natText n
          rcases natText_cases n with ⟨-, hzero⟩ | ⟨c, others, htext, -⟩
          · rw [hzero] at hsign
            cases hsign
          · rw [htext] at hsign ⊢
            rw [← (List.cons.inj hsign).1]
            exact List.mem_cons_self
        cases hdigit
      · exact hmagnitude
  | negSucc n => exact parseMagnitude_natText true (n + 1) h

theorem exists_digit_natText (n : ℕ) :
    ∃ c rest, JsonText.natText n = c :: rest ∧ isDigit c = true := by
  cases htext : JsonText.natText n with
  | nil =>
      rcases natText_cases n with ⟨-, hzero⟩ | ⟨c, others, hcons, -⟩
      · rw [hzero] at htext
        cases htext
      · rw [hcons] at htext
        cases htext
  | cons c rest =>
      refine ⟨c, rest, rfl, isDigit_natText n c ?_⟩
      rw [htext]
      exact List.mem_cons_self

/-- The first two characters of a word are no digits. -/
theorem words_start : ∀ word ∈ words, ∃ first second rest, word.1 = first :: second :: rest ∧
    isDigit first = false ∧ isDigit second = false := by
  intro word hword
  simp only [words, List.mem_cons, List.not_mem_nil, or_false] at hword
  rcases hword with rfl | rfl | rfl | rfl | rfl | rfl
  · exact ⟨_, _, _, rfl, rfl, rfl⟩
  · exact ⟨_, _, _, rfl, rfl, rfl⟩
  · exact ⟨_, _, _, rfl, rfl, rfl⟩
  · exact ⟨_, _, _, rfl, rfl, rfl⟩
  · exact ⟨_, _, _, rfl, rfl, rfl⟩
  · exact ⟨_, _, _, rfl, rfl, rfl⟩

/-- A word does not start with a digit, nor with one after a sign. -/
theorem find?_words {c : Char} (hdigit : isDigit c = true) (rest : List Char) :
    words.find? (fun word => word.1.isPrefixOf (c :: rest)) = none ∧
      words.find? (fun word => word.1.isPrefixOf ('-' :: c :: rest)) = none := by
  have hne {letter : Char} (hletter : isDigit letter = false) : (letter == c) = false := by
    rw [beq_eq_false_iff_ne]
    rintro rfl
    rw [hdigit] at hletter
    cases hletter
  rw [List.find?_eq_none, List.find?_eq_none]
  constructor
  · intro word hword
    obtain ⟨first, second, others, hstart, hfirst, -⟩ := words_start word hword
    rw [hstart, List.isPrefixOf_cons_cons, hne hfirst, Bool.false_and]
    exact Bool.false_ne_true
  · intro word hword
    obtain ⟨first, second, others, hstart, -, hsecond⟩ := words_start word hword
    rw [hstart, List.isPrefixOf_cons_cons, List.isPrefixOf_cons_cons, hne hsecond, Bool.false_and,
      Bool.and_false]
    exact Bool.false_ne_true

/-- A number that was written is no word. -/
theorem parseScalar_intText (value : ℤ) {rest : List Char} (h : Closes rest) :
    parseScalar (JsonText.intText value ++ rest) = some (.int value, rest) := by
  have hnone : words.find? (fun word => word.1.isPrefixOf (JsonText.intText value ++ rest)) =
      none := by
    cases value with
    | ofNat n =>
        obtain ⟨c, others, htext, hdigit⟩ := exists_digit_natText n
        show words.find? (fun word => word.1.isPrefixOf (JsonText.natText n ++ rest)) = none
        rw [htext]
        exact (find?_words hdigit _).1
    | negSucc n =>
        obtain ⟨c, others, htext, hdigit⟩ := exists_digit_natText (n + 1)
        show words.find? (fun word =>
          word.1.isPrefixOf ('-' :: (JsonText.natText (n + 1) ++ rest))) = none
        rw [htext]
        exact (find?_words hdigit _).2
  unfold parseScalar
  rw [hnone]
  exact parseNumber_intText value h

/-! ## Texts that were written -/

/-- The units in which a character is written. -/
def unitsOf (ensureAscii : Bool) (c : Char) : List ℕ :=
  if ensureAscii = true ∧ 0x10000 ≤ c.toNat then
    [0xd800 + (c.toNat - 0x10000) / 1024, 0xdc00 + (c.toNat - 0x10000) % 1024]
  else [c.toNat]

theorem hexValue_hexDigit {digit : ℕ} (h : digit < 16) :
    hexValue (JsonText.hexDigit digit) = some digit := by
  revert digit
  decide

theorem parseUnits_unicodeEscape {unit : ℕ} (h : unit < 0x10000) (rest : List Char) :
    parseUnits (JsonText.unicodeEscape unit ++ rest) =
      (parseUnits rest).map fun parsed => (unit :: parsed.1, parsed.2) := by
  have hunit : ((unit / 4096 % 16 * 16 + unit / 256 % 16) * 16 + unit / 16 % 16) * 16 +
      unit % 16 = unit := by omega
  unfold JsonText.unicodeEscape
  simp only [List.cons_append, List.nil_append, parseUnits]
  rw [hexValue_hexDigit (by omega), hexValue_hexDigit (by omega), hexValue_hexDigit (by omega),
    hexValue_hexDigit (by omega)]
  simp only [hunit]

theorem toNat_cases (c : Char) : c.toNat < 0xd800 ∨ 0xdfff < c.toNat ∧ c.toNat < 0x110000 :=
  c.valid

theorem toNat_lt (c : Char) : c.toNat < 0x110000 := by
  have hcases := toNat_cases c
  omega

/-- A character that needs no escape is read as it is. -/
theorem parseUnits_plain {c : Char} (hquote : c ≠ '"') (hslash : c ≠ '\\') (h : 32 ≤ c.toNat)
    (rest : List Char) :
    parseUnits (c :: rest) = (parseUnits rest).map fun parsed => (c.toNat :: parsed.1, parsed.2) := by
  have hneither : ¬ (c.toNat < 32 ∨ c = '\\') := fun hcontrol =>
    hcontrol.elim (Nat.not_lt.mpr h) hslash
  rw [parseUnits.eq_def (c :: rest)]
  split
  next hchars => cases hchars
  next hchars => exact absurd (List.cons.inj hchars).1 hquote
  next hchars => exact absurd (List.cons.inj hchars).1 hslash
  next hchars => exact absurd (List.cons.inj hchars).1 hslash
  next hchars =>
    obtain ⟨rfl, rfl⟩ := List.cons.inj hchars
    exact if_neg hneither

/-- A character that was written is read as its units. -/
theorem parseUnits_escape (ensureAscii : Bool) (c : Char) (rest : List Char) :
    parseUnits (JsonText.escape ensureAscii c ++ rest) =
      (parseUnits rest).map fun parsed => (unitsOf ensureAscii c ++ parsed.1, parsed.2) := by
  have hsingle (h : ¬ (ensureAscii = true ∧ 0x10000 ≤ c.toNat)) : unitsOf ensureAscii c = [c.toNat] :=
    if_neg h
  unfold JsonText.escape
  split_ifs with hquote hslash hnewline hreturn htab hback hform hcontrol
  · subst hquote
    rw [hsingle (by decide +revert)]
    rfl
  · subst hslash
    rw [hsingle (by decide +revert)]
    rfl
  · subst hnewline
    rw [hsingle (by decide +revert)]
    rfl
  · subst hreturn
    rw [hsingle (by decide +revert)]
    rfl
  · subst htab
    rw [hsingle (by decide +revert)]
    rfl
  · rw [hsingle (by omega), hback]
    rfl
  · rw [hsingle (by omega), hform]
    rfl
  · unfold JsonText.utf16Escape
    split_ifs with hplane
    · rw [hsingle (by omega), parseUnits_unicodeEscape hplane]
      rfl
    · have hcode := toNat_lt c
      rw [List.append_assoc, parseUnits_unicodeEscape (by omega),
        parseUnits_unicodeEscape (by omega), Option.map_map]
      have hpair : unitsOf ensureAscii c =
          [0xd800 + (c.toNat - 0x10000) / 1024, 0xdc00 + (c.toNat - 0x10000) % 1024] :=
        if_pos ⟨hcontrol.resolve_left (by omega) |>.1, by omega⟩
      rw [hpair]
      rfl
  · have hplain : 32 ≤ c.toNat := Nat.not_lt.mp fun hlt => hcontrol (.inl hlt)
    rw [hsingle fun hpair => hcontrol (.inr ⟨hpair.1, by omega⟩)]
    exact parseUnits_plain hquote hslash hplain rest

/-- A text that was written is read as the units of its characters. -/
theorem parseUnits_escapes (ensureAscii : Bool) (text rest : List Char) :
    parseUnits (text.flatMap (JsonText.escape ensureAscii) ++ '"' :: rest) =
      some (text.flatMap (unitsOf ensureAscii), rest) := by
  induction text with
  | nil => rfl
  | cons c text ih =>
      rw [List.flatMap_cons, List.append_assoc, parseUnits_escape, ih, List.flatMap_cons]
      rfl

theorem joinUnits_plain {unit : ℕ} (h : unit < 0xd800 ∨ 0xdfff < unit) (units : List ℕ) :
    joinUnits (unit :: units) = (joinUnits units).map (Char.ofNat unit :: ·) := by
  have hhigh : isHigh unit = false := by
    unfold isHigh
    rcases h with h | h
    · rw [decide_eq_false (by omega), Bool.false_and]
    · rw [decide_eq_false (p := unit ≤ 0xdbff) (by omega), Bool.and_false]
  have hlow : isLow unit = false := by
    unfold isLow
    rcases h with h | h
    · rw [decide_eq_false (by omega), Bool.false_and]
    · rw [decide_eq_false (p := unit ≤ 0xdfff) (by omega), Bool.and_false]
  cases units with
  | nil => simp [joinUnits, hhigh, hlow]
  | cons next rest => simp [joinUnits, hhigh, hlow]

theorem joinUnits_pair {high low : ℕ} (hhigh : high < 1024) (hlow : low < 1024) (units : List ℕ) :
    joinUnits ((0xd800 + high) :: (0xdc00 + low) :: units) =
      (joinUnits units).map (Char.ofNat (0x10000 + high * 1024 + low) :: ·) := by
  have hpaired : (isHigh (0xd800 + high) && isLow (0xdc00 + low)) = true := by
    unfold isHigh isLow
    simp only [Bool.and_eq_true, decide_eq_true_eq]
    omega
  rw [joinUnits, if_pos hpaired, Nat.add_sub_cancel_left, Nat.add_sub_cancel_left]

/-- The units of a character are joined again. -/
theorem joinUnits_unitsOf (ensureAscii : Bool) (c : Char) (units : List ℕ) :
    joinUnits (unitsOf ensureAscii c ++ units) = (joinUnits units).map (c :: ·) := by
  have hcases := toNat_cases c
  unfold unitsOf
  split
  next hpair =>
    have hsame : 0x10000 + (c.toNat - 0x10000) / 1024 * 1024 + (c.toNat - 0x10000) % 1024 =
        c.toNat := by omega
    rw [List.cons_append, List.cons_append, List.nil_append,
      joinUnits_pair (by omega) (by omega), hsame, Char.ofNat_toNat]
  · rw [List.singleton_append, joinUnits_plain (by omega), Char.ofNat_toNat]

theorem joinUnits_text (ensureAscii : Bool) (text : List Char) :
    joinUnits (text.flatMap (unitsOf ensureAscii)) = some text := by
  induction text with
  | nil => rfl
  | cons c text ih =>
      rw [List.flatMap_cons, joinUnits_unitsOf, ih]
      rfl

/-- A text that was written is read again, from after its first quote. -/
theorem parseText_quote (ensureAscii : Bool) (text : String) (rest : List Char) :
    parseText (text.toList.flatMap (JsonText.escape ensureAscii) ++ '"' :: rest) =
      some (some text, rest) := by
  unfold parseText
  rw [parseUnits_escapes, Option.map_some, joinUnits_text, Option.map_some, String.ofList_toList]

/-! ## Values that were written -/

mutual

/-- What is read of a value that was written. -/
def decoded : Json → Decoded
  | .null => .null
  | .bool value => .bool value
  | .int value => .int value
  | .float _ => .float
  | .text value => .text (some value)
  | .array values => .array (decodedValues values)
  | .object fields => .object (decodedFields fields)

def decodedValues : List Json → List Decoded
  | [] => []
  | value :: rest => decoded value :: decodedValues rest

def decodedFields : JsonObject → List (Option String × Decoded)
  | [] => []
  | (key, value) :: rest => (some key, decoded value) :: decodedFields rest

end

theorem skipSpace_cons {c : Char} {rest : List Char} (h : isSpace c = false) :
    skipSpace (c :: rest) = c :: rest :=
  List.dropWhile_cons_of_neg (by
    rw [h]
    exact Bool.false_ne_true)

theorem digit_start {c : Char} (h : isDigit c = true) :
    isSpace c = false ∧ c ≠ ']' ∧ c ≠ '\ufeff' ∧ c ≠ '"' ∧ c ≠ '[' ∧ c ≠ '{' := by
  refine ⟨?_, ?_, ?_, ?_, ?_, ?_⟩
  · by_contra hspace
    rw [Bool.not_eq_false] at hspace
    simp only [isSpace, Bool.or_eq_true, decide_eq_true_eq] at hspace
    rcases hspace with ((rfl | rfl) | rfl) | rfl <;> cases h
  all_goals
    rintro rfl
    cases h

/-- The text of a number starts with a digit or a sign. -/
theorem intText_start (value : ℤ) : ∃ c rest, JsonText.intText value = c :: rest ∧
    isSpace c = false ∧ c ≠ ']' ∧ c ≠ '\ufeff' ∧ c ≠ '"' ∧ c ≠ '[' ∧ c ≠ '{' := by
  cases value with
  | ofNat n =>
      obtain ⟨c, rest, htext, hdigit⟩ := exists_digit_natText n
      exact ⟨c, rest, htext, digit_start hdigit⟩
  | negSucc n => exact ⟨'-', _, rfl, rfl, by decide, by decide, by decide, by decide, by decide⟩

/-- The text of a value starts with no space, no closing bracket and no mark of the byte order. -/
theorem dumps_start (ensureAscii : Bool) {value : Json} (hfloats : value.floats = []) :
    ∃ c rest, JsonText.dumps ensureAscii value = c :: rest ∧ isSpace c = false ∧ c ≠ ']' ∧
      c ≠ '\ufeff' := by
  cases value with
  | null => exact ⟨'n', _, rfl, rfl, by decide, by decide⟩
  | bool value =>
      cases value with
      | false => exact ⟨'f', _, rfl, rfl, by decide, by decide⟩
      | true => exact ⟨'t', _, rfl, rfl, by decide, by decide⟩
  | int value =>
      obtain ⟨c, rest, htext, hspace, hclose, hmark, -⟩ := intText_start value
      exact ⟨c, rest, htext, hspace, hclose, hmark⟩
  | float value => cases hfloats
  | text value => exact ⟨'"', _, rfl, rfl, by decide, by decide⟩
  | array values => exact ⟨'[', _, rfl, rfl, by decide, by decide⟩
  | object fields => exact ⟨'{', _, rfl, rfl, by decide, by decide⟩

theorem parseValue_int (fuel : ℕ) (value : ℤ) {rest : List Char} (h : Closes rest) :
    parseValue (fuel + 1) (JsonText.intText value ++ rest) = some (.int value, rest) := by
  obtain ⟨c, others, htext, -, -, -, hquote, hbracket, hbrace⟩ := intText_start value
  rw [← parseScalar_intText value h, htext, List.cons_append, parseValue, if_neg hquote,
    if_neg hbracket, if_neg hbrace]

theorem parseValue_text (ensureAscii : Bool) (fuel : ℕ) (value : String) (rest : List Char) :
    parseValue (fuel + 1) (JsonText.quote ensureAscii value ++ rest) =
      some (.text (some value), rest) := by
  unfold JsonText.quote
  rw [List.append_assoc, List.cons_append, parseValue, if_pos rfl, List.singleton_append,
    parseText_quote]
  rfl

/-- The items of an array, if there are any. -/
theorem parseValue_array {fuel : ℕ} {c : Char} {inner rest : List Char} {values : List Decoded}
    (hspace : isSpace c = false) (hclose : c ≠ ']')
    (hitems : parseItems fuel (c :: inner) = some (values, rest)) :
    parseValue (fuel + 1) ('[' :: c :: inner) = some (.array values, rest) := by
  rw [parseValue_cons, if_neg (by decide), if_pos rfl, skipSpace_cons hspace]
  split
  next hhead => exact absurd (List.cons.inj hhead).1 hclose
  · rw [hitems]
    rfl

theorem parseItems_last {fuel : ℕ} {chars rest : List Char} {value : Decoded}
    (hvalue : parseValue fuel chars = some (value, ']' :: rest)) :
    parseItems (fuel + 1) chars = some ([value], rest) := by
  rw [parseItems_succ, hvalue]
  rfl

theorem parseItems_next {fuel : ℕ} {chars later rest : List Char} {value : Decoded}
    {values : List Decoded} (hvalue : parseValue fuel chars = some (value, ',' :: later))
    (hlater : skipSpace later = later) (hitems : parseItems fuel later = some (values, rest)) :
    parseItems (fuel + 1) chars = some (value :: values, rest) := by
  rw [parseItems_succ, hvalue]
  show (parseItems fuel (skipSpace later)).map _ = _
  rw [hlater, hitems]
  rfl

theorem parseFields_last {fuel : ℕ} {chars later rest : List Char} {key : Option String}
    {value : Decoded} (hkey : parseText chars = some (key, ':' :: later))
    (hlater : skipSpace later = later)
    (hvalue : parseValue fuel later = some (value, '}' :: rest)) :
    parseFields (fuel + 1) ('"' :: chars) = some ([(key, value)], rest) := by
  rw [parseFields_succ, hkey]
  show (match parseValue fuel (skipSpace later) with
    | none => none
    | some (value, rest) => _) = _
  rw [hlater, hvalue]
  rfl

theorem parseFields_next {fuel : ℕ} {chars later others rest : List Char} {key : Option String}
    {value : Decoded} {fields : List (Option String × Decoded)}
    (hkey : parseText chars = some (key, ':' :: later)) (hlater : skipSpace later = later)
    (hvalue : parseValue fuel later = some (value, ',' :: others))
    (hothers : skipSpace others = others)
    (hfields : parseFields fuel others = some (fields, rest)) :
    parseFields (fuel + 1) ('"' :: chars) = some ((key, value) :: fields, rest) := by
  rw [parseFields_succ, hkey]
  show (match parseValue fuel (skipSpace later) with
    | none => none
    | some (value, rest) => _) = _
  rw [hlater, hvalue]
  show (parseFields fuel (skipSpace others)).map _ = _
  rw [hothers, hfields]
  rfl

theorem skipSpace_dumps (ensureAscii : Bool) {value : Json} (hfloats : value.floats = [])
    (rest : List Char) : skipSpace (JsonText.dumps ensureAscii value ++ rest) =
      JsonText.dumps ensureAscii value ++ rest := by
  obtain ⟨c, others, htext, hspace, -⟩ := dumps_start ensureAscii hfloats
  rw [htext, List.cons_append, skipSpace_cons hspace]

theorem length_dumps_pos (ensureAscii : Bool) {value : Json} (hfloats : value.floats = []) :
    0 < (JsonText.dumps ensureAscii value).length := by
  obtain ⟨c, others, htext, -⟩ := dumps_start ensureAscii hfloats
  rw [htext]
  exact Nat.succ_pos _

/-- The items of an array start as the first of them. -/
theorem commas_start (ensureAscii : Bool) {value : Json} (hfloats : value.floats = [])
    (others : List Json) : ∃ c rest,
      JsonText.commas (JsonText.dumpsValues ensureAscii (value :: others)) = c :: rest ∧
        isSpace c = false ∧ c ≠ ']' := by
  obtain ⟨c, rest, htext, hspace, hclose, -⟩ := dumps_start ensureAscii hfloats
  cases others with
  | nil => exact ⟨c, rest, htext, hspace, hclose⟩
  | cons second more =>
      refine ⟨c, rest ++ ',' :: JsonText.commas (JsonText.dumpsValues ensureAscii (second :: more)),
        ?_, hspace, hclose⟩
      show JsonText.dumps ensureAscii value ++ _ = _
      rw [htext, List.cons_append]
      rfl

/-- A field without its first quote. -/
def fieldRest (ensureAscii : Bool) (key : String) (value rest : List Char) : List Char :=
  key.toList.flatMap (JsonText.escape ensureAscii) ++ '"' :: ':' :: (value ++ rest)

theorem commas_field (ensureAscii : Bool) (key : String) (value : Json) (rest : List Char) :
    JsonText.commas (JsonText.dumpsFields ensureAscii [(key, value)]) ++ rest =
      '"' :: fieldRest ensureAscii key (JsonText.dumps ensureAscii value) rest := by
  show (JsonText.quote ensureAscii key ++ ':' :: JsonText.dumps ensureAscii value) ++ rest = _
  simp [JsonText.quote, fieldRest]

theorem commas_fields (ensureAscii : Bool) (key : String) (value : Json) (next : String × Json)
    (more : JsonObject) (rest : List Char) :
    JsonText.commas (JsonText.dumpsFields ensureAscii ((key, value) :: next :: more)) ++ rest =
      '"' :: fieldRest ensureAscii key (JsonText.dumps ensureAscii value)
        (',' :: (JsonText.commas (JsonText.dumpsFields ensureAscii (next :: more)) ++ rest)) := by
  obtain ⟨nextKey, nextValue⟩ := next
  show (JsonText.quote ensureAscii key ++ ':' :: JsonText.dumps ensureAscii value ++ ',' ::
    JsonText.commas (JsonText.dumpsFields ensureAscii ((nextKey, nextValue) :: more))) ++ rest = _
  simp [JsonText.quote, fieldRest]

theorem parseText_fieldRest (ensureAscii : Bool) (key : String) (value rest : List Char) :
    parseText (fieldRest ensureAscii key value rest) = some (some key, ':' :: (value ++ rest)) :=
  parseText_quote ensureAscii key _

/-- The fields of an object, if there are any. -/
theorem parseValue_object {fuel : ℕ} {inner rest : List Char}
    {fields : List (Option String × Decoded)}
    (hfields : parseFields fuel ('"' :: inner) = some (fields, rest)) :
    parseValue (fuel + 1) ('{' :: '"' :: inner) = some (.object fields, rest) := by
  rw [parseValue_cons, if_neg (by decide), if_neg (by decide), if_pos rfl,
    skipSpace_cons (c := '"') rfl]
  show (parseFields fuel ('"' :: inner)).map _ = _
  rw [hfields]
  rfl

mutual

/-- A value that was written is read again. -/
theorem parseValue_dumps (ensureAscii : Bool) (value : Json) (hfloats : value.floats = [])
    {fuel : ℕ} {rest : List Char} (hfuel : (JsonText.dumps ensureAscii value).length ≤ fuel)
    (hrest : Closes rest) :
    parseValue fuel (JsonText.dumps ensureAscii value ++ rest) = some (decoded value, rest) := by
  have hpositive := length_dumps_pos ensureAscii hfloats
  obtain ⟨fuel, rfl⟩ : ∃ less, fuel = less + 1 := ⟨fuel - 1, by omega⟩
  cases value with
  | null => rfl
  | bool value => cases value <;> rfl
  | int value => exact parseValue_int fuel value hrest
  | float value => cases hfloats
  | text value => exact parseValue_text ensureAscii fuel value rest
  | array values =>
      cases values with
      | nil => rfl
      | cons value others =>
          have hvalue : value.floats = [] := (List.append_eq_nil_iff.mp hfloats).1
          obtain ⟨c, inner, htext, hspace, hclose⟩ := commas_start ensureAscii hvalue others
          have hdumps : JsonText.dumps ensureAscii (.array (value :: others)) =
              '[' :: (JsonText.commas (JsonText.dumpsValues ensureAscii (value :: others)) ++ [']']) :=
            rfl
          rw [hdumps, List.length_cons, List.length_append, List.length_singleton] at hfuel
          have hitems : parseItems fuel (JsonText.commas (JsonText.dumpsValues ensureAscii
              (value :: others)) ++ ']' :: rest) = some (decodedValues (value :: others), rest) :=
            parseItems_dumps ensureAscii (value :: others) (List.cons_ne_nil _ _) hfloats (by omega)
          rw [hdumps, List.cons_append, List.append_assoc, List.singleton_append, htext,
            List.cons_append]
          rw [htext, List.cons_append] at hitems
          exact parseValue_array hspace hclose hitems
  | object fields =>
      cases fields with
      | nil => rfl
      | cons field others =>
          have hdumps : JsonText.dumps ensureAscii (.object (field :: others)) =
              '{' :: (JsonText.commas (JsonText.dumpsFields ensureAscii (field :: others)) ++ ['}']) :=
            rfl
          rw [hdumps, List.length_cons, List.length_append, List.length_singleton] at hfuel
          have hfields : parseFields fuel (JsonText.commas (JsonText.dumpsFields ensureAscii
              (field :: others)) ++ '}' :: rest) = some (decodedFields (field :: others), rest) :=
            parseFields_dumps ensureAscii (field :: others) (List.cons_ne_nil _ _) hfloats
              (by omega)
          rw [hdumps, List.cons_append, List.append_assoc, List.singleton_append]
          obtain ⟨key, value⟩ := field
          cases others with
          | nil =>
              rw [commas_field] at hfields ⊢
              exact parseValue_object hfields
          | cons next more =>
              rw [commas_fields] at hfields ⊢
              exact parseValue_object hfields

theorem parseItems_dumps (ensureAscii : Bool) (values : List Json) (hne : values ≠ [])
    (hfloats : Json.floatsOfValues values = []) {fuel : ℕ} {rest : List Char}
    (hfuel : (JsonText.commas (JsonText.dumpsValues ensureAscii values)).length + 1 ≤ fuel) :
    parseItems fuel (JsonText.commas (JsonText.dumpsValues ensureAscii values) ++ ']' :: rest) =
      some (decodedValues values, rest) := by
  obtain ⟨fuel, rfl⟩ : ∃ less, fuel = less + 1 := ⟨fuel - 1, by omega⟩
  cases values with
  | nil => exact absurd rfl hne
  | cons value others =>
      obtain ⟨hvalue, hothers⟩ := List.append_eq_nil_iff.mp hfloats
      cases others with
      | nil =>
          have hfuel : (JsonText.dumps ensureAscii value).length ≤ fuel := Nat.le_of_succ_le_succ hfuel
          exact parseItems_last (parseValue_dumps ensureAscii value hvalue hfuel
            (closes_cons (.inr (.inl rfl))))
      | cons second more =>
          have hsecond : second.floats = [] := (List.append_eq_nil_iff.mp hothers).1
          have hcommas : JsonText.commas (JsonText.dumpsValues ensureAscii (value :: second :: more)) =
              JsonText.dumps ensureAscii value ++ ',' ::
                JsonText.commas (JsonText.dumpsValues ensureAscii (second :: more)) := rfl
          obtain ⟨c, inner, htext, hspace, -⟩ := commas_start ensureAscii hsecond more
          rw [hcommas, List.length_append, List.length_cons] at hfuel
          rw [hcommas, List.append_assoc, List.cons_append]
          refine parseItems_next (parseValue_dumps ensureAscii value hvalue (by omega)
            (closes_cons (.inl rfl))) ?_
            (parseItems_dumps ensureAscii (second :: more) (List.cons_ne_nil _ _) hothers (by omega))
          rw [htext, List.cons_append, skipSpace_cons hspace]

theorem parseFields_dumps (ensureAscii : Bool) (fields : JsonObject) (hne : fields ≠ [])
    (hfloats : Json.floatsOfFields fields = []) {fuel : ℕ} {rest : List Char}
    (hfuel : (JsonText.commas (JsonText.dumpsFields ensureAscii fields)).length + 1 ≤ fuel) :
    parseFields fuel (JsonText.commas (JsonText.dumpsFields ensureAscii fields) ++ '}' :: rest) =
      some (decodedFields fields, rest) := by
  obtain ⟨fuel, rfl⟩ : ∃ less, fuel = less + 1 := ⟨fuel - 1, by omega⟩
  cases fields with
  | nil => exact absurd rfl hne
  | cons field others =>
      obtain ⟨key, value⟩ := field
      obtain ⟨hvalue, hothers⟩ := List.append_eq_nil_iff.mp hfloats
      cases others with
      | nil =>
          have hlength : (JsonText.dumps ensureAscii value).length ≤ fuel := by
            have htext := congrArg List.length (commas_field ensureAscii key value [])
            simp only [List.append_nil, fieldRest, List.length_cons, List.length_append] at htext
            omega
          rw [commas_field]
          exact parseFields_last (parseText_fieldRest ensureAscii key _ _)
            (skipSpace_dumps ensureAscii hvalue _)
            (parseValue_dumps ensureAscii value hvalue hlength (closes_cons (.inr (.inr rfl))))
      | cons next more =>
          have htext := congrArg List.length (commas_fields ensureAscii key value next more [])
          simp only [List.append_nil, fieldRest, List.length_cons, List.length_append] at htext
          rw [commas_fields]
          refine parseFields_next (parseText_fieldRest ensureAscii key _ _)
            (skipSpace_dumps ensureAscii hvalue _)
            (parseValue_dumps ensureAscii value hvalue (by omega) (closes_cons (.inl rfl))) ?_
            (parseFields_dumps ensureAscii (next :: more) (List.cons_ne_nil _ _) hothers (by omega))
          obtain ⟨nextKey, nextValue⟩ := next
          cases more with
          | nil =>
              rw [commas_field]
              exact skipSpace_cons rfl
          | cons later others =>
              rw [commas_fields]
              exact skipSpace_cons rfl

end

/-- What `json.dumps` writes, `json.loads` reads, unless there is a number with a fraction. -/
theorem loads_dumps (ensureAscii : Bool) {value : Json} (hfloats : value.floats = []) :
    loads (JsonText.dumps ensureAscii value) = some (decoded value) := by
  have hparsed := parseValue_dumps ensureAscii value hfloats
    (Nat.le_succ (JsonText.dumps ensureAscii value).length) closes_nil
  rw [List.append_nil] at hparsed
  have hskip := skipSpace_dumps ensureAscii hfloats []
  rw [List.append_nil] at hskip
  have hmark : (JsonText.dumps ensureAscii value).head? ≠ some '\ufeff' := by
    obtain ⟨c, others, htext, -, -, hne⟩ := dumps_start ensureAscii hfloats
    rw [htext]
    exact fun hhead => hne (Option.some.inj hhead)
  unfold loads
  rw [if_neg hmark, hskip, hparsed]
  rfl

end JsonParser
