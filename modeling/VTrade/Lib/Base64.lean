/-
# Base64

Three bytes are written as four characters of an alphabet, and a rest of one or two bytes as two or
three.  The reader takes one character at a time and keeps the bits that do not make up a byte yet.
It skips what is not in the alphabet unless it is strict, and is done when padding completes a group
of four.  What is written without padding is read again once it is padded.
-/

import Mathlib.Data.List.DropRight
import VTrade.Lib.JsonText

namespace Base64

/-! ## The alphabet -/

/-- The character of six bits, `-` and `_` being the last two. -/
def character (sextet : ℕ) : Char :=
  if sextet < 26 then Char.ofNat (65 + sextet)
  else if sextet < 52 then Char.ofNat (71 + sextet)
  else if sextet < 62 then Char.ofNat (sextet - 4)
  else if sextet = 62 then '-'
  else '_'

/-- The six bits of a character; the last two characters may be those of the standard alphabet. -/
def sextet (c : Char) : Option ℕ :=
  if 'A' ≤ c ∧ c ≤ 'Z' then some (c.toNat - 65)
  else if 'a' ≤ c ∧ c ≤ 'z' then some (c.toNat - 71)
  else if '0' ≤ c ∧ c ≤ '9' then some (c.toNat + 4)
  else if c = '-' ∨ c = '+' then some 62
  else if c = '_' ∨ c = '/' then some 63
  else none

/-! ## Writing -/

/-- The characters of bytes, without padding. -/
def characters : List UInt8 → List Char
  | [] => []
  | [first] => [character (first.toNat / 4), character (first.toNat % 4 * 16)]
  | [first, second] =>
      [character (first.toNat / 4), character (first.toNat % 4 * 16 + second.toNat / 16),
        character (second.toNat % 16 * 4)]
  | first :: second :: third :: rest =>
      character (first.toNat / 4) :: character (first.toNat % 4 * 16 + second.toNat / 16) ::
        character (second.toNat % 16 * 4 + third.toNat / 64) :: character (third.toNat % 64) ::
          characters rest

/-- As many `=` as complete the last group of four. -/
def padding (length : ℕ) : List Char := List.replicate ((4 - length % 4) % 4) '='

/-- `urlsafe_b64encode`. -/
def encode (bytes : List UInt8) : List Char :=
  characters bytes ++ padding (characters bytes).length

/-- `urlsafe_b64encode`, without its padding. -/
def token (bytes : List UInt8) : List Char := (encode bytes).rdropWhile (· = '=')

/-! ## Reading -/

/-- How many characters of a group were read, and the bits that are not part of a byte yet. -/
inductive Group
  | zero
  | one (left : ℕ)
  | two (left : ℕ)
  | three (left : ℕ)

namespace Group

/-- Whether one more `=`, after some, completes the group. -/
def completedBy (pads : ℕ) : Group → Bool
  | .zero | .one _ => false
  | .two _ => 2 ≤ pads + 1
  | .three _ => true

/-- How many `=` count as padding. -/
def padded (pads : ℕ) : Group → ℕ
  | .zero | .one _ => pads
  | .two _ | .three _ => pads + 1

/-- The group with six bits more, and the byte they complete. -/
def push (bits : ℕ) : Group → Group × List UInt8
  | .zero => (.one bits, [])
  | .one left => (.two (bits % 16), [UInt8.ofNat (left * 4 + bits / 16)])
  | .two left => (.three (bits % 4), [UInt8.ofNat (left * 16 + bits / 4)])
  | .three left => (.zero, [UInt8.ofNat (left * 64 + bits)])

end Group

/-- `a2b_base64`, from a group and the padding so far. -/
def read (strict : Bool) : Group → ℕ → Bool → List Char → Option (List UInt8)
  | .zero, _, _, [] => some []
  | .one _, _, _, [] | .two _, _, _, [] | .three _, _, _, [] => none
  | group, pads, padded, c :: rest =>
      if c = '=' then
        if group.completedBy pads then if strict && !rest.isEmpty then none else some []
        else read strict group (group.padded pads) true rest
      else
        match sextet c with
        | none => if strict then none else read strict group pads padded rest
        | some bits =>
            if strict && padded then none
            else (read strict (group.push bits).1 0 padded rest).map ((group.push bits).2 ++ ·)

/-- `b64decode`, with both alphabets. -/
def decode (strict : Bool) (chars : List Char) : Option (List UInt8) :=
  if strict && chars.head? = some '=' then none else read strict .zero 0 false chars

/-! ## What is written is read again -/

theorem sextet_character {bits : ℕ} (h : bits < 64) :
    sextet (character bits) = some bits ∧ character bits ≠ '=' := by
  revert bits
  decide

theorem toNat_character_lt {bits : ℕ} (h : bits < 64) : (character bits).toNat < 128 := by
  revert bits
  decide

section Read

variable {strict padded : Bool} {pads : ℕ} {group : Group} {bits : ℕ} {rest : List Char}

/-- A character of the alphabet adds its bits to the group. -/
theorem read_character (h : bits < 64) :
    read strict group pads false (character bits :: rest) =
      (read strict (group.push bits).1 0 false rest).map ((group.push bits).2 ++ ·) := by
  obtain ⟨hsextet, hne⟩ := sextet_character h
  cases group <;> simp [read, hsextet, hne]

theorem read_two_padding {left : ℕ} :
    read strict (.two left) 0 false ['=', '='] = some [] := by
  cases strict <;> rfl

theorem read_three_padding {left : ℕ} : read strict (.three left) 0 false ['='] = some [] := by
  cases strict <;> rfl

end Read

theorem ofNat_first (first second : UInt8) :
    UInt8.ofNat (first.toNat / 4 * 4 + (first.toNat % 4 * 16 + second.toNat / 16) / 16) =
      first := by
  have hsecond : second.toNat < 256 := second.toNat_lt
  have hparts : first.toNat / 4 * 4 + (first.toNat % 4 * 16 + second.toNat / 16) / 16 =
      first.toNat := by omega
  rw [hparts, UInt8.ofNat_toNat]

theorem ofNat_second (first second third : UInt8) :
    UInt8.ofNat ((first.toNat % 4 * 16 + second.toNat / 16) % 16 * 16 +
      (second.toNat % 16 * 4 + third.toNat / 64) / 4) = second := by
  have hsecond : second.toNat < 256 := second.toNat_lt
  have hthird : third.toNat < 256 := third.toNat_lt
  have hparts : (first.toNat % 4 * 16 + second.toNat / 16) % 16 * 16 +
      (second.toNat % 16 * 4 + third.toNat / 64) / 4 = second.toNat := by omega
  rw [hparts, UInt8.ofNat_toNat]

theorem ofNat_third (second third : UInt8) :
    UInt8.ofNat ((second.toNat % 16 * 4 + third.toNat / 64) % 4 * 64 + third.toNat % 64) =
      third := by
  have hthird : third.toNat < 256 := third.toNat_lt
  have hparts : (second.toNat % 16 * 4 + third.toNat / 64) % 4 * 64 + third.toNat % 64 =
      third.toNat := by omega
  rw [hparts, UInt8.ofNat_toNat]

theorem read_encode (strict : Bool) (bytes : List UInt8) :
    read strict .zero 0 false (encode bytes) = some bytes := by
  unfold encode
  induction bytes using characters.induct with
  | case1 => rfl
  | case2 first =>
      have hfirst : first.toNat < 256 := first.toNat_lt
      have hbyte := ofNat_first first 0
      simp only [UInt8.toNat_zero, Nat.zero_div, Nat.add_zero] at hbyte
      rw [characters, List.cons_append, List.cons_append, List.nil_append, read_character (by omega),
        Group.push, read_character (by omega), Group.push, hbyte]
      show Option.map _ (Option.map _ (read strict (.two _) 0 false ['=', '='])) = _
      rw [read_two_padding]
      rfl
  | case3 first second =>
      have hfirst : first.toNat < 256 := first.toNat_lt
      have hsecond : second.toNat < 256 := second.toNat_lt
      have hbyte := ofNat_second first second 0
      simp only [UInt8.toNat_zero, Nat.zero_div, Nat.add_zero] at hbyte
      rw [characters, List.cons_append, List.cons_append, List.cons_append, List.nil_append,
        read_character (by omega), Group.push, read_character (by omega), Group.push,
        read_character (by omega), Group.push, ofNat_first, hbyte]
      show Option.map _ (Option.map _ (Option.map _ (read strict (.three _) 0 false ['=']))) = _
      rw [read_three_padding]
      rfl
  | case4 first second third rest ih =>
      have hfirst : first.toNat < 256 := first.toNat_lt
      have hsecond : second.toNat < 256 := second.toNat_lt
      have hthird : third.toNat < 256 := third.toNat_lt
      have hpadding : padding ((characters rest).length + 1 + 1 + 1 + 1) =
          padding (characters rest).length := by
        unfold padding
        congr 2
        omega
      simp only [characters, List.cons_append, List.length_cons]
      rw [hpadding, read_character (by omega), Group.push, read_character (by omega), Group.push,
        read_character (by omega), Group.push, read_character (by omega), Group.push, ih,
        ofNat_first, ofNat_second, ofNat_third]
      rfl

/-! ## Tokens without padding -/

/-- The characters of bytes are those of six bits each. -/
theorem mem_characters {bytes : List UInt8} {c : Char} (h : c ∈ characters bytes) :
    ∃ bits < 64, c = character bits := by
  induction bytes using characters.induct with
  | case1 => cases h
  | case2 first =>
      have hfirst : first.toNat < 256 := first.toNat_lt
      simp only [characters, List.mem_cons, List.not_mem_nil, or_false] at h
      rcases h with rfl | rfl
      · exact ⟨_, by omega, rfl⟩
      · exact ⟨_, by omega, rfl⟩
  | case3 first second =>
      have hfirst : first.toNat < 256 := first.toNat_lt
      have hsecond : second.toNat < 256 := second.toNat_lt
      simp only [characters, List.mem_cons, List.not_mem_nil, or_false] at h
      rcases h with rfl | rfl | rfl
      · exact ⟨_, by omega, rfl⟩
      · exact ⟨_, by omega, rfl⟩
      · exact ⟨_, by omega, rfl⟩
  | case4 first second third rest ih =>
      have hfirst : first.toNat < 256 := first.toNat_lt
      have hsecond : second.toNat < 256 := second.toNat_lt
      have hthird : third.toNat < 256 := third.toNat_lt
      simp only [characters, List.mem_cons] at h
      rcases h with rfl | rfl | rfl | rfl | h
      · exact ⟨_, by omega, rfl⟩
      · exact ⟨_, by omega, rfl⟩
      · exact ⟨_, by omega, rfl⟩
      · exact ⟨_, by omega, rfl⟩
      · exact ih h

theorem ne_padding_of_mem_characters {bytes : List UInt8} {c : Char}
    (h : c ∈ characters bytes) : c ≠ '=' := by
  obtain ⟨bits, hbits, rfl⟩ := mem_characters h
  exact (sextet_character hbits).2

theorem length_characters (bytes : List UInt8) :
    (characters bytes).length = (bytes.length * 4 + 2) / 3 := by
  induction bytes using characters.induct with
  | case1 => rfl
  | case2 first => simp [characters]
  | case3 first second => simp [characters]
  | case4 first second third rest ih =>
      simp only [characters, List.length_cons, ih]
      omega

/-- Only the padding is left out. -/
@[simp]
theorem token_eq (bytes : List UInt8) : token bytes = characters bytes := by
  unfold token encode List.rdropWhile padding
  rw [List.reverse_append, List.reverse_replicate, List.dropWhile_append_of_pos]
  · cases hlast : (characters bytes).reverse with
    | nil => simpa using hlast.symm
    | cons c rest =>
        have hmem : c ∈ characters bytes := by
          rw [← List.mem_reverse, hlast]
          exact List.mem_cons_self
        rw [List.dropWhile_cons_of_neg (by simpa using ne_padding_of_mem_characters hmem), ← hlast,
          List.reverse_reverse]
  · intro c hc
    exact decide_eq_true (List.eq_of_mem_replicate hc)

/-- A token that is padded again is read as its bytes. -/
theorem decode_token (strict : Bool) (bytes : List UInt8) :
    decode strict (token bytes ++ padding (token bytes).length) = some bytes := by
  have hread := read_encode strict bytes
  unfold encode at hread
  rw [token_eq]
  unfold decode
  have hhead : (characters bytes ++ padding (characters bytes).length).head? ≠ some '=' := by
    cases hcharacters : characters bytes with
    | nil => simp [padding]
    | cons c rest =>
        have hmem : c ∈ characters bytes := by
          rw [hcharacters]
          exact List.mem_cons_self
        simpa using ne_padding_of_mem_characters hmem
  have hstart : ¬ (strict && (characters bytes ++ padding (characters bytes).length).head? =
      some '=') = true := by
    rw [decide_eq_false hhead, Bool.and_false]
    exact Bool.false_ne_true
  rw [if_neg hstart, hread]

/-! ## Tokens in JSON texts -/

theorem plain_character {bits : ℕ} (h : bits < 64) :
    JsonText.escape false (character bits) = [character bits] ∧
      (character bits).utf8Size = 1 := by
  revert bits
  decide

/-- A token is written as it is. -/
theorem size_token (bytes : List UInt8) :
    JsonText.size false (.text (String.ofList (token bytes))) = (bytes.length * 4 + 2) / 3 + 2 := by
  rw [token_eq, JsonText.size_text_of_plain, length_characters]
  intro c hc
  obtain ⟨bits, hbits, rfl⟩ := mem_characters hc
  exact plain_character hbits

end Base64
