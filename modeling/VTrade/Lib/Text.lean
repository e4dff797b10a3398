/-
# Text searched, padded and put together

Identifiers are built by joining texts, and telling two of them apart means
taking the joined text apart again.  A separator that occurs in no later part
splits a text in only one way, and a number padded to a fixed width is
determined by its digits.
-/

import Mathlib.Data.List.Basic
import Mathlib.Tactic.IntervalCases

namespace Text

/-- Whether a text occurs in another one, as a contiguous part. -/
def occursIn (needle : List Char) : List Char → Bool
  | [] => needle.isEmpty
  | first :: rest => needle.isPrefixOf (first :: rest) || occursIn needle rest

/-- Whether `needle` occurs in `text`. -/
def contains (text needle : String) : Bool := occursIn needle.toList text.toList

/-- The whitespace characters of the Unicode database. -/
def isSpace (c : Char) : Bool :=
  let code := c.toNat
  (9 ≤ code && code ≤ 13) || (28 ≤ code && code ≤ 32) || code = 0x85 || code = 0xa0 ||
    code = 0x1680 || (0x2000 ≤ code && code ≤ 0x200a) || code = 0x2028 || code = 0x2029 ||
    code = 0x202f || code = 0x205f || code = 0x3000

/-- A text without a character that is not whitespace. -/
def isBlank (text : String) : Bool := text.toList.all isSpace

@[simp]
theorem isBlank_empty : isBlank "" = true := rfl

/-- A text that is not blank is not empty. -/
theorem ne_empty_of_not_isBlank {text : String} (h : isBlank text = false) : text ≠ "" := by
  rintro rfl
  simp at h

/-- Appending keeps a text that is not blank from being blank. -/
theorem not_isBlank_append_right {first second : String} (h : isBlank first = false) :
    isBlank (first ++ second) = false := by
  simp only [isBlank, String.toList_append, List.all_append] at h ⊢
  simp [h]

/-- The decimal digit of a number below ten. -/
def digit (n : ℕ) : Char := Char.ofNat (48 + n)

/-- A number in decimal, padded with zeros to a fixed width. -/
def zeroPad : ℕ → ℕ → List Char
  | 0, _ => []
  | width + 1, n => zeroPad width (n / 10) ++ [digit (n % 10)]

@[simp]
theorem length_zeroPad (width n : ℕ) : (zeroPad width n).length = width := by
  induction width generalizing n with
  | zero => rfl
  | succ width ih => simp [zeroPad, ih]

theorem digit_mem_digits {n : ℕ} (h : n < 10) : digit n ∈ "0123456789".toList := by
  interval_cases n <;> decide

/-- A padded number consists of digits. -/
theorem mem_digits_of_mem_zeroPad {width n : ℕ} {c : Char} (h : c ∈ zeroPad width n) :
    c ∈ "0123456789".toList := by
  induction width generalizing n with
  | zero => simp [zeroPad] at h
  | succ width ih =>
      rcases List.mem_append.mp h with hfront | hlast
      · exact ih hfront
      · rw [List.mem_singleton] at hlast
        rw [hlast]
        exact digit_mem_digits (Nat.mod_lt n (by omega))

/-- The last occurrence of a separator splits a text in only one way. -/
theorem append_cons_inj_of_not_mem {a b q r : List Char} {c : Char} (hq : c ∉ q) (hr : c ∉ r)
    (h : a ++ c :: q = b ++ c :: r) : a = b ∧ q = r := by
  induction a generalizing b with
  | nil =>
      cases b with
      | nil => exact ⟨rfl, by simpa using h⟩
      | cons x b =>
          have htail : q = b ++ c :: r := (List.cons.inj h).2
          exact absurd (by simp [htail]) hq
  | cons x a ih =>
      cases b with
      | nil =>
          have htail : a ++ c :: q = r := (List.cons.inj h).2
          exact absurd (by simp [← htail]) hr
      | cons y b =>
          obtain ⟨hxy, htail⟩ := List.cons.inj h
          obtain ⟨hab, hqr⟩ := ih htail
          exact ⟨by rw [hxy, hab], hqr⟩

/-- The first occurrence of a separator splits a text in only one way. -/
theorem cons_append_inj_of_not_mem {a b q r : List Char} {c : Char} (ha : c ∉ a) (hb : c ∉ b)
    (h : a ++ c :: q = b ++ c :: r) : a = b ∧ q = r := by
  have hreverse : q.reverse ++ c :: a.reverse = r.reverse ++ c :: b.reverse := by
    simpa using congrArg List.reverse h
  obtain ⟨hback, hfront⟩ := append_cons_inj_of_not_mem
    (by simpa using ha) (by simpa using hb) hreverse
  exact ⟨List.reverse_injective hfront, List.reverse_injective hback⟩

/-- What stands between two fixed texts is determined by the whole. -/
theorem between_injective (front back : String) {a b : String}
    (h : front ++ a ++ back = front ++ b ++ back) : a = b := by
  have hlist := congrArg String.toList h
  simp only [String.toList_append] at hlist
  exact String.toList_injective (List.append_cancel_left (List.append_cancel_right hlist))

end Text
