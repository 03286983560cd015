import Mathlib
import ScriptMachine.Text.Hex
import ScriptMachine.Text.Numeral

/-!
# Reading numerals back

A decimal numeral consists of digits, with or without zeros in front, and no two numbers have the
same one; nor do two integers that show their sign. A text in which a mark follows something
without that mark is therefore cut in one way only. A byte is written in two hexadecimal digits,
which are read back.
-/

namespace ScriptMachine

/-- What stands before the first mark of a text, and what stands from there on, is determined by the
text. -/
theorem append_inj_of_mark {α : Type} {mark : α} {before before' after after' : List α}
    (free : mark ∉ before) (free' : mark ∉ before') (marked : ∀ first ∈ after.head?, first = mark)
    (marked' : ∀ first ∈ after'.head?, first = mark)
    (same : before ++ after = before' ++ after') : before = before' ∧ after = after' := by
  rcases List.append_eq_append_iff.1 same with ⟨between, rfl, rfl⟩ | ⟨between, rfl, rfl⟩
  · cases between with
    | nil => simp
    | cons first rest =>
      obtain rfl := marked first (by simp)
      exact absurd (by simp) free'
  · cases between with
    | nil => simp
    | cons first rest =>
      obtain rfl := marked' first (by simp)
      exact absurd (by simp) free

namespace Numeral

variable {c : Char} {width m n : Nat}

theorem toList_zeroPadded (width n : Nat) : (zeroPadded width n).toList =
    List.replicate (width - (Nat.toDigits 10 n).length) '0' ++ Nat.toDigits 10 n :=
  String.toList_ofList

/-- A decimal numeral consists of digits. -/
theorem isDigit_of_mem_repr (inside : c ∈ n.repr.toList) : c.isDigit := by
  rw [Nat.toList_repr] at inside
  exact Nat.isDigit_of_mem_toDigits (by decide) (by decide) inside

/-- A numeral of fixed width consists of digits. -/
theorem isDigit_of_mem_zeroPadded (inside : c ∈ (zeroPadded width n).toList) : c.isDigit := by
  rw [toList_zeroPadded, List.mem_append] at inside
  rcases inside with zero | digit
  · rw [List.eq_of_mem_replicate zero]
    rfl
  · exact Nat.isDigit_of_mem_toDigits (by decide) (by decide) digit

/-- A numeral of fixed width begins with a digit. -/
theorem exists_digit_zeroPadded (width n : Nat) :
    ∃ first rest, (zeroPadded width n).toList = first :: rest ∧ first.isDigit := by
  cases listed : (zeroPadded width n).toList with
  | nil =>
    rw [toList_zeroPadded, List.append_eq_nil_iff] at listed
    exact absurd listed.2 Nat.toDigits_ne_nil
  | cons first rest =>
    exact ⟨first, rest, rfl, isDigit_of_mem_zeroPadded (by rw [listed]; exact List.mem_cons_self)⟩

/-- The zeros in front of a numeral do not count. -/
theorem zeroPadded_inj : zeroPadded width m = zeroPadded width n ↔ m = n := by
  refine ⟨fun same => ?_, fun same => same ▸ rfl⟩
  have value (n : Nat) : Nat.ofDigitChars 10 (zeroPadded width n).toList 0 = n := by
    rw [toList_zeroPadded, Nat.ofDigitChars_append, Nat.ofDigitChars_replicate_zero, Nat.mul_zero,
      Nat.ofDigitChars_ten_toDigits]
  rw [← value m, ← value n, same]

/-- An integer that shows its sign is determined by what it shows. -/
theorem signed_inj {m n : Int} : signed m = signed n ↔ m = n := by
  refine ⟨fun same => ?_, fun same => same ▸ rfl⟩
  unfold signed at same
  simp only [Nat.toString_eq_repr] at same
  split at same <;> split at same
  · rw [String.append_right_inj, Nat.repr_inj] at same
    omega
  · have marks := congrArg String.toList same
    simp at marks
  · have marks := congrArg String.toList same
    simp at marks
  · rw [String.append_right_inj, Nat.repr_inj] at same
    omega

/-! ## Hexadecimal digits -/

theorem digit?_digit : ∀ n < 16, Hex.digit? (digit n) = some n := by decide

/-- A digit is no character that cannot be read as a digit. -/
theorem digit_ne (foreign : Hex.digit? c = none) (small : n < 16) : digit n ≠ c := by
  rintro rfl
  rw [digit?_digit n small] at foreign
  cases foreign

/-- A byte is written in two digits. -/
theorem exists_digits_hexByte (byte : UInt8) : ∃ high < 16, ∃ low < 16,
    byte.toNat = high * 16 + low ∧
      (hexByte byte).toList = ['0', 'x', digit high, digit low] := by
  have small := byte.toNat_lt
  exact ⟨byte.toNat / 16, by omega, byte.toNat % 16, by omega, (Nat.div_add_mod' _ _).symm,
    String.toList_ofList⟩

end Numeral

end ScriptMachine
