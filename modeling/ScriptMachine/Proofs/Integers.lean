import Mathlib
import ScriptMachine.Arithmetic

/-!
# What operations compute over the integers

A script value is a word, and an operation on words is meant as an operation on the integers that
the words stand for, reduced to the signed range of a word. This module says what each operation is
over the integers, without words: quotients and remainders are those of the division that truncates
toward zero, bits are those of the two's complement without an end, and a shift multiplies by a
power of two or divides by it. The words agree with it in every case.
-/

namespace ScriptMachine

/-- The integer of the signed range of a word that is congruent to an integer. -/
def reduced (value : Int) : Int := value.bmod (2 ^ 32)

/-- Truth as an integer. -/
def truthValue (holds : Prop) [Decidable holds] : Int := if holds then 1 else 0

/-- The integer that an operation on integers gives, before it is reduced. -/
def UnaryOp.value : UnaryOp → Int → Int
  | .isZero, a => truthValue (a = 0)
  | .neg, a => -a
  | .complement, a => -a - 1

/-- The integer that an operation on integers gives, before it is reduced. -/
def BinaryOp.value : BinaryOp → Int → Int → Int
  | .add, a, b => a + b
  | .sub, a, b => a - b
  | .mul, a, b => a * b
  | .div, a, b => if b = 0 then 0 else a.tdiv b
  | .mod, a, b => if b = 0 then 0 else a.tmod b
  | .bitAnd, a, b => a.land b
  | .bitOr, a, b => a.lor b
  | .bitXor, a, b => a.xor b
  | .shiftRight, a, b => a / 2 ^ (b % 32).toNat
  | .shiftLeft, a, b => a * 2 ^ (b % 32).toNat
  | .both, a, b => truthValue (a ≠ 0 ∧ b ≠ 0)
  | .either, a, b => truthValue (a ≠ 0 ∨ b ≠ 0)
  | .lt, a, b => truthValue (a < b)
  | .le, a, b => truthValue (a ≤ b)
  | .gt, a, b => truthValue (b < a)
  | .ge, a, b => truthValue (b ≤ a)
  | .eq, a, b => truthValue (a = b)
  | .ne, a, b => truthValue (a ≠ b)

/-! ## Words and integers -/

/-- The integer of a word is in the signed range. -/
theorem reduced_toInt (word : Int32) : reduced word.toInt = word.toInt := word.toInt_bmod

/-- A word stands for zero exactly if it is zero. -/
theorem toInt_eq_zero_iff {word : Int32} : word.toInt = 0 ↔ word = 0 := by
  rw [← Int32.toInt_zero, Int32.toInt_inj]

/-- Truth is the same over words and over integers. -/
theorem toInt_truth {answer : Bool} {holds : Prop} [Decidable holds]
    (same : answer = true ↔ holds) : (truth answer).toInt = reduced (truthValue holds) := by
  unfold truth truthValue
  by_cases held : holds
  · rw [if_pos held, if_pos (same.2 held)]
    decide
  · rw [if_neg held, if_neg fun answered => held (same.1 answered)]
    decide

/-- The low bits of an integer are those of the word that it is reduced to. -/
theorem getLsbD_ofInt (value : Int) {place : Nat} (inside : place < 32) :
    (BitVec.ofInt 32 value).getLsbD place = value.testBit place := by
  cases value with
  | ofNat natural =>
    rw [Int.ofNat_eq_natCast, BitVec.ofInt_natCast, BitVec.getLsbD_ofNat, decide_eq_true inside,
      Bool.true_and]
    rfl
  | negSucc natural =>
    rw [BitVec.ofInt_negSucc_eq_not_ofNat, BitVec.getLsbD_not, BitVec.getLsbD_ofNat,
      decide_eq_true inside, Bool.true_and, Bool.true_and]
    rfl

/-- The low bits of the integer of a word are the bits of the word. -/
theorem testBit_toInt (word : Int32) {place : Nat} (inside : place < 32) :
    word.toInt.testBit place = word.toBitVec.getLsbD place := by
  rw [← getLsbD_ofInt _ inside, ← Int32.toInt_toBitVec, BitVec.ofInt_toInt]

/-- A word whose bits are those of an integer stands for the reduced integer. -/
theorem toInt_eq_reduced {word : Int32} {value : Int}
    (bits : ∀ place < 32, word.toBitVec.getLsbD place = value.testBit place) :
    word.toInt = reduced value := by
  have same : word.toBitVec = BitVec.ofInt 32 value :=
    BitVec.eq_of_getLsbD_eq fun place inside => by
      rw [bits place inside, getLsbD_ofInt value inside]
  rw [← Int32.toInt_toBitVec, same, BitVec.toInt_ofInt]
  rfl

/-- The effective shift count is the count modulo thirty-two. -/
theorem toNat_shiftCount (count : Int32) :
    ((shiftCount count).toBitVec.smod 32).toNat = (count.toInt % 32).toNat := by
  have low : (shiftCount count).toBitVec.toNat = count.toBitVec.toNat % 32 := by
    rw [shiftCount, Int32.toBitVec_and, BitVec.toNat_and]
    exact Nat.and_two_pow_sub_one_eq_mod _ 5
  have signed : (shiftCount count).toBitVec.toInt = (count.toBitVec.toNat % 32 : Nat) := by
    rw [BitVec.toInt_eq_toNat_of_lt (by omega), low]
  have kept : ((shiftCount count).toBitVec.smod 32).toInt = (count.toBitVec.toNat % 32 : Nat) := by
    rw [BitVec.toInt_smod, signed]
    exact Int.fmod_eq_of_lt (Int.natCast_nonneg _) (by simp; omega)
  have whole := BitVec.toInt_eq_toNat_cond ((shiftCount count).toBitVec.smod 32)
  have word := BitVec.toInt_eq_toNat_cond count.toBitVec
  rw [Int32.toInt_toBitVec] at word
  split at whole <;> split at word <;> omega

/-! ## Operations -/

/-- An operation on a word gives what it gives over the integers, reduced. -/
theorem UnaryOp.toInt_eval (op : UnaryOp) (a : Int32) :
    (op.eval a).toInt = reduced (op.value a.toInt) := by
  cases op with
  | isZero => exact toInt_truth (by simp [toInt_eq_zero_iff])
  | neg => exact Int32.toInt_neg a
  | complement => exact Int32.toInt_not a

/-- An operation on words gives what it gives over the integers, reduced. -/
theorem BinaryOp.toInt_eval (op : BinaryOp) (a b : Int32) :
    (op.eval a b).toInt = reduced (op.value a.toInt b.toInt) := by
  cases op with
  | add => exact Int32.toInt_add a b
  | sub => exact Int32.toInt_sub a b
  | mul => exact Int32.toInt_mul a b
  | div =>
    simp only [eval, value, divide, toInt_eq_zero_iff]
    split
    · rfl
    · exact Int32.toInt_div a b
  | mod =>
    simp only [eval, value, remainder, toInt_eq_zero_iff]
    split
    · rfl
    · rw [← Int32.toInt_mod, reduced_toInt]
  | bitAnd =>
    refine toInt_eq_reduced fun place inside => ?_
    rw [value, Int.testBit_land, testBit_toInt a inside, testBit_toInt b inside]
    exact BitVec.getLsbD_and
  | bitOr =>
    refine toInt_eq_reduced fun place inside => ?_
    rw [value, Int.testBit_lor, testBit_toInt a inside, testBit_toInt b inside]
    exact BitVec.getLsbD_or
  | bitXor =>
    refine toInt_eq_reduced fun place inside => ?_
    rw [value, Int.testBit_lxor, testBit_toInt a inside, testBit_toInt b inside]
    exact BitVec.getLsbD_xor
  | shiftRight =>
    have shifted : (eval .shiftRight a b).toInt = a.toInt / 2 ^ (b.toInt % 32).toNat := by
      rw [eval, ← Int32.toInt_toBitVec, Int32.toBitVec_shiftRight, BitVec.sshiftRight',
        BitVec.toInt_sshiftRight, toNat_shiftCount, Int.shiftRight_eq_div_pow,
        Int32.toInt_toBitVec]
      norm_cast
    rw [value, ← shifted, reduced_toInt]
  | shiftLeft =>
    have congruent : (a.toBitVec.toNat : Int).bmod (2 ^ 32) = a.toInt := by
      rw [← BitVec.toInt_eq_toNat_bmod, Int32.toInt_toBitVec]
    rw [eval, ← Int32.toInt_toBitVec, Int32.toBitVec_shiftLeft, BitVec.shiftLeft_eq',
      BitVec.toInt_shiftLeft, toNat_shiftCount, Nat.shiftLeft_eq, Nat.cast_mul, Nat.cast_pow,
      Nat.cast_ofNat, ← Int.bmod_mul_bmod, congruent, value, reduced]
  | both => exact toInt_truth (by simp [toInt_eq_zero_iff])
  | either => exact toInt_truth (by simp [toInt_eq_zero_iff])
  | lt => exact toInt_truth (by simp [Int32.lt_iff_toInt_lt])
  | le => exact toInt_truth (by simp [Int32.le_iff_toInt_le])
  | gt => exact toInt_truth (by simp [Int32.lt_iff_toInt_lt])
  | ge => exact toInt_truth (by simp [Int32.le_iff_toInt_le])
  | eq => exact toInt_truth (by simp [Int32.toInt_inj])
  | ne => exact toInt_truth (by simp [Int32.toInt_inj])

end ScriptMachine
