import Mathlib
import BrainfuckFront.Jumps

/-!
# Words without overflow

Instructions count in 64-bit words.  As long as the exact result fits, the
operations on words are those on unbounded integers.
-/

namespace BrainfuckFront.Words

theorem toInt_add {left right : Int64} (hleft : 0 ≤ left.toInt)
    (hright : 0 ≤ right.toInt) (hbound : left.toInt + right.toInt < 2 ^ 63) :
    (left + right).toInt = left.toInt + right.toInt := by
  rw [Int64.toInt_add]
  exact Int.bmod_eq_of_le (by omega) (by omega)

theorem toInt_add_one {word : Int64} (hword : 0 ≤ word.toInt)
    (hbound : word.toInt + 1 < 2 ^ 63) :
    (word + 1).toInt = word.toInt + 1 :=
  toInt_add hword (by decide) hbound

theorem toInt_ofNat_add_one {number : ℕ} (hbound : number + 1 < 2 ^ 63) :
    (Int64.ofNat number + 1).toInt = number + 1 := by
  have hnumber := Int64.toInt_ofNat_of_lt (by omega : number < 2 ^ 63)
  rw [toInt_add_one (by omega) (by omega), hnumber]

theorem toInt_add_ofNat {word : Int64} {number : ℕ} (hnumber : number < 2 ^ 63)
    (hbound : word.toInt + number < 2 ^ 63) :
    (word + Int64.ofNat number).toInt = word.toInt + number := by
  have hlow := word.le_toInt
  rw [Int64.toInt_add, Int64.toInt_ofNat_of_lt hnumber]
  exact Int.bmod_eq_of_le (by omega) (by omega)

theorem toInt_ofNat_sub_one {number : ℕ} (hbound : number < 2 ^ 63) :
    (Int64.ofNat number - 1).toInt = number - 1 := by
  rw [Int64.toInt_sub, Int64.toInt_ofNat_of_lt hbound, Int64.toInt_one]
  exact Int.bmod_eq_of_le (by omega) (by omega)

theorem toInt_saturatingSub {left right : Int64} (hright : 0 ≤ right.toInt) :
    (Jumps.saturatingSub left right).toInt =
      max 0 (left.toInt - right.toInt) := by
  rw [Jumps.saturatingSub]
  by_cases hle : left ≤ right
  · rw [if_pos hle, Int64.toInt_zero]
    rw [Int64.le_iff_toInt_le] at hle
    exact (max_eq_left (by omega)).symm
  · rw [if_neg hle]
    rw [Int64.le_iff_toInt_le, not_le] at hle
    rw [Int64.toInt_sub_of_le _ _ (by rwa [Int64.le_iff_toInt_le])
      (by rw [Int64.le_iff_toInt_le]; omega), max_eq_right (by omega)]

theorem eq_zero_iff {word : Int64} : word = 0 ↔ word.toInt = 0 := by
  rw [← Int64.toInt_inj, Int64.toInt_zero]

end BrainfuckFront.Words
