import Mathlib
import Scriptlet.Number.Word

/-! A number is determined by its sign and its word. The sign is the highest bit of its form and the
word is what is left of it; the form of a finite number is that of no other, so the two give the
number back. -/

namespace Scriptlet.Number

theorem isNaN_of_isFinite {x : Float} (h : isFinite x) : x.isNaN = false := by
  rw [Float.isNaN_eq_decide_eq_nan, decide_eq_false_iff_not]
  rintro rfl
  revert h
  decide

/-- A finite number has the sign and the word it is made of. -/
theorem ofWord_word {x : Float} (h : isFinite x) : ofWord (isNegative x) (word x) = x := by
  have hlt : x.toBits.toNat < 2 ^ 64 := x.toBits.toNat_lt
  have hword : word x < infinity := of_decide_eq_true h
  have hsum : (if isNegative x then Nat.pow 2 63 else 0) + word x = x.toBits.toNat := by
    simp only [isNegative, word, decide_eq_true_eq, Nat.pow_eq]
    split <;> omega
  rw [ofWord, min_eq_left hword.le, hsum, UInt64.ofNat_toNat, Float.ofBits_toBits]

end Scriptlet.Number
