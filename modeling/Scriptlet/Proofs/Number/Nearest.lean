import Mathlib.Data.Int.Log
import Mathlib.Data.Rat.Floor
import Mathlib.Tactic.FieldSimp
import Mathlib.Tactic.Linarith
import Mathlib.Tactic.Ring
import Scriptlet.Number.Word

/-! The word closest to a fraction depends only on the rational number the fraction stands for, and
the word closest to the magnitude of a finite word is that word. -/

namespace Scriptlet.Number

/-! ### Powers and logarithms -/

theorem zpow_eq_div {b : ℕ} (hb : b ≠ 0) (e : ℤ) :
    (b : ℚ) ^ e = b ^ e.toNat / b ^ (-e).toNat := by
  have hb' : (b : ℚ) ≠ 0 := by exact_mod_cast hb
  rw [← zpow_natCast, ← zpow_natCast, ← zpow_sub₀ hb']
  congr 1
  omega

theorem div_lt_zpow_iff {b : ℕ} (hb : b ≠ 0) {n d : ℕ} (hd : d ≠ 0) (e : ℤ) :
    (n : ℚ) / d < (b : ℚ) ^ e ↔ n * b ^ (-e).toNat < d * b ^ e.toNat := by
  have hd' : (0 : ℚ) < d := by exact_mod_cast Nat.pos_of_ne_zero hd
  have hb' : (0 : ℚ) < (b : ℚ) ^ (-e).toNat := by positivity
  rw [zpow_eq_div hb, div_lt_div_iff₀ hd' hb', mul_comm ((b : ℚ) ^ e.toNat)]
  exact_mod_cast Iff.rfl

theorem log_eq_of {b : ℕ} (hb : 1 < b) {x : ℚ} {e : ℤ} (h : (b : ℚ) ^ e ≤ x)
    (h' : x < (b : ℚ) ^ (e + 1)) : Int.log b x = e := by
  have hx : 0 < x := lt_of_lt_of_le (zpow_pos (by exact_mod_cast hb.le) e) h
  have hle := (Int.zpow_le_iff_le_log hb hx).1 h
  have hlt := (Int.lt_zpow_iff_log_lt hb hx).1 h'
  omega

theorem log_mul_zpow {b n k : ℕ} (hb : 1 < b) (h : b ^ k ≤ n) (h' : n < b ^ (k + 1)) (e : ℤ) :
    Int.log b ((n : ℚ) * (b : ℚ) ^ e) = k + e := by
  have hb0 : (b : ℚ) ≠ 0 := by exact_mod_cast (by omega : b ≠ 0)
  have h1 : (b : ℚ) ^ k ≤ n := by exact_mod_cast h
  have h2 : (n : ℚ) < (b : ℚ) ^ (k + 1) := by exact_mod_cast h'
  have he : (0 : ℚ) < (b : ℚ) ^ e := zpow_pos (by exact_mod_cast hb.le) e
  apply log_eq_of hb
  · rw [zpow_add₀ hb0, zpow_natCast]
    exact mul_le_mul_of_nonneg_right h1 he.le
  · rw [show (k : ℤ) + e + 1 = (k + 1 : ℕ) + e by push_cast; ring, zpow_add₀ hb0, zpow_natCast]
    exact mul_lt_mul_of_pos_right h2 he

/-! ### Fractions -/

/-- The rational number a fraction stands for. -/
def Ratio.value (r : Ratio) : ℚ := r.num / r.den

theorem Ratio.scaled_value (n : ℕ) {b : ℕ} (hb : b ≠ 0) (e : ℤ) :
    (Ratio.scaled n b e).value = n * (b : ℚ) ^ e := by
  rw [zpow_eq_div hb]
  simp only [Ratio.scaled, Ratio.value, Nat.pow_eq]
  push_cast
  ring

theorem Ratio.value_eq_iff {r r' : Ratio} (hd : r.den ≠ 0) (hd' : r'.den ≠ 0) :
    r.value = r'.value ↔ r.num * r'.den = r'.num * r.den := by
  have h : (r.den : ℚ) ≠ 0 := by exact_mod_cast hd
  have h' : (r'.den : ℚ) ≠ 0 := by exact_mod_cast hd'
  rw [Ratio.value, Ratio.value, div_eq_div_iff h h']
  exact_mod_cast Iff.rfl

/-- The exponent found by comparing bit lengths is the logarithm of the value. -/
theorem Ratio.log2_eq {r : Ratio} (hn : r.num ≠ 0) (hd : r.den ≠ 0) :
    r.log2 = Int.log 2 r.value := by
  have hn1 : (2 : ℚ) ^ r.num.log2 ≤ r.num := by exact_mod_cast Nat.log2_self_le hn
  have hn2 : (r.num : ℚ) < 2 ^ (r.num.log2 + 1) := by exact_mod_cast @Nat.lt_log2_self r.num
  have hd1 : (2 : ℚ) ^ r.den.log2 ≤ r.den := by exact_mod_cast Nat.log2_self_le hd
  have hd2 : (r.den : ℚ) < 2 ^ (r.den.log2 + 1) := by exact_mod_cast @Nat.lt_log2_self r.den
  have hd0 : (0 : ℚ) < r.den := by exact_mod_cast Nat.pos_of_ne_zero hd
  -- the lengths leave two candidates, and the comparison of `log2` tells them apart
  have hupper : r.value < ((2 : ℕ) : ℚ) ^ ((r.num.log2 : ℤ) - r.den.log2 + 1) := by
    rw [show (r.num.log2 : ℤ) - r.den.log2 + 1 = (r.num.log2 + 1 : ℕ) - (r.den.log2 : ℕ) by
      push_cast; ring, zpow_sub₀ (by norm_num), zpow_natCast, zpow_natCast]
    exact div_lt_div₀ hn2 hd1 (by positivity) (by positivity)
  have hlower : ((2 : ℕ) : ℚ) ^ ((r.num.log2 : ℤ) - r.den.log2 - 1) ≤ r.value := by
    rw [show (r.num.log2 : ℤ) - r.den.log2 - 1 = (r.num.log2 : ℕ) - (r.den.log2 + 1 : ℕ) by
      push_cast; ring, zpow_sub₀ (by norm_num), zpow_natCast, zpow_natCast]
    exact div_le_div₀ (by positivity) hn1 hd0 hd2.le
  have hsplit := div_lt_zpow_iff (b := 2) (by norm_num) (n := r.num) hd (r.num.log2 - r.den.log2)
  symm
  unfold Ratio.log2
  simp only
  split
  · rename_i h
    exact log_eq_of (by norm_num) hlower (by rw [sub_add_cancel]; exact hsplit.2 h)
  · rename_i h
    exact log_eq_of (by norm_num) (not_lt.1 fun hc => h (hsplit.1 hc)) hupper

/-! ### Rounding -/

theorem roundDiv_mul_right (n d : ℕ) {k : ℕ} (hk : 0 < k) :
    roundDiv (n * k) (d * k) = roundDiv n d := by
  have hlt (a b : ℕ) : a * k < b * k ↔ a < b := Nat.mul_lt_mul_right hk
  unfold roundDiv
  rw [Nat.mul_div_mul_right n d hk, Nat.mul_mod_mul_right, ← mul_assoc]
  simp only [hlt]

theorem roundDiv_congr {n d n' d' : ℕ} (hd : 0 < d) (hd' : 0 < d') (h : n * d' = n' * d) :
    roundDiv n d = roundDiv n' d' := by
  rw [← roundDiv_mul_right n d hd', ← roundDiv_mul_right n' d' hd, h, mul_comm d d']

theorem roundDiv_exact (n : ℕ) {d : ℕ} (hd : 0 < d) : roundDiv (n * d) d = n := by
  simp [roundDiv, hd]

/-- The closest word depends only on the value of a fraction. -/
theorem nearest_congr {r r' : Ratio} (hd : r.den ≠ 0) (hd' : r'.den ≠ 0)
    (h : r.value = r'.value) : nearest r = nearest r' := by
  have hcross := (Ratio.value_eq_iff hd hd').1 h
  by_cases hn : r.num = 0
  · have hn' : r'.num = 0 := by
      rw [hn, zero_mul] at hcross
      exact (Nat.mul_eq_zero.1 hcross.symm).resolve_right hd
    rw [nearest, nearest, if_pos hn, if_pos hn']
  · have hn' : r'.num ≠ 0 := by
      intro h0
      rw [h0, zero_mul] at hcross
      exact (Nat.mul_eq_zero.1 hcross).elim hn hd'
    have hlog : r.log2 = r'.log2 := by rw [Ratio.log2_eq hn hd, Ratio.log2_eq hn' hd', h]
    rw [nearest, nearest, if_neg hn, if_neg hn']
    simp only [hlog, Nat.pow_eq]
    congr 1
    apply roundDiv_congr
    · positivity
    · positivity
    · rw [mul_mul_mul_comm, hcross, mul_mul_mul_comm]

/-- A magnitude on the grid of its own size is met exactly. -/
theorem nearest_of_grid {n : ℕ} {e : ℤ} (hn : n ≠ 0)
    (he : max (Int.log 2 ((n : ℚ) * ((2 : ℕ) : ℚ) ^ e) - 52) (-1074) = e) :
    nearest (.scaled n 2 e) = (e + 1074).toNat * 2 ^ 52 + n := by
  have hnum : (Ratio.scaled n 2 e).num ≠ 0 := by simp [Ratio.scaled, hn]
  have hden : (Ratio.scaled n 2 e).den ≠ 0 := by simp [Ratio.scaled]
  have hlog : max ((Ratio.scaled n 2 e).log2 - 52) (-1074) = e := by
    rw [Ratio.log2_eq hnum hden, Ratio.scaled_value n (by norm_num)]
    exact he
  rw [nearest, if_neg hnum]
  simp only [hlog]
  congr 1
  simp only [Ratio.scaled, Nat.pow_eq]
  rw [mul_assoc, mul_comm (2 ^ e.toNat)]
  exact roundDiv_exact n (by positivity)

/-! ### Words -/

theorem infinity_eq : infinity = 2047 * 2 ^ 52 := rfl

theorem significand_of_lt {w : ℕ} (h : w < 2 ^ 52) : significand w = w := if_pos h

theorem significand_of_not_lt {w : ℕ} (h : ¬w < 2 ^ 52) : significand w = w % 2 ^ 52 + 2 ^ 52 :=
  if_neg h

theorem scale_of_lt {w : ℕ} (h : w < 2 ^ 52) : scale w = -1074 := if_pos h

theorem scale_of_not_lt {w : ℕ} (h : ¬w < 2 ^ 52) : scale w = (w / 2 ^ 52 : ℕ) - 1075 := if_neg h

/-- A finite word is the closest to the magnitude it stands for. -/
theorem nearest_magnitude {w : ℕ} (hw : w < infinity) : nearest (magnitude w) = w := by
  rw [infinity_eq] at hw
  by_cases h0 : w = 0
  · subst h0
    rfl
  · by_cases hs : w < 2 ^ 52
    · have h1 := Nat.log2_self_le h0
      have h2 := @Nat.lt_log2_self w
      have hlt : w.log2 < 52 := (Nat.log2_lt h0).2 hs
      rw [magnitude, significand_of_lt hs, scale_of_lt hs, nearest_of_grid h0]
      · simp
      · rw [log_mul_zpow (by norm_num) h1 h2]
        omega
    · rw [magnitude, significand_of_not_lt hs, scale_of_not_lt hs, nearest_of_grid (by omega)]
      · omega
      · rw [log_mul_zpow (b := 2) (k := 52) (by norm_num) (by omega) (by omega)]
        omega

end Scriptlet.Number
