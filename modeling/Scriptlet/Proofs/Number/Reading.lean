import Mathlib.Data.List.TakeWhile
import Mathlib.Tactic.NormNum
import Mathlib.Tactic.Tauto
import Scriptlet.Number.Shortest
import Scriptlet.Proofs.Number.Bits
import Scriptlet.Proofs.Number.Nearest

/-! The text of a finite number reads back as that number. A decimal is laid out as digits, with a
point or an exponent, and every layout reads as a decimal of the same magnitude; the closest word
depends only on the magnitude; and the decimal that is laid out is one whose closest word is the
word of the number. -/

namespace Scriptlet

theorem Text.trimEnd_append (p : Char → Bool) (t : Text) :
    ∃ u, t = trimEnd p t ++ u ∧ ∀ c ∈ u, p c := by
  refine ⟨(t.reverse.takeWhile p).reverse, ?_, fun c hc => ?_⟩
  · rw [trimEnd, ← List.reverse_append, List.takeWhile_append_dropWhile, List.reverse_reverse]
  · exact List.all_eq_true.1 List.all_takeWhile c (List.mem_reverse.1 hc)

namespace Number

namespace Decimal

/-! ### Reading digits -/

theorem digitsValue_eq (n : ℕ) (t : Text) : digitsValue n t = Nat.ofDigitChars 10 t n := rfl

theorem sign_of_isDigit {c : Char} (hc : c.isDigit) (t : Text) :
    sign (c :: t) = (false, c :: t) := by
  unfold sign
  split
  · rename_i h; cases h; simp at hc
  · rename_i h; cases h; simp at hc
  · rfl

theorem exponentValue_some {t : Text} {e : ℤ} (h : exponentValue t = some e) :
    t = [] ∧ e = 0 ∨ ∃ c u, t = c :: u ∧ (c = 'e' ∨ c = 'E') := by
  cases t with
  | nil => simp [exponentValue] at h; exact .inl ⟨rfl, h.symm⟩
  | cons c u =>
    right
    refine ⟨c, u, rfl, ?_⟩
    by_contra hc
    simp [exponentValue] at h
    tauto

theorem span_digits {t tail : Text} (ht : ∀ c ∈ t, c.isDigit)
    (htail : ∀ c ∈ tail.head?, ¬ c.isDigit) :
    (t ++ tail).takeWhile Char.isDigit = t ∧ (t ++ tail).dropWhile Char.isDigit = tail := by
  induction t with
  | nil =>
    cases tail with
    | nil => simp
    | cons c u => simp at htail; simp [htail]
  | cons c t ih =>
    have hc := ht c (by simp)
    have := ih fun a ha => ht a (by simp [ha])
    simp [hc, this]

theorem head_of_exponentValue {t : Text} {e : ℤ} (h : exponentValue t = some e) :
    ∀ c ∈ t.head?, ¬ c.isDigit := by
  rcases exponentValue_some h with ⟨rfl, -⟩ | ⟨a, u, rfl, rfl | rfl⟩ <;> simp

theorem ofText?_whole {whole tail : Text} {e : ℤ} (hne : whole ≠ []) (hw : ∀ c ∈ whole, c.isDigit)
    (htail : exponentValue tail = some e) :
    ofText? (whole ++ tail) = some ⟨false, digitsValue 0 whole, e⟩ := by
  obtain ⟨c, w, rfl⟩ := List.exists_cons_of_ne_nil hne
  obtain ⟨h1, h2⟩ := span_digits hw (head_of_exponentValue htail)
  have hf : fraction tail = ([], tail) := by
    rcases exponentValue_some htail with ⟨rfl, -⟩ | ⟨a, u, rfl, rfl | rfl⟩ <;> rfl
  have hs : sign (c :: w ++ tail) = (false, c :: w ++ tail) := sign_of_isDigit (hw c (by simp)) _
  simp only [ofText?, hs, h1, h2, hf]
  simp [htail]

theorem ofText?_fraction {whole part tail : Text} {e : ℤ} (hne : whole ≠ [])
    (hw : ∀ c ∈ whole, c.isDigit) (hp : ∀ c ∈ part, c.isDigit)
    (htail : exponentValue tail = some e) :
    ofText? (whole ++ '.' :: (part ++ tail)) =
      some ⟨false, digitsValue 0 (whole ++ part), e - part.length⟩ := by
  obtain ⟨c, w, rfl⟩ := List.exists_cons_of_ne_nil hne
  have hpoint : ∀ c ∈ ('.' :: (part ++ tail)).head?, ¬ c.isDigit := by simp
  obtain ⟨h1, h2⟩ := span_digits hw hpoint
  obtain ⟨h3, h4⟩ := span_digits hp (head_of_exponentValue htail)
  have hf : fraction ('.' :: (part ++ tail)) = (part, tail) := by rw [fraction, h3, h4]
  have hs : sign (c :: w ++ '.' :: (part ++ tail)) = (false, c :: w ++ '.' :: (part ++ tail)) :=
    sign_of_isDigit (hw c (by simp)) _
  simp only [ofText?, hs, h1, h2, hf]
  simp [htail]

theorem ofText?_negative {c : Char} (hc : c.isDigit) (t : Text) :
    ofText? ('-' :: c :: t) = (ofText? (c :: t)).map fun d => { d with negative := true } := by
  simp only [ofText?, sign_of_isDigit hc]
  rw [sign]
  simp only
  split
  · rfl
  · cases exponentValue (fraction (List.dropWhile Char.isDigit (c :: t))).2 <;> rfl

theorem exponentValue_signed {ds : Text} (hne : ds ≠ []) (hds : ∀ c ∈ ds, c.isDigit)
    (negative : Bool) :
    exponentValue ('e' :: (if negative then '-' else '+') :: ds) =
      some (if negative then -(digitsValue 0 ds : ℤ) else digitsValue 0 ds) := by
  have hcond : (ds.isEmpty || !ds.all Char.isDigit) = false := by
    simpa [List.isEmpty_iff, hne] using hds
  cases negative <;> simp only [exponentValue, sign] <;> simp [hcond]

theorem exponentValue_exponentText (e : ℤ) : exponentValue (exponentText e) = some e := by
  set ds := (Nat.toDigits 10 e.natAbs).leftpad 2 '0' with hds
  have hall : ∀ c ∈ ds, c.isDigit := by
    intro c hc
    rw [hds, List.leftpad, List.mem_append, List.mem_replicate] at hc
    rcases hc with ⟨-, rfl⟩ | hc
    · rfl
    · exact Nat.isDigit_of_mem_toDigits (by norm_num) le_rfl hc
  have hvalue : digitsValue 0 ds = e.natAbs := by
    simp [hds, digitsValue_eq, List.leftpad, Nat.ofDigitChars_append]
  have hne : ds ≠ [] := by simp [hds, List.leftpad]
  have := exponentValue_signed hne hall (decide (e < 0))
  rw [hvalue] at this
  simp only [decide_eq_true_eq] at this
  rw [exponentText, this]
  congr 1
  split <;> omega

/-! ### Layouts -/

/-- The significant digits are the digits up to a row of zeros. -/
theorem toDigits_eq_significant (d : Decimal) :
    ∃ k, Nat.toDigits 10 d.digits = d.significant ++ List.replicate k '0' := by
  obtain ⟨zeros, htrim, hzeros⟩ := Text.trimEnd_append (· == '0') (Nat.toDigits 10 d.digits)
  refine ⟨zeros.length, htrim.trans (congrArg _ ?_)⟩
  exact List.eq_replicate_iff.2 ⟨rfl, fun c hc => by simpa using hzeros c hc⟩

/-- The rational magnitude of a decimal. -/
def value (d : Decimal) : ℚ := d.digits * (10 : ℚ) ^ d.exponent

theorem significant_isDigit (d : Decimal) : ∀ c ∈ d.significant, c.isDigit := by
  intro c hc
  obtain ⟨k, hk⟩ := d.toDigits_eq_significant
  refine Nat.isDigit_of_mem_toDigits (n := d.digits) (b := 10) (by norm_num) le_rfl ?_
  rw [hk]
  exact List.mem_append_left _ hc

theorem value_eq_significant (d : Decimal) :
    d.value = digitsValue 0 d.significant * (10 : ℚ) ^ (d.place - d.significant.length) := by
  obtain ⟨k, hk⟩ := d.toDigits_eq_significant
  have hdigits : d.digits = 10 ^ k * digitsValue 0 d.significant := by
    have := congrArg (digitsValue 0) hk
    rwa [digitsValue_eq, digitsValue_eq, Nat.ofDigitChars_ten_toDigits, Nat.ofDigitChars_append,
      Nat.ofDigitChars_replicate_zero] at this
  have hplace : d.place - d.significant.length = k + d.exponent := by
    rw [place, hk]
    simp
    ring
  rw [value, hdigits, hplace, zpow_add₀ (by norm_num), zpow_natCast]
  push_cast
  ring

theorem significant_ne_nil {d : Decimal} (h : d.digits ≠ 0) : d.significant ≠ [] := by
  intro hnil
  have hpow : (10 : ℚ) ^ d.exponent ≠ 0 := zpow_ne_zero _ (by norm_num)
  have hvalue := d.value_eq_significant
  rw [hnil] at hvalue
  simp [value, digitsValue, h, hpow] at hvalue

/-- A text that begins with a digit and reads as a decimal of the given magnitude. -/
def Reads (t : Text) (v : ℚ) : Prop :=
  (∃ c u, t = c :: u ∧ c.isDigit) ∧ ∃ d, ofText? t = some d ∧ d.negative = false ∧ d.value = v

theorem reads_whole {whole tail : Text} {e : ℤ} (hne : whole ≠ []) (hw : ∀ c ∈ whole, c.isDigit)
    (htail : exponentValue tail = some e) :
    Reads (whole ++ tail) (digitsValue 0 whole * (10 : ℚ) ^ e) := by
  refine ⟨?_, _, ofText?_whole hne hw htail, rfl, rfl⟩
  obtain ⟨c, w, rfl⟩ := List.exists_cons_of_ne_nil hne
  exact ⟨c, w ++ tail, rfl, hw c (by simp)⟩

theorem reads_fraction {whole part tail : Text} {e : ℤ} (hne : whole ≠ [])
    (hw : ∀ c ∈ whole, c.isDigit) (hp : ∀ c ∈ part, c.isDigit)
    (htail : exponentValue tail = some e) :
    Reads (whole ++ '.' :: (part ++ tail))
      (digitsValue 0 (whole ++ part) * (10 : ℚ) ^ (e - part.length)) := by
  refine ⟨?_, _, ofText?_fraction hne hw hp htail, rfl, rfl⟩
  obtain ⟨c, w, rfl⟩ := List.exists_cons_of_ne_nil hne
  exact ⟨c, w ++ '.' :: (part ++ tail), rfl, hw c (by simp)⟩

theorem scientific_reads {ds : Text} (hne : ds ≠ []) (hds : ∀ c ∈ ds, c.isDigit) (e : ℤ) :
    Reads (scientific ds e) (digitsValue 0 ds * (10 : ℚ) ^ (e + 1 - ds.length)) := by
  have htail := exponentValue_exponentText e
  match ds, hne with
  | [c], _ =>
    have h := reads_whole (by simp) hds htail
    simpa [scientific] using h
  | c :: c' :: rest, _ =>
    have hfirst : ∀ a ∈ [c], a.isDigit := by simpa using hds c (by simp)
    have hrest : ∀ a ∈ c' :: rest, a.isDigit := fun a ha => hds a (List.mem_cons_of_mem c ha)
    have h := reads_fraction (by simp) hfirst hrest htail
    convert h using 1
    · simp [scientific]
    · congr 2
      simp

theorem replicate_isDigit (k : ℕ) : ∀ c ∈ List.replicate k '0', c.isDigit := by
  intro c hc
  rw [(List.mem_replicate.1 hc).2]
  rfl

theorem append_isDigit {s t : Text} (hs : ∀ c ∈ s, c.isDigit) (ht : ∀ c ∈ t, c.isDigit) :
    ∀ c ∈ s ++ t, c.isDigit := by
  intro c hc
  exact (List.mem_append.1 hc).elim (hs c) (ht c)

theorem positional_reads {ds : Text} (hne : ds ≠ []) (hds : ∀ c ∈ ds, c.isDigit) (place : ℤ) :
    Reads (positional ds place) (digitsValue 0 ds * (10 : ℚ) ^ (place - ds.length)) := by
  have hend : exponentValue [] = some 0 := rfl
  unfold positional
  split
  · rename_i hp
    have hpart := append_isDigit (replicate_isDigit (-place).toNat) hds
    have hzero : ∀ c ∈ ['0'], c.isDigit := by simp
    have h := reads_fraction (by simp) hzero hpart hend
    convert h using 1
    · simp
    · congr 2
      · simp [digitsValue_eq, Nat.ofDigitChars_append, Nat.ofDigitChars_cons]
      · simp; omega
  · split
    · rename_i hp hl
      have hall := append_isDigit hds (replicate_isDigit (place.toNat - ds.length))
      have h := reads_whole (by simp [hne]) hall hend
      convert h using 1
      · simp
      · have : place - ds.length = (place.toNat - ds.length : ℕ) := by omega
        rw [this, digitsValue_eq, digitsValue_eq, Nat.ofDigitChars_append,
          Nat.ofDigitChars_replicate_zero]
        simp [mul_comm]
    · rename_i hp hl
      have hwhole : ds.take place.toNat ≠ [] := by
        intro h
        rcases List.take_eq_nil_iff.1 h with h | h
        · omega
        · exact hne h
      have htake : ∀ c ∈ ds.take place.toNat, c.isDigit :=
        fun c hc => hds c (List.mem_of_mem_take hc)
      have hdrop : ∀ c ∈ ds.drop place.toNat, c.isDigit :=
        fun c hc => hds c (List.mem_of_mem_drop hc)
      have h := reads_fraction hwhole htake hdrop hend
      rw [List.take_append_drop] at h
      convert h using 1
      · simp
      · congr 2
        simp
        omega

/-- The text of a decimal reads as a decimal of the same magnitude. -/
theorem layout_reads {d : Decimal} (h : d.digits ≠ 0) : Reads d.layout d.value := by
  have hne := significant_ne_nil h
  have hsci := scientific_reads hne d.significant_isDigit (d.place - 1)
  have hpos := positional_reads hne d.significant_isDigit d.place
  rw [sub_add_cancel] at hsci
  rw [value_eq_significant]
  simp only [layout]
  split
  · exact hsci
  · exact hpos

/-! ### Words -/

theorem place_eq {d : Decimal} (h : d.digits ≠ 0) : d.place = Int.log 10 d.value + 1 := by
  set k := (Nat.toDigits 10 d.digits).length with hk
  have hpos : 0 < k := Nat.length_toDigits_pos
  have hupper : d.digits < 10 ^ k := (Nat.length_toDigits_le_iff (by norm_num) hpos).1 le_rfl
  have hlower : 10 ^ (k - 1) ≤ d.digits := by
    by_contra hlt
    by_cases h1 : k = 1
    · simp [h1] at hlt
      exact h hlt
    · have := (Nat.length_toDigits_le_iff (by norm_num) (by omega)).2 (not_le.1 hlt)
      omega
  have hlog := log_mul_zpow (b := 10) (by norm_num) hlower (by rwa [Nat.sub_add_cancel hpos])
    d.exponent
  have hvalue : d.value = (d.digits : ℚ) * ((10 : ℕ) : ℚ) ^ d.exponent := by simp [value]
  rw [place, ← hk, hvalue, hlog]
  omega

theorem value_eq_zero_iff {d : Decimal} : d.value = 0 ↔ d.digits = 0 := by
  have hpow : (10 : ℚ) ^ d.exponent ≠ 0 := zpow_ne_zero _ (by norm_num)
  simp [value, hpow]

/-- The closest word depends only on the magnitude of a decimal. -/
theorem word_congr {d d' : Decimal} (h : d.value = d'.value) : d.word = d'.word := by
  by_cases h0 : d.digits = 0
  · have h0' : d'.digits = 0 := by rwa [← value_eq_zero_iff, ← h, value_eq_zero_iff]
    simp [word, h0, h0']
  · have h0' : d'.digits ≠ 0 := by rwa [Ne, ← value_eq_zero_iff, ← h, value_eq_zero_iff]
    have hplace : d.place = d'.place := by rw [place_eq h0, place_eq h0', h]
    have hratio : (Ratio.scaled d.digits 10 d.exponent).value =
        (Ratio.scaled d'.digits 10 d'.exponent).value := by
      rw [Ratio.scaled_value _ (by norm_num), Ratio.scaled_value _ (by norm_num)]
      simpa [value] using h
    have hnearest := nearest_congr (by simp [Ratio.scaled]) (by simp [Ratio.scaled]) hratio
    simp only [word, h0, h0', hplace, hnearest]

end Decimal

/-! ### Shortest decimals -/

theorem magnitude_value (w : ℕ) : (magnitude w).value = significand w * (2 : ℚ) ^ scale w := by
  rw [magnitude, Ratio.scaled_value _ (by norm_num)]
  norm_num

theorem exact_value (w : ℕ) : (exact w).value = (magnitude w).value := by
  rw [magnitude_value]
  unfold exact
  split
  · rename_i h
    simp only [Decimal.value, zpow_zero, mul_one, Nat.pow_eq]
    push_cast
    rw [← zpow_natCast, Int.toNat_of_nonneg h]
  · rename_i h
    have h10 : (10 : ℚ) ^ scale w = 5 ^ scale w * 2 ^ scale w := by
      rw [← mul_zpow]
      norm_num
    have h5 : ((5 : ℚ) ^ (-scale w).toNat) * 5 ^ scale w = 1 := by
      rw [← zpow_natCast, Int.toNat_of_nonneg (by omega), ← zpow_add₀ (by norm_num)]
      simp
    simp only [Decimal.value, Nat.pow_eq]
    push_cast
    rw [h10, mul_assoc, ← mul_assoc (5 ^ _), h5, one_mul]

theorem two_pow_le_ten_pow : (2 : ℚ) ^ (1074 : ℕ) ≤ 10 ^ (400 : ℕ) := by
  calc (2 : ℚ) ^ (1074 : ℕ) ≤ 2 ^ (12 * 100) := by gcongr <;> norm_num
    _ = (2 ^ 12) ^ 100 := by rw [pow_mul]
    _ ≤ (10 ^ 4) ^ 100 := by gcongr; norm_num
    _ = 10 ^ 400 := by rw [← pow_mul]

theorem significand_pos {w : ℕ} (h : w ≠ 0) : 0 < significand w := by
  by_cases hs : w < 2 ^ 52
  · rw [significand_of_lt hs]
    omega
  · rw [significand_of_not_lt hs]
    omega

/-- Finite magnitudes stay well inside the range in which the power of ten is computed. -/
theorem magnitude_bounds {w : ℕ} (h0 : w ≠ 0) (hw : w < infinity) :
    ((10 : ℕ) : ℚ) ^ (-400 : ℤ) ≤ (magnitude w).value ∧
      (magnitude w).value < ((10 : ℕ) : ℚ) ^ (400 : ℤ) := by
  rw [infinity_eq] at hw
  have hpos : (1 : ℚ) ≤ significand w := by exact_mod_cast significand_pos h0
  have hlt : (significand w : ℚ) < 2 ^ (53 : ℕ) := by
    have : significand w < 2 ^ 53 := by
      by_cases hs : w < 2 ^ 52
      · rw [significand_of_lt hs]
        omega
      · rw [significand_of_not_lt hs]
        omega
    exact_mod_cast this
  have hscale : -1074 ≤ scale w ∧ scale w ≤ 971 := by
    by_cases hs : w < 2 ^ 52
    · rw [scale_of_lt hs]
      omega
    · rw [scale_of_not_lt hs]
      omega
  have hpow : (0 : ℚ) < 2 ^ scale w := zpow_pos (by norm_num) _
  have hten : ((10 : ℕ) : ℚ) ^ (400 : ℤ) = 10 ^ (400 : ℕ) := by
    rw [Nat.cast_ofNat]
    exact zpow_natCast 10 400
  rw [magnitude_value, zpow_neg, hten]
  constructor
  · calc ((10 : ℚ) ^ (400 : ℕ))⁻¹ ≤ (2 ^ (1074 : ℕ))⁻¹ := by
          gcongr
          exact two_pow_le_ten_pow
      _ = 2 ^ (-1074 : ℤ) := by rw [zpow_neg]; norm_cast
      _ ≤ 2 ^ scale w := zpow_le_zpow_right₀ (by norm_num) hscale.1
      _ ≤ significand w * 2 ^ scale w := le_mul_of_one_le_left hpow.le hpos
  · calc significand w * (2 : ℚ) ^ scale w < 2 ^ (53 : ℕ) * 2 ^ scale w := by gcongr
      _ ≤ 2 ^ (53 : ℕ) * 2 ^ (971 : ℤ) := by
          gcongr
          · norm_num
          · exact hscale.2
      _ = 2 ^ (1024 : ℕ) := by
          rw [show (971 : ℤ) = (971 : ℕ) by rfl, zpow_natCast, ← pow_add]
      _ ≤ 2 ^ (1074 : ℕ) := by gcongr <;> norm_num
      _ ≤ 10 ^ (400 : ℕ) := two_pow_le_ten_pow

theorem word_exact {w : ℕ} (h0 : w ≠ 0) (hw : w < infinity) : (exact w).word = w := by
  obtain ⟨hlower, hupper⟩ := magnitude_bounds h0 hw
  rw [← exact_value] at hlower hupper
  have hpos : 0 < (exact w).value := lt_of_lt_of_le (zpow_pos (by norm_num) _) hlower
  have hdigits : (exact w).digits ≠ 0 := fun h => hpos.ne' (Decimal.value_eq_zero_iff.2 h)
  have hplace := Decimal.place_eq hdigits
  have hlog1 := (Int.zpow_le_iff_le_log (by norm_num) hpos).1 hlower
  have hlog2 := (Int.lt_zpow_iff_log_lt (by norm_num) hpos).1 hupper
  have hratio : (Ratio.scaled (exact w).digits 10 (exact w).exponent).value =
      (magnitude w).value := by
    rw [Ratio.scaled_value _ (by norm_num), ← exact_value, Decimal.value]
    norm_num
  rw [Decimal.word, if_neg (by simp [hdigits]; omega), if_neg (by omega),
    nearest_congr (by simp [Ratio.scaled]) (by simp [magnitude, Ratio.scaled]) hratio,
    nearest_magnitude hw]

theorem word_of_onGrid {w : ℕ} {e : ℤ} {d : Decimal} (h : onGrid w e = some d) : d.word = w := by
  unfold onGrid at h
  simp only at h
  split at h
  · rename_i hb ha
    split at h
    · cases h
      exact eq_of_beq hb
    · cases h
      exact eq_of_beq ha
  · rename_i hb _
    cases h
    exact eq_of_beq hb
  · rename_i _ ha
    cases h
    exact eq_of_beq ha
  · cases h

/-- The decimal that is laid out for a word reads back as that word. -/
theorem word_shortest {w : ℕ} (h0 : w ≠ 0) (hw : w < infinity) : (shortest w).word = w := by
  unfold shortest
  simp only
  cases hfound : (List.range 17).findSome?
      fun n : ℕ => onGrid w ((magnitude w).place - (n + 1)) with
  | none => exact word_exact h0 hw
  | some d =>
    obtain ⟨n, -, hn⟩ := List.exists_of_findSome?_eq_some hfound
    exact word_of_onGrid hn

/-! ### Numbers -/

theorem ofText?_zero : Decimal.ofText? ['0'] = some ⟨false, 0, 0⟩ := rfl

/-- The digits of a finite word read as a decimal whose closest word it is. -/
theorem body_reads {w : ℕ} (hw : w < infinity) :
    ∃ c u, (if w = 0 then ['0'] else (shortest w).layout) = c :: u ∧ c.isDigit ∧
      ∃ d, Decimal.ofText? (c :: u) = some d ∧ d.negative = false ∧ d.word = w := by
  by_cases h0 : w = 0
  · subst h0
    exact ⟨'0', [], rfl, rfl, _, ofText?_zero, rfl, rfl⟩
  · have hword := word_shortest h0 hw
    have hdigits : (shortest w).digits ≠ 0 := by
      intro hd
      rw [Decimal.word, hd] at hword
      exact h0 (by simpa using hword.symm)
    obtain ⟨⟨c, u, htext, hc⟩, d, hd, hneg, hvalue⟩ := Decimal.layout_reads hdigits
    refine ⟨c, u, by rw [if_neg h0, htext], hc, d, htext ▸ hd, hneg, ?_⟩
    rw [Decimal.word_congr hvalue, hword]

/-- A finite number is read back from its text. -/
theorem ofText?_toText {x : Float} (h : isFinite x) : ofText? (toText x) = some x := by
  have hw : word x < infinity := of_decide_eq_true h
  obtain ⟨c, u, hbody, hc, d, hd, hneg, hword⟩ := body_reads hw
  have hfloat : ∀ negative, isNegative x = negative →
      Decimal.toFloat? { d with negative } = some x := by
    intro negative hs
    rw [Decimal.toFloat?, show ({ d with negative } : Decimal).word = word x from hword, if_pos hw,
      ← hs, ofWord_word h]
  have htext : toText x = if isNegative x then '-' :: c :: u else c :: u := by
    simp only [toText, hbody, isNaN_of_isFinite h, h]
    simp
  rw [ofText?, htext]
  cases hs : isNegative x with
  | true =>
    rw [if_pos rfl, Decimal.ofText?_negative hc, hd]
    exact hfloat true hs
  | false =>
    rw [if_neg (by simp), hd]
    have := hfloat false hs
    rwa [← hneg] at this

end Number

end Scriptlet
