import Scriptlet.Proofs.Number.Reading
import Scriptlet.Proofs.Store.Image
import Scriptlet.Yaml.Scalar

/-! What digits mean. The digits of a number have no leading zero, so they are read in base ten; no
word that means something begins with a digit, and a date needs a mark between its digits. So the
digits of a positive number of 63 bits are that number wherever a plain scalar is read. -/

namespace Scriptlet

open Number.Decimal (digitsValue digitsValue_eq sign_of_isDigit)
open Store (digitsValue_ofNat isDigit_of_mem_ofNat)

/-! ### Digits -/

theorem Text.exists_cons_ofNat {n : Nat} (hpos : 0 < n) :
    ∃ c t, Text.ofNat n = c :: t ∧ c.isDigit = true ∧ c ≠ '0' := by
  suffices h : ∃ c t, Text.ofNat n = c :: t ∧ c ≠ '0' by
    obtain ⟨c, t, heq, hne⟩ := h
    exact ⟨c, t, heq, isDigit_of_mem_ofNat (heq ▸ List.mem_cons_self), hne⟩
  induction n using Nat.strongRecOn with
  | _ n ih =>
    rw [ofNat, Nat.toDigits_eq_if (by decide)]
    split
    · refine ⟨_, _, rfl, ?_⟩
      interval_cases n <;> decide
    · obtain ⟨c, t, heq, hne⟩ := ih (n / 10) (by omega) (by omega)
      rw [ofNat] at heq
      exact ⟨c, _, by rw [heq]; rfl, hne⟩

namespace Number.Integer

/-- Digits in base ten are read as the number that they spell, if it fits. -/
theorem digits_of_isDigit {n : Nat} {t : Text} (h : ∀ c ∈ t, c.isDigit = true)
    (hlt : digitsValue n t < Nat.pow 2 64) : digits 10 n t = .ok (digitsValue n t) := by
  induction t generalizing n with
  | nil => rfl
  | cons c t ih =>
    have hc : c.isDigit = true := h c List.mem_cons_self
    have hne : (c == '_') = false := by
      rw [beq_eq_false_iff_ne]
      rintro rfl
      cases hc
    have hdigit : c.toNat - '0'.toNat < 10 := by
      simp [Char.isDigit, UInt32.le_iff_toNat_le] at hc
      simp
      omega
    have hvalue : digitsValue n (c :: t) = digitsValue (10 * n + (c.toNat - '0'.toNat)) t := rfl
    rw [hvalue] at hlt ⊢
    have hle : 10 * n + (c.toNat - '0'.toNat) < Nat.pow 2 64 := by
      rw [digitsValue_eq, Nat.ofDigitChars_eq_ofDigitChars_zero] at hlt
      have := Nat.le_mul_of_pos_left (10 * n + (c.toNat - '0'.toNat))
        (Nat.pow_pos (n := t.length) (by decide : 0 < 10))
      omega
    rw [digits, hne]
    simp only [digit?, hc, if_true, Bool.false_eq_true, if_false]
    rw [if_neg (by omega), if_neg (by omega)]
    exact ih (fun d hd => h d (List.mem_cons_of_mem _ hd)) hlt

theorem natural_ofNat {n : Nat} (hpos : 0 < n) (hlt : n < Nat.pow 2 64) :
    natural (Text.ofNat n) = .ok n := by
  have hdigits : digits 10 0 (Text.ofNat n) = .ok n := by
    have := digits_of_isDigit (n := 0) (fun _ => isDigit_of_mem_ofNat (n := n))
      (by rwa [digitsValue_ofNat])
    rwa [digitsValue_ofNat] at this
  have hunderscore : (Text.ofNat n).contains '_' = false := by
    simp only [List.contains_eq_mem, decide_eq_false_iff_not]
    intro h
    cases isDigit_of_mem_ofNat h
  obtain ⟨c, t, heq, -, hzero⟩ := Text.exists_cons_ofNat hpos
  have hbase : base (Text.ofNat n) = (10, false, Text.ofNat n) := by
    rw [heq, base]
    · exact fun _ _ _ h => hzero (List.cons.inj h).1
    · exact fun _ h => hzero (List.cons.inj h).1
  rw [natural, hbase]
  simp only [hdigits, hunderscore]
  rw [heq]
  rfl

theorem ofText_ofNat {n : Nat} (hpos : 0 < n) (hlt : n < Nat.pow 2 63) :
    ofText (Text.ofNat n) = .ok n := by
  have hlt' : n < Nat.pow 2 64 := Nat.lt_trans hlt (by decide)
  have hnatural := natural_ofNat hpos hlt'
  obtain ⟨c, t, heq, hc, -⟩ := Text.exists_cons_ofNat hpos
  rw [heq] at hnatural ⊢
  rw [ofText, sign_of_isDigit hc]
  simp only [hnatural]
  show signed false n = _
  rw [signed, if_neg (by decide), if_pos hlt]

end Number.Integer

/-! ### Plain scalars -/

namespace Yaml.Scalar

theorem isOneOf_of_isDigit {c : Char} {t : Text} {words : List String} (hc : c.isDigit = true)
    (hwords : words.all (fun w => !w.toList.head?.any Char.isDigit) = true) :
    isOneOf (c :: t) words = false := by
  rw [isOneOf, List.contains_eq_mem, decide_eq_false_iff_not]
  intro hmem
  have := List.all_eq_true.1 hwords _ hmem
  simp [hc] at this

theorem isTimestamp_of_isDigit {t : Text} (h : ∀ c ∈ t, c.isDigit = true) :
    isTimestamp t = false := by
  have hexpect : expect? '-' (t.drop 4) = none := by
    cases heq : t.drop 4 with
    | nil => rfl
    | cons c u =>
      have hc := h c (List.mem_of_mem_drop (heq ▸ List.mem_cons_self))
      rw [expect?, if_neg]
      rw [beq_iff_eq]
      rintro rfl
      cases hc
  simp [isTimestamp, hexpect]

/-- The digits of a number are that number. -/
theorem ofPlainWith_ofNat {n : Nat} (hpos : 0 < n) (hlt : n < Nat.pow 2 63) (dates : Bool) :
    ofPlainWith dates (Text.ofNat n) = .int n := by
  have hdate : isTimestamp (Text.ofNat n) = false :=
    isTimestamp_of_isDigit fun _ => isDigit_of_mem_ofNat
  have hfilter : (Text.ofNat n).filter (· != '_') = Text.ofNat n := by
    rw [List.filter_eq_self]
    rintro c hc
    rw [bne_iff_ne]
    rintro rfl
    cases isDigit_of_mem_ofNat hc
  have hnumber : number? (Text.ofNat n) = some (.int n) := by
    rw [number?, hfilter, int?, Number.Integer.ofText_ofNat hpos hlt]
  obtain ⟨c, t, heq, hc, -⟩ := Text.exists_cons_ofNat hpos
  rw [heq] at hdate hnumber ⊢
  have hne : c ≠ '.' := by
    rintro rfl
    cases hc
  rw [ofPlainWith]
  simp only [isOneOf_of_isDigit hc (by decide : nullWords.all _ = true),
    isOneOf_of_isDigit hc (by decide : trueWords.all _ = true),
    isOneOf_of_isDigit hc (by decide : falseWords.all _ = true),
    isOneOf_of_isDigit hc (by decide : infinityWords.all _ = true),
    isOneOf_of_isDigit hc (by decide : negativeInfinityWords.all _ = true),
    isOneOf_of_isDigit hc (by decide : nanWords.all _ = true), hdate, hc, hnumber]
  · simp
  · exact hne

end Yaml.Scalar

end Scriptlet
