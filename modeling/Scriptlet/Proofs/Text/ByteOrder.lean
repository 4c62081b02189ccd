import Scriptlet.Proofs.Text.Bytes

/-! Texts in the order of their characters are in the order of their bytes. The UTF-8 form of a
character is less than that of a later one, and no form is the beginning of another, so the first
character in which two texts differ decides between their bytes too. -/

namespace Scriptlet.Text

theorem ofNat_cons_lt {a b : Nat} (ha : a < 256) (hb : b < 256) (s t : List UInt8) :
    UInt8.ofNat a :: s < UInt8.ofNat b :: t ↔ a < b ∨ a = b ∧ s < t := by
  rw [List.cons_lt_cons_iff, UInt8.lt_iff_toNat_lt, ← UInt8.toNat_inj, UInt8.toNat_ofNat',
    UInt8.toNat_ofNat', Nat.mod_eq_of_lt ha, Nat.mod_eq_of_lt hb]

theorem utf8EncodeChar_append_lt {c d : Char} (h : c < d) (s t : List UInt8) :
    String.utf8EncodeChar c ++ s < String.utf8EncodeChar d ++ t := by
  have hlt : c.val.toNat < d.val.toNat := h
  have hvalid : d.val.toNat < 0xd800 ∨ 0xdfff < d.val.toNat ∧ d.val.toNat < 0x110000 := d.valid
  -- The bytes of a character are its digits to the base 64 with a mark added to each.
  have hsecond (n : Nat) : n / 4096 = n / 64 / 64 := by omega
  have hthird (n : Nat) : n / 262144 = n / 64 / 64 / 64 := by omega
  simp only [String.utf8EncodeChar, hsecond, hthird]
  generalize c.val.toNat = v at hlt
  generalize d.val.toNat = w at hlt hvalid
  repeat' split
  all_goals
    simp (disch := omega) only [List.cons_append, List.nil_append, ofNat_cons_lt]
    omega

theorem compare_eq_lt_iff {c d : Char} : compare c d = .lt ↔ c < d := compareOfLessAndEq_eq_lt

/-- The order of texts is the order of their bytes. -/
theorem bytes_lt_of_compare {a b : Text} (h : compare a b = .lt) : bytes a < bytes b := by
  rw [List.compare_eq_compareLex] at h
  induction a generalizing b with
  | nil =>
    cases b with
    | nil => cases h
    | cons d b =>
      obtain ⟨x, xs, hx⟩ := List.exists_cons_of_ne_nil (String.utf8EncodeChar_ne_nil (c := d))
      rw [bytes_nil, bytes_cons, hx]
      exact List.nil_lt_cons x (xs ++ bytes b)
  | cons c a ih =>
    cases b with
    | nil => cases h
    | cons d b =>
      rw [List.compareLex_cons_cons, Ordering.then_eq_lt] at h
      obtain hlt | ⟨heq, hrest⟩ := h
      · exact utf8EncodeChar_append_lt (compare_eq_lt_iff.1 hlt) (bytes a) (bytes b)
      · obtain rfl := Std.LawfulEqCmp.eq_of_compare heq
        exact List.append_left_lt (ih hrest)

end Scriptlet.Text
