import Mathlib.Data.Bool.AllAny
import Mathlib.Data.List.TakeWhile
import Scriptlet.Proofs.Command.Bracket
import Scriptlet.Proofs.Command.Equation
import Scriptlet.Proofs.Number.Reading

/-! What form a command has, as far as its first characters tell. A numeral begins with a digit, a
point or a sign, and a string literal with a quote; an assignment has a single `=` right after a
row of name characters. -/

namespace Scriptlet

/-! ### Identifiers and characters -/

namespace Text

/-- A letter or an underscore, then any name characters. -/
def isIdentifier : Text → Bool
  | [] => false
  | c :: t => (isLetter c || c == '_') && t.all isNameChar

/-- The characters that have a meaning of their own. -/
def marks : List Char :=
  ['"', '(', ')', '\x7b', '\x7d', ',', '.', '#', ' ', '\n', '=', '!', '>', '<', '^', '*', '/', '%',
    '+', '-']

theorem isNameChar_of_mem_marks {c : Char} (h : c ∈ marks) : isNameChar c = false := by
  have hmarks : ∀ c ∈ marks, isNameChar c = false := List.all_iff_forall_prop.1 (by decide)
  exact hmarks c h

theorem not_mem_marks {c : Char} (h : isNameChar c = true) : c ∉ marks := fun hm => by
  rw [isNameChar_of_mem_marks hm] at h
  cases h

theorem not_mem_of_isNameChar {cs : List Char} (hcs : cs ⊆ marks) {c : Char}
    (h : isNameChar c = true) : c ∉ cs := fun hm => not_mem_marks h (hcs hm)

theorem toNat_of_isDigit {c : Char} (h : c.isDigit = true) : 48 ≤ c.toNat ∧ c.toNat ≤ 57 := by
  simp only [Char.isDigit, Bool.and_eq_true, decide_eq_true_eq, ge_iff_le,
    UInt32.le_iff_toNat_le] at h
  exact h

theorem isNameChar_of_isDigit {c : Char} (h : c.isDigit = true) : isNameChar c = true := by
  obtain ⟨h0, h9⟩ := toNat_of_isDigit h
  have htable : decimalDigitRanges = (0x30, 0x39) :: decimalDigitRanges.tail := rfl
  have hdigit : isDecimalDigit c = true := by
    rw [isDecimalDigit, htable, inRanges]
    simp [h9, Nat.not_lt.2 h0]
  simp [isNameChar, hdigit]

theorem not_isDigit_of_isLetter {c : Char} (h : isLetter c = true) : c.isDigit = false := by
  by_contra hd
  obtain ⟨-, h9⟩ := toNat_of_isDigit (Bool.eq_true_of_not_eq_false hd)
  have htable : letterRanges = (0x41, 0x5a) :: letterRanges.tail := rfl
  have hsmall : c.toNat < 0x41 := by omega
  rw [isLetter, htable, inRanges, if_pos hsmall] at h
  cases h

theorem isNameChar_of_isIdentifier {t : Text} (h : isIdentifier t = true) :
    t ≠ [] ∧ ∀ c ∈ t, isNameChar c = true := by
  cases t with
  | nil => cases h
  | cons c t =>
    obtain ⟨hc, ht⟩ : (isLetter c = true ∨ c = '_') ∧ ∀ a ∈ t, isNameChar a = true := by
      simpa [isIdentifier] using h
    refine ⟨List.cons_ne_nil _ _, fun a ha => ?_⟩
    rcases List.mem_cons.1 ha with rfl | ha
    · rcases hc with hc | rfl <;> simp [isNameChar, *]
    · exact ht a ha

theorem not_isDigit_head {c : Char} {t : Text} (h : isIdentifier (c :: t) = true) :
    c.isDigit = false := by
  rcases (by simpa [isIdentifier] using h : (isLetter c = true ∨ c = '_') ∧ _).1 with hc | rfl
  · exact not_isDigit_of_isLetter hc
  · rfl

end Text

/-! ### Texts that are no numeral -/

namespace Number

theorem ofText?_of_head {c : Char} (hdigit : c.isDigit = false) (hmark : c ∉ ['.', '+', '-'])
    (t : Text) : ofText? (c :: t) = none := by
  obtain ⟨hpoint, hplus, hminus⟩ : c ≠ '.' ∧ c ≠ '+' ∧ c ≠ '-' := by simpa using hmark
  have hsign : Decimal.sign (c :: t) = (false, c :: t) := by
    rw [Decimal.sign]
    · rintro t' ⟨rfl, -⟩; exact hminus rfl
    · rintro t' ⟨rfl, -⟩; exact hplus rfl
  have hfraction : Decimal.fraction (c :: t) = ([], c :: t) := by
    rw [Decimal.fraction]
    rintro t' ⟨rfl, -⟩
    exact hpoint rfl
  simp [ofText?, Decimal.ofText?, hsign, hdigit, hfraction]

/-- A row of digits before a character that no numeral goes on with. -/
theorem ofText?_of_stop {ds : Text} (hne : ds ≠ []) (hds : ∀ c ∈ ds, c.isDigit) {c : Char}
    (hdigit : c.isDigit = false) (hmark : c ∉ ['.', 'e', 'E']) (t : Text) :
    ofText? (ds ++ c :: t) = none := by
  obtain ⟨hpoint, he, hE⟩ : c ≠ '.' ∧ c ≠ 'e' ∧ c ≠ 'E' := by simpa using hmark
  obtain ⟨d, ds, rfl⟩ := List.exists_cons_of_ne_nil hne
  have hstop : ∀ a ∈ (c :: t).head?, ¬ a.isDigit := by simp [hdigit]
  obtain ⟨hwhole, hrest⟩ := Decimal.span_digits hds hstop
  have hsign : Decimal.sign (d :: ds ++ c :: t) = (false, d :: ds ++ c :: t) :=
    Decimal.sign_of_isDigit (hds d List.mem_cons_self) _
  have hfraction : Decimal.fraction (c :: t) = ([], c :: t) := by
    rw [Decimal.fraction]
    rintro t' ⟨rfl, -⟩
    exact hpoint rfl
  have hexponent : Decimal.exponentValue (c :: t) = none := by
    simp [Decimal.exponentValue, he, hE]
  simp only [ofText?, Decimal.ofText?, hsign, hwhole, hrest, hfraction, hexponent]
  simp

end Number

namespace Command

theorem literal?_of_head {c : Char} (h : c ≠ '"') (t : Text) : literal? (c :: t) = none := by
  have hunquote : Text.unquote? (c :: t) = none := by
    rw [Text.unquote?]
    rintro t' ⟨rfl, -⟩
    exact h rfl
  rw [literal?, hunquote, ite_self]

/-- A row of name characters is followed by no `=`, or by two. -/
theorem isAssignment_of_stop {t u : Text} (ht : ∀ c ∈ t, Text.isNameChar c = true)
    (hu : ∀ c ∈ u.head?, Text.isNameChar c = false)
    (hassign : u.head? ≠ some '=' ∨ ∃ v, u = '=' :: '=' :: v) : isAssignment (t ++ u) = false := by
  have hdrop : (t ++ u).dropWhile Text.isNameChar = u := by
    rw [List.dropWhile_append_of_pos ht]
    cases u with
    | nil => rfl
    | cons c u => exact List.dropWhile_cons_of_neg (by simpa using hu c rfl)
  rw [isAssignment, hdrop, Bool.and_eq_false_iff]
  right
  rcases hassign with h | ⟨v, rfl⟩
  · split <;> simp_all
  · rfl

theorem isAssignment_append {name value : Text} (hname : name.isIdentifier = true)
    (hvalue : value.head? ≠ some '=') : isAssignment (name ++ '=' :: value) = true := by
  obtain ⟨hne, hchars⟩ := Text.isNameChar_of_isIdentifier hname
  have hstop : Text.isNameChar '=' = false := Text.isNameChar_of_mem_marks (by decide)
  have htake : (name ++ '=' :: value).takeWhile Text.isNameChar = name := by
    rw [List.takeWhile_append_of_pos hchars, List.takeWhile_cons_of_neg (by simp [hstop]),
      List.append_nil]
  have hdrop : (name ++ '=' :: value).dropWhile Text.isNameChar = '=' :: value := by
    rw [List.dropWhile_append_of_pos hchars, List.dropWhile_cons_of_neg (by simp [hstop])]
  rw [isAssignment, htake, hdrop]
  cases value with
  | nil => simp [hne]
  | cons c value =>
    have hc : c ≠ '=' := fun h => hvalue (by rw [h]; rfl)
    split <;> simp_all

theorem Form.ofText_equation {t : Text} {e : Equation} (hnumber : Number.ofText? t = none)
    (hliteral : literal? t = none) (hassign : isAssignment t = false)
    (hequation : Equation.ofText? t = some e) : Form.ofText t = .equation e := by
  simp [Form.ofText, hnumber, hliteral, hassign, hequation]

theorem Form.ofText?_of_equation {t : Text} {e : Equation} (h : Form.ofText t = .equation e) :
    Equation.ofText? t = some e := by
  unfold Form.ofText at h
  split at h
  · cases h
  · split at h
    · cases h
    · split at h
      · cases h
      · split at h
        · next he =>
          cases h
          exact he
        · cases h

theorem Form.ofText_other {t : Text} (hnumber : Number.ofText? t = none)
    (hliteral : literal? t = none) (hequation : isAssignment t = true ∨ Equation.ofText? t = none) :
    Form.ofText t = .other := by
  rcases hequation with h | h <;> simp [Form.ofText, hnumber, hliteral, h]

/-! ### Calls -/

namespace Statement

theorem not_mark_of_isNameChar {t : Text} (h : ∀ c ∈ t, Text.isNameChar c = true) :
    ∀ c ∈ t, c ≠ '=' ∧ c ≠ '(' := fun c hc => by
  have := Text.not_mem_marks (h c hc)
  simp_all [Text.marks]

theorem parenthesized?_append {name : Text} (hne : name ≠ [])
    (hname : ∀ c ∈ name, c ≠ '=' ∧ c ≠ '(') (rest : Text) :
    parenthesized? (name ++ rest) = none := by
  obtain ⟨c, name, rfl⟩ := List.exists_cons_of_ne_nil hne
  rw [List.cons_append, parenthesized?]
  rintro t ⟨rfl, -⟩
  exact (hname _ List.mem_cons_self).2 rfl

theorem ofText_call {name : Text} (hne : name ≠ []) (hname : ∀ c ∈ name, c ≠ '=' ∧ c ≠ '(')
    (rest : Text) : ofText (name ++ '(' :: rest) = ofCall name rest := by
  have hparen := parenthesized?_append hne hname ('(' :: rest)
  have hsplit : (name ++ '(' :: rest).splitFirst (fun c => c == '=' || c == '(') =
      some (name, '(', rest) :=
    Text.splitFirst_append (fun c hc => by simp [hname c hc]) rfl rest
  simp [ofText, hparen, hsplit]

theorem ofText_assignment {name : Text} (hname : name.isIdentifier = true) (value : Text) :
    ofText (name ++ '=' :: value) = .assignment name value := by
  obtain ⟨hne, hchars⟩ := Text.isNameChar_of_isIdentifier hname
  have hmark := not_mark_of_isNameChar hchars
  have hparen := parenthesized?_append hne hmark ('=' :: value)
  have hsplit : (name ++ '=' :: value).splitFirst (fun c => c == '=' || c == '(') =
      some (name, '=', value) :=
    Text.splitFirst_append (fun c hc => by simp [hmark c hc]) rfl value
  simp [ofText, hparen, hsplit, hne]

theorem ofText_word {t : Text} (h : ∀ c ∈ t, c ≠ '=' ∧ c ≠ '(') : ofText t = .word := by
  have hparen : parenthesized? t = none := by
    cases t with
    | nil => rfl
    | cons c t =>
      rw [parenthesized?]
      rintro t' ⟨rfl, -⟩
      exact (h _ List.mem_cons_self).2 rfl
  have hsplit : t.splitFirst (fun c => c == '=' || c == '(') = none :=
    Text.splitFirst_eq_none fun c hc => by simp [h c hc]
  simp [ofText, hparen, hsplit]

/-- A call that can be read has the arguments of its text, with a block or without. -/
theorem ofCall_cases (name t : Text) :
    (∃ fault, ofCall name t = .malformed fault) ∨
      ∃ block, ofCall name t = .call ⟨name, argumentsIn t, block⟩ := by
  rw [ofCall]
  split
  · exact .inl ⟨_, rfl⟩
  · exact .inr ⟨_, rfl⟩
  · split
    · exact .inl ⟨_, rfl⟩
    · exact .inr ⟨_, rfl⟩
    · exact .inl ⟨_, rfl⟩
  · exact .inl ⟨_, rfl⟩

variable {t : Text} (hparens : parens (0, false) t = some (0, false))
  (hbrackets : brackets (0, false) t = some (0, false))

include hparens hbrackets

theorem ofCall_plain (name : Text) :
    ofCall name (t ++ [')']) = .call ⟨name, argumentsIn t, none⟩ := by
  rw [ofCall, closeParen_balanced hparens, argumentsIn_close hbrackets (by rfl)]

theorem ofCall_block (name : Text) {block : Text} (hblock : braces 0 block = some 0) :
    ofCall name (t ++ ')' :: '\x7b' :: (block ++ ['\x7d'])) =
      .call ⟨name, argumentsIn t, some block⟩ := by
  rw [ofCall, closeParen_balanced hparens, argumentsIn_close hbrackets (by rfl)]
  simp only [closeBrace_balanced hblock]

end Statement

end Command

end Scriptlet
