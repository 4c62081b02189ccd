import Mathlib.Data.List.Basic
import Scriptlet.Proofs.Expression.Evaluation

/-! Numerals as operands. A numeral on its own may have a sign in its exponent, but a command that
holds more than the numeral shows that sign as an operator: `1e+5*2` is cut into `1e`, `5` and `2`,
and splits at the sum. The numeral stays whole only if the command splits elsewhere first. So two
numerals with an operator between them are worth the value of the operator exactly if the operator
lets go of its operands before the signs of their exponents do: always for comparisons, with a sign
on the left also for sums, and otherwise only without signs. -/

namespace Scriptlet

open Command

theorem Command.Chain.text_single (t : Text) : (⟨t, []⟩ : Chain).text = t := List.append_nil t

namespace Number

/-! ### How numerals are spelt -/

/-- A text that begins like a numeral and has no sign: digits, points and exponent marks. -/
structure IsRow (t : Text) : Prop where
  head : ∃ c u, t = c :: u ∧ (c.isDigit = true ∨ c = '.')
  chars : ∀ c ∈ t, c.isDigit = true ∨ c ∈ ['.', 'e', 'E']

/-- A numeral without a sign in front. If its exponent has a sign, that stands after the mark, which
no other part of a numeral ends with. -/
inductive Spelling : Text → Prop
  | row {t : Text} (h : IsRow t) (hend : ∀ c ∈ t.getLast?, c ∉ ['e', 'E']) : Spelling t
  | signed {w ds : Text} (sign : Operator) (hsign : sign = .plus ∨ sign = .minus) (hw : IsRow w)
      (hmark : ∃ c ∈ w.getLast?, c ∈ ['e', 'E']) (hds : ds ≠ [] ∧ ∀ c ∈ ds, c.isDigit = true) :
      Spelling (w ++ sign.symbol ++ ds)

theorem isRow_of_isDigit {ds : Text} (h : ds ≠ [] ∧ ∀ c ∈ ds, c.isDigit = true) : IsRow ds := by
  obtain ⟨c, ds, rfl⟩ := List.exists_cons_of_ne_nil h.1
  exact ⟨⟨c, ds, rfl, .inl (h.2 c List.mem_cons_self)⟩, fun a ha => .inl (h.2 a ha)⟩

theorem IsRow.append {t u : Text} (h : IsRow t)
    (hu : ∀ c ∈ u, c.isDigit = true ∨ c ∈ ['.', 'e', 'E']) : IsRow (t ++ u) := by
  obtain ⟨c, rest, rfl, hc⟩ := h.head
  exact ⟨⟨c, rest ++ u, rfl, hc⟩, fun a ha => (List.mem_append.1 ha).elim (h.chars a) (hu a)⟩

theorem not_mark_of_isDigit {c : Char} (h : c.isDigit = true) : c ∉ ['e', 'E'] := by
  intro hmark
  obtain rfl | rfl : c = 'e' ∨ c = 'E' := by simpa using hmark
  · cases h
  · cases h

namespace Decimal

/-- An exponent is a mark, a sign or none, and digits. -/
theorem exists_exponent {t : Text} {e : Int} (h : exponentValue t = some e) (hne : t ≠ []) :
    ∃ c sign ds, t = c :: (sign ++ ds) ∧ c ∈ ['e', 'E'] ∧ sign ∈ [[], ['+'], ['-']] ∧
      ds ≠ [] ∧ ∀ a ∈ ds, a.isDigit = true := by
  obtain ⟨c, u, rfl⟩ := List.exists_cons_of_ne_nil hne
  rw [exponentValue] at h
  split at h
  · next hc =>
    have hmark : c ∈ ['e', 'E'] := by simpa using hc
    have hsign : ∃ sign, u = sign ++ (Decimal.sign u).2 ∧ sign ∈ [[], ['+'], ['-']] := by
      unfold Decimal.sign
      split
      · exact ⟨['-'], rfl, by simp⟩
      · exact ⟨['+'], rfl, by simp⟩
      · exact ⟨[], rfl, by simp⟩
    obtain ⟨sign, hu, hmem⟩ := hsign
    dsimp only at h
    split at h
    · cases h
    · next hds =>
      refine ⟨c, sign, (Decimal.sign u).2, by rw [← hu], hmark, hmem, ?_⟩
      simpa [not_or] using hds
  · cases h

theorem sign_of_head {t : Text} (h : ∀ c ∈ t.head?, c ∉ ['+', '-']) : sign t = (false, t) := by
  cases t with
  | nil => rfl
  | cons c t =>
    have hc : c ≠ '+' ∧ c ≠ '-' := by simpa using h c rfl
    rw [sign]
    · rintro _ ⟨rfl, -⟩; exact hc.2 rfl
    · rintro _ ⟨rfl, -⟩; exact hc.1 rfl

theorem exists_fraction (t : Text) :
    ∃ m, t = m ++ (fraction t).2 ∧ (∀ c ∈ m, c.isDigit = true ∨ c = '.') ∧
      (m = [] → (fraction t).1 = []) := by
  unfold fraction
  split
  · next t =>
    refine ⟨'.' :: t.takeWhile Char.isDigit, ?_, ?_, fun h => by cases h⟩
    · rw [List.cons_append, List.takeWhile_append_dropWhile]
    · refine List.forall_mem_cons.2 ⟨.inr rfl, fun c hc => .inl ?_⟩
      exact List.all_eq_true.1 List.all_takeWhile c hc
  · exact ⟨[], rfl, by simp, fun _ => rfl⟩

/-- A numeral is digits, with at most one point among them, and an exponent. -/
theorem exists_mantissa {t : Text} {d : Decimal} (h : ofText? t = some d)
    (hhead : ∀ c ∈ t.head?, c ∉ ['+', '-']) :
    ∃ m tail e, t = m ++ tail ∧ m ≠ [] ∧ (∀ c ∈ m, c.isDigit = true ∨ c = '.') ∧
      exponentValue tail = some e := by
  obtain ⟨m, hm, hchars, hnil⟩ := exists_fraction (t.dropWhile Char.isDigit)
  rw [ofText?, sign_of_head hhead] at h
  dsimp only at h
  split at h
  · cases h
  · next hne =>
    obtain ⟨e, he, -⟩ := Option.bind_eq_some_iff.1 h
    refine ⟨t.takeWhile Char.isDigit ++ m, _, e, ?_, ?_, ?_, he⟩
    · rw [List.append_assoc, ← hm, List.takeWhile_append_dropWhile]
    · intro hempty
      obtain ⟨hwhole, rfl⟩ := List.append_eq_nil_iff.1 hempty
      simp [hwhole, hnil rfl] at hne
    · intro c hc
      rcases List.mem_append.1 hc with hc | hc
      · exact .inl (List.all_eq_true.1 List.all_takeWhile c hc)
      · exact hchars c hc

end Decimal

theorem spelling {t : Text} {x : Float} (h : ofText? t = some x)
    (hhead : ∀ c ∈ t.head?, c ∉ ['+', '-']) : Spelling t := by
  obtain ⟨d, hd, -⟩ := Option.bind_eq_some_iff.1 h
  obtain ⟨m, tail, e, rfl, hne, hm, he⟩ := Decimal.exists_mantissa hd hhead
  have hrow : IsRow m := by
    obtain ⟨c, m, rfl⟩ := List.exists_cons_of_ne_nil hne
    refine ⟨⟨c, m, rfl, hm c List.mem_cons_self⟩, fun a ha => (hm a ha).imp_right fun hpoint => ?_⟩
    simp [hpoint]
  by_cases htail : tail = []
  · subst htail
    rw [List.append_nil]
    refine .row hrow fun c hc => ?_
    rcases hm c (List.mem_of_getLast? hc) with hc | rfl
    · exact not_mark_of_isDigit hc
    · decide
  · obtain ⟨c, sign, ds, rfl, hmark, hsign, hds⟩ := Decimal.exists_exponent he htail
    have hw : IsRow (m ++ [c]) := hrow.append fun a ha => by
      rw [List.mem_singleton.1 ha]
      exact .inr (List.mem_cons_of_mem _ hmark)
    have hlast : ∃ a ∈ (m ++ [c]).getLast?, a ∈ ['e', 'E'] := ⟨c, by simp, hmark⟩
    have hsplit : m ++ c :: (sign ++ ds) = m ++ [c] ++ sign ++ ds := by simp
    rw [hsplit]
    obtain rfl | rfl | rfl : sign = [] ∨ sign = ['+'] ∨ sign = ['-'] := by simpa using hsign
    · rw [List.append_nil]
      refine .row (hw.append fun a ha => .inl (hds.2 a ha)) fun a ha => ?_
      rw [List.getLast?_append_of_ne_nil _ hds.1] at ha
      exact not_mark_of_isDigit (hds.2 a (List.mem_of_getLast? ha))
    · exact .signed .plus (.inl rfl) hw hlast hds
    · exact .signed .minus (.inr rfl) hw hlast hds

/-! ### What is no numeral -/

theorem not_sign_of_row {c : Char} (h : c.isDigit = true ∨ c ∈ ['.', 'e', 'E']) :
    c ∉ ['+', '-'] := by
  intro hsign
  obtain rfl | rfl : c = '+' ∨ c = '-' := by simpa using hsign
  · revert h
    decide
  · revert h
    decide

theorem IsRow.head_append {t : Text} (h : IsRow t) (u : Text) :
    ∀ c ∈ (t ++ u).head?, c ∉ ['+', '-'] := by
  obtain ⟨c, rest, rfl, -⟩ := h.head
  rintro a ⟨⟩
  exact not_sign_of_row (h.chars c List.mem_cons_self)

namespace Spelling

variable {t : Text}

/-- The part of a numeral before the sign of its exponent. -/
theorem exists_row (h : Spelling t) : ∃ w u, t = w ++ u ∧ IsRow w := by
  cases h with
  | row h _ => exact ⟨t, [], by simp, h⟩
  | signed sign _ hw _ _ => exact ⟨_, _, List.append_assoc _ _ _, hw⟩

theorem getLast?_ne_mark (h : Spelling t) : ∀ c ∈ t.getLast?, c ∉ ['e', 'E'] := by
  cases h with
  | row _ hend => exact hend
  | signed sign _ _ _ hds =>
    intro c hc
    rw [List.getLast?_append_of_ne_nil _ hds.1] at hc
    exact not_mark_of_isDigit (hds.2 c (List.mem_of_getLast? hc))

theorem chars (h : Spelling t) {c : Char} (hc : c ∈ t) :
    (c.isDigit = true ∨ c ∈ ['.', 'e', 'E']) ∨ c ∈ ['+', '-'] := by
  cases h with
  | row h _ => exact .inl (h.chars c hc)
  | signed sign hsign hw _ hds =>
    rcases List.mem_append.1 hc with hc | hc
    · rcases List.mem_append.1 hc with hc | hc
      · exact .inl (hw.chars c hc)
      · rcases hsign with rfl | rfl
        · exact .inr (by simp [List.mem_singleton.1 hc])
        · exact .inr (by simp [List.mem_singleton.1 hc])
    · exact .inl (.inl (hds.2 c hc))

/-- A sign stands after the mark of an exponent. -/
theorem mark_of_sign (h : Spelling t) {a b : Text} {c : Char} (hc : c ∈ ['+', '-'])
    (ht : t = a ++ c :: b) : ∃ d ∈ a.getLast?, d ∈ ['e', 'E'] := by
  cases h with
  | row h _ =>
    have hmem : c ∈ t := by simp [ht]
    exact absurd hc (not_sign_of_row (h.chars c hmem))
  | @signed w ds sign hsign hw hmark hds =>
    have hleft : c ∉ w := fun hmem => not_sign_of_row (hw.chars c hmem) hc
    have hright : c ∉ ds := fun hmem => not_sign_of_row (.inl (hds.2 c hmem)) hc
    obtain ⟨σ, hσ⟩ : ∃ σ, sign.symbol = [σ] := by
      rcases hsign with rfl | rfl
      · exact ⟨'+', rfl⟩
      · exact ⟨'-', rfl⟩
    rw [hσ, List.append_assoc, List.singleton_append,
      List.append_cons_inj_of_notMem hleft hright] at ht
    rw [← ht.1]
    exact hmark

end Spelling

/-- A numeral does not end with the mark of an exponent. -/
theorem ofText?_of_mark {w : Text} (hw : IsRow w) (hmark : ∃ c ∈ w.getLast?, c ∈ ['e', 'E']) :
    ofText? w = none := by
  cases h : ofText? w with
  | none => rfl
  | some x =>
    obtain ⟨c, hlast, hc⟩ := hmark
    have hhead := hw.head_append []
    rw [List.append_nil] at hhead
    exact absurd hc ((spelling h hhead).getLast?_ne_mark c hlast)

/-- No numeral goes on with an operator. -/
theorem ofText?_symbol {l : Text} (hl : Spelling l) (op : Operator) (u : Text) :
    ofText? (l ++ op.symbol ++ u) = none := by
  cases h : ofText? (l ++ op.symbol ++ u) with
  | none => rfl
  | some x =>
    obtain ⟨c, rest, hsymbol⟩ : ∃ c rest, op.symbol = c :: rest := by cases op <;> exact ⟨_, _, rfl⟩
    have hhead : ∀ a ∈ (l ++ op.symbol ++ u).head?, a ∉ ['+', '-'] := by
      obtain ⟨w, v, rfl, hw⟩ := hl.exists_row
      simpa only [List.append_assoc] using hw.head_append (v ++ (op.symbol ++ u))
    have hspelling := spelling h hhead
    have hc : c ∈ ['+', '-'] := by
      have hchar := hspelling.chars (c := c) (by simp [hsymbol])
      refine hchar.resolve_left ?_
      cases op <;> cases hsymbol <;> decide
    obtain ⟨d, hlast, hd⟩ := hspelling.mark_of_sign hc (a := l) (b := rest ++ u) (by simp [hsymbol])
    exact absurd hd (hl.getLast?_ne_mark d hlast)

/-! ### How commands show numerals -/

namespace IsRow

variable {t : Text}

theorem plain (h : IsRow t) {c : Char} (hc : c ∈ t) :
    c ∉ ['"', '(', ')', '\x7b', '\x7d'] ∧ startsOperator c = false := by
  rcases h.chars c hc with hdigit | hmark
  · have hplain := Text.not_mem_marks (Text.isNameChar_of_isDigit hdigit)
    simp_all [Text.marks, startsOperator]
  · obtain rfl | rfl | rfl : c = '.' ∨ c = 'e' ∨ c = 'E' := by simpa using hmark
    all_goals decide

theorem isOperand (h : IsRow t) : IsOperand t := by
  refine Expression.isOperand_of_plain ?_ fun c hc => h.plain hc
  obtain ⟨c, u, rfl, -⟩ := h.head
  exact List.cons_ne_nil c u

theorem not_isIdentifier (h : IsRow t) : t.isIdentifier = false := by
  obtain ⟨c, u, rfl, hc⟩ := h.head
  by_contra hidentifier
  have hvalid := Bool.eq_true_of_not_eq_false hidentifier
  rcases hc with hdigit | rfl
  · rw [Text.not_isDigit_head hvalid] at hdigit
    cases hdigit
  · have hname := (Text.isNameChar_of_isIdentifier hvalid).2 '.' List.mem_cons_self
    exact Text.not_mem_marks hname (by decide)

theorem literal?_append (h : IsRow t) (u : Text) : literal? (t ++ u) = none := by
  obtain ⟨c, rest, rfl, -⟩ := h.head
  refine literal?_of_head ?_ (rest ++ u)
  rintro rfl
  exact (h.plain List.mem_cons_self).1 (by decide)

end IsRow

/-- Whether a numeral without a sign in front has one in its exponent. -/
def hasSign (t : Text) : Bool := t.any (· ∈ ['+', '-'])

/-- The part of a numeral in front of the sign of its exponent. -/
def mantissa (t : Text) : Text := t.takeWhile (· ∉ ['+', '-'])

/-- Whether two numerals stay whole with the operator between them: it has to let go of them before
the sum or the difference that a sign shows does. -/
def Whole (op : Operator) (l r : Text) : Prop :=
  (hasSign l = true → op.binding ≤ Operator.plus.binding) ∧
    (hasSign r = true → op.binding < Operator.plus.binding)

/-- The numeral that falls apart first. -/
def torn (op : Operator) (l r : Text) : Text :=
  if hasSign l = true ∧ Operator.plus.binding < op.binding then l else r

theorem IsRow.hasSign_eq {t : Text} (h : IsRow t) : hasSign t = false := by
  rw [hasSign, List.any_eq_false]
  intro c hc
  simpa using not_sign_of_row (h.chars c hc)

theorem hasSign_signed {sign : Operator} (hsign : sign = .plus ∨ sign = .minus) (w ds : Text) :
    hasSign (w ++ sign.symbol ++ ds) = true := by
  rcases hsign with rfl | rfl <;> simp [hasSign, Operator.symbol]

theorem mantissa_signed {w : Text} (hw : IsRow w) {sign : Operator}
    (hsign : sign = .plus ∨ sign = .minus) (ds : Text) :
    mantissa (w ++ sign.symbol ++ ds) = w := by
  have hrow : ∀ c ∈ w, decide (c ∉ ['+', '-']) = true := fun c hc =>
    decide_eq_true (not_sign_of_row (hw.chars c hc))
  rw [mantissa, List.append_assoc, List.takeWhile_append_of_pos hrow]
  rcases hsign with rfl | rfl <;> simp [Operator.symbol]

theorem binding_sign {sign : Operator} (h : sign = .plus ∨ sign = .minus) :
    sign.binding = Operator.plus.binding ∧ sign.groupsRight = false := by
  rcases h with rfl | rfl <;> exact ⟨rfl, rfl⟩

/-- The chain that a numeral is cut into, which shows a sum or a difference only for a sign. -/
theorem Spelling.exists_chain {t : Text} (h : Spelling t) :
    ∃ chain : Chain, chain.text = t ∧ (∀ u ∈ chain.operands, IsOperand u) ∧
      ∀ op ∈ chain.rest.map (·.1), hasSign t = true ∧ (op = .plus ∨ op = .minus) := by
  cases h with
  | row h _ =>
    refine ⟨⟨t, []⟩, by simp [Chain.text], ?_, by simp⟩
    simpa [Chain.operands] using h.isOperand
  | @signed w ds sign hsign hw _ hds =>
    refine ⟨⟨w, [(sign, ds)]⟩, by simp [Chain.text], ?_, ?_⟩
    · simpa [Chain.operands] using ⟨hw.isOperand, (isRow_of_isDigit hds).isOperand⟩
    · simpa using ⟨by simpa using hasSign_signed hsign w ds, hsign⟩

theorem Spelling.form_symbol {l u : Text} (hl : Spelling l) {op : Operator} {e : Equation}
    (he : Equation.ofText? (l ++ op.symbol ++ u) = some e) :
    Form.ofText (l ++ op.symbol ++ u) = .equation e := by
  refine Form.ofText_equation (ofText?_symbol hl op u) ?_
    (Expression.isAssignment_symbol ?_ op u) he
  · obtain ⟨w, v, rfl, hw⟩ := hl.exists_row
    simpa only [List.append_assoc] using hw.literal?_append (v ++ (op.symbol ++ u))
  · intro hmem
    exact absurd (hl.chars hmem) (by decide)

/-- The command splits between the numerals. -/
theorem Spelling.form_split {l : Text} (hl : Spelling l) {op : Operator} {chain : Chain}
    (hoperand : ∀ u ∈ chain.operands, IsOperand u)
    (hleft : hasSign l = true → op.binding ≤ Operator.plus.binding)
    (hright : ∀ other ∈ chain.rest.map (·.1), Equation.Looser op other true) :
    Form.ofText (l ++ op.symbol ++ chain.text) = .equation ⟨l, op, chain.text⟩ := by
  refine hl.form_symbol ?_
  obtain ⟨a, rfl, ha, hsigns⟩ := hl.exists_chain
  refine Equation.ofText?_join (List.forall_mem_append.2 ⟨ha, hoperand⟩) (fun other hother => ?_)
    hright
  obtain ⟨hsign, hother⟩ := hsigns other hother
  obtain ⟨hbinding, hgroups⟩ := binding_sign hother
  rcases Nat.lt_or_eq_of_le (hleft hsign) with hlt | heq
  · exact .inl (hbinding ▸ hlt)
  · rw [← hbinding] at heq
    exact .inr ⟨heq, (Equation.groupsRight_eq_of_binding_eq heq).trans hgroups⟩

/-- The command splits at the sign of the left numeral. -/
theorem form_torn_left {w ds u : Text} {sign op : Operator} (hl : Spelling (w ++ sign.symbol ++ ds))
    (hw : IsOperand w) (hds : IsOperand ds) (hu : IsOperand u) (hop : sign.binding < op.binding) :
    Form.ofText (w ++ sign.symbol ++ ds ++ op.symbol ++ u) =
      .equation ⟨w, sign, ds ++ op.symbol ++ u⟩ := by
  refine hl.form_symbol ?_
  have hjoin := @Equation.ofText?_join ⟨w, []⟩ ⟨ds, [(op, u)]⟩ sign
    (by simpa [Chain.operands] using ⟨hw, hds, hu⟩) (by simp) (by simpa using .inl hop)
  simpa [Chain.text] using hjoin

/-- The command splits at the sign of the right numeral. -/
theorem form_torn_right {l u ds : Text} {sign op : Operator} (hl : Spelling l) (hu : IsOperand u)
    (hds : IsOperand ds) (hsign : sign = .plus ∨ sign = .minus)
    (hop : Operator.plus.binding ≤ op.binding) :
    Form.ofText (l ++ op.symbol ++ (u ++ sign.symbol ++ ds)) =
      .equation ⟨l ++ op.symbol ++ u, sign, ds⟩ := by
  refine hl.form_symbol ?_
  obtain ⟨a, rfl, ha, hsigns⟩ := hl.exists_chain
  obtain ⟨hbinding, hgroups⟩ := binding_sign hsign
  have hlooser : ∀ other : Operator, Operator.plus.binding ≤ other.binding →
      Equation.Looser sign other false := by
    intro other hother
    rcases Nat.lt_or_eq_of_le hother with hlt | heq
    · exact .inl (hbinding ▸ hlt)
    · exact .inr ⟨hbinding.trans heq, hgroups⟩
  have hoperand : ∀ v ∈ (a.join op ⟨u, []⟩).operands ++ [ds], IsOperand v := by
    rw [Chain.operands_join, List.append_assoc]
    refine List.forall_mem_append.2 ⟨ha, ?_⟩
    simpa [Chain.operands] using ⟨hu, hds⟩
  have hoperators : ∀ other ∈ (a.join op ⟨u, []⟩).rest.map (·.1),
      Equation.Looser sign other false := by
    rw [Chain.join, List.map_append]
    refine List.forall_mem_append.2 ⟨fun other hother => ?_, by simpa using hlooser op hop⟩
    exact hlooser other (binding_sign (hsigns other hother).2).1.ge
  have hjoin := @Equation.ofText?_join (a.join op ⟨u, []⟩) ⟨ds, []⟩ sign hoperand hoperators
    (by simp)
  rw [Chain.text_join, Chain.text_single, Chain.text_single] at hjoin
  simpa only [List.append_assoc] using hjoin

end Number

/-! ### Evaluating two numerals with an operator between them -/

namespace Script

open Number

variable {settings : Settings} {s : State}

/-- What is left of a numeral in front of a sign is a word that nothing binds. -/
theorem Answers.mark {w : Text} (henv : s.env.BindsIdentifiers) (hw : IsRow w)
    (hmark : ∃ c ∈ w.getLast?, c ∈ ['e', 'E']) : Answers settings s w (.error w) 1 := by
  have hliteral : literal? w = none := by simpa using hw.literal?_append []
  have hequation := Equation.ofText?_of_pass hw.isOperand.passed
  have hword : Statement.ofText w = .word := Statement.ofText_word fun c hc => by
    obtain ⟨hplain, hstart⟩ := hw.plain hc
    refine ⟨?_, ?_⟩
    · rintro rfl
      cases hstart
    · rintro rfl
      exact hplain (by decide)
  exact .word (Form.ofText_other (ofText?_of_mark hw hmark) hliteral (.inr hequation)) hword
    (henv.lookup_eq_none hw.not_isIdentifier)

theorem answers_whole {op : Operator} {l r : Text} {x y : Float} (hl : ofText? l = some x)
    (hr : ofText? r = some y) (hleft : Spelling l) (hright : Spelling r) (h : Whole op l r) :
    Answers settings s (l ++ op.symbol ++ r) (.ok (op.apply x y)) 2 := by
  obtain ⟨chain, rfl, hoperand, hsigns⟩ := hright.exists_chain
  refine .equation (hleft.form_split hoperand h.1 fun other hother => ?_) (.number hl) (.number hr)
  obtain ⟨hsign, hother⟩ := hsigns other hother
  exact .inl ((binding_sign hother).1 ▸ h.2 hsign)

theorem answers_torn_left {op : Operator} {l u : Text} (henv : s.env.BindsIdentifiers)
    (hl : Spelling l) (hu : IsOperand u)
    (h : hasSign l = true ∧ Operator.plus.binding < op.binding) :
    Answers settings s (l ++ op.symbol ++ u) (.error (mantissa l)) 2 := by
  have hspelling := hl
  cases hl with
  | row hrow _ => exact absurd h.1 (by simp [hrow.hasSign_eq])
  | @signed w ds sign hsign hw hmark hds =>
    rw [mantissa_signed hw hsign]
    exact .left (form_torn_left hspelling hw.isOperand (isRow_of_isDigit hds).isOperand hu
      ((binding_sign hsign).1 ▸ h.2)) (.mark henv hw hmark)

/-- What is left of the right numeral in front of its sign is undefined, unless the left numeral
falls apart before. -/
theorem answers_torn_right {op : Operator} {l w : Text} {x : Float} (henv : s.env.BindsIdentifiers)
    (hl : ofText? l = some x) (hleft : Spelling l) (hw : IsRow w)
    (hmark : ∃ c ∈ w.getLast?, c ∈ ['e', 'E']) :
    Answers settings s (l ++ op.symbol ++ w)
      (.error (if hasSign l = true ∧ Operator.plus.binding < op.binding then mantissa l else w))
      2 := by
  split
  · next h => exact answers_torn_left henv hleft hw.isOperand h
  · next h =>
    have hform := @Spelling.form_split _ hleft op ⟨w, []⟩
      (by simpa [Chain.operands] using hw.isOperand) (fun hsign => by simpa [hsign] using h)
      (by simp)
    rw [Chain.text_single] at hform
    exact .equation hform (.number hl) (.mark henv hw hmark)

theorem answers_torn {op : Operator} {l r : Text} {x : Float} (henv : s.env.BindsIdentifiers)
    (hl : ofText? l = some x) (hleft : Spelling l) (hright : Spelling r) (h : ¬Whole op l r) :
    Answers settings s (l ++ op.symbol ++ r) (.error (mantissa (torn op l r))) 3 := by
  cases hright with
  | row hrow _ =>
    have hsign : hasSign l = true ∧ Operator.plus.binding < op.binding := by
      by_contra hno
      refine h ⟨fun hsign => by simpa [hsign] using hno, fun hsign => ?_⟩
      rw [hrow.hasSign_eq] at hsign
      cases hsign
    rw [torn, if_pos hsign]
    exact (answers_torn_left henv hleft hrow.isOperand hsign).mono (Nat.le_succ 2)
  | @signed w ds sign hsign hw hmark hds =>
    have hop : Operator.plus.binding ≤ op.binding := by
      by_contra hlt
      exact h ⟨fun _ => by omega, fun _ => by omega⟩
    -- The sign on the right is the last of the loosest operators, so everything in front of it is
    -- its left side, and that ends with the mark.
    rw [torn, apply_ite mantissa, mantissa_signed hw hsign]
    exact .left (form_torn_right hleft hw.isOperand (isRow_of_isDigit hds).isOperand hsign hop)
      (answers_torn_right henv hl hleft hw hmark)

/-- Two numerals with an operator between them are worth the value of the operator exactly if they
stay whole, and else what is left of a numeral in front of its sign is undefined. -/
theorem numerals_operate_iff (settings : Settings) (depth : Nat) (s : State) (op : Operator)
    {l r : Text} {x y : Float} (hl : ofText? l = some x) (hr : ofText? r = some y)
    (hunsignedLeft : ∀ c ∈ l.head?, c ∉ ['+', '-']) (hunsignedRight : ∀ c ∈ r.head?, c ∉ ['+', '-'])
    (henv : s.env.BindsIdentifiers) :
    (run settings (depth + 2) (l ++ op.symbol ++ r) s = (.done (.number (op.apply x y)), s) ↔
      Whole op l r) ∧
    (¬Whole op l r → run settings (depth + 3) (l ++ op.symbol ++ r) s =
      (.failed (.undefined (mantissa (torn op l r))), s)) := by
  have hleft := spelling hl hunsignedLeft
  have hright := spelling hr hunsignedRight
  refine ⟨⟨fun hrun => ?_, fun h => ?_⟩, fun h => ?_⟩
  · by_contra h
    have htorn : Answers settings s _ _ 3 := answers_torn henv hl hleft hright h
    rcases htorn (depth + 2) with hfailed | ⟨-, hfailed⟩
    · rw [hfailed] at hrun
      cases hrun
    · rw [hfailed] at hrun
      cases hrun
  · exact (answers_whole hl hr hleft hright h (depth + 2)).resolve_right fun hlt => by omega
  · exact (answers_torn henv hl hleft hright h (depth + 3)).resolve_right fun hlt => by omega

/-- A comparison leaves `1e+1` whole and a product does not. -/
theorem numerals_operate_samples :
    ∃ x y, ofText? "1e+1".toList = some x ∧ ofText? ['2'] = some y ∧ Env.empty.BindsIdentifiers ∧
      run {} 9 "1e+1<2".toList {} = (.done (.number (Operator.less.apply x y)), {}) ∧
      run {} 9 "1e+1*2".toList {} = (.failed (.undefined "1e".toList), {}) := by
  obtain ⟨x, hx⟩ := Option.isSome_iff_exists.1
    (show (ofText? "1e+1".toList).isSome = true by decide +kernel)
  obtain ⟨y, hy⟩ := Option.isSome_iff_exists.1
    (show (ofText? ['2']).isSome = true by decide +kernel)
  have henv := Env.bindsIdentifiers_empty
  have hleft : ∀ c ∈ "1e+1".toList.head?, c ∉ ['+', '-'] := by simp
  have hright : ∀ c ∈ ['2'].head?, c ∉ ['+', '-'] := by simp
  refine ⟨x, y, hx, hy, henv, ?_, ?_⟩
  · have hwhole : Whole .less "1e+1".toList ['2'] := ⟨by decide, by decide⟩
    exact (numerals_operate_iff {} 7 {} .less hx hy hleft hright henv).1.2 hwhole
  · have hnot : ¬Whole .times "1e+1".toList ['2'] := fun h => absurd (h.1 rfl) (by decide)
    exact (numerals_operate_iff {} 6 {} .times hx hy hleft hright henv).2 hnot

end Script

end Scriptlet
