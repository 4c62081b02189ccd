import Scriptlet.Proofs.Command.Form

/-! Expression trees and their print, with parentheses exactly where an operand would otherwise fall
apart. The text knows nothing of the tree: it is cut into operands again and split at its loosest
operator. The chain of an expression is the operands that show in its print, so the split of the
print is the root of the tree; everything else about the print is read off its first operand. -/

namespace Scriptlet

open Command

/-- A row of digits. -/
structure Numeral where
  text : Text
  ne_nil : text ≠ []
  isDigit : ∀ c ∈ text, c.isDigit = true

structure Identifier where
  text : Text
  valid : text.isIdentifier = true

theorem Numeral.isNameChar (n : Numeral) : ∀ c ∈ n.text, Text.isNameChar c = true :=
  fun c hc => Text.isNameChar_of_isDigit (n.isDigit c hc)

theorem Identifier.isNameChar (n : Identifier) : ∀ c ∈ n.text, Text.isNameChar c = true :=
  (Text.isNameChar_of_isIdentifier n.valid).2

theorem Identifier.ofText?_append (n : Identifier) (u : Text) :
    Number.ofText? (n.text ++ u) = none := by
  obtain ⟨t, hvalid⟩ := n
  cases t with
  | nil => cases hvalid
  | cons c t =>
    have hc := Text.not_mem_marks
      ((Text.isNameChar_of_isIdentifier hvalid).2 c List.mem_cons_self)
    refine Number.ofText?_of_head (Text.not_isDigit_head hvalid) ?_ _
    simp_all [Text.marks]

theorem Identifier.ofText?_text (n : Identifier) : Number.ofText? n.text = none := by
  simpa using n.ofText?_append []

theorem Numeral.not_isIdentifier (n : Numeral) : n.text.isIdentifier = false := by
  obtain ⟨t, hne, hdigit⟩ := n
  obtain ⟨c, t, rfl⟩ := List.exists_cons_of_ne_nil hne
  by_contra h
  have hc := Text.not_isDigit_head (Bool.eq_true_of_not_eq_false h)
  rw [hdigit c List.mem_cons_self] at hc
  cases hc

inductive Expression
  | numeral (n : Numeral)
  | name (n : Identifier)
  | node (op : Operator) (left right : Expression)

namespace Expression

/-! ### Trees and their print -/

/-- Whether an operand on the given side of an operator would fall apart without parentheses. -/
def isLoose (op : Operator) (right : Bool) : Expression → Bool
  | node other _ _ =>
    other.binding < op.binding || (other.binding == op.binding && op.groupsRight != right)
  | _ => false

def enclose (t : Text) : Text := '(' :: (t ++ [')'])

def encloseIf (loose : Bool) (t : Text) : Text := if loose then enclose t else t

def print : Expression → Text
  | numeral n => n.text
  | name n => n.text
  | node op l r =>
    encloseIf (l.isLoose op false) l.print ++ op.symbol ++ encloseIf (r.isLoose op true) r.print

/-! ### Texts that nest -/

/-- Brackets nest along the text and no string is opened, so that it shows nothing to the outside
once it stands in parentheses. -/
structure Nests (t : Text) : Prop where
  passed : ∀ depth : Int, 0 < depth → pass depth false t = some (depth, false)
  balanced : ∀ depth, parens (depth, false) t = some (depth, false)

theorem Nests.append {t u : Text} (ht : Nests t) (hu : Nests u) : Nests (t ++ u) where
  passed depth hdepth := by
    rw [pass_append, ht.passed depth hdepth]
    exact hu.passed depth hdepth
  balanced depth := (track_append (ht.balanced depth) u).trans (hu.balanced depth)

theorem nest_of_plain {c : Char} (h : c ∉ ['(', ')', '\x7b', '\x7d']) (depth : Int) :
    nest depth c = depth := by
  unfold nest
  split <;> simp_all

theorem nests_of_plain {t : Text} (h : ∀ c ∈ t, c ∉ ['"', '(', ')', '\x7b', '\x7d']) : Nests t where
  passed depth hdepth := by
    induction t with
    | nil => rfl
    | cons c t ih =>
      have hc := h c List.mem_cons_self
      have hquote : (c == '"') = false := by simp_all
      have hnest := nest_of_plain (fun hm => hc (List.mem_cons_of_mem _ hm)) depth
      rw [Command.pass, hnest, hquote]
      simp only [hdepth, decide_true, Bool.true_or, if_true]
      exact ih fun a ha => h a (List.mem_cons_of_mem _ ha)
  balanced depth := track_plain _ fun c hc => by
    have := h c hc
    simp_all

theorem Nests.enclose {t : Text} (h : Nests t) : Nests (enclose t) where
  passed depth hdepth := by
    have hinside : pass (depth + 1) false (t ++ [')']) = some (depth, false) := by
      rw [pass_append, h.passed (depth + 1) (by omega)]
      simp [Command.pass, nest, hdepth]
    simpa [Expression.enclose, Command.pass, nest, show 0 < depth + 1 by omega] using hinside
  balanced depth := by
    have hinside : parens (depth + 1, false) (t ++ [')']) = some (depth, false) :=
      (track_append (h.balanced (depth + 1)) _).trans (by simp [track, trackChar])
    exact track_cons.2 ⟨(depth + 1, false), by simp [trackChar], hinside⟩

theorem Nests.encloseIf {t : Text} (h : Nests t) (loose : Bool) : Nests (encloseIf loose t) := by
  cases loose
  · exact h
  · exact h.enclose

theorem nests_of_isNameChar {t : Text} (h : ∀ c ∈ t, Text.isNameChar c = true) : Nests t :=
  nests_of_plain fun c hc => Text.not_mem_of_isNameChar (by simp [Text.marks]) (h c hc)

theorem nests_symbol (op : Operator) : Nests op.symbol :=
  nests_of_plain (by cases op <;> simp [Operator.symbol])

theorem nests_print (e : Expression) : Nests e.print := by
  induction e with
  | numeral n => exact nests_of_isNameChar n.isNameChar
  | name n => exact nests_of_isNameChar n.isNameChar
  | node op l r hl hr =>
    exact ((hl.encloseIf _).append (nests_symbol op)).append (hr.encloseIf _)

theorem print_ne_nil (e : Expression) : e.print ≠ [] := by
  cases e with
  | numeral n => exact n.ne_nil
  | name n => exact (Text.isNameChar_of_isIdentifier n.valid).1
  | node op l r => cases op <;> simp [print, Operator.symbol]

theorem mem_print {e : Expression} {c : Char} (hc : c ∈ e.print) :
    c ∉ ['"', ',', '\x7b', '\x7d'] := by
  have hmarks : ['"', ',', '\x7b', '\x7d'] ⊆ Text.marks := by simp [Text.marks]
  induction e with
  | numeral n => exact Text.not_mem_of_isNameChar hmarks (n.isNameChar c hc)
  | name n => exact Text.not_mem_of_isNameChar hmarks (n.isNameChar c hc)
  | node op l r hl hr =>
    have hside : ∀ {loose : Bool} {t : Text}, c ∈ encloseIf loose t →
        c = '(' ∨ c ∈ t ∨ c = ')' := by
      intro loose t h
      cases loose <;> simp_all [encloseIf, enclose]
    have hsymbol : c ∈ op.symbol → c ∉ ['"', ',', '\x7b', '\x7d'] := by
      cases op <;> simp [Operator.symbol] <;> grind
    rw [print, List.mem_append, List.mem_append] at hc
    rcases hc with (h | h) | h
    · rcases hside h with rfl | h | rfl
      · decide
      · exact hl h
      · decide
    · exact hsymbol h
    · rcases hside h with rfl | h | rfl
      · decide
      · exact hr h
      · decide

theorem isArgument_print (e : Expression) : IsArgument e.print where
  ne_nil := e.print_ne_nil
  nests := by
    rw [brackets_eq_parens fun c hc hm => mem_print hc (by simp_all)]
    exact e.nests_print.balanced 0
  plain hc := mem_print hc (by simp)

/-! ### The chain of an expression -/

/-- A text that is one operand. -/
inductive IsAtom : Text → Prop
  | numeral (n : Numeral) : IsAtom n.text
  | name (n : Identifier) : IsAtom n.text
  | group {t : Text} (h : Nests t) : IsAtom (enclose t)

theorem isOperand_of_plain {t : Text} (hne : t ≠ [])
    (h : ∀ c ∈ t, c ∉ ['"', '(', ')', '\x7b', '\x7d'] ∧ startsOperator c = false) :
    IsOperand t where
  ne_nil := hne
  head_ne := by
    obtain ⟨c, t, rfl⟩ := List.exists_cons_of_ne_nil hne
    rintro ⟨rfl⟩
    exact absurd (h '=' List.mem_cons_self).2 (by decide)
  passed := by
    clear hne
    induction t with
    | nil => rfl
    | cons c t ih =>
      obtain ⟨hplain, hstart⟩ := h c List.mem_cons_self
      have hquote : (c == '"') = false := by simp_all
      have hnest : nest 0 c = 0 := nest_of_plain (fun hm => hplain (List.mem_cons_of_mem _ hm)) 0
      rw [Command.pass, hnest, hquote, hstart]
      exact ih fun a ha => h a (List.mem_cons_of_mem _ ha)

theorem isOperand_of_isNameChar {t : Text} (hne : t ≠ []) (h : ∀ c ∈ t, Text.isNameChar c = true) :
    IsOperand t := by
  refine isOperand_of_plain hne fun c hc => ?_
  have hmark := Text.not_mem_marks (h c hc)
  simp_all [Text.marks, startsOperator]

theorem IsAtom.isOperand {t : Text} (h : IsAtom t) : IsOperand t := by
  cases h with
  | numeral n => exact isOperand_of_isNameChar n.ne_nil n.isNameChar
  | name n =>
    exact isOperand_of_isNameChar (Text.isNameChar_of_isIdentifier n.valid).1 n.isNameChar
  | @group t h =>
    refine ⟨List.cons_ne_nil _ _, by simp [enclose], ?_⟩
    have hinside : pass 1 false (t ++ [')']) = some (0, false) := by
      rw [pass_append, h.passed 1 (by omega)]
      simp [Command.pass, nest, startsOperator]
    simpa [enclose, Command.pass, nest] using hinside

/-- The operands that show in the print, with the operators between them. -/
def chain : Expression → Chain
  | numeral n => ⟨n.text, []⟩
  | name n => ⟨n.text, []⟩
  | node op l r =>
    (if l.isLoose op false then ⟨enclose l.print, []⟩ else l.chain).join op
      (if r.isLoose op true then ⟨enclose r.print, []⟩ else r.chain)

/-- What an operand adds to the chain of its node. -/
def side (op : Operator) (right : Bool) (e : Expression) : Chain :=
  if e.isLoose op right then ⟨enclose e.print, []⟩ else e.chain

theorem chain_node (op : Operator) (l r : Expression) :
    (node op l r).chain = (l.side op false).join op (r.side op true) := rfl

theorem text_side {e : Expression} (h : e.chain.text = e.print) (op : Operator) (right : Bool) :
    (e.side op right).text = encloseIf (e.isLoose op right) e.print := by
  rw [side, encloseIf]
  split
  · simp [Chain.text]
  · exact h

theorem text_chain (e : Expression) : e.chain.text = e.print := by
  induction e with
  | numeral n => simp [chain, Chain.text, print]
  | name n => simp [chain, Chain.text, print]
  | node op l r hl hr => rw [chain_node, Chain.text_join, text_side hl, text_side hr, print]

theorem isAtom_side {e : Expression} (h : ∀ t ∈ e.chain.operands, IsAtom t) (op : Operator)
    (right : Bool) : ∀ t ∈ (e.side op right).operands, IsAtom t := by
  rw [side]
  split
  · intro t ht
    obtain rfl : t = enclose e.print := by simpa [Chain.operands] using ht
    exact .group e.nests_print
  · exact h

theorem isAtom_operands (e : Expression) : ∀ t ∈ e.chain.operands, IsAtom t := by
  induction e with
  | numeral n => simpa [chain, Chain.operands] using IsAtom.numeral n
  | name n => simpa [chain, Chain.operands] using IsAtom.name n
  | node op l r hl hr =>
    intro t ht
    rw [chain_node, Chain.operands_join, List.mem_append] at ht
    exact ht.elim (isAtom_side hl op false t) (isAtom_side hr op true t)

/-- The print does not make a longer operator of one before it. -/
theorem head?_print (e : Expression) : e.print.head? ≠ some '=' := by
  rw [← e.text_chain]
  exact (e.isAtom_operands _ List.mem_cons_self).isOperand.head?_text _

/-! ### The root is the loosest operator -/

theorem looser_of_not_isLoose {op op' : Operator} {right : Bool} {l r : Expression}
    (h : (node op' l r).isLoose op right = false) : Equation.Looser op op' right := by
  simp only [isLoose, Bool.or_eq_false_iff, decide_eq_false_iff_not, Bool.and_eq_false_iff,
    beq_eq_false_iff_ne, bne_eq_false_iff_eq] at h
  rcases h with ⟨hge, hne | hright⟩
  · exact .inl (by omega)
  · by_cases heq : op.binding = op'.binding
    · exact .inr ⟨heq, hright⟩
    · exact .inl (by omega)

theorem looser_side {e : Expression} {op : Operator} {right : Bool}
    (h : e.isLoose op right = false →
      ∀ other ∈ e.chain.rest.map (·.1), Equation.Looser op other right) :
    ∀ other ∈ (e.side op right).rest.map (·.1), Equation.Looser op other right := by
  rw [side]
  split
  · simp
  · next hloose => exact h (eq_false_of_ne_true hloose)

/-- An operand that needs no parentheses shows no operator that lets go before its own node. -/
theorem looser_chain (e : Expression) {op : Operator} {right : Bool}
    (h : e.isLoose op right = false) :
    ∀ other ∈ e.chain.rest.map (·.1), Equation.Looser op other right := by
  induction e generalizing op right with
  | numeral n => simp [chain]
  | name n => simp [chain]
  | node op' l r hl hr =>
    have hroot : Equation.Looser op op' right := looser_of_not_isLoose h
    intro other hother
    rw [chain_node, Chain.join, List.map_append, List.map_cons, List.mem_append,
      List.mem_cons] at hother
    rcases hother with hother | rfl | hother
    · exact hroot.of_binding_le (looser_side hl other hother).binding_le
    · exact hroot
    · exact hroot.of_binding_le (looser_side hr other hother).binding_le

/-- The print of a node splits at its root. -/
theorem equation_print (op : Operator) (l r : Expression) :
    Equation.ofText? (node op l r).print =
      some ⟨encloseIf (l.isLoose op false) l.print, op, encloseIf (r.isLoose op true) r.print⟩ := by
  have hatom : ∀ t ∈ (l.side op false).operands ++ (r.side op true).operands, IsOperand t := by
    intro t ht
    rcases List.mem_append.1 ht with ht | ht
    · exact (isAtom_side l.isAtom_operands op false t ht).isOperand
    · exact (isAtom_side r.isAtom_operands op true t ht).isOperand
  have hsplit :=
    Equation.ofText?_join hatom (looser_side l.looser_chain) (looser_side r.looser_chain)
  rwa [text_side l.text_chain, text_side r.text_chain] at hsplit

/-! ### The form of a print -/

theorem IsAtom.literal?_append {t : Text} (h : IsAtom t) (u : Text) : literal? (t ++ u) = none := by
  have hname : ∀ {t : Text}, t ≠ [] → (∀ c ∈ t, Text.isNameChar c = true) →
      literal? (t ++ u) = none := by
    intro t hne ht
    obtain ⟨c, t, rfl⟩ := List.exists_cons_of_ne_nil hne
    refine literal?_of_head ?_ _
    rintro rfl
    exact absurd (ht _ List.mem_cons_self) (by decide)
  cases h with
  | numeral n => exact hname n.ne_nil n.isNameChar
  | name n => exact hname (Text.isNameChar_of_isIdentifier n.valid).1 n.isNameChar
  | group h => exact literal?_of_head (by decide) _

theorem ofText?_enclose (t u : Text) : Number.ofText? (enclose t ++ u) = none :=
  Number.ofText?_of_head (by decide) (by decide) _

/-- An operator other than `==` has no `=` in front, so only an earlier `=` could assign. -/
theorem isAssignment_symbol {t : Text} (h : '=' ∉ t) (op : Operator) (u : Text) :
    isAssignment (t ++ op.symbol ++ u) = false := by
  have hname : ∀ c ∈ t.takeWhile Text.isNameChar, Text.isNameChar c = true := fun c hc =>
    List.all_eq_true.1 List.all_takeWhile c hc
  rw [← List.takeWhile_append_dropWhile (p := Text.isNameChar) (l := t), List.append_assoc,
    List.append_assoc]
  cases hdrop : t.dropWhile Text.isNameChar with
  | nil =>
    refine isAssignment_of_stop hname ?_ ?_
    all_goals cases op <;> simp [Operator.symbol] <;> decide
  | cons c rest =>
    have hstop : Text.isNameChar c = false := by
      have := List.head?_dropWhile_not Text.isNameChar t
      simpa [hdrop] using this
    have hc : c ≠ '=' := by
      rintro rfl
      exact h (List.dropWhile_subset _ (hdrop ▸ List.mem_cons_self))
    exact isAssignment_of_stop hname (by simpa using hstop) (.inl (by simpa using hc))

/-- The first characters of an operand with an operator after it rule out every form but an
equation. -/
theorem IsAtom.form_symbol {t : Text} (h : IsAtom t) (op : Operator) (u : Text) {e : Equation}
    (he : Equation.ofText? (t ++ op.symbol ++ u) = some e) :
    Form.ofText (t ++ op.symbol ++ u) = .equation e := by
  have hliteral : literal? (t ++ op.symbol ++ u) = none := by
    rw [List.append_assoc]
    exact h.literal?_append _
  have hassign : ∀ {t : Text}, (∀ c ∈ t, Text.isNameChar c = true) → '=' ∉ t := fun ht hmem =>
    Text.not_mem_marks (ht '=' hmem) (by decide)
  cases h with
  | numeral n =>
    refine Form.ofText_equation ?_ hliteral (isAssignment_symbol (hassign n.isNameChar) op u) he
    rw [List.append_assoc]
    cases op <;> exact Number.ofText?_of_stop n.ne_nil n.isDigit (by decide) (by decide) _
  | name n =>
    refine Form.ofText_equation ?_ hliteral (isAssignment_symbol (hassign n.isNameChar) op u) he
    rw [List.append_assoc]
    exact n.ofText?_append _
  | @group t h =>
    refine Form.ofText_equation ?_ hliteral rfl he
    rw [List.append_assoc]
    exact ofText?_enclose t _

/-- A single operand that is no numeral has no form of its own. -/
theorem IsAtom.form {t : Text} (h : IsAtom t) (hnumber : Number.ofText? t = none) :
    Form.ofText t = .other := by
  have hliteral := h.literal?_append []
  rw [List.append_nil] at hliteral
  exact Form.ofText_other hnumber hliteral (.inr (Equation.ofText?_of_pass h.isOperand.passed))

theorem form_print (op : Operator) (l r : Expression) :
    Form.ofText (node op l r).print = .equation
      ⟨encloseIf (l.isLoose op false) l.print, op, encloseIf (r.isLoose op true) r.print⟩ := by
  have hequation := equation_print op l r
  -- Only the first operand of the chain is looked at, and some operator follows it.
  obtain ⟨first, rest, hl⟩ : ∃ first rest, l.side op false = ⟨first, rest⟩ := ⟨_, _, rfl⟩
  have hatom : IsAtom first :=
    isAtom_side l.isAtom_operands op false first (by simp [hl, Chain.operands])
  have hprint : (node op l r).print = (node op l r).chain.text := (text_chain _).symm
  rw [chain_node, hl] at hprint
  cases rest with
  | nil =>
    have : (node op l r).print = first ++ op.symbol ++ (r.side op true).text := by
      simpa [Chain.text, Chain.join] using hprint
    rw [this] at hequation ⊢
    exact hatom.form_symbol op _ hequation
  | cons item rest =>
    obtain ⟨op', second⟩ := item
    have : (node op l r).print = first ++ op'.symbol ++
        ((⟨second, rest⟩ : Chain).join op (r.side op true)).text := by
      simpa [Chain.text, Chain.join] using hprint
    rw [this] at hequation ⊢
    exact hatom.form_symbol op' _ hequation

end Expression

end Scriptlet
