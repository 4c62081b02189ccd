import Scriptlet.Command.Equation

/-! How a command is cut into operands and split. A text that shows no operator is passed over, so
scanning a row of such texts with operators between them gives the chain it was written from; and
a chain splits at the operator that binds looser than those before it and no tighter than those
after it, with ties decided by the side the operator groups to. -/

namespace Scriptlet.Command

/-! ### Passing over operands -/

/-- The characters an operator can begin with. -/
def startsOperator (c : Char) : Bool :=
  ['=', '!', '>', '<', '^', '*', '/', '%', '+', '-'].contains c

theorem ofPair?_of_not_startsOperator {c : Char} (h : startsOperator c = false) (c' : Char) :
    Operator.ofPair? c c' = none := by
  unfold Operator.ofPair?
  split <;> first | rfl | simp [startsOperator] at h

theorem ofChar?_of_not_startsOperator {c : Char} (h : startsOperator c = false) :
    Operator.ofChar? c = none := by
  unfold Operator.ofChar?
  split <;> first | rfl | simp [startsOperator] at h

/-- The depth counts brackets wherever they stand. -/
theorem foldl_nest_eq (depth : Int) (t : Text) :
    t.foldl nest depth = depth + t.count '(' + t.count '\x7b' - t.count ')' - t.count '\x7d' := by
  induction t generalizing depth with
  | nil => simp
  | cons c t ih =>
    rw [List.foldl_cons, ih]
    unfold nest
    split <;> simp_all <;> omega

/-- The depth and the string state after a text that shows no operator: every character an operator
can begin with stands in brackets or in a string. -/
def pass (depth : Int) (inString : Bool) : Text → Option (Int × Bool)
  | [] => some (depth, inString)
  | c :: t =>
    if 0 < nest depth c || (inString != (c == '"')) || !startsOperator c then
      pass (nest depth c) (inString != (c == '"')) t
    else none

theorem pass_append (depth : Int) (inString : Bool) (t u : Text) :
    pass depth inString (t ++ u) =
      (pass depth inString t).bind fun (depth, inString) => pass depth inString u := by
  induction t generalizing depth inString with
  | nil => rfl
  | cons c t ih =>
    simp only [List.cons_append, pass]
    split
    · exact ih _ _
    · rfl

namespace Chain

/-- A text in front of the first operand. -/
def prepend (t : Text) (chain : Chain) : Chain := { chain with first := t ++ chain.first }

/-- Two chains with an operator between them. -/
def join (a : Chain) (op : Operator) (b : Chain) : Chain :=
  ⟨a.first, a.rest ++ (op, b.first) :: b.rest⟩

/-- The text that a chain was cut from. -/
def text (chain : Chain) : Text :=
  chain.first ++ chain.rest.flatMap fun (op, operand) => op.symbol ++ operand

theorem text_join (a b : Chain) (op : Operator) :
    (a.join op b).text = a.text ++ op.symbol ++ b.text := by
  simp [join, text]

theorem operands_join (a b : Chain) (op : Operator) :
    (a.join op b).operands = a.operands ++ b.operands := by
  simp [join, operands]

end Chain

/-- A character that is covered, or that no operator begins with, belongs to the current operand. -/
theorem scan_push {depth : Int} {inString : Bool} {c : Char}
    (h : (0 < nest depth c || (inString != (c == '"')) || !startsOperator c) = true) (t : Text) :
    scan depth inString (c :: t) =
      (scan (nest depth c) (inString != (c == '"')) t).push c := by
  by_cases hcover : (0 < nest depth c || (inString != (c == '"'))) = true
  · cases t <;> simp only [scan, hcover, if_true]
  · have hplain : startsOperator c = false := by simpa [hcover] using h
    have hchar := ofChar?_of_not_startsOperator hplain
    cases t with
    | nil => simp only [scan, hcover, hchar]; rfl
    | cons c' t =>
      simp only [scan, hcover, hchar, ofPair?_of_not_startsOperator hplain]
      rfl

theorem scan_append {depth depth' : Int} {inString inString' : Bool} {t : Text}
    (h : pass depth inString t = some (depth', inString')) (u : Text) :
    scan depth inString (t ++ u) = (scan depth' inString' u).prepend t := by
  induction t generalizing depth inString with
  | nil =>
    obtain ⟨rfl, rfl⟩ := Prod.mk.inj (Option.some.inj h)
    rfl
  | cons c t ih =>
    rw [pass] at h
    split at h
    · rename_i hc
      rw [List.cons_append, scan_push hc, ih h]
      rfl
    · cases h

/-- Scanning from outside all brackets stops at an operator. -/
theorem scan_symbol (op : Operator) {u : Text} (hu : u.head? ≠ some '=') :
    scan 0 false (op.symbol ++ u) = (scan 0 false u).before op := by
  cases u with
  | nil => cases op <;> rfl
  | cons c u =>
    have hc : c ≠ '=' := by simpa using hu
    cases op <;> simp [Operator.symbol, scan, nest, Operator.ofPair?, Operator.ofChar?, hc]

/-- A nonempty operand that stands outside all brackets and does not begin like a comparison. -/
structure IsOperand (t : Text) : Prop where
  ne_nil : t ≠ []
  head_ne : t.head? ≠ some '='
  passed : pass 0 false t = some (0, false)

theorem IsOperand.scan_eq {t : Text} (h : IsOperand t) : scan 0 false t = ⟨t, []⟩ := by
  have := scan_append h.passed []
  rw [List.append_nil] at this
  rw [this]
  simp [scan, Chain.prepend]

theorem IsOperand.scan_symbol {t : Text} (h : IsOperand t) (op : Operator) {u : Text}
    (hu : u.head? ≠ some '=') :
    scan 0 false (t ++ op.symbol ++ u) = Chain.join ⟨t, []⟩ op (scan 0 false u) := by
  rw [List.append_assoc, scan_append h.passed, Command.scan_symbol op hu]
  simp [Chain.prepend, Chain.before, Chain.join]

theorem IsOperand.head?_text {first : Text} (h : IsOperand first) (rest : List (Operator × Text)) :
    (⟨first, rest⟩ : Chain).text.head? ≠ some '=' := by
  obtain ⟨c, t, rfl⟩ := List.exists_cons_of_ne_nil h.ne_nil
  simpa [Chain.text] using h.head_ne

/-- A chain of operands is what its own text is cut into. -/
theorem scan_chain {chain : Chain} (h : ∀ t ∈ chain.operands, IsOperand t) :
    scan 0 false chain.text = chain := by
  obtain ⟨first, rest⟩ := chain
  induction rest generalizing first with
  | nil =>
    have := (h first (by simp [Chain.operands])).scan_eq
    simpa [Chain.text] using this
  | cons item rest ih =>
    obtain ⟨op', second⟩ := item
    have hrest : ∀ t ∈ (⟨second, rest⟩ : Chain).operands, IsOperand t := fun t ht =>
      h t (by simp [Chain.operands] at ht ⊢; exact .inr ht)
    have hsecond := hrest second (by simp [Chain.operands])
    have := (h first (by simp [Chain.operands])).scan_symbol op' (hsecond.head?_text rest)
    rw [ih second hrest] at this
    simpa [Chain.text, Chain.join] using this

theorem chain?_eq_some_iff {t : Text} {chain : Chain} :
    chain? t = some chain ↔ scan 0 false t = chain ∧ ∀ u ∈ chain.operands, u ≠ [] := by
  simp only [chain?, List.any_eq_true, List.isEmpty_iff]
  constructor
  · intro h
    split at h
    · cases h
    · next hany =>
      cases h
      exact ⟨rfl, fun u hu hnil => hany ⟨u, hu, hnil⟩⟩
  · rintro ⟨rfl, hne⟩
    rw [if_neg]
    rintro ⟨u, hu, hnil⟩
    exact hne u hu hnil

theorem chain?_text {chain : Chain} (h : ∀ t ∈ chain.operands, IsOperand t) :
    chain? chain.text = some chain :=
  chain?_eq_some_iff.2 ⟨scan_chain h, fun t ht => (h t ht).ne_nil⟩

/-! ### The loosest operator -/

namespace Equation

theorem loosest_eq_none {first : Text} {rest : List (Operator × Text)}
    (h : loosest first rest = none) : rest = [] := by
  cases rest with
  | nil => rfl
  | cons item rest =>
    rw [loosest] at h
    split at h
    · cases h
    · split at h <;> cases h

/-- A split takes one operator of the chain and leaves its text whole. -/
theorem loosest_some {first : Text} {rest : List (Operator × Text)} {e : Equation}
    (h : loosest first rest = some e) :
    e.op ∈ rest.map (·.1) ∧ e.text = (⟨first, rest⟩ : Chain).text := by
  induction rest generalizing first e with
  | nil => cases h
  | cons item rest ih =>
    obtain ⟨op, second⟩ := item
    rw [loosest] at h
    cases hrest : loosest second rest with
    | none =>
      rw [hrest] at h
      cases h
      simp [text, Chain.text, loosest_eq_none hrest]
    | some e' =>
      obtain ⟨hop, htext⟩ := ih hrest
      simp only [text, Chain.text, List.append_assoc] at htext
      simp only [hrest] at h
      split at h <;> cases h
      · exact ⟨List.mem_cons_of_mem _ hop, by simp [text, Chain.text, htext]⟩
      · exact ⟨List.mem_cons_self, by simp [text, Chain.text, htext]⟩

theorem groupsRight_eq_of_binding_eq {a b : Operator} (h : a.binding = b.binding) :
    a.groupsRight = b.groupsRight := by
  cases a <;> cases b <;> first | rfl | cases h

/-- Whether `op` lets go of its operands before `other` does: it binds looser, or they bind alike
and group to the side that `right` says. -/
def Looser (op other : Operator) (right : Bool) : Prop :=
  op.binding < other.binding ∨ op.binding = other.binding ∧ op.groupsRight = right

theorem Looser.binding_le {op other : Operator} {right : Bool} (h : Looser op other right) :
    op.binding ≤ other.binding := by
  rcases h with h | ⟨h, -⟩ <;> omega

theorem Looser.of_binding_le {op op' other : Operator} {right : Bool} (h : Looser op op' right)
    (hle : op'.binding ≤ other.binding) : Looser op other right := by
  rcases h with hlt | ⟨heq, hright⟩
  · exact .inl (by omega)
  · by_cases hother : op.binding = other.binding
    · exact .inr ⟨hother, hright⟩
    · exact .inl (by omega)

/-- Of two operators, one lets go first: the later one if it may, else the earlier one. -/
theorem looser_of_not_looser {op other : Operator} (h : ¬ Looser other op false) :
    Looser op other true := by
  rw [Looser, not_or, not_and, Bool.not_eq_false] at h
  by_cases heq : op.binding = other.binding
  · exact .inr ⟨heq, (groupsRight_eq_of_binding_eq heq).trans (h.2 heq.symm)⟩
  · exact .inl (by omega)

/-- The test by which the later of two operators is taken. -/
theorem looser_iff {op other : Operator} :
    (op.binding < other.binding || (op.binding == other.binding && !op.groupsRight)) = true ↔
      Looser op other false := by
  simp [Looser]

/-- An operator that is looser than those on its sides binds no tighter than any of the chain. -/
theorem binding_le_of_join {a b : Chain} {op : Operator}
    (ha : ∀ other ∈ a.rest.map (·.1), Looser op other false)
    (hb : ∀ other ∈ b.rest.map (·.1), Looser op other true) :
    ∀ other ∈ (a.join op b).rest.map (·.1), op.binding ≤ other.binding := by
  intro other hother
  rw [Chain.join, List.map_append, List.map_cons, List.mem_append, List.mem_cons] at hother
  rcases hother with hother | rfl | hother
  · exact (ha other hother).binding_le
  · exact Nat.le_refl _
  · exact (hb other hother).binding_le

/-- A chain splits at an operator that is looser than those before it and those after it. -/
theorem loosest_join {a b : Chain} {op : Operator}
    (ha : ∀ other ∈ a.rest.map (·.1), Looser op other false)
    (hb : ∀ other ∈ b.rest.map (·.1), Looser op other true) :
    loosest (a.join op b).first (a.join op b).rest = some ⟨a.text, op, b.text⟩ := by
  obtain ⟨first, rest⟩ := a
  simp only [Chain.join] at ha ⊢
  induction rest generalizing first with
  | nil =>
    rw [List.nil_append, loosest]
    cases hrest : loosest b.first b.rest with
    | none => simp [Chain.text, loosest_eq_none hrest]
    | some e =>
      obtain ⟨hop, htext⟩ := loosest_some hrest
      have hstay : (decide (e.op.binding < op.binding) ||
          e.op.binding == op.binding && !e.op.groupsRight) = false := by
        rcases hb e.op hop with hlt | ⟨heq, hright⟩
        · simp; omega
        · simp [← heq, ← groupsRight_eq_of_binding_eq heq, hright]
      simp [hstay, htext, Chain.text]
  | cons item rest ih =>
    obtain ⟨op', second⟩ := item
    have hmove : (decide (op.binding < op'.binding) ||
        op.binding == op'.binding && !op.groupsRight) = true := by
      rcases ha op' (by simp) with hlt | ⟨heq, hleft⟩
      · simp [hlt]
      · simp [heq, hleft]
    rw [List.cons_append, loosest, ih second fun other h => ha other (List.mem_cons_of_mem _ h)]
    simp [hmove, Chain.text]

theorem ofText?_eq_of_chain? {t : Text} {chain : Chain} (h : chain? t = some chain) :
    ofText? t = loosest chain.first chain.rest := by
  rw [ofText?, h]
  rfl

theorem ofText?_join {a b : Chain} {op : Operator}
    (hoperand : ∀ t ∈ a.operands ++ b.operands, IsOperand t)
    (ha : ∀ other ∈ a.rest.map (·.1), Looser op other false)
    (hb : ∀ other ∈ b.rest.map (·.1), Looser op other true) :
    ofText? (a.text ++ op.symbol ++ b.text) = some ⟨a.text, op, b.text⟩ := by
  rw [← Chain.operands_join a b op] at hoperand
  rw [← Chain.text_join, ofText?_eq_of_chain? (chain?_text hoperand)]
  exact loosest_join ha hb

/-- A text that shows no operator is no equation. -/
theorem ofText?_of_pass {t : Text} {state : Int × Bool} (h : pass 0 false t = some state) :
    ofText? t = none := by
  have hscan := scan_append h []
  rw [List.append_nil] at hscan
  simp only [ofText?, chain?, hscan, scan, Chain.prepend]
  split <;> rfl

end Equation

end Scriptlet.Command
