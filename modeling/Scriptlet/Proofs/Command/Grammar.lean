import Mathlib.Data.Bool.AllAny
import Mathlib.Data.List.Infix
import Scriptlet.Proofs.Command.Equation

/-! The tree that splitting builds. Each split takes a command apart at one operator and leaves two
texts, which are cut into operands anew. Cutting a part of a text that was cut between operators
gives the same operands again, as long as no bracket closes more than was opened; so splitting on
until nothing is left to split builds a tree over the operands of the command. It is the only tree
that the grammar of equations allows over them. -/

namespace Scriptlet.Command

namespace Chain

@[simp] theorem text_push (c : Char) (chain : Chain) : (chain.push c).text = c :: chain.text := rfl

@[simp] theorem text_before (op : Operator) (chain : Chain) :
    (chain.before op).text = op.symbol ++ chain.text := by
  simp [before, text]

end Chain

theorem symbol_of_ofPair? {c c' : Char} {op : Operator} (h : Operator.ofPair? c c' = some op) :
    op.symbol = [c, c'] := by
  unfold Operator.ofPair? at h
  split at h <;> cases h <;> rfl

theorem symbol_of_ofChar? {c : Char} {op : Operator} (h : Operator.ofChar? c = some op) :
    op.symbol = [c] := by
  unfold Operator.ofChar? at h
  split at h <;> cases h <;> rfl

/-! ### One step of cutting -/

/-- The operator that begins at a character, given the character after it. -/
def operatorAt (depth : Int) (inString : Bool) (c : Char) (next : Option Char) : Option Operator :=
  if 0 < nest depth c || inString != (c == '"') then none
  else (next.bind (Operator.ofPair? c)).or (Operator.ofChar? c)

/-- A character with which no operator begins belongs to the current operand. -/
theorem scan_of_operatorAt_none {depth : Int} {inString : Bool} {c : Char} {t : Text}
    (h : operatorAt depth inString c t.head? = none) :
    scan depth inString (c :: t) = (scan (nest depth c) (inString != (c == '"')) t).push c := by
  rw [operatorAt] at h
  split at h
  · next hcover => cases t <;> simp only [scan, hcover, if_true]
  · next hcover =>
    obtain ⟨hpair, hop⟩ := Option.or_eq_none_iff.1 h
    cases t with
    | nil =>
      simp only [scan, hcover, hop]
      rfl
    | cons c' t =>
      have hpair' : Operator.ofPair? c c' = none := hpair
      simp only [scan, hcover, hpair', hop]
      rfl

theorem nest_of_symbol {c : Char} {u : Text} {op : Operator} (h : op.symbol = c :: u)
    (depth : Int) : nest depth c = depth ∧ (c == '"') = false := by
  cases op <;> cases h <;> exact ⟨rfl, rfl⟩

/-- An operator stands outside all brackets and strings, and ends the operand before it. -/
theorem scan_of_operatorAt_some {depth : Int} {inString : Bool} {c : Char} {t : Text}
    {op : Operator} (h : operatorAt depth inString c t.head? = some op) :
    depth ≤ 0 ∧ inString = false ∧ ∃ u, c :: t = op.symbol ++ u ∧
      scan depth inString (c :: t) = (scan depth inString u).before op := by
  rw [operatorAt] at h
  split at h
  · cases h
  · next hcover =>
    have hplace (u : Text) (hsymbol : op.symbol = c :: u) : depth ≤ 0 ∧ inString = false := by
      obtain ⟨hnest, hquote⟩ := nest_of_symbol hsymbol depth
      simpa [hnest, hquote] using hcover
    rcases Option.or_eq_some_iff.1 h with hfound | ⟨hpair, hop⟩
    · obtain ⟨c', hhead, hpair⟩ := Option.bind_eq_some_iff.1 hfound
      obtain ⟨t, rfl⟩ : ∃ t', t = c' :: t' := List.head?_eq_some_iff.1 hhead
      have hsymbol := symbol_of_ofPair? hpair
      obtain ⟨hdepth, rfl⟩ := hplace _ hsymbol
      obtain ⟨hnest, hquote⟩ := nest_of_symbol hsymbol depth
      refine ⟨hdepth, rfl, t, by rw [hsymbol]; rfl, ?_⟩
      simp only [scan, hcover, hpair]
      rw [hnest, hquote]
      rfl
    · have hsymbol := symbol_of_ofChar? hop
      obtain ⟨hdepth, rfl⟩ := hplace _ hsymbol
      obtain ⟨hnest, hquote⟩ := nest_of_symbol hsymbol depth
      refine ⟨hdepth, rfl, t, by rw [hsymbol]; rfl, ?_⟩
      cases t with
      | nil =>
        simp only [scan, hcover, hop]
        rfl
      | cons c' t =>
        have hpair' : Operator.ofPair? c c' = none := hpair
        simp only [scan, hcover, hpair', hop]
        rw [hnest, hquote]
        rfl

/-- A text that ends early shows no new operator at a character. -/
theorem operatorAt_none_of_head? {depth : Int} {inString : Bool} {c : Char} {t w : Text}
    (h : operatorAt depth inString c t.head? = none) (hw : w = [] ∨ w.head? = t.head?) :
    operatorAt depth inString c w.head? = none := by
  rcases hw with rfl | hw
  · rw [operatorAt] at h ⊢
    split at h
    · next hcover => rw [if_pos hcover]
    · next hcover =>
      rw [if_neg hcover]
      exact (Option.or_eq_none_iff.1 h).2
  · rwa [hw]

/-- An operator is found also where the text ends earlier after it. -/
theorem scan_symbol_of_operatorAt {depth : Int} {inString : Bool} {c : Char} {t u w : Text}
    {op : Operator} (h : operatorAt depth inString c t.head? = some op)
    (ht : c :: t = op.symbol ++ u) (hw : w = [] ∨ w.head? = u.head?) :
    scan depth inString (op.symbol ++ w) = (scan depth inString w).before op := by
  obtain ⟨k, hsymbol⟩ : ∃ k, op.symbol = c :: k := by
    cases op <;> cases ht <;> exact ⟨_, rfl⟩
  rw [hsymbol] at ht ⊢
  obtain rfl : t = k ++ u := (List.cons.inj ht).2
  have hfound : operatorAt depth inString c (k ++ w).head? = some op := by
    cases k with
    | cons c' k => exact h
    | nil =>
      rcases hw with rfl | hw
      · rw [operatorAt] at h ⊢
        split at h
        · cases h
        · next hcover =>
          rw [if_neg hcover]
          rcases Option.or_eq_some_iff.1 h with hfound | ⟨-, hop⟩
          · obtain ⟨c', -, hpair⟩ := Option.bind_eq_some_iff.1 hfound
            rw [symbol_of_ofPair? hpair] at hsymbol
            cases hsymbol
          · exact hop
      · simpa [hw] using h
  obtain ⟨-, -, v, hv, hscan⟩ := scan_of_operatorAt_some hfound
  rw [hsymbol] at hv
  obtain rfl : w = v := List.append_cancel_left (List.cons.inj hv).2
  exact hscan

/-- Cutting a text loses nothing. -/
theorem text_scan (depth : Int) (inString : Bool) (t : Text) :
    (scan depth inString t).text = t := by
  fun_induction scan depth inString t with
  | case1 => rfl
  | case2 => simp [*]
  | case3 _ _ _ _ _ _ op hop => simp [symbol_of_ofChar? hop, Chain.text, Chain.before]
  | case4 => rfl
  | case5 _ _ _ _ _ _ _ _ op hop ih => simp [symbol_of_ofPair? hop, ih]
  | case6 _ _ _ _ _ _ _ _ _ op hop ih => simp [symbol_of_ofChar? hop, ih]
  | case7 => simp [*]

namespace Chain

theorem push_eq_join {c : Char} {x a b : Chain} {op : Operator} (h : x.push c = a.join op b) :
    ∃ a' : Chain, x = a'.join op b ∧ a = a'.push c := by
  obtain ⟨first, rest⟩ := a
  obtain ⟨rfl, hrest⟩ := Chain.mk.inj h
  exact ⟨⟨x.first, rest⟩, by rw [join, ← hrest], rfl⟩

theorem before_eq_join {op op' : Operator} {x a b : Chain} (h : x.before op' = a.join op b) :
    a = ⟨[], []⟩ ∧ op' = op ∧ x = b ∨ ∃ a' : Chain, x = a'.join op b ∧ a = a'.before op' := by
  obtain ⟨first, rest⟩ := a
  obtain ⟨xfirst, xrest⟩ := x
  obtain ⟨rfl, hrest⟩ := Chain.mk.inj h
  cases rest with
  | nil =>
    obtain ⟨hitem, rfl⟩ := List.cons.inj hrest
    obtain ⟨rfl, rfl⟩ := Prod.mk.inj hitem
    exact .inl ⟨rfl, rfl, rfl⟩
  | cons item rest =>
    obtain ⟨rfl, rfl⟩ := List.cons.inj hrest
    exact .inr ⟨⟨xfirst, rest⟩, rfl, rfl⟩

theorem rest_join_ne_nil (a b : Chain) (op : Operator) : (a.join op b).rest ≠ [] := by
  simp [join]

end Chain

/-- The head of a text is the head of a longer one, unless it is empty. -/
theorem head?_append_or (t u : Text) : t = [] ∨ t.head? = (t ++ u).head? := by
  cases t <;> simp

/-- Cutting a text again on either side of an operator gives the two sides of its chain. The depth
behind the operator is that in front of it, and not above zero. -/
theorem scan_join {depth : Int} {inString : Bool} {t : Text} {a b : Chain} {op : Operator}
    (h : scan depth inString t = a.join op b) :
    scan depth inString a.text = a ∧ a.text.foldl nest depth ≤ 0 ∧
      scan (a.text.foldl nest depth) false b.text = b := by
  induction hn : t.length using Nat.strongRecOn generalizing depth inString t a with
  | _ n ih =>
  subst hn
  cases t with
  | nil => exact absurd (congrArg Chain.rest h).symm (Chain.rest_join_ne_nil a b op)
  | cons c t =>
    cases hop : operatorAt depth inString c t.head? with
    | none =>
      rw [scan_of_operatorAt_none hop] at h
      obtain ⟨a', hrest, rfl⟩ := Chain.push_eq_join h
      obtain ⟨hleft, hdepth, hright⟩ := ih _ (by simp) hrest rfl
      refine ⟨?_, hdepth, hright⟩
      have htext : t = a'.text ++ (op.symbol ++ b.text) := by
        rw [← List.append_assoc, ← Chain.text_join, ← hrest, text_scan]
      have hnone := operatorAt_none_of_head? hop (htext ▸ head?_append_or a'.text _)
      rw [Chain.text_push, scan_of_operatorAt_none hnone, hleft]
    | some op' =>
      obtain ⟨hdepth, rfl, u, hu, hscan⟩ := scan_of_operatorAt_some hop
      rw [hscan] at h
      obtain ⟨rfl, rfl, rfl⟩ | ⟨a', hrest, rfl⟩ := Chain.before_eq_join h
      · exact ⟨rfl, hdepth, by rw [text_scan]; rfl⟩
      · have hlength : u.length < (c :: t).length := by
          rw [hu, List.length_append]
          cases op' <;> simp [Operator.symbol]
        obtain ⟨hleft, hdepth', hright⟩ := ih _ hlength hrest rfl
        have hfold : (a'.before op').text.foldl nest depth = a'.text.foldl nest depth := by
          rw [Chain.text_before, List.foldl_append]
          cases op' <;> rfl
        rw [hfold]
        refine ⟨?_, hdepth', hright⟩
        have htext : u = a'.text ++ (op.symbol ++ b.text) := by
          rw [← List.append_assoc, ← Chain.text_join, ← hrest, text_scan]
        rw [Chain.text_before,
          scan_symbol_of_operatorAt hop hu (htext ▸ head?_append_or a'.text _), hleft]

/-! ### Where a chain splits -/

namespace Equation

/-- A chain splits between two chains, at an operator that is looser than all others. -/
theorem exists_join_of_loosest {first : Text} {rest : List (Operator × Text)} {e : Equation}
    (h : loosest first rest = some e) :
    ∃ a b : Chain, ⟨first, rest⟩ = a.join e.op b ∧ e.left = a.text ∧ e.right = b.text ∧
      (∀ other ∈ a.rest.map (·.1), Looser e.op other false) ∧
      ∀ other ∈ b.rest.map (·.1), Looser e.op other true := by
  induction rest generalizing first e with
  | nil => cases h
  | cons item rest ih =>
    obtain ⟨op, second⟩ := item
    rw [loosest] at h
    cases hrest : loosest second rest with
    | none =>
      rw [hrest] at h
      cases h
      cases loosest_eq_none hrest
      exact ⟨⟨first, []⟩, ⟨second, []⟩, rfl, by simp [Chain.text], by simp [Chain.text], by simp,
        by simp⟩
    | some e' =>
      obtain ⟨a, b, hjoin, hleft, hright, ha, hb⟩ := ih hrest
      simp only [hrest] at h
      split at h
      · next hmove =>
        cases h
        refine ⟨⟨first, (op, a.first) :: a.rest⟩, b, ?_, ?_, hright, ?_, hb⟩
        · obtain ⟨rfl, rfl⟩ := Chain.mk.inj hjoin
          rfl
        · simp [Chain.text, hleft]
        · intro other hother
          rcases List.mem_cons.1 hother with rfl | hother
          · exact looser_iff.1 hmove
          · exact ha other hother
      · next hstay =>
        cases h
        obtain ⟨-, htext⟩ := loosest_some hrest
        refine ⟨⟨first, []⟩, ⟨second, rest⟩, rfl, by simp [Chain.text], htext, by simp, ?_⟩
        have hroot : Looser op e'.op true := looser_of_not_looser (hstay ∘ looser_iff.2)
        intro other hother
        exact hroot.of_binding_le (binding_le_of_join ha hb other (hjoin ▸ hother))

theorem text_of_ofText? {t : Text} {e : Equation} (h : ofText? t = some e) : e.text = t := by
  obtain ⟨chain, hchain, hsplit⟩ := Option.bind_eq_some_iff.1 h
  obtain ⟨rfl, -⟩ := chain?_eq_some_iff.1 hchain
  rw [(loosest_some hsplit).2, text_scan]

theorem length_lt_of_ofText? {t : Text} {e : Equation} (h : ofText? t = some e) :
    e.left.length < t.length ∧ e.right.length < t.length := by
  have hsymbol : 0 < e.op.symbol.length := by cases e.op <;> decide
  have htext := congrArg List.length (text_of_ofText? h)
  simp only [text, List.length_append] at htext
  omega

end Equation

/-! ### Trees -/

/-- Operands with the operators that join them. -/
inductive Tree
  | leaf (operand : Text)
  | node (left : Tree) (op : Operator) (right : Tree)

namespace Tree

def leaves : Tree → List Text
  | leaf t => [t]
  | node l _ r => l.leaves ++ r.leaves

/-- Splits a text, then the two texts that this gives, until no text splits any more. -/
def ofText (t : Text) : Tree :=
  match h : Equation.ofText? t with
  | none => leaf t
  | some e =>
    have := Equation.length_lt_of_ofText? h
    node (ofText e.left) e.op (ofText e.right)
termination_by t.length
decreasing_by all_goals omega

theorem ofText_leaf {t : Text} (h : Equation.ofText? t = none) : ofText t = leaf t := by
  rw [ofText]
  split
  · rfl
  · next e he => rw [h] at he; cases he

theorem ofText_node {t : Text} {e : Equation} (h : Equation.ofText? t = some e) :
    ofText t = node (ofText e.left) e.op (ofText e.right) := by
  rw [ofText]
  split
  · next he => rw [h] at he; cases he
  · next e' he =>
    rw [h] at he
    cases he
    rfl

end Tree

/-! ### The grammar of equations -/

/-- What an equation can stand as, the loosest first. -/
inductive Level
  | comparison | sum | product | power | operand
  deriving DecidableEq

namespace Level

def operators : Level → List Operator
  | comparison => [.equal, .unequal, .greaterEqual, .lessEqual, .greater, .less]
  | sum => [.plus, .minus]
  | product => [.times, .divide, .remainder]
  | power => [.power]
  | operand => []

def tighter : Level → Level
  | comparison => sum
  | sum => product
  | product => power
  | power | operand => operand

/-- How tightly the operators of a level hold their operands. -/
def binding : Level → Nat
  | comparison => 0
  | sum => 1
  | product => 2
  | power => 3
  | operand => 4

theorem binding_of_mem {k : Level} {op : Operator} (h : op ∈ k.operators) :
    op.binding = k.binding := by
  cases k <;> cases op <;> first | rfl | simp [operators] at h

theorem binding_tighter {k : Level} (h : k ≠ operand) : k.tighter.binding = k.binding + 1 := by
  cases k <;> first | rfl | exact absurd rfl h

theorem groupsRight_of_mem {k : Level} {op : Operator} (h : op ∈ k.operators) :
    op.groupsRight = decide (k = power) := by
  cases k <;> cases op <;> first | rfl | simp [operators] at h

end Level

/-- The grammar: a chain of comparisons, sums or products groups from the left and its parts are of
the next level; a chain of powers groups from the right. -/
inductive Parses : Level → Chain → Tree → Prop
  | operand (t : Text) : Parses .operand ⟨t, []⟩ (.leaf t)
  | pass {k : Level} {chain : Chain} {tree : Tree} : Parses k.tighter chain tree →
      Parses k chain tree
  | left {k : Level} {a b : Chain} {l r : Tree} {op : Operator} (hop : op ∈ k.operators)
      (hk : k ≠ .power) : Parses k a l → Parses k.tighter b r →
      Parses k (a.join op b) (.node l op r)
  | right {a b : Chain} {l r : Tree} : Parses .operand a l → Parses .power b r →
      Parses .power (a.join .power b) (.node l .power r)

theorem Parses.leaves_eq {k : Level} {chain : Chain} {tree : Tree} (h : Parses k chain tree) :
    tree.leaves = chain.operands := by
  induction h with
  | operand t => rfl
  | pass _ ih => exact ih
  | left _ _ _ _ hl hr => rw [Tree.leaves, hl, hr, Chain.operands_join]
  | right _ _ hl hr => rw [Tree.leaves, hl, hr, Chain.operands_join]

theorem Level.binding_le_tighter (k : Level) : k.binding ≤ k.tighter.binding := by
  cases k <;> decide

/-- What stands at a level shows no operator of a looser one. -/
theorem Parses.binding_le {k : Level} {chain : Chain} {tree : Tree} (h : Parses k chain tree) :
    ∀ op ∈ chain.rest.map (·.1), k.binding ≤ op.binding := by
  have hjoin {k : Level} {a b : Chain} {op : Operator} (hop : k.binding ≤ op.binding)
      (ha : ∀ op ∈ a.rest.map (·.1), k.binding ≤ op.binding)
      (hb : ∀ op ∈ b.rest.map (·.1), k.binding ≤ op.binding) :
      ∀ other ∈ (a.join op b).rest.map (·.1), k.binding ≤ other.binding := by
    intro other hother
    rw [Chain.join, List.map_append, List.map_cons, List.mem_append, List.mem_cons] at hother
    rcases hother with hother | rfl | hother
    · exact ha other hother
    · exact hop
    · exact hb other hother
  induction h with
  | operand t => simp
  | @pass k _ _ _ ih => exact fun op hop => Nat.le_trans k.binding_le_tighter (ih op hop)
  | @left k _ _ _ _ op hop _ _ _ hl hr =>
    exact hjoin (Nat.le_of_eq (Level.binding_of_mem hop).symm) hl
      fun op hop => Nat.le_trans k.binding_le_tighter (hr op hop)
  | right _ _ hl hr =>
    exact hjoin (by decide) (fun op hop => Nat.le_of_succ_le (hl op hop)) hr

/-! ### Splitting follows the grammar -/

/-- A chain that its text is cut into, by brackets that never close more than was opened. -/
structure Steady (chain : Chain) : Prop where
  scan_eq : scan 0 false chain.text = chain
  ne_nil : ∀ t ∈ chain.operands, t ≠ []
  nonneg : ∀ t, t <+: chain.text → 0 ≤ t.foldl nest 0

theorem Steady.chain?_eq {chain : Chain} (h : Steady chain) : chain? chain.text = some chain :=
  chain?_eq_some_iff.2 ⟨h.scan_eq, h.ne_nil⟩

theorem Steady.left {a b : Chain} {op : Operator} (h : Steady (a.join op b)) : Steady a where
  scan_eq := by
    have hscan := h.scan_eq
    exact (scan_join hscan).1
  ne_nil t ht := h.ne_nil t (by rw [Chain.operands_join]; exact List.mem_append_left _ ht)
  nonneg t ht := h.nonneg t (by
    rw [Chain.text_join, List.append_assoc]
    exact ht.trans (List.prefix_append _ _))

theorem foldl_nest_symbol (op : Operator) (depth : Int) : op.symbol.foldl nest depth = depth := by
  cases op <;> rfl

theorem Steady.foldl_nest_left {a b : Chain} {op : Operator} (h : Steady (a.join op b)) :
    a.text.foldl nest 0 = 0 := by
  have hle := (scan_join h.scan_eq).2.1
  have hge := h.nonneg a.text (by
    rw [Chain.text_join, List.append_assoc]
    exact List.prefix_append _ _)
  omega

theorem Steady.right {a b : Chain} {op : Operator} (h : Steady (a.join op b)) : Steady b where
  scan_eq := by
    have hright := (scan_join h.scan_eq).2.2
    rwa [h.foldl_nest_left] at hright
  ne_nil t ht := h.ne_nil t (by rw [Chain.operands_join]; exact List.mem_append_right _ ht)
  nonneg t ht := by
    have hprefix : a.text ++ op.symbol ++ t <+: (a.join op b).text := by
      rw [Chain.text_join]
      exact (List.prefix_append_right_inj _).2 ht
    have hnonneg := h.nonneg _ hprefix
    rwa [List.foldl_append, List.foldl_append, h.foldl_nest_left, foldl_nest_symbol] at hnonneg

theorem Steady.ofText?_eq {chain : Chain} (h : Steady chain) :
    Equation.ofText? chain.text = Equation.loosest chain.first chain.rest :=
  Equation.ofText?_eq_of_chain? h.chain?_eq

/-- Splitting on builds the tree of any parse. -/
theorem Parses.ofText_eq {k : Level} {chain : Chain} {tree : Tree} (h : Parses k chain tree)
    (hsteady : Steady chain) : Tree.ofText chain.text = tree := by
  induction h with
  | operand t =>
    have hnone : Equation.ofText? (⟨t, []⟩ : Chain).text = none := hsteady.ofText?_eq
    rw [Tree.ofText_leaf hnone]
    simp [Chain.text]
  | pass _ ih => exact ih hsteady
  | @left k a b l r op hop hk hl hr ihl ihr =>
    have hbinding := Level.binding_of_mem hop
    have hnext : k.tighter.binding = k.binding + 1 :=
      Level.binding_tighter (by rintro rfl; cases hop)
    have hgroups : op.groupsRight = false := by simp [Level.groupsRight_of_mem hop, hk]
    have hloosest : Equation.loosest (a.join op b).first (a.join op b).rest =
        some ⟨a.text, op, b.text⟩ := by
      refine Equation.loosest_join (fun other hother => ?_) (fun other hother => ?_)
      · have := hl.binding_le other hother
        by_cases heq : op.binding = other.binding
        · exact .inr ⟨heq, hgroups⟩
        · exact .inl (by omega)
      · have := hr.binding_le other hother
        exact .inl (by omega)
    have hsplit := hsteady.ofText?_eq.trans hloosest
    rw [Tree.ofText_node hsplit, ihl hsteady.left, ihr hsteady.right]
  | @right a b l r hl hr ihl ihr =>
    have hloosest : Equation.loosest (a.join .power b).first (a.join .power b).rest =
        some ⟨a.text, .power, b.text⟩ := by
      refine Equation.loosest_join (fun other hother => .inl (hl.binding_le other hother))
        (fun other hother => ?_)
      have hle : Operator.power.binding ≤ other.binding := hr.binding_le other hother
      by_cases heq : Operator.power.binding = other.binding
      · exact .inr ⟨heq, rfl⟩
      · exact .inl (by omega)
    have hsplit := hsteady.ofText?_eq.trans hloosest
    rw [Tree.ofText_node hsplit, ihl hsteady.left, ihr hsteady.right]

/-- What stands at a tighter level stands at a looser one. -/
theorem Parses.of_binding_le {k k' : Level} {chain : Chain} {tree : Tree}
    (h : Parses k' chain tree) (hle : k.binding ≤ k'.binding) : Parses k chain tree := by
  have hcomparison (h : Parses .sum chain tree) : Parses .comparison chain tree := .pass h
  have hsum (h : Parses .product chain tree) : Parses .sum chain tree := .pass h
  have hproduct (h : Parses .power chain tree) : Parses .product chain tree := .pass h
  have hpower (h : Parses .operand chain tree) : Parses .power chain tree := .pass h
  cases k <;> cases k' <;> simp [Level.binding] at hle <;> simp_all

theorem Level.exists_mem_operators (op : Operator) : ∃ k : Level, op ∈ k.operators := by
  cases op
  case plus | minus => exact ⟨.sum, by decide⟩
  case times | divide | remainder => exact ⟨.product, by decide⟩
  case power => exact ⟨.power, by decide⟩
  all_goals exact ⟨.comparison, by decide⟩

/-- The tree that splitting builds is a parse, at every level that shows no operator that is too
loose for it. -/
theorem Steady.parses_ofText {chain : Chain} (h : Steady chain) {k : Level}
    (hk : ∀ op ∈ chain.rest.map (·.1), k.binding ≤ op.binding) :
    Parses k chain (Tree.ofText chain.text) := by
  induction hn : chain.rest.length using Nat.strongRecOn generalizing chain k with
  | _ n ih =>
  subst hn
  cases hsplit : Equation.ofText? chain.text with
  | none =>
    rw [h.ofText?_eq] at hsplit
    obtain ⟨first, rest⟩ := chain
    cases Equation.loosest_eq_none hsplit
    rw [Tree.ofText_leaf (h.ofText?_eq.trans hsplit)]
    have hleaf : Parses .operand ⟨first, []⟩ (.leaf (⟨first, []⟩ : Chain).text) := by
      simpa [Chain.text] using Parses.operand first
    exact hleaf.of_binding_le (by cases k <;> decide)
  | some e =>
    rw [Tree.ofText_node hsplit]
    rw [h.ofText?_eq] at hsplit
    obtain ⟨a, b, hjoin, hleft, hright, ha, hb⟩ := Equation.exists_join_of_loosest hsplit
    obtain ⟨left, op, right⟩ := e
    simp only at hjoin hleft hright ha hb
    obtain rfl : chain = a.join op b := hjoin
    subst hleft hright
    obtain ⟨m, hm⟩ := Level.exists_mem_operators op
    have hbinding := Level.binding_of_mem hm
    have hgroups := Level.groupsRight_of_mem hm
    have hnext : m.tighter.binding = m.binding + 1 :=
      Level.binding_tighter (by rintro rfl; cases hm)
    have hlengths : a.rest.length < (a.join op b).rest.length ∧
        b.rest.length < (a.join op b).rest.length := by
      simp only [Chain.join, List.length_append, List.length_cons]
      omega
    have hroot : Parses m (a.join op b) (.node (Tree.ofText a.text) op (Tree.ofText b.text)) := by
      by_cases hpower : m = .power
      · subst hpower
        obtain rfl : op = .power := by simpa [Level.operators] using hm
        refine .right (ih _ hlengths.1 h.left (fun other hother => ?_) rfl)
          (ih _ hlengths.2 h.right (fun other hother => (hb other hother).binding_le) rfl)
        rcases ha other hother with hlt | ⟨-, hright⟩
        · exact hlt
        · cases hright
      · refine .left hm hpower
          (ih _ hlengths.1 h.left (fun other hother => hbinding ▸ (ha other hother).binding_le) rfl)
          (ih _ hlengths.2 h.right (fun other hother => ?_) rfl)
        rcases hb other hother with hlt | ⟨-, hright⟩
        · omega
        · simp [hgroups, hpower] at hright
    refine hroot.of_binding_le ?_
    rw [← hbinding]
    exact hk op (by simp [Chain.join])

/-- Splitting a command on and on builds the tree over its operands that the grammar demands: no
other one parses its chain. Brackets must not close more than was opened. -/
theorem tree_parses_uniquely {t : Text} {chain : Chain} (hchain : chain? t = some chain)
    (hdepth : ∀ u, u <+: t → 0 ≤ u.foldl nest 0) :
    (Tree.ofText t).leaves = chain.operands ∧
      ∀ tree, Parses .comparison chain tree ↔ tree = Tree.ofText t := by
  obtain ⟨hscan, hne⟩ := chain?_eq_some_iff.1 hchain
  obtain rfl : chain.text = t := by rw [← hscan, text_scan]
  have hsteady : Steady chain := ⟨hscan, hne, hdepth⟩
  have hparses : Parses .comparison chain (Tree.ofText chain.text) :=
    hsteady.parses_ofText fun _ _ => Nat.zero_le _
  refine ⟨hparses.leaves_eq, fun tree => ⟨fun h => (h.ofText_eq hsteady).symm, ?_⟩⟩
  rintro rfl
  exact hparses

/-- Differences group from the left and powers from the right, and an operand may end with an equals
sign or hold operators in brackets. -/
theorem tree_parses_uniquely_sample :
    Tree.ofText "a=-(b+1)-2^c^d".toList =
      .node (.node (.leaf "a=".toList) .minus (.leaf "(b+1)".toList)) .minus
        (.node (.leaf "2".toList) .power
          (.node (.leaf "c".toList) .power (.leaf "d".toList))) := by
  have hchain : chain? "a=-(b+1)-2^c^d".toList =
      some ⟨"a=".toList, [(.minus, "(b+1)".toList), (.minus, "2".toList), (.power, "c".toList),
        (.power, "d".toList)]⟩ := by
    simp [chain?, scan, nest, Operator.ofPair?, Operator.ofChar?, Chain.push, Chain.before,
      Chain.operands]
  have hdepth : ∀ u ∈ "a=-(b+1)-2^c^d".toList.inits, 0 ≤ u.foldl nest 0 :=
    List.all_iff_forall_prop.1 (by decide)
  obtain ⟨-, hparses⟩ :=
    tree_parses_uniquely hchain fun u hu => hdepth u ((List.mem_inits _ _).2 hu)
  have hoperand (t : Text) : Parses .operand ⟨t, []⟩ (.leaf t) := .operand t
  have hpower : Parses .product ⟨"2".toList, [(.power, "c".toList), (.power, "d".toList)]⟩
      (.node (.leaf "2".toList) .power (.node (.leaf "c".toList) .power (.leaf "d".toList))) :=
    .pass (.right (hoperand _) (.right (hoperand _) (.pass (hoperand _))))
  have hdifference : Parses .sum ⟨"a=".toList, [(.minus, "(b+1)".toList)]⟩
      (.node (.leaf "a=".toList) .minus (.leaf "(b+1)".toList)) :=
    .left (k := .sum) (by decide) (by decide) ((hoperand _).of_binding_le (by decide))
      ((hoperand _).of_binding_le (by decide))
  exact ((hparses _).1 (.pass (.left (k := .sum) (by decide) (by decide) hdifference hpower))).symm

end Scriptlet.Command
