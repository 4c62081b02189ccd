import Scriptlet.Proofs.Command.Grammar
import Scriptlet.Value

/-! String literals in equations. No operator is read inside a literal, but the brackets inside it
count like all others. So what matters of the contents of a literal is by how much they change the
depth: two literals can stand for each other in every command exactly if they change it alike, and
then cutting and splitting the command differ by the literal only. -/

namespace Scriptlet.Command

/-! ### Passing a literal -/

theorem foldl_nest_add (depth : Int) (t : Text) :
    t.foldl nest depth = depth + t.foldl nest 0 := by
  rw [foldl_nest_eq, foldl_nest_eq 0]
  omega

theorem pass_string (depth : Int) {t : Text} (h : '"' ∉ t) :
    pass depth true t = some (t.foldl nest depth, true) := by
  induction t generalizing depth with
  | nil => rfl
  | cons c t ih =>
    obtain ⟨hc, ht⟩ := List.ne_and_not_mem_of_not_mem_cons h
    have hquote : (c == '"') = false := by simpa using hc.symm
    rw [pass, hquote, if_pos (by simp)]
    exact ih _ ht

/-- A literal shows no operator, and its brackets count. -/
theorem pass_quote (depth : Int) {t : Text} (h : '"' ∉ t) :
    pass depth false t.quote = some (depth + t.foldl nest 0, false) := by
  have hclose : pass depth true (t ++ ['"']) = some (t.foldl nest depth, false) := by
    rw [pass_append, pass_string depth h]
    simp [pass, nest, startsOperator]
  rw [foldl_nest_add] at hclose
  simpa [Text.quote, pass, nest] using hclose

theorem scan_quote (depth : Int) {t : Text} (h : '"' ∉ t) (u : Text) :
    scan depth false (t.quote ++ u) = (scan (depth + t.foldl nest 0) false u).prepend t.quote :=
  scan_append (pass_quote depth h) u

/-! ### Commands that differ by a literal -/

/-- Two chains that have the same operators at the same places, and the same operands but for one,
in which `x` stands for `y`. -/
inductive Chain.Alike (x y : Text) : Chain → Chain → Prop
  | here (l r : Text) (rest : List (Operator × Text)) :
      Alike x y ⟨l ++ x ++ r, rest⟩ ⟨l ++ y ++ r, rest⟩
  | later (first : Text) (op : Operator) {a b : Chain} : Alike x y a b →
      Alike x y ⟨first, (op, a.first) :: a.rest⟩ ⟨first, (op, b.first) :: b.rest⟩

/-- Two equations at the same operator with the same operands but for one, in which `x` stands for
`y`. -/
inductive Equation.Alike (x y : Text) : Equation → Equation → Prop
  | left (l r : Text) (op : Operator) (right : Text) :
      Alike x y ⟨l ++ x ++ r, op, right⟩ ⟨l ++ y ++ r, op, right⟩
  | right (left : Text) (op : Operator) (l r : Text) :
      Alike x y ⟨left, op, l ++ x ++ r⟩ ⟨left, op, l ++ y ++ r⟩

variable {x y : Text}

namespace Chain.Alike

variable {a b : Chain}

theorem push (h : Alike x y a b) (c : Char) : Alike x y (a.push c) (b.push c) := by
  cases h with
  | here l r rest => exact here (c :: l) r rest
  | later first op h => exact later (c :: first) op h

theorem before (h : Alike x y a b) (op : Operator) : Alike x y (a.before op) (b.before op) :=
  later [] op h

theorem length_rest (h : Alike x y a b) : a.rest.length = b.rest.length := by
  induction h with
  | here => rfl
  | later first op h ih => simp [ih]

theorem any_isEmpty (h : Alike x y a b) (hx : x ≠ []) (hy : y ≠ []) :
    a.operands.any List.isEmpty = b.operands.any List.isEmpty := by
  induction h with
  | here l r rest =>
    have hleft : (l ++ x ++ r).isEmpty = false := by simp [List.isEmpty_eq_false_iff, hx]
    have hright : (l ++ y ++ r).isEmpty = false := by simp [List.isEmpty_eq_false_iff, hy]
    rw [operands, List.any_cons, operands, List.any_cons, hleft, hright]
  | later first op h ih =>
    simp only [operands, List.any_cons, List.map_cons] at ih ⊢
    rw [ih]

/-- The same operator is the loosest in both. -/
theorem loosest (h : Alike x y a b) :
    Option.Rel (Equation.Alike x y) (Equation.loosest a.first a.rest)
      (Equation.loosest b.first b.rest) := by
  induction h with
  | here l r rest =>
    cases rest with
    | nil => exact .none
    | cons item rest =>
      obtain ⟨op, second⟩ := item
      simp only [Equation.loosest]
      cases Equation.loosest second rest with
      | none => exact .some (.left l r op second)
      | some e =>
        simp only
        split
        · have := Equation.Alike.left (x := x) (y := y) l (r ++ op.symbol ++ e.left) e.op e.right
          exact .some (by simpa using this)
        · exact .some (.left l r op e.text)
  | @later first op a b h ih =>
    simp only [Equation.loosest]
    cases ha : Equation.loosest a.first a.rest with
    | none =>
      rw [ha] at ih
      cases hb : Equation.loosest b.first b.rest with
      | some e => rw [hb] at ih; cases ih
      | none =>
        have hrest := Equation.loosest_eq_none ha
        cases h with
        | here l r rest => exact .some (.right first op l r)
        | later => cases hrest
    | some e =>
      rw [ha] at ih
      cases hb : Equation.loosest b.first b.rest with
      | none => rw [hb] at ih; cases ih
      | some e' =>
        rw [hb] at ih
        cases ih with
        | some halike =>
          cases halike with
          | left l r op' right =>
            simp only
            split
            · have := Equation.Alike.left (x := x) (y := y) (first ++ op.symbol ++ l) r op' right
              exact .some (by simpa using this)
            · have := Equation.Alike.right (x := x) (y := y) first op l (r ++ op'.symbol ++ right)
              exact .some (by simpa [Equation.text] using this)
          | right left op' l r =>
            simp only
            split
            · exact .some (.right _ op' l r)
            · have := Equation.Alike.right (x := x) (y := y) first op (left ++ op'.symbol ++ l) r
              exact .some (by simpa [Equation.text] using this)

end Chain.Alike

/-- Whether a string is open after a text. -/
def openAfter (inString : Bool) (t : Text) : Bool := t.foldl (fun b c => b != (c == '"')) inString

theorem openAfter_eq (inString : Bool) (t : Text) :
    openAfter inString t = (inString != (t.count '"' % 2 == 1)) := by
  induction t generalizing inString with
  | nil => simp [openAfter]
  | cons c t ih =>
    rw [openAfter, List.foldl_cons, ← openAfter, ih, List.count_cons]
    rcases Nat.mod_two_eq_zero_or_one (t.count '"') with hcount | hcount <;>
      cases hc : c == '"' <;> simp [Nat.add_mod, hcount]

theorem openAfter_symbol (inString : Bool) (op : Operator) (t : Text) :
    openAfter inString (op.symbol ++ t) = openAfter inString t := by
  cases op <;> simp [openAfter, Operator.symbol]

theorem symbol_append_of_head? {c : Char} {p t u : Text} {op : Operator} (ht : t.head? = some '"')
    (h : c :: (p ++ t) = op.symbol ++ u) : ∃ r, c :: p = op.symbol ++ r := by
  obtain ⟨t, rfl⟩ := List.head?_eq_some_iff.1 ht
  cases p <;> cases op <;> simp [Operator.symbol] at h ⊢ <;> simp [h]

/-- Cutting a command behind a common beginning goes on alike. -/
theorem scan_alike {depth : Int} {inString : Bool} {p t t' : Text}
    (ht : t.head? = some '"') (ht' : t'.head? = some '"')
    (h : Chain.Alike x y (scan (p.foldl nest depth) (openAfter inString p) t)
      (scan (p.foldl nest depth) (openAfter inString p) t')) :
    Chain.Alike x y (scan depth inString (p ++ t)) (scan depth inString (p ++ t')) := by
  induction hn : p.length using Nat.strongRecOn generalizing depth inString p with
  | _ n ih =>
  subst hn
  cases p with
  | nil => exact h
  | cons c p =>
    have hhead : (p ++ t).head? = (p ++ t').head? := by
      cases p with
      | nil => exact ht.trans ht'.symm
      | cons c' p => rfl
    rw [List.cons_append, List.cons_append]
    cases hop : operatorAt depth inString c (p ++ t).head? with
    | none =>
      rw [scan_of_operatorAt_none hop, scan_of_operatorAt_none (hhead ▸ hop)]
      have hrest : Chain.Alike x y
          (scan (p.foldl nest (nest depth c)) (openAfter (inString != (c == '"')) p) t)
          (scan (p.foldl nest (nest depth c)) (openAfter (inString != (c == '"')) p) t') := h
      exact (ih p.length (by simp) hrest rfl).push c
    | some op =>
      obtain ⟨-, rfl, u, hu, hscan⟩ := scan_of_operatorAt_some hop
      obtain ⟨-, -, u', hu', hscan'⟩ := scan_of_operatorAt_some (hhead ▸ hop)
      -- A quote is no part of an operator, so the operator ends before the literal.
      obtain ⟨r, hr⟩ := symbol_append_of_head? ht hu
      have hskip : Chain.Alike x y (scan (r.foldl nest depth) (openAfter false r) t)
          (scan (r.foldl nest depth) (openAfter false r) t') := by
        rw [hr, List.foldl_append, foldl_nest_symbol, openAfter_symbol] at h
        exact h
      rw [← List.cons_append, hr, List.append_assoc] at hu hu'
      obtain rfl := List.append_cancel_left hu
      obtain rfl := List.append_cancel_left hu'
      have hlength : r.length < (c :: p).length := by
        rw [hr, List.length_append]
        cases op <;> simp [Operator.symbol]
      rw [hscan, hscan']
      exact (ih r.length hlength hskip rfl).before op

theorem chain?_alike {t t' : Text} (h : Chain.Alike x y (scan 0 false t) (scan 0 false t'))
    (hx : x ≠ []) (hy : y ≠ []) : Option.Rel (Chain.Alike x y) (chain? t) (chain? t') := by
  simp only [chain?]
  rw [h.any_isEmpty hx hy]
  split
  · exact .none
  · exact .some h

theorem ofText?_alike {t t' : Text} (h : Option.Rel (Chain.Alike x y) (chain? t) (chain? t')) :
    Option.Rel (Equation.Alike x y) (Equation.ofText? t) (Equation.ofText? t') := by
  rw [Equation.ofText?, Equation.ofText?]
  generalize chain? t = a at h ⊢
  generalize chain? t' = b at h ⊢
  cases h with
  | none => exact .none
  | some h => exact h.loosest

/-! ### Literals that can stand for each other -/

/-- Brackets that lead to any depth. -/
theorem exists_pass_eq (depth : Int) :
    ∃ p : Text, p.count '"' = 0 ∧ pass 0 false p = some (depth, false) := by
  have hopen (n : Nat) (d : Int) : pass d false (List.replicate n '(') = some (d + n, false) := by
    induction n generalizing d with
    | zero => simp [pass]
    | succ n ih =>
      rw [List.replicate_succ, pass, if_pos (by simp [startsOperator])]
      refine (ih (d + 1)).trans ?_
      congr 2
      omega
  have hclose (n : Nat) (d : Int) : pass d false (List.replicate n ')') = some (d - n, false) := by
    induction n generalizing d with
    | zero => simp [pass]
    | succ n ih =>
      rw [List.replicate_succ, pass, if_pos (by simp [startsOperator])]
      refine (ih (d - 1)).trans ?_
      congr 2
      omega
  rcases Int.le_total 0 depth with h | h
  · refine ⟨List.replicate depth.toNat '(', by simp [List.count_replicate], ?_⟩
    rw [hopen]
    congr 2
    omega
  · refine ⟨List.replicate (-depth).toNat ')', by simp [List.count_replicate], ?_⟩
    rw [hclose]
    congr 2
    omega

/-- A sum behind a literal shows exactly if brackets before the sign do not cover it. -/
theorem chain?_sum {p : Text} {depth : Int} (hp : pass 0 false p = some (depth, false)) {t : Text}
    (ht : '"' ∉ t) :
    ∃ chain, chain? (p ++ t.quote ++ ['+', '1']) = some chain ∧
      chain.rest.length = if depth + t.foldl nest 0 ≤ 0 then 1 else 0 := by
  have hscan : scan 0 false (p ++ t.quote ++ ['+', '1']) =
      (scan (depth + t.foldl nest 0) false ['+', '1']).prepend (p ++ t.quote) := by
    refine scan_append ?_ _
    rw [pass_append, hp]
    exact pass_quote depth ht
  have hquote : t.quote ≠ [] := by simp [Text.quote]
  rw [chain?, hscan]
  by_cases h : depth + t.foldl nest 0 ≤ 0
  · have hshow : scan (depth + t.foldl nest 0) false ['+', '1'] = ⟨[], [(.plus, ['1'])]⟩ := by
      simp [scan, nest, Int.not_lt.2 h, Operator.ofPair?, Operator.ofChar?, Chain.before]
    rw [hshow, if_pos h]
    exact ⟨⟨p ++ t.quote, [(.plus, ['1'])]⟩, by simp [Chain.prepend, Chain.operands, hquote], rfl⟩
  · have hhide : scan (depth + t.foldl nest 0) false ['+', '1'] = ⟨['+', '1'], []⟩ := by
      simp [scan, nest, Int.not_le.1 h, Chain.push]
    rw [hhide, if_neg h]
    exact ⟨⟨p ++ t.quote ++ ['+', '1'], []⟩, by simp [Chain.prepend, Chain.operands], rfl⟩

/-- Contents of string literals that can be exchanged in every command: either both commands are cut
at the same operators into operands that differ by the literal only, or neither can be cut; and
either both are split at the same operator, or neither is. -/
def Exchangeable (u v : Text) : Prop :=
  ∀ p q : Text, p.count '"' % 2 = 0 →
    Option.Rel (Chain.Alike u.quote v.quote) (chain? (p ++ u.quote ++ q))
      (chain? (p ++ v.quote ++ q)) ∧
    Option.Rel (Equation.Alike u.quote v.quote) (Equation.ofText? (p ++ u.quote ++ q))
      (Equation.ofText? (p ++ v.quote ++ q))

/-- The contents of a string literal can be exchanged for others exactly if both change the depth
alike. -/
theorem exchangeable_iff {u v : Text} (hu : '"' ∉ u) (hv : '"' ∉ v) :
    Exchangeable u v ↔ u.foldl nest 0 = v.foldl nest 0 := by
  constructor
  · intro h
    by_contra hne
    -- A sign that one of the two literals covers and the other does not.
    obtain ⟨p, hcount, hp⟩ := exists_pass_eq (-(min (u.foldl nest 0) (v.foldl nest 0)))
    obtain ⟨a, ha, hlengtha⟩ := chain?_sum hp hu
    obtain ⟨b, hb, hlengthb⟩ := chain?_sum hp hv
    have hrel := (h p ['+', '1'] (by simp [hcount])).1
    rw [ha, hb] at hrel
    cases hrel with
    | some halike =>
      have hlength := halike.length_rest
      rw [hlengtha, hlengthb] at hlength
      split at hlength <;> split at hlength <;> omega
  · intro h p q hcount
    have hopen : openAfter false p = false := by simp [openAfter_eq, hcount]
    have halike : Chain.Alike u.quote v.quote (scan 0 false (p ++ (u.quote ++ q)))
        (scan 0 false (p ++ (v.quote ++ q))) := by
      refine scan_alike rfl rfl ?_
      rw [hopen, scan_quote _ hu, scan_quote _ hv, h]
      exact .here [] _ _
    rw [List.append_assoc, List.append_assoc]
    have hchain := chain?_alike halike (by simp [Text.quote]) (by simp [Text.quote])
    exact ⟨hchain, ofText?_alike hchain⟩

/-- A comma can stand for brackets that balance, but a bracket not for a name. -/
theorem exchangeable_samples :
    Exchangeable "(-)".toList ",".toList ∧ ¬ Exchangeable "a".toList "(".toList :=
  ⟨(exchangeable_iff (by decide) (by decide)).2 (by decide),
    fun h => absurd ((exchangeable_iff (by decide) (by decide)).1 h) (by decide)⟩

end Scriptlet.Command
