import Scriptlet.Proofs.Expression.Print
import Scriptlet.Proofs.Script.Evaluation

/-! Evaluating the print of an expression tree gives the value of the tree. A leaf is a numeral or a
name, a parenthesised operand is a group, and a node is an equation of the prints of its operands,
so the proof is an induction on the tree that counts the levels of evaluation. -/

namespace Scriptlet

open Command

/-! ### Values -/

namespace Expression

def numerals : Expression → List Text
  | numeral n => [n.text]
  | name _ => []
  | node _ l r => l.numerals ++ r.numerals

def names : Expression → List Text
  | numeral _ => []
  | name n => [n.text]
  | node _ l r => l.names ++ r.names

/-- The operators folded over the numbers that the leaves stand for. -/
def fold (literal bound : Text → Float) : Expression → Float
  | numeral n => literal n.text
  | name n => bound n.text
  | node op l r => op.apply (l.fold literal bound) (r.fold literal bound)

/-- The value of an expression, or the first leaf that denotes no number. -/
def value (env : Env) : Expression → Except Text Float
  | numeral n =>
    match Number.ofText? n.text with
    | some x => .ok x
    | none => .error n.text
  | name n =>
    match env.lookup n.text with
    | some (.number x) => .ok x
    | _ => .error n.text
  | node op l r => do return op.apply (← l.value env) (← r.value env)

theorem value_eq_fold {env : Env} {literal bound : Text → Float} {e : Expression}
    (hnumerals : ∀ t ∈ e.numerals, Number.ofText? t = some (literal t))
    (hnames : ∀ t ∈ e.names, env.lookup t = some (.number (bound t))) :
    e.value env = .ok (e.fold literal bound) := by
  induction e with
  | numeral n => simp [value, fold, hnumerals n.text (by simp [numerals])]
  | name n => simp [value, fold, hnames n.text (by simp [names])]
  | node op l r hl hr =>
    have hleft := hl (fun t ht => hnumerals t (List.mem_append_left _ ht))
      (fun t ht => hnames t (List.mem_append_left _ ht))
    have hright := hr (fun t ht => hnumerals t (List.mem_append_right _ ht))
      (fun t ht => hnames t (List.mem_append_right _ ht))
    rw [value, hleft, hright]
    rfl

/-- The value depends on the names in the expression only. -/
theorem value_congr {a b : Env} {e : Expression}
    (h : ∀ name ∈ e.names, a.lookup name = b.lookup name) : e.value a = e.value b := by
  induction e with
  | numeral n => rfl
  | name n =>
    rw [value, value, h n.text (by simp [names])]
  | node op l r hl hr =>
    rw [value, value, hl fun name hname => h name (List.mem_append_left _ hname),
      hr fun name hname => h name (List.mem_append_right _ hname)]

theorem number_of_value {env : Env} {e : Expression} {x : Float} (h : e.value env = .ok x) :
    ∀ name ∈ e.names, ∃ y, env.lookup name = some (.number y) := by
  induction e generalizing x with
  | numeral n => simp [names]
  | name n =>
    intro name hname
    obtain rfl : name = n.text := by simpa [names] using hname
    rw [value] at h
    split at h
    · next y hlookup => exact ⟨y, hlookup⟩
    · cases h
  | node op l r hl hr =>
    rw [value] at h
    cases hleft : l.value env with
    | error t =>
      rw [hleft] at h
      cases h
    | ok y =>
      cases hright : r.value env with
      | error t =>
        rw [hleft, hright] at h
        cases h
      | ok z =>
        intro name hname
        exact (List.mem_append.1 hname).elim (hl hleft name) (hr hright name)

/-- How many levels evaluation goes down. A variable is looked up on one and its value read on the
next, and parentheses take one. -/
def levels : Expression → Nat
  | numeral _ => 1
  | name _ => 2
  | node op l r =>
    max (l.levels + (l.isLoose op false).toNat) (r.levels + (r.isLoose op true).toNat) + 1

end Expression

/-! ### Evaluating a print -/

/-- Every bound name is an identifier. -/
def Env.BindsIdentifiers (env : Env) : Prop :=
  ∀ name v, env.lookup name = some v → name.isIdentifier = true

theorem Env.bindsIdentifiers_empty : Env.empty.BindsIdentifiers := by
  intro name v h
  rw [Env.lookup_empty] at h
  cases h

theorem Env.BindsIdentifiers.lookup_eq_none {env : Env} (h : env.BindsIdentifiers) {name : Text}
    (hname : name.isIdentifier = false) : env.lookup name = none := by
  cases hlookup : env.lookup name with
  | none => rfl
  | some v =>
    rw [h name v hlookup] at hname
    cases hname

/-- A text with a mark in it is not bound. -/
theorem Env.BindsIdentifiers.lookup_of_mark {env : Env} (h : env.BindsIdentifiers) {t : Text}
    {c : Char} (hmark : c ∈ Text.marks) (hc : c ∈ t) : env.lookup t = none := by
  refine Option.eq_none_iff_forall_ne_some.2 fun v hv => ?_
  exact Text.not_mem_marks ((Text.isNameChar_of_isIdentifier (h t v hv)).2 c hc) hmark

theorem Env.BindsIdentifiers.set {env : Env} (h : env.BindsIdentifiers) {name : Text}
    (hname : name.isIdentifier = true) (v : Value) : (env.set name v).BindsIdentifiers := by
  intro other w hother
  rw [Env.lookup_set] at hother
  split at hother
  · next heq => exact heq ▸ hname
  · exact h other w hother

namespace Script

open Expression

/-- How the value of an expression comes out. -/
def Outcome.ofNumber : Except Text Float → Outcome Value
  | .ok x => .done (.number x)
  | .error t => .failed (.undefined t)

/-- From state `s` the text comes out as `r`, unless evaluation runs out of levels, which needs
fewer than `levels` of them; in any case the state stays. -/
def Answers (settings : Settings) (s : State) (t : Text) (r : Except Text Float) (levels : Nat) :
    Prop :=
  ∀ depth, run settings depth t s = (.ofNumber r, s) ∨
    depth < levels ∧ run settings depth t s = (.failed (.tooDeep settings.maxDepth), s)

variable {settings : Settings} {s : State}

theorem Answers.of_succ {t : Text} {r : Except Text Float} {levels : Nat}
    (h : ∀ depth, run settings (depth + 1) t s = (.ofNumber r, s) ∨
      depth < levels ∧ run settings (depth + 1) t s = (.failed (.tooDeep settings.maxDepth), s)) :
    Answers settings s t r (levels + 1) := by
  intro depth
  cases depth with
  | zero => exact .inr ⟨Nat.succ_pos _, rfl⟩
  | succ depth => exact (h depth).imp_right fun ⟨hlt, hrun⟩ => ⟨Nat.succ_lt_succ hlt, hrun⟩

/-- A command that is not bound and reads as a group is worth what it encloses. -/
theorem Answers.group {t : Text} {r : Except Text Float} {levels : Nat} (ht : Nests t)
    (hunbound : s.env.lookup (enclose t) = none) (h : Answers settings s t r levels) :
    Answers settings s (enclose t) r (levels + 1) := by
  refine .of_succ fun depth => ?_
  have hform : Form.ofText (enclose t) = .other :=
    (IsAtom.group ht).form (by simpa using ofText?_enclose t [])
  have hgroup : Statement.ofText (enclose t) = .group t := by
    have hclose : parenthesized? (enclose t) = some (t, []) :=
      closeParen_balanced (ht.balanced 0) []
    simp [Statement.ofText, hclose]
  have hrun : run settings (depth + 1) (enclose t) s = run settings depth t s := by
    rw [run_succ, evaluate_unbound hform hunbound, runStatement, hgroup]
  rw [hrun]
  exact h depth

theorem runEquation_number {self : Text → Action Value} {e : Equation} {a b : Float}
    (hl : self e.left s = (.done (.number a), s)) (hr : self e.right s = (.done (.number b), s)) :
    runEquation self e s = (.done (.number (e.op.apply a b)), s) := by
  simp [runEquation, Action.bind_apply, Action.pure_apply, hl, hr, Builtin.expectNumber,
    Value.toNumber?]

theorem Answers.equation {t : Text} {e : Equation} {x y : Except Text Float} {k m : Nat}
    (hform : Form.ofText t = .equation e) (hl : Answers settings s e.left x k)
    (hr : Answers settings s e.right y m) :
    Answers settings s t (do return e.op.apply (← x) (← y)) (max k m + 1) := by
  refine .of_succ fun depth => ?_
  rw [run_succ, evaluate_equation hform]
  rcases hl depth with hleft | ⟨hlt, hleft⟩
  · cases x with
    | error t => exact .inl (runEquation_failed (.inl hleft))
    | ok a =>
      rcases hr depth with hright | ⟨hlt, hright⟩
      · cases y with
        | error t => exact .inl (runEquation_failed (.inr ⟨_, _, hleft, hright⟩))
        | ok b => exact .inl (runEquation_number hleft hright)
      · exact .inr ⟨by omega, runEquation_failed (.inr ⟨_, _, hleft, hright⟩)⟩
  · exact .inr ⟨by omega, runEquation_failed (.inl hleft)⟩

/-- What is on the left of an operator is evaluated first. -/
theorem Answers.left {t w : Text} {e : Equation} {k : Nat} (hform : Form.ofText t = .equation e)
    (hl : Answers settings s e.left (.error w) k) : Answers settings s t (.error w) (k + 1) := by
  refine .of_succ fun depth => ?_
  rw [run_succ, evaluate_equation hform]
  exact (hl depth).imp (fun hleft => runEquation_failed (.inl hleft))
    fun ⟨hlt, hleft⟩ => ⟨hlt, runEquation_failed (.inl hleft)⟩

theorem Answers.number {t : Text} {x : Float} (h : Number.ofText? t = some x) :
    Answers settings s t (.ok x) 1 := .of_succ fun _ => .inl (evaluate_number h s)

/-- A bare word that is not bound is undefined. -/
theorem Answers.word {t : Text} (hform : Form.ofText t = .other)
    (hword : Statement.ofText t = .word) (hunbound : s.env.lookup t = none) :
    Answers settings s t (.error t) 1 := by
  refine .of_succ fun depth => .inl ?_
  rw [run_succ, evaluate_unbound hform hunbound, runStatement, hword]
  rfl

/-- An operand made of name characters that has no value is undefined. -/
theorem Answers.undefined {t : Text} (hatom : IsAtom t) (hname : ∀ c ∈ t, Text.isNameChar c = true)
    (hnumber : Number.ofText? t = none) (hunbound : s.env.lookup t = none) :
    Answers settings s t (.error t) 1 := by
  refine .word (hatom.form hnumber) (Statement.ofText_word fun c hc => ?_) hunbound
  have hmark := Text.not_mem_marks (hname c hc)
  simp_all [Text.marks]

theorem Answers.bound (n : Identifier) {x : Float}
    (hbound : s.env.lookup n.text = some (.number x)) : Answers settings s n.text (.ok x) 2 := by
  refine .of_succ fun depth => ?_
  have hform : Form.ofText n.text = .other := (IsAtom.name n).form n.ofText?_text
  rw [run_succ, evaluate_bound hform hbound, resolve]
  by_cases hfinite : Number.isFinite x = true
  · rw [if_pos hfinite]
    cases depth with
    | zero => exact .inr ⟨Nat.one_pos, rfl⟩
    | succ depth => exact .inl (run_toText hfinite depth s)
  · rw [if_neg hfinite]
    exact .inl rfl

theorem Answers.mono {t : Text} {r : Except Text Float} {k m : Nat} (h : Answers settings s t r k)
    (hle : k ≤ m) : Answers settings s t r m := fun depth =>
  (h depth).imp_right fun ⟨hlt, hrun⟩ => ⟨Nat.lt_of_lt_of_le hlt hle, hrun⟩

theorem Answers.encloseIf {t : Text} {r : Except Text Float} {levels : Nat} (ht : Nests t)
    (henv : s.env.BindsIdentifiers) (h : Answers settings s t r levels) (loose : Bool) :
    Answers settings s (Expression.encloseIf loose t) r (levels + loose.toNat) := by
  cases loose with
  | false => exact h
  | true =>
    -- A group begins with a parenthesis, so no identifier is spelt like it.
    exact .group ht (henv.lookup_eq_none rfl) h

theorem answers_print (e : Expression) (henv : s.env.BindsIdentifiers)
    (hnames : ∀ name ∈ e.names, ∀ v, s.env.lookup name = some v → ∃ x, v = .number x) :
    Answers settings s e.print (e.value s.env) e.levels := by
  induction e with
  | numeral n =>
    cases hnumber : Number.ofText? n.text with
    | some x =>
      simp only [value, hnumber]
      exact .number hnumber
    | none =>
      simp only [value, hnumber]
      exact .undefined (.numeral n) n.isNameChar hnumber (henv.lookup_eq_none n.not_isIdentifier)
  | name n =>
    cases hlookup : s.env.lookup n.text with
    | some v =>
      obtain ⟨x, rfl⟩ := hnames n.text (by simp [names]) v hlookup
      simp only [value, hlookup]
      exact .bound n hlookup
    | none =>
      simp only [value, hlookup]
      exact .mono (.undefined (.name n) n.isNameChar n.ofText?_text hlookup) (Nat.le_succ 1)
  | node op l r hl hr =>
    have hleft := hl fun name hname => hnames name (List.mem_append_left _ hname)
    have hright := hr fun name hname => hnames name (List.mem_append_right _ hname)
    exact .equation (form_print op l r) (hleft.encloseIf l.nests_print henv _)
      (hright.encloseIf r.nests_print henv _)

/-- Evaluating the print of an expression gives the value of the expression and changes nothing,
unless there are too few levels. The value is the fold of the operators over the leaves where all
of them denote numbers, and else the first leaf that denotes none is undefined. -/
theorem run_print (settings : Settings) (depth : Nat) (s : State) (e : Expression)
    (henv : s.env.BindsIdentifiers)
    (hnames : ∀ name ∈ e.names, ∀ v, s.env.lookup name = some v → ∃ x, v = .number x) :
    (run settings depth e.print s = (.ofNumber (e.value s.env), s) ∨
      depth < e.levels ∧
        run settings depth e.print s = (.failed (.tooDeep settings.maxDepth), s)) ∧
    ∀ literal bound : Text → Float,
      (∀ t ∈ e.numerals, Number.ofText? t = some (literal t)) →
      (∀ t ∈ e.names, s.env.lookup t = some (.number (bound t))) →
      e.value s.env = .ok (e.fold literal bound) :=
  ⟨answers_print e henv hnames depth, fun _ _ => value_eq_fold⟩

/-- The tree of `(a-2)^3^b<10%(a*b)`. -/
def sample : Expression :=
  let a := .name ⟨['a'], by decide +kernel⟩
  let b := .name ⟨['b'], by decide +kernel⟩
  let two := .numeral ⟨['2'], by simp, by simp⟩
  let three := .numeral ⟨['3'], by simp, by simp⟩
  let ten := .numeral ⟨['1', '0'], by simp, by simp⟩
  .node .less (.node .power (.node .minus a two) (.node .power three b))
    (.node .remainder ten (.node .times a b))

/-- An environment with `a` and `b`. -/
def sampleEnv : Env := (Env.empty.set ['a'] (.number 5)).set ['b'] (.number (1 / 0))

theorem run_print_sample :
    sample.print = "(a-2)^3^b<10%(a*b)".toList ∧ sampleEnv.BindsIdentifiers ∧
      (∀ name ∈ sample.names, ∀ v, sampleEnv.lookup name = some v → ∃ x, v = .number x) ∧
      run {} 9 sample.print { env := sampleEnv } =
        (.ofNumber (sample.value sampleEnv), { env := sampleEnv }) := by
  have hlookup : ∀ name v, sampleEnv.lookup name = some v →
      (name = ['a'] ∨ name = ['b']) ∧ ∃ x, v = .number x := by
    intro name v h
    simp only [sampleEnv, Env.lookup_set, Env.lookup_empty] at h
    grind
  have henv : sampleEnv.BindsIdentifiers := by
    intro name v h
    rcases (hlookup name v h).1 with rfl | rfl <;> decide
  have hnames : ∀ name ∈ sample.names, ∀ v, sampleEnv.lookup name = some v → ∃ x, v = .number x :=
    fun name _ v h => (hlookup name v h).2
  have hrun := run_print {} 9 { env := sampleEnv } sample henv hnames
  exact ⟨by decide, henv, hnames, hrun.1.resolve_right fun h => absurd h.1 (by decide)⟩

/-- A numeral of 401 digits denotes no number, so it does not evaluate to one. -/
theorem run_numeral_too_large :
    run {} 1000 ('1' :: List.replicate 400 '0') {} =
      (.failed (.undefined ('1' :: List.replicate 400 '0')), {}) := by
  have hnumber : Number.ofText? ('1' :: List.replicate 400 '0') = none := by decide +kernel
  have hdigits : ∀ c ∈ '1' :: List.replicate 400 '0', c.isDigit = true := by
    refine List.forall_mem_cons.2 ⟨rfl, fun c hc => ?_⟩
    rw [List.eq_of_mem_replicate hc]
    rfl
  let n : Numeral := ⟨'1' :: List.replicate 400 '0', List.cons_ne_nil _ _, hdigits⟩
  have h : Answers {} {} n.text (.error n.text) 1 :=
    .undefined (.numeral n) n.isNameChar hnumber (Env.lookup_empty _)
  exact (h 1000).resolve_right fun hlt => absurd hlt.1 (by decide)

end Script

end Scriptlet
