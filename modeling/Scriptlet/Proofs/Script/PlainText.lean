import Mathlib.Logic.Relation
import Scriptlet.Proofs.Command.Grammar
import Scriptlet.Proofs.Script.Scope

/-! Variables that hold plain text. Reading a variable evaluates the text it holds, and a text that
turns out to be no command stands for itself. By then a part of it may have been evaluated, and what
that part has done stays. An environment can only change where an assignment is completed, or where
a function or a builtin that binds names or runs blocks is called, so a text that leads to none of
these can be read without changing any binding. -/

namespace Scriptlet.Script

open Command

/-! ### What evaluation comes to -/

/-- A command that is read as a statement: its text alone does not say what it is, and it is not
bound. -/
structure IsStatement (env : Env) (t : Text) (statement : Statement) : Prop where
  form : Form.ofText t = .other
  unbound : env.lookup t = none
  reads : Statement.ofText t = statement

/-- Evaluating the first text may evaluate the second, one level deeper. -/
inductive LeadsTo (env : Env) : Text → Text → Prop
  | left {t : Text} {e : Equation} (h : Form.ofText t = .equation e) : LeadsTo env t e.left
  | right {t : Text} {e : Equation} (h : Form.ofText t = .equation e) : LeadsTo env t e.right
  | held {t u : Text} (h : Form.ofText t = .other) (hbound : env.lookup t = some (.text u)) :
      LeadsTo env t u
  | inner {t u : Text} (h : IsStatement env t (.group u)) : LeadsTo env t u
  | value {t name u : Text} (h : IsStatement env t (.assignment name u)) : LeadsTo env t u
  | argument {t u : Text} {call : Call} (h : IsStatement env t (.call call))
      (hu : u ∈ call.arguments) : LeadsTo env t u

/-- A text at which a name may be bound: an assignment of something that has a value, or a call of a
function or of a builtin that binds names or runs blocks. -/
inductive MayBind (settings : Settings) (env : Env) (t : Text) : Prop
  | assignment {name value : Text} (h : IsStatement env t (.assignment name value)) {depth : Nat}
      {s s' : State} {v : Value} (henv : s.env = env)
      (hvalue : run settings depth value s = (.done v, s'))
  | builtin {call : Call} (h : IsStatement env t (.call call)) {b : Builtin}
      (hbuiltin : settings.builtins = true ∧ Builtin.ofName? call.name = some b)
      (hb : b.mayBind = true)
  | function {call : Call} (h : IsStatement env t (.call call)) {f : Function}
      (hbuiltin : settings.builtins = true → Builtin.ofName? call.name = none)
      (hfunctions : settings.functions = true)
      (hf : env.lookup call.name = some (.callable (some f)))

/-- Evaluating the text comes to nothing at which a name may be bound. -/
def BindsNothing (settings : Settings) (env : Env) (t : Text) : Prop :=
  ∀ u, Relation.ReflTransGen (LeadsTo env) t u → ¬MayBind settings env u

theorem BindsNothing.step {settings : Settings} {env : Env} {t u : Text}
    (h : BindsNothing settings env t) (hstep : LeadsTo env t u) : BindsNothing settings env u :=
  fun v hv => h v (.head hstep hv)

/-! ### Evaluation that binds nothing -/

/-- An action that starts from the environment ends with it. -/
def keepsEnv (env : Env) : QuietCongruence where
  rel x _ := ∀ s, s.env = env → (x s).2.env = env
  result _ _ hs := hs
  fail _ _ _ hs := hs
  bind {_ _ x _ f _} hx hf s hs := by
    have hfirst := hx s hs
    rw [Action.bind_apply]
    generalize x s = first at hfirst
    obtain ⟨a | e | -, s₁⟩ := first
    · exact hf a s₁ hfirst
    · exact hfirst
    · exact hfirst
  recover {_ x _} _ hx s hs := by
    rw [Action.recover_snd]
    exact hx s hs
  during {_ x _} _ hx s hs := by
    rw [Action.during_snd]
    exact hx s hs
  env _ hs := hs
  store _ hs := hs
  lookup _ _ hs := hs
  setStore _ _ hs := hs
  print t s hs := by
    unfold Action.print
    split <;> exact hs
  readLine prompt s hs := by
    unfold Action.readLine
    split <;> exact hs

section

variable {settings : Settings} {env : Env} {depth : Nat} {t : Text}

theorem keepsEnv_numeral {x : Float} (h : Number.isFinite x = true) :
    (keepsEnv env).rel (run settings depth (Number.toText x))
      (run settings depth (Number.toText x)) := by
  intro s hs
  cases depth with
  | zero => exact hs
  | succ depth => rwa [run_toText h]

theorem keepsEnv_call {call : Call} (h : IsStatement env t (.call call))
    (hbind : ¬MayBind settings env t)
    (hself : ∀ u ∈ call.arguments,
      (keepsEnv env).rel (run settings depth u) (run settings depth u)) :
    (keepsEnv env).rel (runCall settings (run settings depth) call)
      (runCall settings (run settings depth) call) := by
  have hargs := QuietCongruence.evaluateAll hself
  unfold runCall
  split
  · next b hname =>
    have hb : b.mayBind = false := by
      by_contra hb
      refine hbind (.builtin h ?_ (Bool.eq_true_of_not_eq_false hb))
      simpa using hname
    have htexts : b.takesTexts = false := by
      cases b with
      | count | loop => cases hb
      | _ => rfl
    rw [htexts]
    exact (keepsEnv env).bind hargs fun args => (keepsEnv env).runQuiet call args hb
  · next hname =>
    refine (keepsEnv env).bind hargs fun args s hs => ?_
    rw [Action.bind_apply, Action.lookup, hs]
    rcases hlookup : env.lookup call.name with - | (- | x | u | (- | f))
    · exact hs
    · exact hs
    · exact hs
    · exact hs
    · dsimp only
      split <;> exact hs
    · dsimp only
      split
      · next hfunctions =>
        exact absurd (.function h (by simpa using hname) hfunctions hlookup) hbind
      · exact hs

theorem keepsEnv_statement (hform : Form.ofText t = .other) (hunbound : env.lookup t = none)
    (hbind : ¬MayBind settings env t)
    (hself : ∀ u, LeadsTo env t u →
      (keepsEnv env).rel (run settings depth u) (run settings depth u)) :
    (keepsEnv env).rel (runStatement settings (run settings depth) t)
      (runStatement settings (run settings depth) t) := by
  unfold runStatement
  split
  · next inner hreads => exact hself inner (.inner ⟨hform, hunbound, hreads⟩)
  · next name value hreads =>
    have hstatement : IsStatement env t (.assignment name value) := ⟨hform, hunbound, hreads⟩
    intro s hs
    have hvalue := hself value (.value hstatement) s hs
    rw [Action.bind_apply]
    generalize hrun : run settings depth value s = result at hvalue
    obtain ⟨v | f | -, s₁⟩ := result
    · exact absurd (.assignment hstatement hs hrun) hbind
    · exact hvalue
    · exact hvalue
  · next call hreads =>
    have hstatement : IsStatement env t (.call call) := ⟨hform, hunbound, hreads⟩
    exact keepsEnv_call hstatement hbind fun u hu => hself u (.argument hstatement hu)
  · exact (keepsEnv env).fail _ rfl
  · exact (keepsEnv env).fail _ rfl

/-- One level of evaluation keeps the environment if the levels below do. -/
theorem keepsEnv_evaluate (hbind : ¬MayBind settings env t)
    (hself : ∀ u, LeadsTo env t u →
      (keepsEnv env).rel (run settings depth u) (run settings depth u)) :
    (keepsEnv env).rel (evaluate settings (run settings depth) t)
      (evaluate settings (run settings depth) t) := by
  cases hform : Form.ofText t with
  | number x =>
    rw [evaluate, hform]
    exact (keepsEnv env).result _
  | string u =>
    rw [evaluate, hform]
    exact (keepsEnv env).result _
  | equation e =>
    rw [evaluate_equation hform]
    exact QuietCongruence.runEquation (hself _ (.left hform)) (hself _ (.right hform))
  | other =>
    -- All states in question have the one environment, so what is bound is known before the state.
    intro s hs
    cases hlookup : env.lookup t with
    | none =>
      rw [evaluate_unbound hform (hs ▸ hlookup)]
      exact keepsEnv_statement hform hlookup hbind hself s hs
    | some v =>
      rw [evaluate_bound hform (hs ▸ hlookup)]
      have hresolve : (keepsEnv env).rel (resolve (run settings depth) t v)
          (resolve (run settings depth) t v) := by
        refine QuietCongruence.resolve (fun x hv hfinite => ?_) (fun u hv => ?_) t
        · rw [hv]
          exact keepsEnv_numeral hfinite
        · exact hself u (.held hform (hv ▸ hlookup))
      exact hresolve s hs

theorem keepsEnv_run (h : BindsNothing settings env t) (depth : Nat) :
    (keepsEnv env).rel (run settings depth t) (run settings depth t) := by
  induction depth generalizing t with
  | zero => exact (keepsEnv env).fail _ rfl
  | succ depth ih => exact keepsEnv_evaluate (h t .refl) fun u hu => ih (h.step hu)

/-! ### Texts without assignments and calls -/

/-- A text with neither an `=` nor an open parenthesis. -/
def IsProse (t : Text) : Prop := ∀ c ∈ t, c ≠ '=' ∧ c ≠ '('

theorem IsProse.statement_eq (h : IsProse t) {statement : Statement}
    (hs : IsStatement env t statement) : statement = .word :=
  hs.reads.symm.trans (Statement.ofText_word h)

theorem IsProse.not_mayBind (h : IsProse t) : ¬MayBind settings env t := by
  intro hbind
  cases hbind with
  | assignment hs => cases h.statement_eq hs
  | builtin hs => cases h.statement_eq hs
  | function hs => cases h.statement_eq hs

theorem IsProse.leadsTo (h : IsProse t)
    (henv : ∀ name u, env.lookup name = some (.text u) → IsProse u) {u : Text}
    (hstep : LeadsTo env t u) : IsProse u := by
  cases hstep with
  | left hform =>
    have htext := Equation.text_of_ofText? (Form.ofText?_of_equation hform)
    exact fun c hc => h c (by simp [← htext, Equation.text, hc])
  | right hform =>
    have htext := Equation.text_of_ofText? (Form.ofText?_of_equation hform)
    exact fun c hc => h c (by simp [← htext, Equation.text, hc])
  | held _ hbound => exact henv _ _ hbound
  | inner hs => cases h.statement_eq hs
  | value hs => cases h.statement_eq hs
  | argument hs => cases h.statement_eq hs

theorem bindsNothing_of_isProse (h : IsProse t)
    (henv : ∀ name u, env.lookup name = some (.text u) → IsProse u) :
    BindsNothing settings env t := by
  intro u hreach
  have hu : IsProse u := by
    induction hreach with
    | refl => exact h
    | tail _ hstep ih => exact ih.leadsTo henv hstep
  exact hu.not_mayBind

/-! ### Reading a variable -/

/-- A variable stands for its text where that is plain text, so reading it does not fail as such. -/
theorem isPlainText_of_resolve {v : Value} {s s' : State} {f : Failure}
    (h : resolve (run settings depth) t v s = (.failed f, s')) : f.isPlainText = false := by
  cases v with
  | null => cases h
  | callable g => cases h
  | number x =>
    rw [resolve] at h
    split at h
    · next hfinite =>
      cases depth with
      | zero =>
        cases h
        rfl
      | succ depth =>
        rw [Value.source, run_toText hfinite] at h
        cases h
    · cases h
  | text u =>
    rw [resolve] at h
    split at h
    · cases h
    · unfold Action.recover at h
      generalize run settings depth u s = result at h
      obtain ⟨w | g | -, s₁⟩ := result
      · cases h
      · by_cases hg : g.isPlainText = true
        · simp [hg] at h
        · simp only [hg] at h
          cases h
          exact Bool.eq_false_of_not_eq_true hg
      · cases h

theorem lookup_eq_none_of_isPlainText {s s' : State} {f : Failure} (hform : Form.ofText t = .other)
    (hrun : run settings depth t s = (.failed f, s')) (hplain : f.isPlainText = true) :
    s.env.lookup t = none := by
  cases depth with
  | zero =>
    cases hrun
    cases hplain
  | succ depth =>
    cases hlookup : s.env.lookup t with
    | none => rfl
    | some v =>
      rw [run_succ, evaluate_bound hform hlookup] at hrun
      rw [isPlainText_of_resolve hrun] at hplain
      cases hplain

theorem run_nil {s s' : State} {f : Failure} (hrun : run settings depth [] s = (.failed f, s'))
    (hplain : f.isPlainText = true) : s' = s := by
  have hform : Form.ofText [] = .other := rfl
  have hunbound := lookup_eq_none_of_isPlainText hform hrun hplain
  cases depth with
  | zero =>
    cases hrun
    rfl
  | succ depth =>
    rw [run_succ, evaluate_unbound hform hunbound] at hrun
    cases hrun
    rfl

/-- Reading a variable whose text fails as plain text gives the text, and leaves what the failed
evaluation has left. That binds every name there was before, and it is the same environment unless
the evaluation came to a text at which a name may be bound. -/
theorem read_plainText (settings : Settings) (depth : Nat) {s s' : State} {name t : Text}
    {f : Failure} (hform : Form.ofText name = .other)
    (hbound : s.env.lookup name = some (.text t))
    (hrun : run settings depth t s = (.failed f, s')) (hplain : f.isPlainText = true) :
    run settings (depth + 1) name s = (.done (.text t), s') ∧
    s.env.names ⊆ s'.env.names ∧
    (s'.env = s.env ∨
      ∃ u, Relation.ReflTransGen (LeadsTo s.env) t u ∧ MayBind settings s.env u) ∧
    (IsProse t → (∀ other u, s.env.lookup other = some (.text u) → IsProse u) →
      s'.env = s.env) := by
  have hkeep : BindsNothing settings s.env t → s'.env = s.env := fun h => by
    have henv := keepsEnv_run h depth s rfl
    rwa [hrun] at henv
  refine ⟨?_, ?_, ?_, fun h henv => hkeep (bindsNothing_of_isProse h henv)⟩
  · rw [run_succ, evaluate_bound hform hbound, resolve]
    split
    · next hself =>
      obtain rfl | rfl : t = [] ∨ t = name := by simpa using hself
      · rw [run_nil hrun hplain]
        rfl
      · rw [lookup_eq_none_of_isPlainText hform hrun hplain] at hbound
        cases hbound
    · simp [Action.recover, hrun, hplain]
  · have hnames := names_subset_run settings depth t s
    rwa [hrun] at hnames
  · by_cases h : BindsNothing settings s.env t
    · exact .inl (hkeep h)
    · right
      simpa [BindsNothing] using h

end

/-- A text that changes `y` before it fails. -/
def halfway : Text := "(y=5)+zz".toList

/-- A state in which `x` holds a text. -/
def holding (t : Text) : State := { env := (Env.empty.set ['y'] (.number 1)).set ['x'] (.text t) }

/-- The state after the assignment. -/
def afterHalfway : State := { env := (holding halfway).env.set ['y'] (.number 5) }

theorem run_halfway :
    run {} 8 halfway (holding halfway) = (.failed (.undefined ['z', 'z']), afterHalfway) := by
  have hassignment :
      run {} 6 "y=5".toList (holding halfway) = (.done (.number 5), afterHalfway) := by
    have hunbound : (holding halfway).env.lookup "y=5".toList = none := by
      simp [holding, Env.lookup_set]
    have hvalue : run {} 5 ['5'] (holding halfway) = (.done (.number 5), holding halfway) :=
      evaluate_number (by decide +kernel) _
    have hreads : Statement.ofText "y=5".toList = .assignment ['y'] ['5'] := by decide
    rw [run_succ, evaluate_unbound (by decide) hunbound, runStatement, hreads]
    simp only [Action.bind_apply, hvalue]
    rfl
  have hgroup : run {} 7 "(y=5)".toList (holding halfway) =
      run {} 6 "y=5".toList (holding halfway) := by
    have hunbound : (holding halfway).env.lookup "(y=5)".toList = none := by
      simp [holding, Env.lookup_set]
    have hreads : Statement.ofText "(y=5)".toList = .group "y=5".toList := by decide
    rw [run_succ, evaluate_unbound (by decide) hunbound, runStatement, hreads]
  have hword :
      run {} 7 ['z', 'z'] afterHalfway = (.failed (.undefined ['z', 'z']), afterHalfway) := by
    have hunbound : afterHalfway.env.lookup ['z', 'z'] = none := by
      simp [afterHalfway, holding, Env.lookup_set]
    rw [run_succ, evaluate_unbound (by decide) hunbound]
    rfl
  have hform : Form.ofText halfway = .equation ⟨"(y=5)".toList, .plus, ['z', 'z']⟩ := by
    decide +kernel
  rw [run_succ, evaluate_equation hform]
  exact runEquation_failed (.inr ⟨_, _, hgroup.trans hassignment, hword⟩)

theorem run_hello :
    run {} 8 "hello".toList (holding "hello".toList) =
      (.failed (.undefined "hello".toList), holding "hello".toList) := by
  rw [run_succ, evaluate_unbound (by decide) (by simp [holding, Env.lookup_set])]
  rfl

/-- Reading `x` changes `y` if it holds `(y=5)+zz`, and nothing if it holds `hello`. -/
theorem read_plainText_samples :
    (holding halfway).env.lookup ['y'] = some (.number 1) ∧
    (∃ s', run {} 9 ['x'] (holding halfway) = (.done (.text halfway), s') ∧
      s'.env.lookup ['y'] = some (.number 5)) ∧
    ∃ s', run {} 9 ['x'] (holding "hello".toList) = (.done (.text "hello".toList), s') ∧
      s'.env = (holding "hello".toList).env := by
  have hbound : ∀ t, (holding t).env.lookup ['x'] = some (.text t) := fun t => by
    simp [holding, Env.lookup_set]
  have hform : Form.ofText ['x'] = .other := by decide
  have hhalfway := read_plainText {} 8 hform (hbound halfway) run_halfway rfl
  have hhello := read_plainText {} 8 hform (hbound "hello".toList) run_hello rfl
  have hprose : IsProse "hello".toList := by simp [IsProse]
  have henv : ∀ other u, (holding "hello".toList).env.lookup other = some (.text u) →
      IsProse u := by
    intro other u h
    simp only [holding, Env.lookup_set, Env.lookup_empty] at h
    split at h
    · cases h
      exact hprose
    · split at h <;> cases h
  refine ⟨by simp [holding, Env.lookup_set], ⟨_, hhalfway.1, ?_⟩,
    ⟨_, hhello.1, hhello.2.2.2 hprose henv⟩⟩
  simp [afterHalfway, Env.lookup_set]

end Scriptlet.Script
