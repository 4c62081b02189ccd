import Scriptlet.Proofs.Command.Split
import Scriptlet.Proofs.Script.Evaluation

/-! Choosing between two blocks. An `else` stands for a second `if` on the negated condition, so the
condition is evaluated twice: once before the first block and once after it, in the state that the
first block has left. The first block runs if the first value is true, the second block if the
second value is false; they exclude each other exactly as far as the two values agree. -/

namespace Scriptlet.Script

open Command

/-! ### The two commands -/

/-- An `if` and its `else` as they stand in a script. -/
structure IfElse (ignore : Text) where
  condition : Text
  block : Text
  otherwise : Text
  /-- The condition as it is kept. -/
  test : Text
  inline_condition : inline ignore false condition = some test
  balanced_test : parens (0, false) test = some (0, false)
  nonempty_arguments : [] ∉ argumentsIn test
  balanced_block : braces 0 (kept ignore block) = some 0
  balanced_otherwise : braces 0 (kept ignore otherwise) = some 0

/-- A call of `if` with a block. -/
def branchCall (test block : Text) : Text :=
  ['i', 'f', '('] ++ (test ++ ')' :: '\x7b' :: (block ++ ['\x7d']))

/-- The characters of the two keywords and of the brackets. -/
def branchChars : List Char := ['i', 'f', 'e', 'l', 's', '(', ')', '\x7b', '\x7d']

namespace IfElse

variable {ignore : Text} (x : IfElse ignore)

def script : Text :=
  ['i', 'f', '('] ++ x.condition ++ [')'] ++ '\x7b' :: (x.block ++ ['\x7d']) ++
    '\n' :: (['e', 'l', 's', 'e'] ++ '\x7b' :: (x.otherwise ++ ['\x7d']))

def arguments : List Text := argumentsIn x.test

/-- The condition between the parentheses of the negation. -/
def joined : Text := List.intercalate [','] x.arguments

/-- What the second `if` tests. -/
def negation : Text := '!' :: '(' :: (x.joined ++ [')'])

def first : Text := branchCall x.test (kept ignore x.block)

def second : Text := branchCall x.negation (kept ignore x.otherwise)

theorem run_word (hignore : ∀ c ∈ branchChars, ignore.contains c = false) {s : Cutter}
    (hmode : s.mode = .code) {t : Text} (ht : ∀ c ∈ t, c ∈ branchChars ∧ c ≠ '\x7b') :
    s.run ignore t = s.after t t .code := by
  refine Cutter.run_plain hmode fun c hc => ⟨hignore c (ht c hc).1, ?_⟩
  have hchars : ∀ c ∈ branchChars, c ≠ '\x7b' → c ∉ ['"', ' ', '\n', '#', '\x7b'] := by
    simp [branchChars]
  exact hchars c (ht c hc).1 (ht c hc).2

theorem run_header (hignore : ∀ c ∈ branchChars, ignore.contains c = false) :
    Cutter.run ignore {} (['i', 'f', '('] ++ x.condition ++ [')']) =
      Cutter.after {} (['i', 'f', '('] ++ x.condition ++ [')']) (['i', 'f', '('] ++ x.test ++ [')'])
        .code := by
  rw [Cutter.run_append, Cutter.run_append,
    run_word hignore (t := ['i', 'f', '(']) rfl (by simp [branchChars]),
    Cutter.run_inline (Cutter.inline_after_code _ _ _) (by simp [Cutter.after]) x.inline_condition,
    Cutter.after_after, run_word hignore (by rfl) (by simp [branchChars]), Cutter.after_after]

theorem split_script (hignore : ∀ c ∈ branchChars, ignore.contains c = false) :
    split ignore x.script =
      .ok [x.first, ['e', 'l', 's', 'e'] ++ '\x7b' :: (kept ignore x.otherwise ++ ['\x7d'])] := by
  have hopen := hignore '\x7b' (by decide)
  have hclose := hignore '\x7d' (by decide)
  rw [split, script, Cutter.run_append,
    Cutter.run_braced (x.run_header hignore) hopen hclose x.balanced_block, Cutter.run_cons,
    Cutter.step_newline,
    Cutter.run_braced (run_word hignore (by rfl) (by simp [branchChars])) hopen hclose
      x.balanced_otherwise]
  simp [Cutter.finish, Cutter.flush, first, branchCall]

theorem brackets_test : brackets (0, false) x.test = some (0, false) :=
  (parens_inline (n := (0, false)) x.inline_condition).symm.trans x.balanced_test

theorem arguments_first (block : Text) :
    argumentsIn (x.test ++ ')' :: '\x7b' :: (block ++ ['\x7d'])) = x.arguments :=
  argumentsIn_close x.brackets_test rfl _

theorem parse_script (hignore : ∀ c ∈ branchChars, ignore.contains c = false) :
    parse ignore x.script = .ok [x.first, x.second] := by
  have hfirst : opening x.first =
      .branch (x.test ++ ')' :: '\x7b' :: (kept ignore x.block ++ ['\x7d'])) := by
    cases htest : x.test <;> simp [opening, opens?, Text.after?, first, branchCall, htest]
  have hsecond : opening (['e', 'l', 's', 'e'] ++ '\x7b' :: (kept ignore x.otherwise ++ ['\x7d'])) =
      .otherwise (kept ignore x.otherwise ++ ['\x7d']) := by
    cases hkept : kept ignore x.otherwise <;> simp [opening, opens?, Text.after?]
  rw [parse, x.split_script hignore]
  simp only [expand, expandFrom, hfirst, hsecond]
  simp [Except.map, Except.mapError, otherwiseCall, Command.condition, arguments_first, second,
    branchCall, negation, joined]

theorem parens_joined : parens (0, false) x.joined = some (0, false) :=
  track_of_comma rfl rfl (eq_intercalate_argumentsIn x.brackets_test) x.balanced_test

theorem brackets_joined : brackets (0, false) x.joined = some (0, false) :=
  track_of_comma rfl rfl (eq_intercalate_argumentsIn x.brackets_test) x.brackets_test

theorem arguments_joined : argumentsIn x.joined = x.arguments :=
  argumentsIn_intercalate x.brackets_test x.nonempty_arguments

theorem parens_negation : parens (0, false) x.negation = some (0, false) := by
  refine track_cons.2 ⟨(0, false), by decide, track_cons.2 ⟨(1, false), by decide, ?_⟩⟩
  exact (track_append (track_add x.parens_joined 1) _).trans (by decide)

theorem brackets_negation : brackets (0, false) x.negation = some (0, false) := by
  refine track_cons.2 ⟨(0, false), by decide, track_cons.2 ⟨(1, false), by decide, ?_⟩⟩
  exact (track_append (track_add x.brackets_joined 1) _).trans (by decide)

/-- The negation is one argument, for its commas stand in parentheses. -/
theorem arguments_negation : argumentsIn x.negation = [x.negation] := by
  have hcut : cutArguments 0 false x.negation = (x.negation, []) := by
    have hinside := cutArguments_inside x.brackets_joined [')']
    have hclose : cutArguments 1 false [')'] = ([')'], []) := by decide
    rw [hclose] at hinside
    rw [negation, cutArguments_cons (n := (0, false)) (m := (0, false)) (by decide) (by decide),
      cutArguments_cons (n := (0, false)) (m := (1, false)) (by decide) (by decide), hinside]
    rfl
  rw [argumentsIn, hcut]
  rfl

end IfElse

/-! ### Evaluating the two commands -/

section

variable {settings : Settings} {self : Text → Action Value} {s : State}

/-- A call of `if` evaluates its arguments and then perhaps its block. -/
theorem runStatement_branch (hbuiltins : settings.builtins = true) {test block : Text}
    (hparens : parens (0, false) test = some (0, false))
    (hbrackets : brackets (0, false) test = some (0, false)) (hblock : braces 0 block = some 0) :
    runStatement settings self (branchCall test block) = (do
      let values ← evaluateAll self (argumentsIn test)
      Builtin.runBranch settings self (some block) values) := by
  have hcall : Statement.ofText (branchCall test block) =
      .call ⟨['i', 'f'], argumentsIn test, some block⟩ :=
    (Statement.ofText_call (by simp) (by simp) _).trans
      (Statement.ofCall_block hparens hbrackets ['i', 'f'] hblock)
  have hname : Builtin.ofName? ['i', 'f'] = some .branch := by decide
  rw [runStatement, hcall]
  simp only [runCall, hbuiltins, if_true, hname]
  rfl

theorem form_branch {test block : Text} (h : Equation.ofText? (branchCall test block) = none) :
    Form.ofText (branchCall test block) = .other :=
  Form.ofText_other (Number.ofText?_of_head (by decide) (by decide) _)
    (literal?_of_head (by decide) _) (.inr h)

/-- A call of `!` turns the truth of its first argument. -/
theorem runStatement_not (hbuiltins : settings.builtins = true) {t : Text}
    (hparens : parens (0, false) t = some (0, false))
    (hbrackets : brackets (0, false) t = some (0, false)) :
    runStatement settings self ('!' :: '(' :: (t ++ [')'])) = (do
      let values ← evaluateAll self (argumentsIn t)
      return .ofBool !(Builtin.firstArg values).truthy) := by
  have hcall : Statement.ofText ('!' :: '(' :: (t ++ [')'])) = .call ⟨['!'], argumentsIn t, none⟩ :=
    (Statement.ofText_call (by simp) (by simp) _).trans
      (Statement.ofCall_plain hparens hbrackets ['!'])
  have hname : Builtin.ofName? ['!'] = some .not := by decide
  rw [runStatement, hcall]
  simp only [runCall, hbuiltins, if_true, hname]
  rfl

theorem form_not {t : Text} (h : Equation.ofText? ('!' :: '(' :: (t ++ [')'])) = none) :
    Form.ofText ('!' :: '(' :: (t ++ [')'])) = .other :=
  Form.ofText_other (Number.ofText?_of_head (by decide) (by decide) _)
    (literal?_of_head (by decide) _) (.inr h)

theorem truthy_ofBool (b : Bool) : (Value.ofBool b).truthy = b := by
  cases b <;> decide

/-- Runs an action on a condition; otherwise nothing happens. -/
def runIf (b : Bool) (x : Action Value) : Action Value := if b then x else pure .null

theorem runBranch_some (block : Text) (values : List Value) :
    Builtin.runBranch settings self (some block) values =
      runIf (Builtin.firstArg values).truthy (runBlock settings self block) := rfl

/-- A block binds no name for the commands after it. -/
theorem lookup_runBlock (settings : Settings) (self : Text → Action Value) (block : Text)
    {name : Text} (h : s.env.lookup name = none) :
    (runBlock settings self block s).2.env.lookup name = none := by
  cases hparse : parse settings.ignore block with
  | error e =>
    simp only [runBlock, runBlockIn, hparse]
    exact h
  | ok commands =>
    simp only [runBlock, runBlockIn, hparse, Action.inScope, Env.lookup_mergeBack, h,
      Option.map_none]

theorem lookup_runIf {b : Bool} {block : Text} {r : Outcome Value} {s' : State}
    (hrun : runIf b (runBlock settings self block) s = (r, s')) {name : Text}
    (h : s.env.lookup name = none) : s'.env.lookup name = none := by
  cases b with
  | false =>
    cases hrun
    exact h
  | true =>
    have hblock := lookup_runBlock settings self block h
    rwa [show runBlock settings self block s = (r, s') from hrun] at hblock

/-! ### Running the script -/

/-- Tells the user of a failure and goes on with null. -/
def reported (x : Action Value) : Action Value := fun s =>
  match x s with
  | (.failed f, s) => ((report f).andThen fun _ => .result .null) s
  | r => r

theorem reported_congr {x y : Action Value} (h : x s = y s) : reported x s = reported y s := by
  rw [reported, reported, h]

theorem runScript_ok {t : Text} {commands : List Text}
    (h : parse settings.ignore t = .ok commands) :
    runScript settings t = reported (runCommands (runCommand settings) commands) := by
  rw [runScript, h]
  rfl

end

section

variable {settings : Settings} (hbuiltins : settings.builtins = true)
  (x : IfElse settings.ignore) {s : State}

include hbuiltins

theorem evaluate_first (self : Text → Action Value) (hequation : Equation.ofText? x.first = none)
    (hunbound : s.env.lookup x.first = none) :
    evaluate settings self x.first s = (do
      let values ← evaluateAll self x.arguments
      runIf (Builtin.firstArg values).truthy
        (runBlock settings self (kept settings.ignore x.block))) s := by
  have hform : Form.ofText x.first = .other := form_branch hequation
  rw [evaluate_unbound hform hunbound, IfElse.first,
    runStatement_branch hbuiltins x.balanced_test x.brackets_test x.balanced_block]
  rfl

/-- The second `if` runs its block if the condition, evaluated one level deeper, is false. -/
theorem evaluate_second (depth : Nat) (hequation : Equation.ofText? x.second = none)
    (hunbound : s.env.lookup x.second = none) (hequation' : Equation.ofText? x.negation = none)
    (hunbound' : s.env.lookup x.negation = none) :
    evaluate settings (run settings (depth + 1)) x.second s = (do
      let values ← evaluateAll (run settings depth) x.arguments
      runIf (!(Builtin.firstArg values).truthy)
        (runBlock settings (run settings (depth + 1)) (kept settings.ignore x.otherwise))) s := by
  have hnegation : run settings (depth + 1) x.negation s = (do
      let values ← evaluateAll (run settings depth) x.arguments
      return .ofBool !(Builtin.firstArg values).truthy : Action Value) s := by
    have hform : Form.ofText x.negation = .other := form_not hequation'
    rw [run_succ, evaluate_unbound hform hunbound', IfElse.negation,
      runStatement_not hbuiltins x.parens_joined x.brackets_joined, x.arguments_joined]
  have hform : Form.ofText x.second = .other := form_branch hequation
  rw [evaluate_unbound hform hunbound, IfElse.second,
    runStatement_branch hbuiltins x.parens_negation x.brackets_negation x.balanced_otherwise,
    x.arguments_negation]
  simp only [evaluateAll, Action.bind_apply, Action.pure_apply, hnegation, runBranch_some]
  rcases evaluateAll (run settings depth) x.arguments s with ⟨values | f | -, s'⟩
  · simp only [Builtin.firstArg, List.headD_cons, truthy_ofBool]
  · rfl
  · rfl

/-- The two commands in turn evaluate the condition, run the block if it is true, evaluate the
condition again, one level deeper, and run the other block if it is then false. -/
theorem runCommands_ifElse {depth : Nat} (hdepth : settings.maxDepth = depth + 2)
    (hequation : ∀ t ∈ [x.first, x.second, x.negation], Equation.ofText? t = none)
    (hfirst : s.env.lookup x.first = none)
    (hlater : ∀ values s',
      evaluateAll (run settings (depth + 1)) x.arguments s = (.done values, s') →
      s'.env.lookup x.second = none ∧ s'.env.lookup x.negation = none) :
    runCommands (runCommand settings) [x.first, x.second] s = (do
      let values ← evaluateAll (run settings (depth + 1)) x.arguments
      let _ ← runIf (Builtin.firstArg values).truthy
        (runBlock settings (run settings (depth + 1)) (kept settings.ignore x.block))
      let again ← evaluateAll (run settings depth) x.arguments
      runIf (!(Builtin.firstArg again).truthy)
        (runBlock settings (run settings (depth + 1)) (kept settings.ignore x.otherwise))) s := by
  have hrun : ∀ t, runCommand settings t = evaluate settings (run settings (depth + 1)) t := by
    intro t
    rw [runCommand, hdepth, run_succ]
  simp only [runCommands, runCommandsFrom, hrun]
  rw [Action.bind_apply, evaluate_first hbuiltins x _ (hequation _ (by simp)) hfirst,
    Action.bind_apply, Action.bind_apply]
  rcases hvalues : evaluateAll (run settings (depth + 1)) x.arguments s with ⟨values | f | -, s'⟩
  · obtain ⟨hsecond, hnegation⟩ := hlater values s' hvalues
    simp only [Action.bind_apply]
    rcases hblock : runIf (Builtin.firstArg values).truthy
      (runBlock settings (run settings (depth + 1)) (kept settings.ignore x.block)) s'
      with ⟨v | f | -, s''⟩
    · -- The first block binds no new names, so the two texts are still unbound after it.
      have hsecond' := lookup_runIf hblock hsecond
      have hnegation' := lookup_runIf hblock hnegation
      simp only [evaluate_second hbuiltins x depth (hequation _ (by simp)) hsecond'
        (hequation _ (by simp)) hnegation', Action.bind_apply, Action.pure_apply]
      rcases evaluateAll (run settings depth) x.arguments s'' with ⟨again | f | -, s₃⟩
      · simp only
        generalize runIf _ _ s₃ = r
        rcases r with ⟨v | f | -, s₄⟩ <;> rfl
      · rfl
      · rfl
    · rfl
    · rfl
  · rfl
  · rfl

/-- Running an `if` with an `else` runs the block if the condition is true, and then the other block
if the condition, evaluated again in the state that is there by now, is false. So exactly one of
them runs when the two values of the condition agree. -/
theorem runScript_ifElse (hignore : ∀ c ∈ branchChars, settings.ignore.contains c = false)
    {depth : Nat} (hdepth : settings.maxDepth = depth + 2)
    (hequation : ∀ t ∈ [x.first, x.second, x.negation], Equation.ofText? t = none)
    (hfirst : s.env.lookup x.first = none)
    (hlater : ∀ values s',
      evaluateAll (run settings (depth + 1)) x.arguments s = (.done values, s') →
      s'.env.lookup x.second = none ∧ s'.env.lookup x.negation = none) :
    runScript settings x.script s = reported (do
      let values ← evaluateAll (run settings (depth + 1)) x.arguments
      let _ ← runIf (Builtin.firstArg values).truthy
        (runBlock settings (run settings (depth + 1)) (kept settings.ignore x.block))
      let again ← evaluateAll (run settings depth) x.arguments
      runIf (!(Builtin.firstArg again).truthy)
        (runBlock settings (run settings (depth + 1)) (kept settings.ignore x.otherwise))) s ∧
    ∀ values s₁ v s₂ again s₃,
      evaluateAll (run settings (depth + 1)) x.arguments s = (.done values, s₁) →
      runIf (Builtin.firstArg values).truthy
        (runBlock settings (run settings (depth + 1)) (kept settings.ignore x.block)) s₁ =
          (.done v, s₂) →
      evaluateAll (run settings depth) x.arguments s₂ = (.done again, s₃) →
      runScript settings x.script s =
        if (Builtin.firstArg again).truthy then (.done .null, s₃)
        else reported (runBlock settings (run settings (depth + 1))
          (kept settings.ignore x.otherwise)) s₃ := by
  have hscript := (congrFun (runScript_ok (x.parse_script hignore)) s).trans
    (reported_congr (runCommands_ifElse hbuiltins x hdepth hequation hfirst hlater))
  refine ⟨hscript, fun values s₁ v s₂ again s₃ hvalues hblock hagain => ?_⟩
  rw [hscript, reported]
  simp only [Action.bind_apply, hvalues, hblock, hagain]
  cases (Builtin.firstArg again).truthy <;> rfl

end

/-- A choice whose first block changes what the condition reads. -/
def sampleIf : IfElse defaultIgnore where
  condition := " x > 1, \"(\" ".toList
  block := " x = x - 2 ".toList
  otherwise := " print(\"small\") ".toList
  test := "x>1,\"(\"".toList
  inline_condition := by decide
  balanced_test := by decide
  nonempty_arguments := by decide
  balanced_block := by decide
  balanced_otherwise := by decide

def sampleState : State := { env := Env.empty.set ['x'] (.number 2) }

theorem runScript_sampleIf :
    sampleIf.script =
      "if( x > 1, \"(\" )\x7b x = x - 2 \x7d\nelse\x7b print(\"small\") \x7d".toList ∧
    (∀ t ∈ [sampleIf.first, sampleIf.second, sampleIf.negation], Equation.ofText? t = none) ∧
    runScript {} sampleIf.script sampleState = reported (do
      let values ← evaluateAll (run {} (998 + 1)) sampleIf.arguments
      let _ ← runIf (Builtin.firstArg values).truthy
        (runBlock {} (run {} (998 + 1)) (kept defaultIgnore sampleIf.block))
      let again ← evaluateAll (run {} 998) sampleIf.arguments
      runIf (!(Builtin.firstArg again).truthy)
        (runBlock {} (run {} (998 + 1)) (kept defaultIgnore sampleIf.otherwise))) sampleState := by
  have hbuiltins : ({} : Settings).builtins = true := rfl
  have hdepth : ({} : Settings).maxDepth = 998 + 2 := rfl
  have hequation : ∀ t ∈ [sampleIf.first, sampleIf.second, sampleIf.negation],
      Equation.ofText? t = none := by decide +kernel
  have hfirst : sampleState.env.lookup sampleIf.first = none := by decide +kernel
  have hlater : ∀ values s',
      evaluateAll (run {} (998 + 1)) sampleIf.arguments sampleState = (.done values, s') →
      s'.env.lookup sampleIf.second = none ∧ s'.env.lookup sampleIf.negation = none := by
    intro values s' h
    have hnames : ∀ name ∈ [sampleIf.second, sampleIf.negation],
        (evaluateAll (run {} (998 + 1)) sampleIf.arguments sampleState).2.env.lookup name =
          none := by
      decide +kernel
    generalize evaluateAll (run {} (998 + 1)) sampleIf.arguments sampleState = r at h hnames
    subst h
    exact ⟨hnames _ (by simp), hnames _ (by simp)⟩
  have hkept : ∀ c ∈ branchChars, defaultIgnore.contains c = false :=
    List.all_iff_forall_prop.1 (by decide)
  have hscript := runScript_ifElse hbuiltins sampleIf hkept hdepth hequation hfirst hlater
  exact ⟨by decide +kernel, hequation, hscript.1⟩

/-- Both blocks run when the first one makes the condition false. -/
theorem ifElse_runs_both :
    let s : State := { env := (Env.empty.set ['x'] (.number 1)).set ['y'] (.number 0) }
    let final := (runScript {} "if(x)\x7bx=0\x7d\nelse\x7by=1\x7d".toList s).2.env
    final.lookup ['x'] = some (.number 0) ∧ final.lookup ['y'] = some (.number 1) := by
  decide +kernel

end Scriptlet.Script
