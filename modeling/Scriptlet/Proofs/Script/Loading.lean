import Scriptlet.Proofs.Script.Limits
import Scriptlet.Proofs.Script.Scope
import Scriptlet.Proofs.Script.Branch

/-! Errors of loading. A script is loaded as a whole before it runs, but its blocks are kept as text
and loaded when they are entered. An error of loading in the middle of a run therefore comes from a
block that is entered and cannot be loaded; nothing of the block has run then, and the error ends
the script. To say so, evaluation is compared with an evaluation that is no longer followed as soon
as it comes to such a block. -/

namespace Scriptlet

open Command (LoadError defaultIgnore parse)

namespace Failure

theorem root_ne_load {f : Failure} (h : f.isLoad = false) (e : LoadError) :
    f.root ≠ .load e := by
  intro hroot
  rw [isLoad, hroot] at h
  cases h

theorem isPlainText_of_root {f : Failure} {e : LoadError} (h : f.root = .load e) :
    f.isPlainText = false := by
  rw [isPlainText, h]

end Failure

namespace Script

/-! ### Entering a block -/

/-- The block of the first round of a loop, if there is a first round. -/
def Loop.firstBlock (settings : Settings) (self : Text → Action Value) (loop : Loop) :
    Action (Option Text) :=
  if settings.rounds = 0 then .giveUp
  else do
    let c ← self loop.condition
    return if c.truthy then loop.block else none

/-- Binds the variable of a counting loop to its first value. -/
def Builtin.startCount (self : Text → Action Value) (counter start : Text) : Action Unit := do
  let v ← self counter
  let name ← expectName (name count) .variableName v
  let first ← self start
  Action.bindName name first

/-- The first block that a builtin enters by itself. -/
def Builtin.firstBlock (settings : Settings) (self : Text → Action Value) (call : Command.Call)
    (args : List Value) : Builtin → Action (Option Text)
  | branch => pure (if (firstArg args).truthy then call.block else none)
  | count =>
    match call.arguments with
    | [counter, start, condition, step] =>
      .enclosed (startCount self counter start)
        (Loop.firstBlock settings self ⟨condition, call.block, some step⟩)
    | _ => pure none
  | loop =>
    match call.arguments with
    | [condition] => Loop.firstBlock settings self ⟨condition, call.block, none⟩
    | _ => pure none
  | _ => pure none

/-- The first block that a call enters by itself: that of the builtin, or the body of the function
that the name is bound to. -/
def callBlock (settings : Settings) (self : Text → Action Value) (call : Command.Call) :
    Action (Option Text) := do
  match if settings.builtins then Builtin.ofName? call.name else none with
  | some builtin =>
    let args ← if builtin.takesTexts then pure [] else evaluateAll self call.arguments
    builtin.firstBlock settings self call args
  | none =>
    let _ ← evaluateAll self call.arguments
    match ← Action.lookup call.name with
    | some (.callable (some f)) => return if settings.functions then some f.body else none
    | _ => return none

/-- The first block that a command enters by itself, and not through the texts that are evaluated
one level deeper. These are evaluated as far as it takes to get to the block. No command enters two
different blocks by itself. -/
def firstBlock (settings : Settings) (self : Text → Action Value) (command : Text) :
    Action (Option Text) :=
  match Command.Form.ofText command with
  | .other => do
    match ← Action.lookup command with
    | some _ => return none
    | none =>
      match Command.Statement.ofText command with
      | .call call => callBlock settings self call
      | _ => return none
  | _ => pure none

/-- The block that was come to cannot be loaded. -/
def Outcome.isRejected (ignore : Text) (e : LoadError) : Outcome (Option Text) → Bool
  | .done (some block) => parse ignore block = .error e
  | _ => false

/-- Evaluation that is left as soon as it comes to a block that cannot be loaded. -/
def runUntilRejected (settings : Settings) (e : LoadError) : (depth : Nat) → Text → Action Value
  | 0, _ => .fail (.tooDeep settings.maxDepth)
  | depth + 1, command => fun s =>
    let self := runUntilRejected settings e depth
    if (firstBlock settings self command s).1.isRejected settings.ignore e then (.exhausted, s)
    else evaluate settings self command s

/-! ### Errors of loading -/

/-- Whether an error of loading was the end, within whatever task. -/
def Outcome.isLoad {α : Type} (e : LoadError) : Outcome α → Bool
  | .failed f => f.root = .load e
  | _ => false

theorem isEnding_isLoad (e : LoadError) : Outcome.IsEnding fun r => r.isLoad e = false where
  done _ := rfl
  failed h := h
  exhausted _ := rfl
  during _ h := h

/-- The action does not end with the error of loading. -/
def loads (e : LoadError) : Congruence where
  rel x _ := ∀ s, (x s).1.isLoad e = false
  result _ _ := rfl
  fail f h _ := by simpa [Action.fail, Outcome.isLoad] using Failure.root_ne_load h e
  bind hx hf := (isEnding_isLoad e).bind hx hf
  recover _ hx := (isEnding_isLoad e).recover hx _
  during task hx := (isEnding_isLoad e).within hx task
  env _ := rfl
  store _ := rfl
  lookup _ _ := rfl
  bindName _ _ _ := rfl
  setStore _ _ := rfl
  print t s := by
    unfold Action.print
    split <;> rfl
  readLine prompt s := by
    unfold Action.readLine
    split <;> rfl
  inScope enter _ hx s := hx { s with env := enter s.env }
  enclosed hsetup hx := (isEnding_isLoad e).enclosed hsetup hx

section

variable {settings : Settings} {self : Text → Action Value} {e : LoadError}
  (hself : ∀ t, (loads e).rel (self t) (self t))

include hself

theorem loads_runBlockIn (enter : Env → Env) (keep : List Text) {block : Text}
    (h : parse settings.ignore block ≠ .error e) :
    (loads e).rel (runBlockIn settings self enter keep block)
      (runBlockIn settings self enter keep block) := by
  refine Congruence.runBlockIn hself (.refl settings) enter keep fun e' he' s => ?_
  have hne : e' ≠ e := fun heq => h (heq ▸ he')
  simpa [Action.fail, Outcome.isLoad, Failure.root] using hne

end

/-! ### Coming to a block that cannot be loaded -/

/-- Where the first action comes to a block that cannot be loaded, the second fails for that reason
in the same state, and otherwise it does not fail for it at all. -/
def Foretells (ignore : Text) (e : LoadError) (x : Action (Option Text)) (y : Action Value) :
    Prop :=
  ∀ s, if (x s).1.isRejected ignore e then y s = (.failed (.load e), (x s).2)
    else (y s).1.isLoad e = false

namespace Foretells

variable {ignore : Text} {e : LoadError}

theorem failed {x : Action (Option Text)} {y : Action Value} {s : State}
    (h : Foretells ignore e x y) (hrejected : (x s).1.isRejected ignore e = true) :
    y s = (.failed (.load e), (x s).2) := by
  have hs := h s
  rwa [if_pos hrejected] at hs

theorem not_failed {x : Action (Option Text)} {y : Action Value} {s : State}
    (h : Foretells ignore e x y) (hrejected : ¬(x s).1.isRejected ignore e = true) :
    (y s).1.isLoad e = false := by
  have hs := h s
  rwa [if_neg hrejected] at hs

theorem of_loads {y : Action Value} (h : (loads e).rel y y) : Foretells ignore e (pure none) y :=
  fun s => h s

theorem bind {α : Type} {x : Action α} {f : α → Action (Option Text)} {g : α → Action Value}
    (hx : (loads e).rel x x) (h : ∀ a, Foretells ignore e (f a) (g a)) :
    Foretells ignore e (x >>= f) (x >>= g) := by
  intro s
  have hfirst := hx s
  rw [Action.bind_apply, Action.bind_apply]
  generalize x s = first at hfirst
  obtain ⟨a | f | -, s₁⟩ := first
  · exact h a s₁
  · exact hfirst
  · rfl

theorem enclosed {setup : Action Unit} {x : Action (Option Text)} {y : Action Value}
    (hsetup : (loads e).rel setup setup) (h : Foretells ignore e x y) :
    Foretells ignore e (.enclosed setup x) (.enclosed setup y) := by
  intro s
  have hfirst := hsetup s
  unfold Action.enclosed
  generalize setup s = first at hfirst
  obtain ⟨⟨⟩ | f | -, s₁⟩ := first
  · have hbody := h s₁
    dsimp only
    split at hbody
    · next hrejected => simp only [hrejected, if_true, hbody]
    · next hrejected =>
      rw [if_neg hrejected]
      exact hbody
  · exact hfirst
  · rfl

/-- A block is entered if the condition holds. -/
theorem ite {p : Prop} [Decidable p] {block : Option Text} {y z : Action Value}
    (hfails : ∀ t, block = some t → parse ignore t = .error e → ∀ s, y s = (.failed (.load e), s))
    (hy : (∀ t, block = some t → parse ignore t ≠ .error e) → (loads e).rel y y)
    (hz : (loads e).rel z z) :
    Foretells ignore e (pure (if p then block else none)) (if p then y else z) := by
  by_cases hp : p
  · rw [if_pos hp, if_pos hp]
    by_cases hblock : ∃ t, block = some t ∧ parse ignore t = .error e
    · obtain ⟨t, rfl, hparse⟩ := hblock
      intro s
      simpa [Action.pure_apply, Outcome.isRejected, hparse] using hfails t rfl hparse s
    · have hloads := hy fun t ht hparse => hblock ⟨t, ht, hparse⟩
      intro s
      have hrejected : Outcome.isRejected ignore e (.done block) = false := by
        cases block with
        | none => rfl
        | some t => simpa [Outcome.isRejected] using hblock
      simpa [Action.pure_apply, hrejected] using hloads s
  · rw [if_neg hp, if_neg hp]
    exact of_loads hz

variable {settings : Settings} {self : Text → Action Value}
  (hself : ∀ t, (loads e).rel (self t) (self t))

include hself

theorem loop (loop : Loop) :
    Foretells settings.ignore e (loop.firstBlock settings self) (loop.run settings self) := by
  unfold Loop.firstBlock
  rw [Loop.run_eq]
  cases settings.rounds with
  | zero => exact fun _ => rfl
  | succ fuel =>
    have hlimit : ¬settings.AtLimit 0 := fun hn => absurd hn.2 (Nat.not_le.2 hn.1)
    rw [if_neg (Nat.succ_ne_zero fuel), Loop.runFrom_succ]
    refine bind (hself _) fun c => ?_
    rw [if_neg hlimit]
    refine ite (fun t hblock hparse s => ?_) (fun hblock => ?_) ((loads e).result _)
    · have hround : loop.round settings self .null s = (.failed (.load e), s) := by
        obtain ⟨condition, _, step⟩ := loop
        subst hblock
        simp only [Loop.round, Action.bind_apply, runBlock, runBlockIn_error hparse]
      simp only [Action.bind_apply, hround]
    · have hruns : ∀ t, loop.block = some t →
          (loads e).rel (runBlock settings self t) (runBlock settings self t) := fun t ht =>
        loads_runBlockIn hself id [] (hblock t ht)
      exact (loads e).bind (Congruence.round hself hruns .null) fun v =>
        Congruence.runFrom (fun _ => rfl) hself hruns fuel 1 v

theorem builtin (call : Command.Call) (args : List Value) (b : Builtin) :
    Foretells settings.ignore e (b.firstBlock settings self call args)
      (b.run settings self call args) := by
  cases b with
  | branch =>
    simp only [Builtin.firstBlock, Builtin.run, Builtin.runBranch]
    cases call.block with
    | none => simpa using of_loads ((loads e).result _)
    | some t =>
      refine ite (fun _ hblock hparse s => ?_) (fun h => ?_) ((loads e).result _)
      · cases hblock
        exact runBlockIn_error hparse id []
      · exact loads_runBlockIn hself id [] (h t rfl)
  | count =>
    simp only [Builtin.firstBlock, Builtin.run, Builtin.runCount]
    rcases call.arguments with
      _ | ⟨counter, _ | ⟨start, _ | ⟨condition, _ | ⟨step, _ | ⟨more, rest⟩⟩⟩⟩⟩
    case cons.cons.cons.cons.nil =>
      refine enclosed ?_ (loop hself _)
      refine (loads e).bind (hself _) fun v => (loads e).bind ((loads e).expectName _ _ v) ?_
      exact fun _ => (loads e).bind (hself _) fun _ => (loads e).bindName _ _
    all_goals exact of_loads ((loads e).fail _ rfl)
  | loop =>
    simp only [Builtin.firstBlock, Builtin.run, Builtin.runWhile]
    rcases call.arguments with _ | ⟨condition, _ | ⟨more, rest⟩⟩
    case cons.nil => exact loop hself _
    all_goals exact of_loads ((loads e).fail _ rfl)
  | _ => exact of_loads (Congruence.runPlain hself call args rfl)

theorem call (call : Command.Call) :
    Foretells settings.ignore e (callBlock settings self call) (runCall settings self call) := by
  have hargs := Congruence.evaluateAll hself call.arguments
  unfold callBlock runCall
  cases if settings.builtins then Builtin.ofName? call.name else none with
  | some b =>
    cases htexts : b.takesTexts with
    | true =>
      simp only [htexts, if_true]
      exact bind ((loads e).result []) fun args => builtin hself call args b
    | false =>
      simp only [htexts, Bool.false_eq_true, if_false]
      exact bind hargs fun args => builtin hself call args b
  | none =>
    refine bind hargs fun args => bind ((loads e).lookup call.name) fun v => ?_
    match v with
    | some (.callable (some f)) =>
      refine ite (fun _ hbody hparse s => ?_) (fun h => ?_) ((loads e).fail _ rfl)
      · cases hbody
        exact runBlockIn_error hparse _ _
      · exact loads_runBlockIn hself _ _ (h f.body rfl)
    | some (.callable none) =>
      exact of_loads ((loads e).ite ((loads e).result _) ((loads e).fail _ rfl))
    | none | some .null | some (.number _) | some (.text _) =>
      exact of_loads ((loads e).fail _ rfl)

/-- A command fails for an error of loading exactly if it comes to a block with this error, and then
with nothing of the block done. -/
theorem evaluate (command : Text) :
    Foretells settings.ignore e (firstBlock settings self command)
      (evaluate settings self command) := by
  unfold firstBlock Script.evaluate
  cases Command.Form.ofText command with
  | number x => exact of_loads ((loads e).result _)
  | string t => exact of_loads ((loads e).result _)
  | equation q => exact of_loads (Congruence.runEquation hself q)
  | other =>
    refine bind ((loads e).lookup command) fun v => ?_
    cases v with
    | some v => exact of_loads (Congruence.resolve hself command v)
    | none =>
      cases hstatement : Command.Statement.ofText command with
      | call c =>
        simp only [runStatement, hstatement]
        exact call hself c
      | group | assignment | word | malformed =>
        exact of_loads (Congruence.runStatement hself (by simp [hstatement]))

end Foretells

/-! ### Following evaluation up to such a block -/

/-- The first action is left where the second fails for the error of loading. -/
def Left {α : Type} (e : LoadError) (x y : Action α) (s : State) : Prop :=
  ∃ s₁ f s₂, x s = (.exhausted, s₁) ∧ y s = (.failed f, s₂) ∧ f.root = .load e

/-- The first action does what the second does, as far as it is not left. -/
def leaves (e : LoadError) : Congruence where
  rel x y := ∀ s, x s = y s ∨ Left e x y s
  result _ _ := .inl rfl
  fail _ _ _ := .inl rfl
  bind {_ _ x y f g} hx hf s := by
    obtain heq | ⟨s₁, h, s₂, hx, hy, hroot⟩ := hx s
    · rcases hy : y s with ⟨a | h | -, s₁⟩
      · simpa only [Left, Action.bind_apply, heq, hy] using hf a s₁
      · exact .inl (by simp only [Action.bind_apply, heq, hy])
      · exact .inl (by simp only [Action.bind_apply, heq, hy])
    · exact .inr ⟨s₁, h, s₂, by simp only [Action.bind_apply, hx],
        by simp only [Action.bind_apply, hy], hroot⟩
  recover {_ x y} a hx s := by
    obtain heq | ⟨s₁, h, s₂, hx, hy, hroot⟩ := hx s
    · exact .inl (by simp only [Action.recover, heq])
    · refine .inr ⟨s₁, h, s₂, by simp only [Action.recover, hx], ?_, hroot⟩
      simp [Action.recover, hy, Failure.isPlainText_of_root hroot]
  during {_ x y} task hx s := by
    obtain heq | ⟨s₁, h, s₂, hx, hy, hroot⟩ := hx s
    · exact .inl (by simp only [Action.during, heq])
    · exact .inr ⟨s₁, .during task h, s₂, by simp only [Action.during, hx],
        by simp only [Action.during, hy], hroot⟩
  env _ := .inl rfl
  store _ := .inl rfl
  lookup _ _ := .inl rfl
  bindName _ _ _ := .inl rfl
  setStore _ _ := .inl rfl
  print _ _ := .inl rfl
  readLine _ _ := .inl rfl
  inScope enter keep hx s := by
    obtain heq | ⟨s₁, h, s₂, hx, hy, hroot⟩ := hx { s with env := enter s.env }
    · exact .inl (by simp only [Action.inScope, heq])
    · exact .inr ⟨_, h, _, by rw [Action.inScope, hx], by rw [Action.inScope, hy], hroot⟩
  enclosed {_ setup setup' x y} hsetup hx s := by
    obtain heq | ⟨s₁, h, s₂, hsetup, hsetup', hroot⟩ := hsetup s
    · rcases hfirst : setup' s with ⟨⟨⟩ | h | -, s₁⟩
      · obtain hbody | ⟨s₂, h, s₃, hx, hy, hroot⟩ := hx s₁
        · exact .inl (by simp only [Action.enclosed, heq, hfirst, hbody])
        · exact .inr ⟨_, h, _, by simp only [Action.enclosed, heq, hfirst, hx]; rfl,
            by simp only [Action.enclosed, hfirst, hy]; rfl, hroot⟩
      · exact .inl (by simp only [Action.enclosed, heq, hfirst])
      · exact .inl (by simp only [Action.enclosed, heq, hfirst])
    · exact .inr ⟨_, h, _, by rw [Action.enclosed, hsetup], by rw [Action.enclosed, hsetup'],
        hroot⟩

theorem leaves_relates (settings : Settings) (e : LoadError) :
    (leaves e).Relates settings settings :=
  Congruence.relates_self (fun _ => .inl rfl) fun _ _ => .inl rfl

section

variable (settings : Settings) (e : LoadError) (depth : Nat)

theorem loads_runUntilRejected (command : Text) :
    (loads e).rel (runUntilRejected settings e depth command)
      (runUntilRejected settings e depth command) := by
  induction depth generalizing command with
  | zero => exact (loads e).fail _ rfl
  | succ depth ih =>
    intro s
    simp only [runUntilRejected]
    split
    · rfl
    · next hrejected => exact (Foretells.evaluate ih command).not_failed hrejected

/-- Where the evaluation is left, the command itself fails, in the state in which the block was come
to. -/
theorem run_of_rejected_of_leaves
    (hself : ∀ t, (leaves e).rel (runUntilRejected settings e depth t) (run settings depth t))
    (command : Text) (s : State)
    (hrejected : (firstBlock settings (runUntilRejected settings e depth) command s).1.isRejected
      settings.ignore e = true) :
    run settings (depth + 1) command s = (.failed (.load e),
      (firstBlock settings (runUntilRejected settings e depth) command s).2) := by
  have hfailed := (Foretells.evaluate (loads_runUntilRejected settings e depth) command).failed
    hrejected
  -- One level up the evaluation fails and is not left, so the two agree here.
  obtain heq | ⟨s₁, f, s₂, hleft, _⟩ := (leaves_relates settings e).evaluate hself command s
  · rw [run_succ, ← heq, hfailed]
  · rw [hfailed] at hleft
    cases hleft

theorem leaves_runUntilRejected (command : Text) :
    (leaves e).rel (runUntilRejected settings e depth command) (run settings depth command) := by
  induction depth generalizing command with
  | zero => exact fun _ => .inl rfl
  | succ depth ih =>
    intro s
    by_cases hrejected : (firstBlock settings (runUntilRejected settings e depth) command
      s).1.isRejected settings.ignore e = true
    · have hleft : runUntilRejected settings e (depth + 1) command s = (.exhausted, s) := by
        simp only [runUntilRejected, hrejected, if_true]
      exact .inr ⟨s, .load e, _, hleft,
        run_of_rejected_of_leaves settings e depth ih command s hrejected, rfl⟩
    · have hgoes : runUntilRejected settings e (depth + 1) command s =
          evaluate settings (runUntilRejected settings e depth) command s := by
        simp only [runUntilRejected, if_neg hrejected]
      have hlevel := (leaves_relates settings e).evaluate ih command s
      simpa only [Left, hgoes, run_succ] using hlevel

end

/-! ### Scripts -/

theorem reported_ne_failed (x : Action Value) (s : State) (f : Failure) :
    (reported x s).1 ≠ .failed f := by
  unfold reported
  rcases x s with ⟨v | g | -, s₁⟩
  · exact nofun
  · simp [Action.andThen, report, Action.result]
  · exact nofun

/-- A script that cannot be loaded fails and changes nothing. One that can be loaded does not fail.
What it comes to is what an evaluation comes to that is left as soon as it enters a block that
cannot be loaded, unless this evaluation is left; and where it is left, the command that enters the
block fails with nothing of the block done, and the script ends with that. -/
theorem load_errors_arise_at_blocks (settings : Settings) (text : Text) (s : State) :
    (∀ e, parse settings.ignore text = .error e →
      runScript settings text s = (.failed (.load e), s)) ∧
    ∀ commands, parse settings.ignore text = .ok commands →
      runScript settings text s = reported (runCommands (runCommand settings) commands) s ∧
      (∀ f, (runScript settings text s).1 ≠ .failed f) ∧
      ∀ e,
        (runCommands (runUntilRejected settings e settings.maxDepth) commands s =
            runCommands (runCommand settings) commands s ∧
          (runCommands (runCommand settings) commands s).1.isLoad e = false ∨
          Left e (runCommands (runUntilRejected settings e settings.maxDepth) commands)
            (runCommands (runCommand settings) commands) s) ∧
        ∀ depth command s₁ block s₂,
          firstBlock settings (runUntilRejected settings e depth) command s₁ =
            (.done (some block), s₂) →
          parse settings.ignore block = .error e →
          run settings (depth + 1) command s₁ = (.failed (.load e), s₂) := by
  refine ⟨fun e he => ?_, fun commands hok => ?_⟩
  · rw [runScript, he]
    rfl
  have hscript := congrFun (runScript_ok hok) s
  refine ⟨hscript, fun f => hscript ▸ reported_ne_failed _ s f, fun e => ⟨?_, ?_⟩⟩
  · have hloads := Congruence.runCommands
      (loads_runUntilRejected settings e settings.maxDepth) commands s
    obtain heq | hleft := Congruence.runCommands
      (leaves_runUntilRejected settings e settings.maxDepth) commands s
    · exact .inl ⟨heq, heq ▸ hloads⟩
    · exact .inr hleft
  · intro depth command s₁ block s₂ hblock hparse
    have hfailed := run_of_rejected_of_leaves settings e depth
      (leaves_runUntilRejected settings e depth) command s₁
    rw [hblock] at hfailed
    exact hfailed (by simp [Outcome.isRejected, hparse])

/-- A script that binds a name and then enters a block that begins with an `else`. -/
def lateElse : Text := "x=1\nif(1)\x7belse\x7by=2\x7d\x7d".toList

def lateElseCommands : List Text := ["x=1".toList, "if(1)\x7belse\x7by=2\x7d\x7d".toList]

def lateElseError : LoadError := .misplacedElse ⟨0, "else\x7by=2\x7d".toList⟩

theorem lateElse_arises_at_block :
    parse defaultIgnore lateElse = .ok lateElseCommands ∧
    Left lateElseError
      (runCommands (runUntilRejected {} lateElseError (Settings.maxDepth {})) lateElseCommands)
      (runCommands (runCommand {}) lateElseCommands) {} ∧
    parse defaultIgnore "else\x7by=2\x7d".toList = .error lateElseError ∧
    (run {} (2 + 1) "if(1)\x7belse\x7by=2\x7d\x7d".toList {}).1 = .failed (.load lateElseError) ∧
    parse defaultIgnore "x=\"".toList = .error (.incomplete ⟨.string, 1⟩) ∧
    runScript {} "x=\"".toList {} = (.failed (.load (.incomplete ⟨.string, 1⟩)), {}) := by
  have hparse : parse defaultIgnore lateElse = .ok lateElseCommands := by decide +kernel
  have hblock : parse defaultIgnore "else\x7by=2\x7d".toList = .error lateElseError := by
    decide +kernel
  have hstring : parse defaultIgnore "x=\"".toList = .error (.incomplete ⟨.string, 1⟩) := by
    decide +kernel
  have hfirst : (firstBlock {} (runUntilRejected {} lateElseError 2)
      "if(1)\x7belse\x7by=2\x7d\x7d".toList {}).1 = .done (some "else\x7by=2\x7d".toList) := by
    decide +kernel
  generalize hcome : firstBlock {} (runUntilRejected {} lateElseError 2)
    "if(1)\x7belse\x7by=2\x7d\x7d".toList {} = come at hfirst
  obtain ⟨block, s₂⟩ := come
  obtain rfl : block = .done (some "else\x7by=2\x7d".toList) := hfirst
  have hload : (runCommands (runCommand {}) lateElseCommands {}).1.isLoad lateElseError = true := by
    decide +kernel
  have hrun := ((load_errors_arise_at_blocks {} lateElse {}).2 _ hparse).2.2 lateElseError
  refine ⟨hparse, hrun.1.resolve_left fun hsame => ?_, hblock, ?_, hstring, ?_⟩
  · exact absurd (hload.symm.trans hsame.2) (by decide)
  · exact congrArg Prod.fst (hrun.2 2 _ {} _ s₂ hcome hblock)
  · exact (load_errors_arise_at_blocks {} "x=\"".toList {}).1 _ hstring

/-- The script can be loaded, and has bound a name when the error in its block ends it. -/
theorem lateElse_fails_after_binding :
    parse defaultIgnore lateElse = .ok lateElseCommands ∧
    (runCommands (runCommand {}) lateElseCommands { store := some (.memory {}) }).1 =
      .failed (.load lateElseError) ∧
    (runScript {} lateElse { store := some (.memory {}) }).2.env.lookup ['x'] ≠ none := by
  decide +kernel

end Script

end Scriptlet
