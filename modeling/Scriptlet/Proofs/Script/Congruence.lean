import Scriptlet.Proofs.Script.Evaluation

/-! Two evaluations side by side. Evaluation is put together from a few operations on actions, so a
relation between actions that respects each of them holds between any two evaluations that differ
at most in their limits. A property of single actions is such a relation that does not look at the
second action. A relation that respects only the operations which leave the environment alone still
holds of everything but assignments, blocks and the builtins that may bind a name. A block that
cannot be loaded fails by itself, and loops are where the limits enter, so these two are left to
each relation; for one round of a loop there is a lemma, and under the same settings loops need only
be related where they are given up. -/

namespace Scriptlet

/-- A text could not be loaded. -/
def Failure.isLoad (f : Failure) : Bool :=
  match f.root with
  | load _ => true
  | _ => false

namespace Script

/-- A relation between actions that all operations respect which leave the environment alone. -/
structure QuietCongruence where
  rel : {α : Type} → Action α → Action α → Prop
  result {α : Type} (a : α) : rel (pure a) (pure a)
  fail {α : Type} (f : Failure) : f.isLoad = false → rel (.fail f : Action α) (.fail f)
  bind {α β : Type} {x y : Action α} {f g : α → Action β} :
    rel x y → (∀ a, rel (f a) (g a)) → rel (x >>= f) (y >>= g)
  /-- The only failures that are answered are those of a plain text. -/
  recover {α : Type} {x y : Action α} (a : α) : rel x y →
    rel (x.recover fun f => if f.isPlainText then some a else none)
      (y.recover fun f => if f.isPlainText then some a else none)
  during {α : Type} {x y : Action α} (task : Text) : rel x y → rel (x.during task) (y.during task)
  env : rel .env .env
  store : rel .store .store
  lookup (name : Text) : rel (.lookup name) (.lookup name)
  setStore (store : Store) : rel (.setStore store) (.setStore store)
  print (t : Text) : rel (.print t) (.print t)
  readLine (prompt : Text) : rel (.readLine prompt) (.readLine prompt)

/-- A relation between actions that all operations of the language respect. -/
structure Congruence extends QuietCongruence where
  bindName (name : Text) (v : Value) : rel (.bindName name v) (.bindName name v)
  inScope {α : Type} {x y : Action α} (enter : Env → Env) (keep : List Text) :
    rel x y → rel (.inScope enter keep x) (.inScope enter keep y)
  enclosed {α : Type} {setup setup' : Action Unit} {x y : Action α} :
    rel setup setup' → rel x y → rel (.enclosed setup x) (.enclosed setup' y)

/-- A property of how actions end: every value has it, what is not a value has it whatever the value
would have been, and a failure keeps it within a task. -/
structure Outcome.IsEnding (P : {α : Type} → Outcome α → Prop) : Prop where
  done {α : Type} (a : α) : P (.done a)
  failed {α β : Type} {f : Failure} : P (.failed f : Outcome α) → P (.failed f : Outcome β)
  exhausted {α β : Type} : P (.exhausted : Outcome α) → P (.exhausted : Outcome β)
  during {α : Type} {f : Failure} (task : Text) :
    P (.failed f : Outcome α) → P (.failed (.during task f) : Outcome α)

namespace Outcome.IsEnding

variable {P : {α : Type} → Outcome α → Prop} (hP : IsEnding P) {α β : Type} {x : Action α}

include hP

theorem bind {f : α → Action β} (hx : ∀ s, P (x s).1) (hf : ∀ a s, P (f a s).1) (s : State) :
    P ((x >>= f) s).1 := by
  have hfirst := hx s
  rw [Action.bind_apply]
  generalize x s = first at hfirst
  obtain ⟨a | e | -, s₁⟩ := first
  · exact hf a s₁
  · exact hP.failed hfirst
  · exact hP.exhausted hfirst

theorem recover (hx : ∀ s, P (x s).1) (answer : Failure → Option α) (s : State) :
    P (x.recover answer s).1 := by
  have hfirst := hx s
  unfold Action.recover
  generalize x s = first at hfirst
  obtain ⟨b | e | -, s₁⟩ := first
  · exact hfirst
  · dsimp only
    split
    · exact hP.done _
    · exact hfirst
  · exact hfirst

theorem within (hx : ∀ s, P (x s).1) (task : Text) (s : State) : P (x.during task s).1 := by
  have hfirst := hx s
  unfold Action.during
  generalize x s = first at hfirst
  obtain ⟨b | e | -, s₁⟩ := first
  · exact hfirst
  · exact hP.during task hfirst
  · exact hfirst

theorem enclosed {setup : Action Unit} (hsetup : ∀ s, P (setup s).1) (hx : ∀ s, P (x s).1)
    (s : State) : P (Action.enclosed setup x s).1 := by
  have hfirst := hsetup s
  unfold Action.enclosed
  generalize setup s = first at hfirst
  obtain ⟨⟨⟩ | e | -, s₁⟩ := first
  · exact hx s₁
  · exact hP.failed hfirst
  · exact hP.exhausted hfirst

end Outcome.IsEnding

/-- Settings that differ at most in their limits. -/
structure Settings.Alike (settings settings' : Settings) : Prop where
  builtins : settings'.builtins = settings.builtins
  functions : settings'.functions = settings.functions
  ignore : settings'.ignore = settings.ignore

theorem Settings.Alike.refl (settings : Settings) : settings.Alike settings := ⟨rfl, rfl, rfl⟩

/-- After `n` rounds a loop may not begin another one. -/
def Settings.AtLimit (settings : Settings) (n : Nat) : Prop :=
  0 < settings.loopLimit ∧ settings.loopLimit ≤ n

instance (settings : Settings) (n : Nat) : Decidable (settings.AtLimit n) :=
  inferInstanceAs (Decidable (0 < settings.loopLimit ∧ settings.loopLimit ≤ n))

theorem Loop.runFrom_succ (settings : Settings) (self : Text → Action Value) (loop : Loop)
    (fuel n : Nat) (last : Value) :
    loop.runFrom settings self (fuel + 1) n last = (do
      let c ← self loop.condition
      if c.truthy then
        if settings.AtLimit n then .fail (.tooLong settings.loopLimit)
        else do
          let v ← loop.round settings self last
          loop.runFrom settings self fuel (n + 1) v
      else return last) := by
  rw [Loop.runFrom]
  congr 1
  funext c
  cases c.truthy with
  | false => rfl
  | true =>
    rw [if_neg (by decide), if_pos rfl]
    exact ite_congr (by simp [Settings.AtLimit]) (fun _ => rfl) fun _ => rfl

/-- The builtins that may run the block of their call. -/
def Builtin.runsBlock : Builtin → Bool
  | branch | count | loop => true
  | _ => false

/-- The builtins that may bind a name, by themselves or by running a block. -/
def Builtin.mayBind : Builtin → Bool
  | define | load => true
  | b => b.runsBlock

namespace QuietCongruence

variable (C : QuietCongruence)

theorem ite {α : Type} {p : Prop} [Decidable p] {x y x' y' : Action α} (h : C.rel x y)
    (h' : C.rel x' y') : C.rel (if p then x else x') (if p then y else y') := by
  split
  · exact h
  · exact h'

/-! ### Builtins that evaluate nothing -/

theorem ofStore {α : Type} (answer : Except Store.Fault α) :
    C.rel (Action.ofStore answer) (Action.ofStore answer) := by
  cases answer with
  | ok a => exact C.result a
  | error e => exact C.fail _ rfl

theorem expectName (operation : Text) (want : Want) (v : Value) :
    C.rel (Builtin.expectName operation want v) (Builtin.expectName operation want v) := by
  unfold Builtin.expectName
  split
  · exact C.result _
  · exact C.fail _ rfl

theorem expectNumber (operation : Text) (v : Value) :
    C.rel (Builtin.expectNumber operation v) (Builtin.expectNumber operation v) := by
  unfold Builtin.expectNumber
  split
  · exact C.result _
  · exact C.fail _ rfl

theorem expectNames (values : List Value) :
    C.rel (Builtin.expectNames values) (Builtin.expectNames values) := by
  induction values with
  | nil => exact C.result _
  | cons v values ih =>
    exact C.bind (C.expectName _ _ v) fun _ => C.bind ih fun _ => C.result _

theorem runPrint (args : List Value) : C.rel (Builtin.runPrint args) (Builtin.runPrint args) :=
  C.bind (C.print _) fun _ => C.result _

theorem runInput (args : List Value) : C.rel (Builtin.runInput args) (Builtin.runInput args) := by
  refine C.bind (C.readLine _) fun line => ?_
  cases line <;> exact C.result _

theorem runNum (args : List Value) : C.rel (Builtin.runNum args) (Builtin.runNum args) :=
  C.bind (C.expectNumber _ _) fun _ => C.result _

theorem runPersist (args : List Value) :
    C.rel (Builtin.runPersist args) (Builtin.runPersist args) := by
  refine C.bind (C.expectName _ _ _) fun binding => C.bind C.store fun store => ?_
  cases store with
  | none => exact C.result _
  | some store =>
    refine C.bind (C.lookup binding) fun v => ?_
    cases v with
    | none => exact C.fail _ rfl
    | some v =>
      refine C.ite (C.fail _ rfl) ?_
      exact C.bind (C.during _ (C.ofStore _)) fun _ => C.bind (C.setStore _) fun _ => C.result _

theorem runForget (args : List Value) :
    C.rel (Builtin.runForget args) (Builtin.runForget args) := by
  refine C.bind (C.expectName _ _ _) fun binding => C.bind C.store fun store => ?_
  cases store with
  | none => exact C.result _
  | some store =>
    exact C.bind (C.during _ (C.ofStore _)) fun _ => C.bind (C.setStore _) fun _ => C.result _

theorem runStored : C.rel Builtin.runStored Builtin.runStored := by
  refine C.bind C.store fun store => ?_
  cases store with
  | none => exact C.result _
  | some store => exact C.bind (C.during _ (C.ofStore _)) fun _ => C.result _

theorem runHistory (args : List Value) :
    C.rel (Builtin.runHistory args) (Builtin.runHistory args) := by
  refine C.bind (C.expectName _ _ _) fun binding => C.bind C.store fun store => ?_
  dsimp only
  split
  · exact C.result _
  · split
    · refine C.bind (C.bind (C.expectNumber _ _) fun _ => C.result _) fun _ => ?_
      refine C.bind (C.during _ (C.ofStore _)) fun found => ?_
      cases found <;> exact C.result _
    · refine C.bind (C.result _) fun _ => C.bind (C.during _ (C.ofStore _)) fun found => ?_
      cases found <;> exact C.result _

theorem runQuiet {settings settings' : Settings} {self self' : Text → Action Value}
    (call : Command.Call) (args : List Value) {b : Builtin} (hb : b.mayBind = false) :
    C.rel (b.run settings self call args) (b.run settings' self' call args) := by
  cases b with
  | print => exact C.runPrint args
  | input => exact C.runInput args
  | str => exact C.result _
  | num => exact C.runNum args
  | len => exact C.result _
  | cat => exact C.result _
  | not => exact C.result _
  | persist => exact C.runPersist args
  | forget => exact C.runForget args
  | stored => exact C.runStored
  | history => exact C.runHistory args
  | define | load | branch | count | loop => cases hb

/-! ### Equations, variables and arguments -/

section

variable {C} {self self' : Text → Action Value}

theorem evaluateAll {texts : List Text} (h : ∀ t ∈ texts, C.rel (self t) (self' t)) :
    C.rel (evaluateAll self texts) (evaluateAll self' texts) := by
  induction texts with
  | nil => exact C.result _
  | cons t texts ih =>
    obtain ⟨ht, htexts⟩ := List.forall_mem_cons.1 h
    exact C.bind ht fun _ => C.bind (ih htexts) fun _ => C.result _

theorem runEquation {e : Command.Equation} (hleft : C.rel (self e.left) (self' e.left))
    (hright : C.rel (self e.right) (self' e.right)) :
    C.rel (runEquation self e) (runEquation self' e) := by
  refine C.bind hleft fun left => C.bind hright fun right => ?_
  refine C.bind (C.expectNumber _ left) fun _ => C.bind (C.expectNumber _ right) fun _ => ?_
  exact C.result _

theorem resolve {v : Value}
    (hnumber : ∀ x, v = .number x → Number.isFinite x = true →
      C.rel (self v.source) (self' v.source))
    (htext : ∀ t, v = .text t → C.rel (self t) (self' t)) (name : Text) :
    C.rel (resolve self name v) (resolve self' name v) := by
  cases v with
  | null => exact C.result _
  | number x =>
    rw [Script.resolve, Script.resolve]
    split
    · next hfinite => exact hnumber x rfl hfinite
    · exact C.result _
  | text t => exact C.ite (C.result _) (C.recover _ (htext t rfl))
  | callable f => exact C.result _

end

end QuietCongruence

namespace Congruence

variable (C : Congruence)

/-! ### Evaluation one level deeper -/

theorem runDefine (block : Option Text) (args : List Value) :
    C.rel (Builtin.runDefine block args) (Builtin.runDefine block args) := by
  refine C.bind (C.expectNames args) fun names => ?_
  cases names with
  | nil => exact C.fail _ rfl
  | cons f params => exact C.bind (C.bindName _ _) fun _ => C.result _

section

variable {C} {settings settings' : Settings} {self self' : Text → Action Value}
  (hself : ∀ t, C.rel (self t) (self' t))

include hself

theorem runCommandsFrom (last : Value) (commands : List Text) :
    C.rel (runCommandsFrom self last commands) (runCommandsFrom self' last commands) := by
  induction commands generalizing last with
  | nil => exact C.result _
  | cons command commands ih => exact C.bind (hself command) fun v => ih v

theorem runCommands (commands : List Text) :
    C.rel (runCommands self commands) (runCommands self' commands) :=
  runCommandsFrom hself _ commands

theorem evaluateAll (texts : List Text) :
    C.rel (evaluateAll self texts) (evaluateAll self' texts) :=
  QuietCongruence.evaluateAll fun t _ => hself t

theorem runEquation (e : Command.Equation) :
    C.rel (runEquation self e) (runEquation self' e) :=
  QuietCongruence.runEquation (hself e.left) (hself e.right)

theorem resolve (name : Text) (v : Value) :
    C.rel (resolve self name v) (resolve self' name v) :=
  QuietCongruence.resolve (fun _ _ _ => hself v.source) (fun t _ => hself t) name

theorem runLoad (args : List Value) :
    C.rel (Builtin.runLoad self args) (Builtin.runLoad self' args) := by
  refine C.bind (C.expectName _ _ _) fun binding => C.bind C.store fun store => ?_
  cases store with
  | none => exact C.result _
  | some store =>
    refine C.bind (C.during _ (C.ofStore _)) fun text => ?_
    match text with
    | none | some [] => exact C.result _
    | some (c :: t) =>
      exact C.bind (C.during _ (hself _)) fun _ => C.bind (C.bindName _ _) fun _ => C.result _

theorem runBlockIn (halike : settings.Alike settings') (enter : Env → Env) (keep : List Text)
    {block : Text} (hload : ∀ e, Command.parse settings.ignore block = .error e →
      C.rel (.fail (.load e) : Action Value) (.fail (.load e))) :
    C.rel (runBlockIn settings self enter keep block)
      (runBlockIn settings' self' enter keep block) := by
  unfold Script.runBlockIn
  rw [halike.ignore]
  split
  · next e he => exact hload e he
  · refine C.inScope enter keep (C.bind (runCommands hself _) fun _ => ?_)
    exact C.bind C.env fun _ => C.result _

omit hself in
theorem runBranch {block : Option Text} (hblock : ∀ t, block = some t →
      C.rel (runBlock settings self t) (runBlock settings' self' t)) (args : List Value) :
    C.rel (Builtin.runBranch settings self block args)
      (Builtin.runBranch settings' self' block args) := by
  cases block with
  | none => exact C.result _
  | some t => exact C.ite (hblock t rfl) (C.result _)

theorem runPlain (call : Command.Call) (args : List Value) {b : Builtin}
    (hb : b.runsBlock = false) :
    C.rel (b.run settings self call args) (b.run settings' self' call args) := by
  cases b with
  | define => exact C.runDefine _ args
  | load => exact runLoad hself args
  | branch | count | loop => cases hb
  | _ => exact C.runQuiet call args rfl

section

variable {loop : Loop} (hblock : ∀ t, loop.block = some t →
  C.rel (runBlock settings self t) (runBlock settings' self' t))

include hblock

theorem round (last : Value) :
    C.rel (loop.round settings self last) (loop.round settings' self' last) := by
  obtain ⟨condition, block, step⟩ := loop
  have hstep : ∀ v, C.rel (Loop.round settings self ⟨condition, none, step⟩ v)
      (Loop.round settings' self' ⟨condition, none, step⟩ v) := by
    intro v
    refine C.bind (C.result v) fun v => ?_
    cases step with
    | none => exact C.result v
    | some step => exact C.bind (hself step) fun _ => C.result v
  cases block with
  | none => exact hstep last
  | some t => exact C.bind (hblock t rfl) hstep

/-- One more look at the condition. Stopping at the first limit has to be related to whatever the
second loop does then, and the second loop has to go on wherever the first does. -/
theorem runFrom_succ {fuel fuel' n : Nat} {last : Value}
    (hstop : settings.AtLimit n → ∀ y : Action Value,
      (settings'.AtLimit n → y = .fail (.tooLong settings'.loopLimit)) →
      C.rel (.fail (.tooLong settings.loopLimit)) y)
    (hgo : ¬settings.AtLimit n → ¬settings'.AtLimit n ∧
      ∀ v, C.rel (loop.runFrom settings self fuel (n + 1) v)
        (loop.runFrom settings' self' fuel' (n + 1) v)) :
    C.rel (loop.runFrom settings self (fuel + 1) n last)
      (loop.runFrom settings' self' (fuel' + 1) n last) := by
  rw [Loop.runFrom_succ, Loop.runFrom_succ]
  refine C.bind (hself loop.condition) fun c => C.ite ?_ (C.result last)
  by_cases hn : settings.AtLimit n
  · rw [if_pos hn]
    exact hstop hn _ fun hn' => if_pos hn'
  · obtain ⟨hn', hrest⟩ := hgo hn
    rw [if_neg hn, if_neg hn']
    exact C.bind (round hself hblock last) hrest

end

variable {call : Command.Call} (hloop : ∀ loop : Loop, loop.block = call.block →
  C.rel (Loop.run settings self loop) (Loop.run settings' self' loop))

include hloop

theorem runCount :
    C.rel (Builtin.runCount settings self call) (Builtin.runCount settings' self' call) := by
  unfold Builtin.runCount
  split
  · refine C.enclosed (C.bind (hself _) fun v => C.bind (C.expectName _ _ v) fun _ => ?_)
      (hloop _ rfl)
    exact C.bind (hself _) fun _ => C.bindName _ _
  · exact C.fail _ rfl

omit hself in
theorem runWhile :
    C.rel (Builtin.runWhile settings self call) (Builtin.runWhile settings' self' call) := by
  unfold Builtin.runWhile
  split
  · exact hloop _ rfl
  · exact C.fail _ rfl

theorem runBuiltin (hblock : ∀ t, call.block = some t →
      C.rel (runBlock settings self t) (runBlock settings' self' t)) (args : List Value)
    (b : Builtin) :
    C.rel (b.run settings self call args) (b.run settings' self' call args) := by
  cases b with
  | branch => exact runBranch hblock args
  | count => exact runCount hself hloop
  | loop => exact runWhile hloop
  | _ => exact runPlain hself call args rfl

omit hloop in
theorem runStatement {command : Text}
    (hcall : ∀ call, Command.Statement.ofText command = .call call →
      C.rel (runCall settings self call) (runCall settings' self' call)) :
    C.rel (runStatement settings self command) (runStatement settings' self' command) := by
  unfold Script.runStatement
  split
  · exact hself _
  · exact C.bind (hself _) fun _ => C.bind (C.bindName _ _) fun _ => C.result _
  · next call hstatement => exact hcall call hstatement
  · exact C.fail _ rfl
  · exact C.fail _ rfl

end

/-! ### One level of evaluation -/

/-- Settings that differ at most in their limits, with loops that are related whenever the
evaluation of their parts is, for a relation that blocks that cannot be loaded respect. -/
structure Relates (settings settings' : Settings) : Prop extends settings.Alike settings' where
  unloadable : ∀ e, C.rel (.fail (.load e) : Action Value) (.fail (.load e))
  loop : ∀ {self self' : Text → Action Value}, (∀ t, C.rel (self t) (self' t)) →
    ∀ loop, C.rel (Loop.run settings self loop) (Loop.run settings' self' loop)

section

variable {C} {settings : Settings} (hgiveUp : C.rel (.giveUp : Action Value) .giveUp)

include hgiveUp

/-- Loops under the same settings go round together. -/
theorem runFrom {self self' : Text → Action Value} (hself : ∀ t, C.rel (self t) (self' t))
    {loop : Loop} (hblock : ∀ t, loop.block = some t →
      C.rel (runBlock settings self t) (runBlock settings self' t)) (fuel n : Nat) (last : Value) :
    C.rel (loop.runFrom settings self fuel n last) (loop.runFrom settings self' fuel n last) := by
  induction fuel generalizing n last with
  | zero => exact hgiveUp
  | succ fuel ih =>
    refine runFrom_succ hself hblock (fun hn y hy => ?_) fun hn => ⟨hn, fun v => ih (n + 1) v⟩
    rw [hy hn]
    exact C.fail _ rfl

theorem relates_self (hload : ∀ e, C.rel (.fail (.load e) : Action Value) (.fail (.load e))) :
    C.Relates settings settings where
  toAlike := .refl settings
  unloadable := hload
  loop hself _ := runFrom hgiveUp hself (fun _ _ =>
    runBlockIn hself (.refl settings) _ _ fun e _ => hload e) _ _ _

end

section

variable {C} {settings settings' : Settings} (h : C.Relates settings settings')

include h

section

variable {self self' : Text → Action Value} (hself : ∀ t, C.rel (self t) (self' t))

include hself

theorem runCall (call : Command.Call) :
    C.rel (runCall settings self call) (runCall settings' self' call) := by
  have hblock : ∀ t, call.block = some t →
      C.rel (runBlock settings self t) (runBlock settings' self' t) := fun _ _ =>
    runBlockIn hself h.toAlike _ _ fun e _ => h.unloadable e
  have hloop : ∀ loop : Loop, loop.block = call.block →
      C.rel (Loop.run settings self loop) (Loop.run settings' self' loop) := fun loop _ =>
    h.loop hself loop
  unfold Script.runCall
  rw [h.builtins, h.functions]
  split
  · refine C.ite (C.bind (C.result _) fun args => ?_) (C.bind (evaluateAll hself _) fun args => ?_)
    · exact runBuiltin hself hloop hblock args _
    · exact runBuiltin hself hloop hblock args _
  · refine C.bind (evaluateAll hself _) fun args => C.bind (C.lookup call.name) fun v => ?_
    match v with
    | some (.callable (some f)) =>
      exact C.ite (runBlockIn hself h.toAlike _ _ fun e _ => h.unloadable e) (C.fail _ rfl)
    | some (.callable none) => exact C.ite (C.result _) (C.fail _ rfl)
    | none | some .null | some (.number _) | some (.text _) => exact C.fail _ rfl

/-- Evaluating a command is related if evaluating the texts one level deeper is. -/
theorem Relates.evaluate (command : Text) :
    C.rel (Script.evaluate settings self command) (Script.evaluate settings' self' command) := by
  unfold Script.evaluate
  split
  · exact C.result _
  · exact C.result _
  · exact runEquation hself _
  · refine C.bind (C.lookup command) fun v => ?_
    cases v with
    | none => exact runStatement hself fun call _ => runCall h hself call
    | some v => exact resolve hself command v

end

/-- Evaluation is related at every depth if the second run is related to running out of levels. -/
theorem Relates.run (more : Nat)
    (hdeep : ∀ t, C.rel (Script.run settings 0 t) (Script.run settings' more t))
    (depth : Nat) (command : Text) :
    C.rel (Script.run settings depth command) (Script.run settings' (depth + more) command) := by
  induction depth generalizing command with
  | zero => simpa using hdeep command
  | succ depth ih =>
    rw [Nat.add_right_comm]
    exact h.evaluate ih command

end

end Congruence

end Script

end Scriptlet
