import Scriptlet.Proofs.Script.Congruence

/-! Scopes. A block runs on a copy of the environment around it, and merging the copy back keeps the
names of that environment and takes over their values. This loses nothing because no evaluation
unbinds a name. A call of a function also keeps its parameters and `return` to itself: the caller's
values of these names are neither changed by the call nor seen by it. -/

namespace Scriptlet

/-! ### Names of an environment -/

namespace Env

theorem mem_names {env : Env} {name : Text} : name ∈ env.names ↔ (env.lookup name).isSome := by
  simp [names, lookup, Std.ExtTreeMap.mem_keys]

theorem names_subset_set (env : Env) (name : Text) (v : Value) :
    env.names ⊆ (env.set name v).names := by
  intro other hother
  rw [mem_names, lookup_set]
  split
  · rfl
  · exact mem_names.1 hother

@[simp] theorem names_mergeBack (outer inner : Env) (keep : List Text) :
    (outer.mergeBack inner keep).names = outer.names :=
  Std.ExtTreeMap.keys_map

theorem lookup_mergeBack_of_mem (outer inner : Env) {keep : List Text} {name : Text}
    (h : name ∈ keep) : (outer.mergeBack inner keep).lookup name = outer.lookup name := by
  simp [lookup_mergeBack, h]

/-- A name that both environments bind takes the value of the inner one. -/
theorem lookup_mergeBack_of_bound {outer inner : Env} {keep : List Text} {name : Text} {v : Value}
    (houter : name ∈ outer.names) (hinner : inner.lookup name = some v) (hkeep : name ∉ keep) :
    (outer.mergeBack inner keep).lookup name = some v := by
  obtain ⟨w, hw⟩ := Option.isSome_iff_exists.1 (mem_names.1 houter)
  simp [lookup_mergeBack, hw, hinner, hkeep]

theorem mergeBack_set {env : Env} {name : Text} (h : name ∈ env.names) (v : Value) :
    env.mergeBack (env.set name v) [] = env.set name v := by
  refine ext fun other => ?_
  by_cases heq : name = other
  · subst heq
    have hset : (env.set name v).lookup name = some v := by rw [lookup_set, if_pos rfl]
    rw [lookup_mergeBack_of_bound h hset List.not_mem_nil, hset]
  · rw [lookup_mergeBack, lookup_set, if_neg heq]
    cases env.lookup other <;> simp

/-- The environments bind every other name to the same value, or both leave it unbound. -/
def AgreeOutside (names : List Text) (a b : Env) : Prop :=
  ∀ name, name ∉ names → a.lookup name = b.lookup name

namespace AgreeOutside

variable {names : List Text} {a b : Env}

theorem set {name : Text} (h : AgreeOutside (name :: names) a b) (v : Value) :
    AgreeOutside names (a.set name v) (b.set name v) := by
  intro other hother
  rw [lookup_set, lookup_set]
  split
  · rfl
  · next hne => exact h other (by simp [Ne.symm hne, hother])

theorem eq (h : AgreeOutside [] a b) : a = b := Env.ext fun name => h name (by simp)

theorem mergeBack (h : AgreeOutside names a b) (inner : Env) (keep : List Text) :
    AgreeOutside names (a.mergeBack inner keep) (b.mergeBack inner keep) := by
  intro name hname
  rw [lookup_mergeBack, lookup_mergeBack, h name hname]

/-- Merging back what agrees outside the names that are kept changes nothing. -/
theorem mergeBack_eq {outer inner : Env} {keep : List Text}
    (h : inner.AgreeOutside keep outer) : outer.mergeBack inner keep = outer := by
  refine ext fun name => ?_
  by_cases hname : name ∈ keep
  · exact lookup_mergeBack_of_mem outer inner hname
  · rw [lookup_mergeBack, h name hname]
    cases outer.lookup name <;> simp

end AgreeOutside

end Env

namespace Script

open Command (parse)

/-! ### No evaluation unbinds a name -/

theorem Action.recover_snd {α : Type} (x : Action α) (answer : Failure → Option α) (s : State) :
    (x.recover answer s).2 = (x s).2 := by
  unfold Action.recover
  rcases x s with ⟨a | e | -, s₁⟩
  · rfl
  · cases h : answer e <;> simp [h]
  · rfl

theorem Action.during_snd {α : Type} (task : Text) (x : Action α) (s : State) :
    (x.during task s).2 = (x s).2 := by
  unfold Action.during
  rcases x s with ⟨a | e | -, s₁⟩ <;> rfl

/-- The names that are bound before an action are bound after it. -/
def keepsNames : Congruence where
  rel x _ := ∀ s, s.env.names ⊆ (x s).2.env.names
  result _ _ := List.Subset.refl _
  fail _ _ _ := List.Subset.refl _
  bind {_ _ x _ f _} hx hf s := by
    have hfirst := hx s
    rw [Action.bind_apply]
    generalize x s = first at hfirst
    obtain ⟨a | e | -, s₁⟩ := first
    · exact List.Subset.trans hfirst (hf a s₁)
    · exact hfirst
    · exact hfirst
  recover {_ x _} _ hx s := by
    rw [Action.recover_snd]
    exact hx s
  during {_ x _} _ hx s := by
    rw [Action.during_snd]
    exact hx s
  env _ := List.Subset.refl _
  store _ := List.Subset.refl _
  lookup _ _ := List.Subset.refl _
  bindName name v s := s.env.names_subset_set name v
  setStore _ _ := List.Subset.refl _
  print t s := by
    unfold Action.print
    split <;> exact List.Subset.refl _
  readLine prompt s := by
    unfold Action.readLine
    split <;> exact List.Subset.refl _
  inScope enter keep _ s := by
    simp [Action.inScope]
  enclosed {_ setup _ _ _} _ _ s := by
    unfold Action.enclosed
    rcases setup s with ⟨- | e | -, s₁⟩
    · simp
    · exact List.Subset.refl _
    · exact List.Subset.refl _

theorem keepsNames_relates (settings : Settings) : keepsNames.Relates settings settings :=
  Congruence.relates_self (fun _ => List.Subset.refl _) fun _ _ => List.Subset.refl _

/-- Whatever a command does and however it ends, the names bound before are bound after it. -/
theorem names_subset_run (settings : Settings) (depth : Nat) (command : Text) (s : State) :
    s.env.names ⊆ (run settings depth command s).2.env.names :=
  (keepsNames_relates settings).run 0 (fun _ => keepsNames.fail _ rfl) depth command s

theorem names_subset_runCommands (settings : Settings) (depth : Nat) (commands : List Text)
    (s : State) :
    s.env.names ⊆ (runCommands (run settings depth) commands s).2.env.names := by
  have hcommands : keepsNames.rel (runCommands (run settings depth) commands)
      (runCommands (run settings depth) commands) :=
    Congruence.runCommands (names_subset_run settings depth) commands
  exact hcommands s

/-! ### Blocks -/

/-- The same ending with another value. -/
def Outcome.map {α β : Type} (f : α → β) : Outcome α → Outcome β
  | .done a => .done (f a)
  | .failed e => .failed e
  | .exhausted => .exhausted

section

variable {settings : Settings} {self : Text → Action Value} {block : Text} {s : State}

theorem runBlockIn_error {e : Command.LoadError} (h : parse settings.ignore block = .error e)
    (enter : Env → Env) (keep : List Text) :
    runBlockIn settings self enter keep block s = (.failed (.load e), s) := by
  rw [runBlockIn, h]
  rfl

/-- A block that can be loaded runs its commands on the copy. However they end, its value is read
off the copy, and the copy is merged back. -/
theorem runBlockIn_ok {commands : List Text} (h : parse settings.ignore block = .ok commands)
    (enter : Env → Env) (keep : List Text) :
    runBlockIn settings self enter keep block s =
      let inner := runCommands self commands { s with env := enter s.env }
      (inner.1.map fun _ => inner.2.env.get returnName,
        { inner.2 with env := s.env.mergeBack inner.2.env keep }) := by
  rw [runBlockIn, h]
  simp only [Action.inScope, Action.bind_apply]
  rcases runCommands self commands { s with env := enter s.env } with ⟨v | e | -, s₁⟩ <;> rfl

theorem names_runBlockIn (enter : Env → Env) (keep : List Text) :
    (runBlockIn settings self enter keep block s).2.env.names = s.env.names := by
  cases h : parse settings.ignore block with
  | error e => rw [runBlockIn_error h]
  | ok commands => simp [runBlockIn_ok h]

end

/-- A block leaves the names of the environment around it as they are, whatever happens in it. One
that cannot be loaded does nothing. Any other gives every name the value it has where the commands
ended, and its own value is that of `return`. No command unbinds a name, so there always is one. -/
theorem runBlock_scope (settings : Settings) (depth : Nat) (block : Text) (s : State) :
    let ended := runBlock settings (run settings depth) block s
    ended.2.env.names = s.env.names ∧
    (∀ e, parse settings.ignore block = .error e → ended = (.failed (.load e), s)) ∧
    (∀ commands, parse settings.ignore block = .ok commands →
      let inner := runCommands (run settings depth) commands s
      ended.1 = inner.1.map (fun _ => inner.2.env.get returnName) ∧
      ended.2.store = inner.2.store ∧ ended.2.console = inner.2.console ∧
      ∀ name ∈ s.env.names, ∃ v,
        inner.2.env.lookup name = some v ∧ ended.2.env.lookup name = some v) ∧
    ∀ command, s.env.names ⊆ (run settings depth command s).2.env.names := by
  intro ended
  refine ⟨names_runBlockIn id [], fun e h => runBlockIn_error h id [], fun commands h => ?_,
    fun command => names_subset_run settings depth command s⟩
  intro inner
  have hended : ended = (inner.1.map fun _ => inner.2.env.get returnName,
      { inner.2 with env := s.env.mergeBack inner.2.env [] }) :=
    runBlockIn_ok h id []
  refine ⟨by rw [hended], by rw [hended], by rw [hended], fun name hname => ?_⟩
  have hinner : name ∈ inner.2.env.names :=
    names_subset_runCommands settings depth commands s hname
  obtain ⟨v, hv⟩ := Option.isSome_iff_exists.1 (Env.mem_names.1 hinner)
  refine ⟨v, hv, ?_⟩
  rw [hended]
  exact Env.lookup_mergeBack_of_bound hname hv List.not_mem_nil

/-- A block that fails on its way. -/
def partialBlock : Text := "y = 2\nz = y\nmissing\ny = 3".toList

def partialState : State := { env := (Env.empty.set ['x'] (.number 1)).set ['y'] (.number 0) }

theorem runBlock_partialBlock :
    let ended := runBlock {} (run {} 9) partialBlock partialState
    ended.1 = .failed (.undefined "missing".toList) ∧ ended.2.env.names = [['x'], ['y']] ∧
      ended.2.env.lookup ['y'] = some (.number 2) := by
  let commands : List Text := ["y=2".toList, "z=y".toList, "missing".toList, "y=3".toList]
  have hparse : parse Command.defaultIgnore partialBlock = .ok commands := by decide +kernel
  have hnames : partialState.env.names = [['x'], ['y']] := by decide +kernel
  have houtcome : (runCommands (run {} 9) commands partialState).1 =
      .failed (.undefined "missing".toList) := by
    decide +kernel
  have hvalue : (runCommands (run {} 9) commands partialState).2.env.lookup ['y'] =
      some (.number 2) := by
    decide +kernel
  have hscope := runBlock_scope {} 9 partialBlock partialState
  generalize runBlock {} (run {} 9) partialBlock partialState = ended at hscope ⊢
  obtain ⟨hkept, -, hblock, -⟩ := hscope
  obtain ⟨hended, -, -, hvalues⟩ := hblock commands hparse
  obtain ⟨v, hinner, houter⟩ := hvalues ['y'] (by rw [hnames]; decide)
  rw [houtcome] at hended
  rw [hvalue] at hinner
  exact ⟨hended, hkept.trans hnames, houter.trans hinner.symm⟩

/-! ### Calls -/

/-- The names a function keeps to itself. -/
def localNames (f : Function) : List Text := returnName :: f.params

theorem lookup_bindParams {params : List Text} {name : Text} (h : name ∉ params)
    (args : List Value) (env : Env) :
    (bindParams params args env).lookup name = env.lookup name := by
  induction params generalizing args env with
  | nil => rfl
  | cons p params ih =>
    obtain ⟨hp, hparams⟩ := List.ne_and_not_mem_of_not_mem_cons h
    rw [bindParams, ih hparams, Env.lookup_set, if_neg hp.symm]

/-- The parameters have the same values whatever they cover up. -/
theorem lookup_bindParams_of_mem {params : List Text} {name : Text} (h : name ∈ params)
    (args : List Value) (a b : Env) :
    (bindParams params args a).lookup name = (bindParams params args b).lookup name := by
  induction params generalizing args a b with
  | nil => cases h
  | cons p params ih =>
    by_cases hname : name ∈ params
    · exact ih hname args.tail _ _
    · obtain rfl : name = p := (List.mem_cons.1 h).resolve_right hname
      rw [bindParams, bindParams, lookup_bindParams hname, lookup_bindParams hname,
        Env.lookup_set, Env.lookup_set]
      simp

/-- Binding the parameters covers up what the environments bind differently. -/
theorem bindParams_eq {params : List Text} {a b : Env} (h : a.AgreeOutside params b)
    (args : List Value) : bindParams params args a = bindParams params args b := by
  induction params generalizing args a b with
  | nil => exact h.eq
  | cons p params ih => exact ih (h.set _) args.tail

/-- The environment a function starts in does not depend on what the caller binds its local names
to. -/
theorem enter_eq {f : Function} {a b : Env} (h : a.AgreeOutside (localNames f) b)
    (args : List Value) :
    bindParams f.params args (a.set returnName .null) =
      bindParams f.params args (b.set returnName .null) :=
  bindParams_eq (h.set .null) args

section

variable {settings : Settings} {self : Text → Action Value} {f : Function} {s : State}

theorem lookup_invoke (args : List Value) {name : Text} (hname : name ∈ localNames f) :
    (invoke settings self f args s).2.env.lookup name = s.env.lookup name := by
  cases h : parse settings.ignore f.body with
  | error e => rw [invoke, runBlockIn_error h]
  | ok commands =>
    rw [invoke, runBlockIn_ok h]
    exact Env.lookup_mergeBack_of_mem _ _ hname

/-- Two callers that agree on all but the local names get the same call. -/
theorem invoke_agree {env : Env} (h : env.AgreeOutside (localNames f) s.env) (args : List Value) :
    let ended := invoke settings self f args s
    let other := invoke settings self f args { s with env }
    other.1 = ended.1 ∧ other.2.store = ended.2.store ∧ other.2.console = ended.2.console ∧
      other.2.env.AgreeOutside (localNames f) ended.2.env := by
  intro ended other
  cases hparse : parse settings.ignore f.body with
  | error e =>
    have hended : ended = (.failed (.load e), s) := runBlockIn_error hparse _ _
    have hother : other = (.failed (.load e), { s with env }) := runBlockIn_error hparse _ _
    rw [hended, hother]
    exact ⟨rfl, rfl, rfl, h⟩
  | ok commands =>
    let inner := runCommands self commands
      { s with env := bindParams f.params args (s.env.set returnName .null) }
    have hended : ended = (inner.1.map fun _ => inner.2.env.get returnName,
        { inner.2 with env := s.env.mergeBack inner.2.env (localNames f) }) :=
      runBlockIn_ok hparse _ _
    have hother : other = (inner.1.map fun _ => inner.2.env.get returnName,
        { inner.2 with env := env.mergeBack inner.2.env (localNames f) }) := by
      rw [show other = _ from runBlockIn_ok hparse _ _, enter_eq h]
      rfl
    rw [hended, hother]
    exact ⟨rfl, rfl, rfl, h.mergeBack _ _⟩

end

/-- A call keeps its parameters and `return` to itself, whatever happens in the body. The caller has
the names it had before, and its own values of the local names. What these were makes no difference:
with others in their place, the call ends the same way with the same effects. -/
theorem invoke_isolates (settings : Settings) (depth : Nat) (f : Function) (args : List Value)
    (s : State) :
    let ended := invoke settings (run settings depth) f args s
    ended.2.env.names = s.env.names ∧
    (∀ name ∈ localNames f, ended.2.env.lookup name = s.env.lookup name) ∧
    ∀ env : Env, env.AgreeOutside (localNames f) s.env →
      let other := invoke settings (run settings depth) f args { s with env }
      other.1 = ended.1 ∧ other.2.store = ended.2.store ∧ other.2.console = ended.2.console ∧
        other.2.env.AgreeOutside (localNames f) ended.2.env :=
  ⟨names_runBlockIn _ _, fun _ hname => lookup_invoke args hname, fun _ h => invoke_agree h args⟩

def scaling : Function := ⟨"scale".toList, [['x']], "y = x\nreturn = x * k".toList⟩

def scalingState : State where
  env := ((Env.empty.set ['k'] (.number 2)).set ['x'] (.number 7)).set ['y'] (.number 0)

theorem invoke_scaling :
    let overlaid := { scalingState with env := scalingState.env.set returnName (.number 5) }
    (invoke {} (run {} 9) scaling [.number 4] scalingState).2.env.lookup ['x'] =
        some (.number 7) ∧
      (invoke {} (run {} 9) scaling [.number 4] overlaid).1 = .done (.number 8) := by
  have hcaller : scalingState.env.lookup ['x'] = some (.number 7) := by decide +kernel
  have houtcome : (invoke {} (run {} 9) scaling [.number 4] scalingState).1 =
      .done (.number 8) := by
    decide +kernel
  have hagree : (scalingState.env.set returnName (.number 5)).AgreeOutside (localNames scaling)
      scalingState.env := by
    intro name hname
    have hne : returnName ≠ name := fun h => hname (h ▸ List.mem_cons_self)
    rw [Env.lookup_set, if_neg hne]
  obtain ⟨-, hlocal, hsame⟩ := invoke_isolates {} 9 scaling [.number 4] scalingState
  exact ⟨(hlocal ['x'] (by decide)).trans hcaller, (hsame _ hagree).1.trans houtcome⟩

end Script

end Scriptlet
