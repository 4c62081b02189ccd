import Scriptlet.Session.Prelude
import Scriptlet.Proofs.Script.Choice
import Scriptlet.Proofs.Script.Source

/-! The functions of the prelude. Running the prelude binds `max`, `min` and `abs` to functions that
choose between two expressions, so what they compute is what they choose, for all numbers and
whatever else the caller has bound. -/

namespace Scriptlet.Script

open Command Expression

/-! ### The three functions -/

/-- A parameter with a name of one letter. -/
def parameter (c : Char) (h : Text.isIdentifier [c] = true) : Expression := .name ⟨[c], h⟩

def zero : Expression := .numeral ⟨['0'], by simp, by simp⟩

/-- The larger of two numbers, or the smaller one. -/
def extremum (larger : Bool) : Choice where
  function :=
    { name := if larger then "max".toList else "min".toList
      params := [['a'], ['b']]
      body := "\nif(a ".toList ++ (if larger then ['>'] else ['<']) ++
        " b)\x7breturn = a\x7d\nelse\x7breturn = b\x7d\n".toList }
  decision := .node (if larger then .greater else .less) (parameter 'a' (.refl true))
    (parameter 'b' (.refl true))
  first := parameter 'a' (.refl true)
  second := parameter 'b' (.refl true)
  block := "return = a".toList
  otherwise := "return = b".toList
  parse_body := by cases larger <;> decide +kernel
  parse_block := by decide +kernel
  parse_otherwise := by decide +kernel
  blocks_subset := by cases larger <;> decide +kernel
  balanced_block := by decide +kernel
  balanced_otherwise := by decide +kernel
  not_equation := by cases larger <;> decide +kernel
  isIdentifier := by cases larger <;> decide +kernel
  return_not_mem := by cases larger <;> decide +kernel
  names_subset := by cases larger <;> decide +kernel

/-- A number without its sign. -/
def magnitude : Choice where
  function :=
    { name := "abs".toList
      params := [['x']]
      body := "\nif(x < 0)\x7breturn = 0 - x\x7d\nelse\x7breturn = x\x7d\n".toList }
  decision := .node .less (parameter 'x' (.refl true)) zero
  first := .node .minus zero (parameter 'x' (.refl true))
  second := parameter 'x' (.refl true)
  block := "return = 0 - x".toList
  otherwise := "return = x".toList
  parse_body := by decide +kernel
  parse_block := by decide +kernel
  parse_otherwise := by decide +kernel
  blocks_subset := by decide +kernel
  balanced_block := by decide +kernel
  balanced_otherwise := by decide +kernel
  not_equation := by decide +kernel
  isIdentifier := by decide +kernel
  return_not_mem := by decide +kernel
  names_subset := by decide +kernel

def preludeChoices : List Choice := [extremum true, extremum false, magnitude]

/-- The prelude holds the definitions of the three functions and nothing else. -/
theorem parse_prelude :
    parse defaultIgnore Session.prelude = .ok (preludeChoices.map (·.function.source)) ∧
      ∀ x ∈ preludeChoices, x.function.body ⊆ Session.prelude := by
  -- The lines decode faster one by one than as one long literal.
  unfold Session.prelude
  simp only [String.toList_append]
  decide +kernel

theorem readable_prelude : ∀ x ∈ preludeChoices,
    x.function.Readable ∧ x.function.name.isIdentifier = true ∧
      Builtin.ofName? x.function.name = none ∧ x.levels ≤ 3 := by
  have hunquoted : ∀ x ∈ preludeChoices, ∀ n ∈ x.function.names, '"' ∉ n := by decide +kernel
  have hnamed : ∀ x ∈ preludeChoices, [] ∉ x.function.names := by decide +kernel
  have hbalanced : ∀ x ∈ preludeChoices, braces 0 x.function.body = some 0 := by decide +kernel
  have hequation : ∀ x ∈ preludeChoices, Equation.ofText? x.function.source = none := by
    decide +kernel
  have hrest : ∀ x ∈ preludeChoices, x.function.name.isIdentifier = true ∧
      Builtin.ofName? x.function.name = none ∧ x.levels ≤ 3 := by
    decide +kernel
  exact fun x hx => ⟨⟨hunquoted x hx, hnamed x hx, hbalanced x hx, hequation x hx⟩, hrest x hx⟩

/-! ### Running the prelude -/

variable {settings : Settings} {depth : Nat} {s : State}

/-- Binds functions to their names. -/
def defineAll (env : Env) (fs : List Function) : Env :=
  fs.foldl (fun env f => env.set f.name (.callable (some f))) env

theorem bindsIdentifiers_defineAll {env : Env} (henv : env.BindsIdentifiers) {fs : List Function}
    (h : ∀ f ∈ fs, f.name.isIdentifier = true) : (defineAll env fs).BindsIdentifiers := by
  induction fs generalizing env with
  | nil => exact henv
  | cons f fs ih =>
    obtain ⟨hf, hfs⟩ := List.forall_mem_cons.1 h
    exact ih (henv.set hf _) hfs

theorem lookup_defineAll_of_not_mem {fs : List Function} {name : Text}
    (h : name ∉ fs.map (·.name)) (env : Env) :
    (defineAll env fs).lookup name = env.lookup name := by
  induction fs generalizing env with
  | nil => rfl
  | cons f fs ih =>
    obtain ⟨hf, hfs⟩ := List.ne_and_not_mem_of_not_mem_cons h
    exact (ih hfs _).trans (by rw [Env.lookup_set, if_neg hf.symm])

/-- Functions with different names do not cover up each other. -/
theorem lookup_defineAll {fs : List Function} (hnodup : (fs.map (·.name)).Nodup) {f : Function}
    (hf : f ∈ fs) (env : Env) :
    (defineAll env fs).lookup f.name = some (.callable (some f)) := by
  induction fs generalizing env with
  | nil => cases hf
  | cons g fs ih =>
    obtain ⟨hg, hfs⟩ := List.nodup_cons.1 hnodup
    rcases List.mem_cons.1 hf with rfl | hf
    · exact (lookup_defineAll_of_not_mem hg _).trans (by rw [Env.lookup_set, if_pos rfl])
    · exact ih hfs hf _

/-- Running the source forms of functions in turn binds all of them. -/
theorem runCommands_sources (hbuiltins : settings.builtins = true)
    (henv : s.env.BindsIdentifiers) {fs : List Function}
    (h : ∀ f ∈ fs, f.Readable ∧ f.name.isIdentifier = true) (last : Value) :
    ∃ v, runCommandsFrom (run settings (depth + 2)) last (fs.map (·.source)) s =
      (.done v, { s with env := defineAll s.env fs }) := by
  induction fs generalizing s last with
  | nil => exact ⟨last, rfl⟩
  | cons f fs ih =>
    obtain ⟨⟨hreadable, hname⟩, hfs⟩ := List.forall_mem_cons.1 h
    have hunbound : s.env.lookup f.source = none :=
      henv.lookup_of_mark (c := '(') (by decide) (by simp [f.source_eq])
    obtain ⟨v, hv⟩ := ih (s := { s with env := s.env.set f.name (.callable (some f)) })
      (henv.set hname _) hfs (.callable (some f))
    refine ⟨v, ?_⟩
    simp only [List.map_cons, runCommandsFrom, Action.bind_apply,
      run_source hbuiltins hreadable hunbound, hv]
    rfl

section

variable (hbuiltins : settings.builtins = true)
  (hignore : ∀ c ∈ Session.prelude, settings.ignore.contains c = defaultIgnore.contains c)

include hbuiltins hignore

theorem env_prelude (hdepth : 2 ≤ settings.maxDepth) (henv : s.env.BindsIdentifiers) :
    (runScript settings Session.prelude s).2.env =
      defineAll s.env (preludeChoices.map (·.function)) := by
  have hparse := (parse_congr hignore).trans parse_prelude.1
  obtain ⟨k, hk⟩ := Nat.exists_eq_add_of_le' hdepth
  have hreadable : ∀ f ∈ preludeChoices.map (·.function),
      f.Readable ∧ f.name.isIdentifier = true :=
    List.forall_mem_map.2 fun x hx => ⟨(readable_prelude x hx).1, (readable_prelude x hx).2.1⟩
  have hsources : ∃ v, runCommandsFrom (run settings (k + 2)) .null
      ((preludeChoices.map (·.function)).map (·.source)) s =
        (.done v, { s with env := defineAll s.env (preludeChoices.map (·.function)) }) :=
    runCommands_sources hbuiltins henv hreadable .null
  obtain ⟨v, hv⟩ := hsources
  rw [List.map_map, ← hk] at hv
  rw [runScript_ok hparse, reported, runCommands]
  exact congrArg (fun r => (reported (fun _ => r) s).2.env) hv

theorem lookup_prelude (hdepth : 2 ≤ settings.maxDepth) (henv : s.env.BindsIdentifiers)
    {x : Choice} (hx : x ∈ preludeChoices) :
    (runScript settings Session.prelude s).2.env.lookup x.function.name =
      some (.callable (some x.function)) := by
  have hnodup : ((preludeChoices.map (·.function)).map (·.name)).Nodup := by decide +kernel
  rw [env_prelude hbuiltins hignore hdepth henv]
  exact lookup_defineAll hnodup (List.mem_map_of_mem hx) s.env

end

/-! ### What the functions compute -/

/-- The name is bound to a function that takes the numbers to a number and changes nothing, whether
it is called with the numbers or by a command that has expressions for them. -/
def Computes (settings : Settings) (levels : Nat) (s : State) (name : Text) (args : List Float)
    (y : Float) : Prop :=
  (∃ f, s.env.lookup name = some (.callable (some f)) ∧
    invoke settings (run settings levels) f (args.map .number) s = (.done (.number y), s)) ∧
  ∀ es : List Expression, es.map (·.value s.env) = args.map .ok → (∀ e ∈ es, e.levels < levels) →
    run settings levels (Call.header ⟨name, es.map print, none⟩) s = (.done (.number y), s)

/-- A choice of the prelude computes what it chooses, wherever its name is bound to it. -/
theorem computes_of_mem (hbuiltins : settings.builtins = true)
    (hfunctions : settings.functions = true)
    (hignore : ∀ c ∈ Session.prelude, settings.ignore.contains c = defaultIgnore.contains c)
    (henv : s.env.BindsIdentifiers) {x : Choice} (hx : x ∈ preludeChoices)
    (hbound : s.env.lookup x.function.name = some (.callable (some x.function))) {levels : Nat}
    (hlevels : 6 ≤ levels) {args : List Float} {c v w : Float}
    (hdecision : x.decision.value (x.bound (args.map .number)) = .ok c)
    (hfirst : x.first.value (x.bound (args.map .number)) = .ok v)
    (hsecond : x.second.value (x.bound (args.map .number)) = .ok w) :
    Computes settings levels s x.function.name args
      (if (Value.number c).truthy then v else w) := by
  obtain ⟨-, hname, hbuiltin, hthree⟩ := readable_prelude x hx
  have hinvoke : ∀ depth, 3 ≤ depth →
      invoke settings (run settings (depth + 2)) x.function (args.map .number) s =
        (.done (.number (if (Value.number c).truthy then v else w)), s) := fun depth hdepth =>
    x.invoke_eq hbuiltins (fun c hc => hignore c (parse_prelude.2 x hx hc)) (hthree.trans hdepth)
      henv hdecision hfirst hsecond
  obtain ⟨k, rfl⟩ := Nat.exists_eq_add_of_le' hlevels
  refine ⟨⟨x.function, hbound, hinvoke (k + 4) (by omega)⟩, fun es hes hless => ?_⟩
  -- A command takes one level more than the call that it makes.
  have hcall := run_header (n := ⟨x.function.name, hname⟩) hfunctions hbuiltin hbound henv hes
    fun e he => Nat.le_of_lt_succ (hless e he)
  exact hcall.trans (hinvoke (k + 3) (by omega))

theorem value_parameter {c : Char} (h : Text.isIdentifier [c] = true) {env : Env} {y : Float}
    (hy : env.lookup [c] = some (.number y)) : (parameter c h).value env = .ok y := by
  simp [parameter, value, hy]

theorem value_zero (env : Env) : zero.value env = .ok 0 := by
  have hnumber : Number.ofText? ['0'] = some 0 := by decide +kernel
  simp [zero, value, hnumber]

theorem value_node {env : Env} {l r : Expression} {y z : Float} (hl : l.value env = .ok y)
    (hr : r.value env = .ok z) (op : Operator) : (node op l r).value env = .ok (op.apply y z) := by
  rw [value, hl, hr]
  rfl

section

variable (larger : Bool) (a b : Float)

theorem bound_extremum : (extremum larger).bound [.number a, .number b] =
    (Env.empty.set ['a'] (.number a)).set ['b'] (.number b) := rfl

theorem first_extremum :
    (extremum larger).first.value ((extremum larger).bound [.number a, .number b]) = .ok a :=
  value_parameter _ (by simp [bound_extremum, Env.lookup_set])

theorem second_extremum :
    (extremum larger).second.value ((extremum larger).bound [.number a, .number b]) = .ok b :=
  value_parameter _ (by simp [bound_extremum, Env.lookup_set])

theorem decision_extremum :
    (extremum larger).decision.value ((extremum larger).bound [.number a, .number b]) =
      .ok ((if larger then Operator.greater else .less).apply a b) :=
  value_node (first_extremum larger a b) (second_extremum larger a b) _

/-- The three expressions of `abs`. -/
theorem values_magnitude :
    let env := magnitude.bound [.number a]
    magnitude.decision.value env = .ok (Operator.less.apply a 0) ∧
      magnitude.first.value env = .ok (Operator.minus.apply 0 a) ∧
      magnitude.second.value env = .ok a := by
  intro env
  have hbound : env = Env.empty.set ['x'] (.number a) := rfl
  have hx : magnitude.second.value env = .ok a :=
    value_parameter _ (by simp [hbound, Env.lookup_set])
  exact ⟨value_node hx (value_zero env) _, value_node (value_zero env) hx _, hx⟩

end

/-- Wherever `max`, `min` and `abs` are bound to what running the prelude has bound them to, they
compute the larger and the smaller of two numbers and a number without its sign. A comparison with
something that is not a number is false, so these are what the comparisons say and no more: the
second number if the two cannot be compared, and a zero keeps its sign. -/
theorem prelude_computes {settings : Settings} (hbuiltins : settings.builtins = true)
    (hfunctions : settings.functions = true)
    (hignore : ∀ c ∈ Session.prelude, settings.ignore.contains c = defaultIgnore.contains c)
    (hdepth : 2 ≤ settings.maxDepth) {levels : Nat} (hlevels : 10 ≤ levels) {origin s : State}
    (horigin : origin.env.BindsIdentifiers) (henv : s.env.BindsIdentifiers)
    (hbound : ∀ name ∈ ["max".toList, "min".toList, "abs".toList],
      s.env.lookup name = (runScript settings Session.prelude origin).2.env.lookup name)
    (a b : Float) :
    Computes settings levels s "max".toList [a, b] (if a > b then a else b) ∧
    Computes settings levels s "min".toList [a, b] (if a < b then a else b) ∧
    Computes settings levels s "abs".toList [a] (if a < 0 then 0 - a else a) := by
  have hnames : ∀ x ∈ preludeChoices,
      x.function.name ∈ ["max".toList, "min".toList, "abs".toList] := by
    decide +kernel
  have hlookup : ∀ x ∈ preludeChoices,
      s.env.lookup x.function.name = some (.callable (some x.function)) := fun x hx =>
    (hbound _ (hnames x hx)).trans (lookup_prelude hbuiltins hignore hdepth horigin hx)
  have hless : 6 ≤ levels := by omega
  have hmax : Computes settings levels s "max".toList [a, b]
      (if (Value.ofBool (a > b)).truthy then a else b) :=
    computes_of_mem hbuiltins hfunctions hignore henv (x := extremum true)
      (by simp [preludeChoices]) (hlookup _ (by simp [preludeChoices])) hless
      (decision_extremum true a b) (first_extremum true a b) (second_extremum true a b)
  have hmin : Computes settings levels s "min".toList [a, b]
      (if (Value.ofBool (a < b)).truthy then a else b) :=
    computes_of_mem hbuiltins hfunctions hignore henv (x := extremum false)
      (by simp [preludeChoices]) (hlookup _ (by simp [preludeChoices])) hless
      (decision_extremum false a b) (first_extremum false a b) (second_extremum false a b)
  have habs : Computes settings levels s "abs".toList [a]
      (if (Value.ofBool (a < 0)).truthy then 0 - a else a) :=
    computes_of_mem hbuiltins hfunctions hignore henv (x := magnitude) (by simp [preludeChoices])
      (hlookup _ (by simp [preludeChoices])) hless (values_magnitude a).1 (values_magnitude a).2.1
      (values_magnitude a).2.2
  simp only [truthy_ofBool, decide_eq_true_eq] at hmax hmin habs
  exact ⟨hmax, hmin, habs⟩

/-- A caller that has bound the local names of the functions itself. -/
def shadowingState : State where
  env := ((((defineAll .empty (preludeChoices.map (·.function))).set ['a'] (.number 7)).set ['b']
    (.number (0 / 0))).set ['x'] (.number (-1 / 0))).set returnName (.text "kept".toList)

theorem prelude_computes_shadowing :
    run {} 10 "max(b,a)".toList shadowingState = (.done (.number 7), shadowingState) ∧
      run {} 10 "abs(x)".toList shadowingState = (.done (.number (1 / 0)), shadowingState) := by
  have hnames : ∀ f ∈ preludeChoices.map (·.function), f.name.isIdentifier = true :=
    List.forall_mem_map.2 fun x hx => (readable_prelude x hx).2.1
  have henv : shadowingState.env.BindsIdentifiers :=
    ((((bindsIdentifiers_defineAll Env.bindsIdentifiers_empty hnames).set (by decide) _).set
      (by decide) _).set (by decide) _).set (by decide) _
  have hbound : ∀ name ∈ ["max".toList, "min".toList, "abs".toList],
      shadowingState.env.lookup name = (runScript {} Session.prelude {}).2.env.lookup name := by
    intro name hname
    rw [env_prelude rfl (fun _ _ => rfl) (by decide) Env.bindsIdentifiers_empty]
    have hlocal : name ∉ [['a'], ['b'], ['x'], returnName] := by
      revert name
      decide +kernel
    simp only [List.mem_cons, List.not_mem_nil, not_or, or_false] at hlocal
    obtain ⟨ha, hb, hx, hreturn⟩ := hlocal
    rw [shadowingState, Env.lookup_set, if_neg (Ne.symm hreturn), Env.lookup_set,
      if_neg (Ne.symm hx), Env.lookup_set, if_neg (Ne.symm hb), Env.lookup_set,
      if_neg (Ne.symm ha)]
  have hmax : Computes {} 10 shadowingState "max".toList [0 / 0, 7]
      (if (0 / 0 : Float) > 7 then 0 / 0 else 7) :=
    (prelude_computes rfl rfl (fun _ _ => rfl) (by decide) (by decide) Env.bindsIdentifiers_empty
      henv hbound (0 / 0) 7).1
  have habs : Computes {} 10 shadowingState "abs".toList [-1 / 0]
      (if (-1 / 0 : Float) < 0 then 0 - -1 / 0 else -1 / 0) :=
    (prelude_computes rfl rfl (fun _ _ => rfl) (by decide) (by decide) Env.bindsIdentifiers_empty
      henv hbound (-1 / 0) 0).2.2
  have hsecond : (if (0 / 0 : Float) > 7 then 0 / 0 else 7) = (7 : Float) := by decide +kernel
  have hfirst : (if (-1 / 0 : Float) < 0 then 0 - -1 / 0 else -1 / 0) = (1 / 0 : Float) := by
    decide +kernel
  rw [hsecond] at hmax
  rw [hfirst] at habs
  have ha : (parameter 'a' (.refl true)).value shadowingState.env = .ok 7 :=
    value_parameter _ (by decide +kernel)
  have hb : (parameter 'b' (.refl true)).value shadowingState.env = .ok (0 / 0) :=
    value_parameter _ (by decide +kernel)
  have hx : (parameter 'x' (.refl true)).value shadowingState.env = .ok (-1 / 0) :=
    value_parameter _ (by decide +kernel)
  exact ⟨hmax.2 [parameter 'b' (.refl true), parameter 'a' (.refl true)] (by simp [ha, hb])
      (by decide),
    habs.2 [parameter 'x' (.refl true)] (by simp [hx]) (by decide)⟩

end Scriptlet.Script
