import Scriptlet.Proofs.Expression.Evaluation
import Scriptlet.Proofs.Script.Branch
import Scriptlet.Proofs.Script.Scope

/-! Functions that choose. The body of such a function is an `if` with an `else`, and each of the
two blocks returns an expression. Nothing but `return` changes between the two tests, so they agree
and exactly one block runs. The call is worth the expression that was chosen, with the parameters
bound to the arguments, and the caller finds everything as it was. -/

namespace Scriptlet

open Command

namespace Command

/-! ### Characters that are ignored -/

theorem Cutter.run_congr {ignore ignore' t : Text}
    (h : ∀ c ∈ t, ignore.contains c = ignore'.contains c) (s : Cutter) :
    s.run ignore t = s.run ignore' t := by
  induction t generalizing s with
  | nil => rfl
  | cons c t ih =>
    obtain ⟨hc, ht⟩ := List.forall_mem_cons.1 h
    have hstep : s.step ignore c = s.step ignore' c := by
      unfold Cutter.step
      rw [hc]
    rw [Cutter.run_cons, Cutter.run_cons, hstep, ih ht]

/-- Only the characters of a script matter for what is ignored in it. -/
theorem parse_congr {ignore ignore' t : Text}
    (h : ∀ c ∈ t, ignore.contains c = ignore'.contains c) : parse ignore t = parse ignore' t := by
  rw [parse, parse, split, split, Cutter.run_congr h]

/-! ### Calls -/

/-- Arguments that nest show no operator between the parentheses of their call. -/
theorem form_header (n : Identifier) {args : List Text} (h : ∀ t ∈ args, Expression.Nests t) :
    Form.ofText (Call.header ⟨n.text, args, none⟩) = .other := by
  have hnests : Expression.Nests (List.intercalate [','] args) := by
    induction args with
    | nil => exact Expression.nests_of_plain (by simp)
    | cons t args ih =>
      obtain ⟨ht, hargs⟩ := List.forall_mem_cons.1 h
      cases args with
      | nil => simpa using ht
      | cons u args =>
        have hcomma : Expression.Nests [','] := Expression.nests_of_plain (by simp)
        simpa using ht.append (hcomma.append (ih hargs))
  have hheader : Call.header ⟨n.text, args, none⟩ =
      n.text ++ Expression.enclose (List.intercalate [','] args) := by
    simp [Call.header, Expression.enclose]
  have hpass : pass 0 false (n.text ++ Expression.enclose (List.intercalate [','] args)) =
      some (0, false) := by
    rw [pass_append, (Expression.IsAtom.name n).isOperand.passed]
    exact (Expression.IsAtom.group hnests).isOperand.passed
  rw [hheader]
  exact Form.ofText_other (n.ofText?_append _) ((Expression.IsAtom.name n).literal?_append _)
    (.inr (Equation.ofText?_of_pass hpass))

theorem statement_header (n : Identifier) {args : List Text} (h : ∀ t ∈ args, IsArgument t)
    (hparens : ∀ t ∈ args, parens (0, false) t = some (0, false)) :
    Statement.ofText (Call.header ⟨n.text, args, none⟩) = .call ⟨n.text, args, none⟩ := by
  obtain ⟨hne, hchars⟩ := Text.isNameChar_of_isIdentifier n.valid
  have hmark := Statement.not_mark_of_isNameChar hchars
  have hheader : Call.header ⟨n.text, args, none⟩ =
      n.text ++ '(' :: (List.intercalate [','] args ++ [')']) := by
    simp [Call.header]
  rw [hheader, Statement.ofText_call hne hmark,
    Statement.ofCall_plain (track_join rfl rfl hparens)
      (track_join rfl rfl fun t ht => (h t ht).nests), argumentsIn_join h]

end Command

namespace Script

open Expression

variable {settings : Settings} {depth : Nat} {s : State}

theorem run_of_value {e : Expression} {x : Float} (henv : s.env.BindsIdentifiers)
    (h : e.value s.env = .ok x) (hlevels : e.levels ≤ depth) :
    run settings depth e.print s = (.done (.number x), s) := by
  have hnames : ∀ name ∈ e.names, ∀ v, s.env.lookup name = some v → ∃ x, v = .number x := by
    intro name hname v hv
    obtain ⟨y, hy⟩ := number_of_value h name hname
    exact ⟨y, by simpa [hv] using hy⟩
  have hanswers : Answers settings s e.print (e.value s.env) e.levels := answers_print e henv hnames
  rw [h] at hanswers
  exact (hanswers depth).resolve_right fun hlt => absurd hlt.1 (Nat.not_lt.2 hlevels)

theorem evaluateAll_of_value {es : List Expression} {xs : List Float}
    (henv : s.env.BindsIdentifiers) (h : es.map (·.value s.env) = xs.map .ok)
    (hlevels : ∀ e ∈ es, e.levels ≤ depth) :
    evaluateAll (run settings depth) (es.map print) s = (.done (xs.map .number), s) := by
  induction es generalizing xs with
  | nil =>
    cases xs with
    | nil => rfl
    | cons x xs => cases h
  | cons e es ih =>
    cases xs with
    | nil => cases h
    | cons x xs =>
      obtain ⟨hx, hxs⟩ := List.cons_eq_cons.1 h
      obtain ⟨he, hes⟩ := List.forall_mem_cons.1 hlevels
      simp [evaluateAll, Action.bind_apply, Action.pure_apply, run_of_value henv hx he, ih hxs hes]

/-- A call with expressions for arguments calls the function that the name is bound to. -/
theorem run_header (hfunctions : settings.functions = true) {n : Identifier}
    (hname : Builtin.ofName? n.text = none) {f : Function}
    (hbound : s.env.lookup n.text = some (.callable (some f))) (henv : s.env.BindsIdentifiers)
    {es : List Expression} {xs : List Float} (h : es.map (·.value s.env) = xs.map .ok)
    (hlevels : ∀ e ∈ es, e.levels ≤ depth) :
    run settings (depth + 1) (Call.header ⟨n.text, es.map print, none⟩) s =
      invoke settings (run settings depth) f (xs.map .number) s := by
  have hform : Form.ofText (Call.header ⟨n.text, es.map print, none⟩) = .other :=
    form_header n (List.forall_mem_map.2 fun e _ => e.nests_print)
  have hcall := statement_header n (List.forall_mem_map.2 fun e (_ : e ∈ es) => e.isArgument_print)
    (List.forall_mem_map.2 fun e _ => e.nests_print.balanced 0)
  have hunbound : s.env.lookup (Call.header ⟨n.text, es.map print, none⟩) = none :=
    henv.lookup_of_mark (c := '(') (by decide) (by simp [Call.header])
  rw [run_succ, evaluate_unbound hform hunbound, runStatement, hcall]
  simp only [runCall, hname, ite_self, Action.bind_apply, evaluateAll_of_value henv h hlevels,
    Action.lookup, hbound, hfunctions, if_true]

/-! ### Returning -/

/-- The command that makes an expression the value of its block. -/
def returning (e : Expression) : Text := returnName ++ '=' :: e.print

theorem run_returning {e : Expression} {x : Float} (henv : s.env.BindsIdentifiers)
    (h : e.value s.env = .ok x) (hlevels : e.levels ≤ depth) :
    run settings (depth + 1) (returning e) s =
      (.done (.number x), { s with env := s.env.set returnName (.number x) }) := by
  have hname : returnName.isIdentifier = true := by decide
  have hform : Form.ofText (returning e) = .other :=
    Form.ofText_other (Identifier.ofText?_append ⟨returnName, hname⟩ _)
      (literal?_of_head (by decide) _) (.inl (isAssignment_append hname e.head?_print))
  have hunbound : s.env.lookup (returning e) = none :=
    henv.lookup_of_mark (c := '=') (by decide) (by simp [returning])
  rw [run_succ, evaluate_unbound hform hunbound, runStatement, returning,
    Statement.ofText_assignment hname]
  simp only [Action.bind_apply, run_of_value henv h hlevels, Action.bindName, Action.pure_apply]

/-- A block that returns an expression passes it on through a `return` that is bound already. -/
theorem runBlock_returning {block : Text} {e : Expression} {x : Float}
    (hparse : parse settings.ignore block = .ok [returning e]) (henv : s.env.BindsIdentifiers)
    (hreturn : returnName ∈ s.env.names) (h : e.value s.env = .ok x) (hlevels : e.levels ≤ depth) :
    runBlock settings (run settings (depth + 1)) block s =
      (.done (.number x), { s with env := s.env.set returnName (.number x) }) := by
  rw [runBlock, runBlockIn_ok hparse]
  simp [runCommands, runCommandsFrom, Action.bind_apply, Action.pure_apply,
    run_returning henv h hlevels, Outcome.map, Env.get, Env.lookup_set, Env.mergeBack_set hreturn]

/-! ### Testing -/

/-- The test that an `else` makes. -/
def negated (e : Expression) : Text := '!' :: enclose e.print

theorem parens_negated (e : Expression) : parens (0, false) (negated e) = some (0, false) :=
  track_cons.2 ⟨(0, false), by decide, e.nests_print.enclose.balanced 0⟩

theorem mem_negated {e : Expression} {c : Char} (hc : c ∈ negated e) :
    c ∉ [',', '\x7b', '\x7d'] := by
  obtain rfl | rfl | hc | rfl : c = '!' ∨ c = '(' ∨ c ∈ e.print ∨ c = ')' := by
    simpa [negated, enclose] using hc
  · decide
  · decide
  · exact fun hm => mem_print hc (List.mem_cons_of_mem _ hm)
  · decide

theorem isArgument_negated (e : Expression) : IsArgument (negated e) where
  ne_nil := List.cons_ne_nil _ _
  nests := by
    rw [brackets_eq_parens fun c hc hm => mem_negated hc (List.mem_cons_of_mem _ hm)]
    exact parens_negated e
  plain hc := mem_negated hc (by simp)

theorem run_negated (hbuiltins : settings.builtins = true) {e : Expression} {x : Float}
    (henv : s.env.BindsIdentifiers) (hequation : Equation.ofText? (negated e) = none)
    (h : e.value s.env = .ok x) (hlevels : e.levels ≤ depth) :
    run settings (depth + 1) (negated e) s =
      (.done (.ofBool !(Value.number x).truthy), s) := by
  have hform : Form.ofText (negated e) = .other := form_not hequation
  rw [run_succ, evaluate_unbound hform (henv.lookup_eq_none rfl), negated, enclose,
    runStatement_not hbuiltins (e.nests_print.balanced 0) e.isArgument_print.nests,
    e.isArgument_print.argumentsIn_eq]
  simp [evaluateAll, Action.bind_apply, Action.pure_apply, run_of_value henv h hlevels,
    Builtin.firstArg]

/-- An `if` whose test is one argument runs its block on the truth of that argument. -/
theorem run_branchCall (hbuiltins : settings.builtins = true) (henv : s.env.BindsIdentifiers)
    {test block : Text} (htest : IsArgument test)
    (hparens : parens (0, false) test = some (0, false)) (hblock : braces 0 block = some 0)
    (hequation : Equation.ofText? (branchCall test block) = none) {v : Value}
    (h : run settings depth test s = (.done v, s)) :
    run settings (depth + 1) (branchCall test block) s =
      runIf v.truthy (runBlock settings (run settings depth) block) s := by
  have hunbound : s.env.lookup (branchCall test block) = none :=
    henv.lookup_of_mark (c := '(') (by decide) (by simp [branchCall])
  rw [run_succ, evaluate_unbound (form_branch hequation) hunbound,
    runStatement_branch hbuiltins hparens htest.nests hblock, htest.argumentsIn_eq]
  simp only [evaluateAll, Action.bind_apply, Action.pure_apply, h, runBranch_some, Builtin.firstArg,
    List.headD_cons]

/-- An `if` whose block returns an expression sets `return`, or does nothing. -/
theorem run_branch_returning (hbuiltins : settings.builtins = true) (henv : s.env.BindsIdentifiers)
    (hreturn : returnName ∈ s.env.names) {test block : Text} (htest : IsArgument test)
    (hparens : parens (0, false) test = some (0, false)) (hblock : braces 0 block = some 0)
    (hequation : Equation.ofText? (branchCall test block) = none) {e : Expression}
    (hparse : parse settings.ignore block = .ok [returning e]) {v : Value} {x : Float}
    (h : run settings (depth + 1) test s = (.done v, s)) (hvalue : e.value s.env = .ok x)
    (hlevels : e.levels ≤ depth) :
    run settings (depth + 2) (branchCall test block) s =
      if v.truthy then (.done (.number x), { s with env := s.env.set returnName (.number x) })
      else (.done .null, s) := by
  rw [run_branchCall hbuiltins henv htest hparens hblock hequation h, runIf]
  split
  · exact runBlock_returning hparse henv hreturn hvalue hlevels
  · rfl

/-! ### Choosing -/

theorem bindsIdentifiers_bindParams {params : List Text}
    (hparams : ∀ p ∈ params, p.isIdentifier = true) {env : Env} (h : env.BindsIdentifiers)
    (args : List Value) : (bindParams params args env).BindsIdentifiers := by
  induction params generalizing env args with
  | nil => exact h
  | cons p params ih =>
    obtain ⟨hp, hparams⟩ := List.forall_mem_cons.1 hparams
    exact ih hparams (h.set hp _) args.tail

/-- A function that returns one of two expressions in its parameters. -/
structure Choice where
  function : Function
  decision : Expression
  first : Expression
  second : Expression
  block : Text
  otherwise : Text
  parse_body : parse defaultIgnore function.body =
    .ok [branchCall decision.print block, branchCall (negated decision) otherwise]
  parse_block : parse defaultIgnore block = .ok [returning first]
  parse_otherwise : parse defaultIgnore otherwise = .ok [returning second]
  blocks_subset : block ++ otherwise ⊆ function.body
  balanced_block : braces 0 block = some 0
  balanced_otherwise : braces 0 otherwise = some 0
  not_equation : ∀ t ∈ [branchCall decision.print block, negated decision,
    branchCall (negated decision) otherwise], Equation.ofText? t = none
  isIdentifier : ∀ p ∈ function.params, p.isIdentifier = true
  return_not_mem : returnName ∉ function.params
  names_subset : ∀ e ∈ [decision, first, second], e.names ⊆ function.params

namespace Choice

variable (x : Choice)

/-- How many levels the deepest of the three expressions takes. -/
def levels : Nat := max x.decision.levels (max x.first.levels x.second.levels)

/-- The environment of the parameters alone. -/
def bound (args : List Value) : Env := bindParams x.function.params args .empty

/-- No expression of a choice depends on `return`. -/
theorem value_set_return {e : Expression} (he : e ∈ [x.decision, x.first, x.second]) (env : Env)
    (v : Value) : e.value (env.set returnName v) = e.value env := by
  refine value_congr fun name hname => ?_
  have hne : returnName ≠ name := fun h => x.return_not_mem (x.names_subset e he (h ▸ hname))
  rw [Env.lookup_set, if_neg hne]

variable (hbuiltins : settings.builtins = true)
  (hignore : ∀ c ∈ x.function.body, settings.ignore.contains c = defaultIgnore.contains c)
  (hlevels : x.levels ≤ depth) {c v w : Float}

include hbuiltins hignore hlevels

section

variable (henv : s.env.BindsIdentifiers) (hreturn : returnName ∈ s.env.names)
  (hdecision : x.decision.value s.env = .ok c)

include henv hreturn hdecision

theorem run_block (hfirst : x.first.value s.env = .ok v) :
    run settings (depth + 2) (branchCall x.decision.print x.block) s =
      if (Value.number c).truthy
      then (.done (.number v), { s with env := s.env.set returnName (.number v) })
      else (.done .null, s) := by
  have hparse : parse settings.ignore x.block = .ok [returning x.first] :=
    (parse_congr fun c hc => hignore c (x.blocks_subset (List.mem_append_left _ hc))).trans
      x.parse_block
  unfold levels at hlevels
  exact run_branch_returning hbuiltins henv hreturn x.decision.isArgument_print
    (x.decision.nests_print.balanced 0) x.balanced_block (x.not_equation _ (by simp)) hparse
    (run_of_value henv hdecision (by omega)) hfirst (by omega)

theorem run_otherwise (hsecond : x.second.value s.env = .ok w) :
    run settings (depth + 2) (branchCall (negated x.decision) x.otherwise) s =
      if (Value.number c).truthy then (.done .null, s)
      else (.done (.number w), { s with env := s.env.set returnName (.number w) }) := by
  have hparse : parse settings.ignore x.otherwise = .ok [returning x.second] :=
    (parse_congr fun c hc => hignore c (x.blocks_subset (List.mem_append_right _ hc))).trans
      x.parse_otherwise
  unfold levels at hlevels
  rw [run_branch_returning hbuiltins henv hreturn (isArgument_negated x.decision)
    (parens_negated x.decision) x.balanced_otherwise (x.not_equation _ (by simp)) hparse
    (run_negated hbuiltins henv (x.not_equation _ (by simp)) hdecision (by omega)) hsecond
    (by omega), truthy_ofBool]
  cases (Value.number c).truthy <;> rfl

/-- The two commands of the body together return the chosen expression. If the first block has run,
only `return` has changed, and the second test comes out as the first one did. -/
theorem runCommands_body (hfirst : x.first.value s.env = .ok v)
    (hsecond : x.second.value s.env = .ok w) :
    ∃ last, runCommands (run settings (depth + 2))
        [branchCall x.decision.print x.block, branchCall (negated x.decision) x.otherwise] s =
      (.done last, { s with
        env := s.env.set returnName (.number (if (Value.number c).truthy then v else w)) }) := by
  have hblock := x.run_block hbuiltins hignore hlevels henv hreturn hdecision hfirst
  simp only [runCommands, runCommandsFrom, Action.bind_apply, hblock]
  cases htruth : (Value.number c).truthy with
  | false =>
    have hotherwise := x.run_otherwise hbuiltins hignore hlevels henv hreturn hdecision hsecond
    exact ⟨.number w, by simp [hotherwise, htruth, Action.pure_apply]⟩
  | true =>
    -- The first block has set `return`, on which no expression depends.
    let s' : State := { s with env := s.env.set returnName (.number v) }
    have hotherwise : run settings (depth + 2)
        (branchCall (negated x.decision) x.otherwise) s' = _ :=
      x.run_otherwise hbuiltins hignore hlevels (henv.set (by decide) _)
        (Env.names_subset_set _ _ _ hreturn)
        ((x.value_set_return (by simp) _ _).trans hdecision)
        ((x.value_set_return (by simp) _ _).trans hsecond)
    exact ⟨.null, by simp [s', hotherwise, htruth, Action.pure_apply]⟩

end

/-- A call returns the chosen expression, with the parameters bound to the arguments, and changes
nothing for its caller. -/
theorem invoke_eq (henv : s.env.BindsIdentifiers) {args : List Value}
    (hdecision : x.decision.value (x.bound args) = .ok c)
    (hfirst : x.first.value (x.bound args) = .ok v)
    (hsecond : x.second.value (x.bound args) = .ok w) :
    invoke settings (run settings (depth + 2)) x.function args s =
      (.done (.number (if (Value.number c).truthy then v else w)), s) := by
  let inner : Env := bindParams x.function.params args (s.env.set returnName .null)
  have hinner : inner.BindsIdentifiers :=
    bindsIdentifiers_bindParams x.isIdentifier (henv.set (by decide) _) args
  have hreturn : returnName ∈ inner.names := by
    rw [Env.mem_names, lookup_bindParams x.return_not_mem, Env.lookup_set, if_pos rfl]
    rfl
  have hvalue : ∀ e ∈ [x.decision, x.first, x.second], e.value inner = e.value (x.bound args) :=
    fun e he => value_congr fun name hname =>
      lookup_bindParams_of_mem (x.names_subset e he hname) args _ _
  obtain ⟨last, hcommands⟩ := x.runCommands_body (s := { s with env := inner }) hbuiltins hignore
    hlevels hinner hreturn ((hvalue _ (by simp)).trans hdecision)
    ((hvalue _ (by simp)).trans hfirst) ((hvalue _ (by simp)).trans hsecond)
  -- The body has changed only names that are not merged back.
  have hagree : ∀ value : Value,
      (inner.set returnName value).AgreeOutside (localNames x.function) s.env := by
    intro value name hname
    obtain ⟨hne, hparams⟩ := List.ne_and_not_mem_of_not_mem_cons hname
    rw [Env.lookup_set, if_neg hne.symm, lookup_bindParams hparams, Env.lookup_set,
      if_neg hne.symm]
  have hended : invoke settings (run settings (depth + 2)) x.function args s = _ :=
    runBlockIn_ok ((parse_congr hignore).trans x.parse_body)
      (fun env => bindParams x.function.params args (env.set returnName .null))
      (localNames x.function)
  rw [hended, hcommands]
  simp [Outcome.map, Env.get, Env.lookup_set, (hagree _).mergeBack_eq]

end Choice

end Script

end Scriptlet
