import Scriptlet.Proofs.Script.Evaluation

/-! Evaluating the source form of a value. The numeral of a finite number and the literal of a text
without quotes give the value back in any state. The source form of a function is a call of `def`,
whose arguments are the quoted names: if no name holds a quote and the braces of the body balance,
it is read as it was written. -/

namespace Scriptlet

open Command

namespace Function

/-- The names a function's source form quotes: its own and those of its parameters. -/
def names (f : Function) : List Text := f.name :: f.params

/-- The quoted names with commas between them. -/
def nameList : List Text → Text
  | [] => []
  | [n] => n.quote
  | n :: m :: ns => n.quote ++ ',' :: nameList (m :: ns)

theorem nameList_cons (n : Text) (ns : List Text) :
    nameList (n :: ns) = n.quote ++ ns.flatMap fun p => ',' :: p.quote := by
  induction ns generalizing n with
  | nil => simp [nameList]
  | cons m ns ih => rw [nameList, ih m]; simp

theorem source_eq (f : Function) :
    f.source = ['d', 'e', 'f'] ++
      '(' :: (nameList f.names ++ ')' :: '\x7b' :: (f.body ++ ['\x7d'])) := by
  simp [source, header, names, nameList_cons]

/-! ### The list of names -/

section

variable {opens closes : Char → Bool} (hopens : opens ',' = false) (hcloses : closes ',' = false)

include hopens hcloses

theorem track_nameList {ns : List Text} (h : ∀ n ∈ ns, '"' ∉ n) :
    track opens closes (0, false) (nameList ns) = some (0, false) := by
  induction ns with
  | nil => rfl
  | cons n ns ih =>
    have hn : track opens closes (0, false) n.quote = some (0, false) :=
      track_quote 0 (h n List.mem_cons_self)
    cases ns with
    | nil => exact hn
    | cons m ns =>
      have hcomma : trackChar opens closes (0, false) ',' = some (0, false) := by
        simp [trackChar, hopens, hcloses]
      exact (track_append hn _).trans
        (track_cons.2 ⟨_, hcomma, ih fun a ha => h a (List.mem_cons_of_mem _ ha)⟩)

end

theorem allArguments_quote {n : Text} (h : '"' ∉ n) (u : Text) :
    allArguments (n.quote ++ ',' :: u) = n.quote :: allArguments u := by
  rw [allArguments, cutArguments_quote h, cutArguments_comma]
  simp [extendBy, allArguments]

theorem nameList_append_cons (n : Text) (ns : List Text) (hne : ns ≠ []) (u : Text) :
    nameList (n :: ns) ++ u = n.quote ++ ',' :: (nameList ns ++ u) := by
  cases ns with
  | nil => exact absurd rfl hne
  | cons m ns => simp [nameList]

/-- Names without quotes are cut off as they were quoted, whatever follows. -/
theorem allArguments_nameList_append {pre : List Text} (h : ∀ n ∈ pre, '"' ∉ n) {post : List Text}
    (hne : post ≠ []) (u : Text) :
    allArguments (nameList (pre ++ post) ++ u) =
      pre.map Text.quote ++ allArguments (nameList post ++ u) := by
  induction pre with
  | nil => rfl
  | cons n pre ih =>
    rw [List.cons_append, nameList_append_cons n _ (by simp [hne]),
      allArguments_quote (h n List.mem_cons_self), ih fun a ha => h a (List.mem_cons_of_mem _ ha)]
    rfl

theorem argumentsIn_nameList {n : Text} {ns : List Text} (h : ∀ m ∈ n :: ns, '"' ∉ m) :
    argumentsIn (nameList (n :: ns)) = (n :: ns).map Text.quote := by
  have hall : allArguments (nameList (n :: ns)) = (n :: ns).map Text.quote := by
    -- The last name is the only one without a comma after it.
    obtain ⟨pre, last, hlast⟩ : ∃ pre last, n :: ns = pre ++ [last] :=
      ⟨_, _, (List.dropLast_append_getLast (List.cons_ne_nil n ns)).symm⟩
    rw [hlast] at h ⊢
    have hsplit := allArguments_nameList_append (fun m hm => h m (List.mem_append_left _ hm))
      (List.cons_ne_nil last []) []
    have hend : allArguments last.quote = [last.quote] := by
      have := cutArguments_quote (h last (by simp)) []
      rw [List.append_nil] at this
      rw [allArguments, this]
      simp [extendBy, cutArguments]
    simpa [nameList, hend] using hsplit
  have hend : ((n :: ns).map Text.quote).getLast? ≠ some [] := by
    intro hend
    obtain ⟨m, -, hm⟩ := List.mem_map.1 (List.mem_of_getLast? hend)
    cases hm
  rw [argumentsIn_eq, hall, if_neg hend]

/-- A list that begins with a quoted name has an argument that begins with a quote. -/
theorem allArguments_nameList_cons (n : Text) (ns : List Text) (u : Text) :
    ∃ w others, allArguments (nameList (n :: ns) ++ u) = ('"' :: w) :: others := by
  have hquote : ∃ w, nameList (n :: ns) ++ u = '"' :: w := by
    rw [nameList_cons]
    exact ⟨_, rfl⟩
  obtain ⟨w, hw⟩ := hquote
  refine ⟨(cutArguments 0 true w).1, (cutArguments 0 true w).2, ?_⟩
  have hopen : trackChar isOpening isClosing (0, false) '"' = some (0, true) := by decide
  rw [hw, allArguments, cutArguments_cons hopen (by simp)]
  rfl

/-! ### Functions that are read as they were written -/

/-- What makes the source form of a function one call of `def` with the function's names and
body. -/
structure Readable (f : Function) : Prop where
  unquoted : ∀ n ∈ f.names, '"' ∉ n
  named : [] ∉ f.names
  balanced : braces 0 f.body = some 0
  not_equation : Equation.ofText? f.source = none

theorem source_ne_nil (f : Function) : f.source ≠ [] := by
  simp [source_eq]

theorem ofText?_source (f : Function) : Number.ofText? f.source = none := by
  rw [source_eq]
  exact Number.ofText?_of_head (by decide) (by decide) _

theorem literal?_source (f : Function) : literal? f.source = none := by
  rw [source_eq]
  exact literal?_of_head (by decide) _

theorem isAssignment_source (f : Function) : isAssignment f.source = false := by
  rw [source_eq]
  have hparen : Text.isNameChar '(' = false := by decide
  exact isAssignment_of_stop (List.all_iff_forall_prop.1 (by decide)) (by simpa using hparen)
    (.inl (by simp))

theorem statement_source (f : Function) :
    Statement.ofText f.source = .ofCall ['d', 'e', 'f']
      (nameList f.names ++ ')' :: '\x7b' :: (f.body ++ ['\x7d'])) := by
  rw [source_eq]
  exact Statement.ofText_call (by simp) (by simp) _

theorem Readable.call {f : Function} (h : f.Readable) :
    Statement.ofText f.source = .call ⟨['d', 'e', 'f'], f.names.map Text.quote, some f.body⟩ := by
  have hparens : parens (0, false) (nameList f.names) = some (0, false) :=
    track_nameList rfl rfl h.unquoted
  have hbrackets : brackets (0, false) (nameList f.names) = some (0, false) :=
    track_nameList rfl rfl h.unquoted
  rw [statement_source, Statement.ofCall_block hparens hbrackets _ h.balanced, names,
    argumentsIn_nameList h.unquoted]

end Function

namespace Script

variable {settings : Settings} {self : Text → Action Value} {s s' : State}

/-! ### Literals -/

theorem literal?_quote {t : Text} (h : '"' ∉ t) : literal? t.quote = some t := by
  have hcount : t.quote.count '"' = 2 := by simp [Text.quote, List.count_eq_zero.2 h]
  have hunquote : t.quote.unquote? = some t := by simp [Text.quote, Text.unquote?]
  rw [literal?, if_pos hcount, hunquote]

theorem eq_quote_of_unquote? {t u : Text} (h : t.unquote? = some u) : t = u.quote := by
  unfold Text.unquote? at h
  split at h
  · split at h
    · next t hlast =>
      cases h
      obtain ⟨r, rfl⟩ := List.getLast?_eq_some_iff.1 hlast
      simp [Text.quote]
    · cases h
  · cases h

/-- The contents of a literal hold no quote. -/
theorem not_mem_of_literal? {t u : Text} (h : literal? t = some u) : '"' ∉ u := by
  unfold literal? at h
  split at h
  · next hcount =>
    rw [eq_quote_of_unquote? h] at hcount
    simpa [Text.quote, List.count_eq_zero] using hcount
  · cases h

theorem run_quote {t : Text} (h : '"' ∉ t) (depth : Nat) (s : State) :
    run settings (depth + 1) t.quote s = (.done (.text t), s) :=
  evaluate_string (Number.ofText?_of_head (by decide) (by decide) _) (literal?_quote h) s

theorem evaluateAll_quotes (settings : Settings) (depth : Nat) {ns : List Text}
    (h : ∀ n ∈ ns, '"' ∉ n)
    (rest : List Text) (s : State) :
    evaluateAll (run settings (depth + 1)) (ns.map Text.quote ++ rest) s = (do
      let values ← evaluateAll (run settings (depth + 1)) rest
      return ns.map Value.text ++ values : Action (List Value)) s := by
  induction ns with
  | nil =>
    simp only [List.map_nil, List.nil_append, Action.bind_apply, Action.pure_apply]
    rcases evaluateAll (run settings (depth + 1)) rest s with ⟨values | f | -, s'⟩ <;> rfl
  | cons n ns ih =>
    rw [List.map_cons, List.cons_append, evaluateAll, Action.bind_apply,
      run_quote (h n List.mem_cons_self)]
    simp only
    rw [Action.bind_apply, ih fun a ha => h a (List.mem_cons_of_mem _ ha)]
    simp only [Action.bind_apply, Action.pure_apply]
    rcases evaluateAll (run settings (depth + 1)) rest s with ⟨values | f | -, s'⟩ <;> rfl

/-! ### Definitions -/

theorem expectName_eq_done {operation t : Text} {want : Want} {v : Value} :
    Builtin.expectName operation want v s = (.done t, s') ↔ v = .text t ∧ t ≠ [] ∧ s' = s := by
  constructor
  · intro h
    unfold Builtin.expectName at h
    split at h
    · cases h
      exact ⟨rfl, List.cons_ne_nil _ _, rfl⟩
    · cases h
  · rintro ⟨rfl, hne, rfl⟩
    obtain ⟨c, t, rfl⟩ := List.exists_cons_of_ne_nil hne
    rfl

theorem expectNames_eq_done {values : List Value} {ns : List Text} :
    Builtin.expectNames values s = (.done ns, s') ↔
      values = ns.map Value.text ∧ [] ∉ ns ∧ s' = s := by
  constructor
  · intro h
    induction values generalizing ns s with
    | nil =>
      cases h
      exact ⟨rfl, List.not_mem_nil, rfl⟩
    | cons v values ih =>
      obtain ⟨t, s₁, ht, hrest⟩ := Action.bind_eq_done.1 h
      obtain ⟨rfl, hne, rfl⟩ := expectName_eq_done.1 ht
      obtain ⟨ts, s₂, hts, hdone⟩ := Action.bind_eq_done.1 hrest
      cases hdone
      obtain ⟨rfl, hnil, rfl⟩ := ih hts
      exact ⟨rfl, by simp [hne.symm, hnil], rfl⟩
  · rintro ⟨rfl, hnil, rfl⟩
    induction ns with
    | nil => rfl
    | cons n ns ih =>
      obtain ⟨hne, hnil⟩ := List.ne_and_not_mem_of_not_mem_cons hnil
      exact Action.bind_eq_done.2 ⟨n, s', expectName_eq_done.2 ⟨rfl, hne.symm, rfl⟩,
        Action.bind_eq_done.2 ⟨ns, s', ih hnil, rfl⟩⟩

theorem runDefine_eq_done {block : Option Text} {values : List Value} {v : Value} :
    Builtin.runDefine block values s = (.done v, s') ↔
      ∃ n ns, values = (n :: ns).map Value.text ∧ [] ∉ n :: ns ∧
        v = .callable (some ⟨n, ns, block.getD []⟩) ∧ s' = { s with env := s.env.set n v } := by
  simp only [Builtin.runDefine, Action.bind_eq_done, expectNames_eq_done]
  constructor
  · rintro ⟨ns, s₁, ⟨hvalues, hne, rfl⟩, h⟩
    cases ns with
    | nil => cases h
    | cons n ns =>
      obtain ⟨_, _, hbind, h⟩ := Action.bind_eq_done.1 h
      cases hbind
      cases h
      exact ⟨n, ns, hvalues, hne, rfl, rfl⟩
  · rintro ⟨n, ns, hvalues, hne, rfl, rfl⟩
    exact ⟨n :: ns, s, ⟨hvalues, hne, rfl⟩, rfl⟩

theorem runCall_define (hbuiltins : settings.builtins = true) (args : List Text)
    (block : Option Text) :
    runCall settings self ⟨['d', 'e', 'f'], args, block⟩ = (do
      let values ← evaluateAll self args
      Builtin.runDefine block values) := by
  have hname : Builtin.ofName? ['d', 'e', 'f'] = some .define := by decide
  simp only [runCall, hbuiltins, if_true, hname]
  rfl

/-- The source form of a readable function gives the function back and binds its name. -/
theorem run_source (hbuiltins : settings.builtins = true) {f : Function} (h : f.Readable)
    (hunbound : s.env.lookup f.source = none) (depth : Nat) :
    run settings (depth + 2) f.source s =
      (.done (.callable (some f)), { s with env := s.env.set f.name (.callable (some f)) }) := by
  have hform : Form.ofText f.source = .other :=
    Form.ofText_other f.ofText?_source f.literal?_source (.inr h.not_equation)
  have hnames : evaluateAll (run settings (depth + 1)) (f.names.map Text.quote) s =
      (.done (f.names.map Value.text), s) := by
    have := evaluateAll_quotes settings depth h.unquoted [] s
    simpa [evaluateAll, Action.bind_apply, Action.pure_apply] using this
  rw [run_succ, evaluate_unbound hform hunbound, runStatement, h.call]
  simp only
  rw [runCall_define hbuiltins, Action.bind_eq_done]
  exact ⟨_, s, hnames, runDefine_eq_done.2 ⟨f.name, f.params, rfl, h.named, rfl, rfl⟩⟩

/-! ### Only readable functions come back -/

/-- The source form of a function, if it is worth a function at all, is a call whose arguments are
the names of that function. -/
theorem of_run_source (hbuiltins : settings.builtins = true) {f g : Function} {depth : Nat}
    (hunbound : s.env.lookup f.source = none)
    (hrun : run settings (depth + 2) f.source s = (.done (.callable (some g)), s')) :
    Equation.ofText? f.source = none ∧ ∃ block s₁,
      Statement.ofText f.source = .call ⟨['d', 'e', 'f'],
        argumentsIn (Function.nameList f.names ++ ')' :: '\x7b' :: (f.body ++ ['\x7d'])), block⟩ ∧
      evaluateAll (run settings (depth + 1))
        (argumentsIn (Function.nameList f.names ++ ')' :: '\x7b' :: (f.body ++ ['\x7d']))) s =
          (.done (g.names.map Value.text), s₁) ∧
      [] ∉ g.names := by
  have hequation : Equation.ofText? f.source = none := by
    cases he : Equation.ofText? f.source with
    | none => rfl
    | some e =>
      have hform := Form.ofText_equation f.ofText?_source f.literal?_source f.isAssignment_source he
      rw [run_succ, evaluate_equation hform] at hrun
      obtain ⟨x, hx⟩ := runEquation_done hrun
      cases hx
  have hform := Form.ofText_other f.ofText?_source f.literal?_source (.inr hequation)
  refine ⟨hequation, ?_⟩
  rw [run_succ, evaluate_unbound hform hunbound, runStatement] at hrun
  rw [f.statement_source] at hrun ⊢
  rcases Statement.ofCall_cases ['d', 'e', 'f']
    (Function.nameList f.names ++ ')' :: '\x7b' :: (f.body ++ ['\x7d'])) with
    ⟨fault, hcall⟩ | ⟨block, hcall⟩
  · rw [hcall] at hrun
    cases hrun
  · rw [hcall] at hrun ⊢
    simp only at hrun
    rw [runCall_define hbuiltins, Action.bind_eq_done] at hrun
    obtain ⟨values, s₁, hvalues, hdefine⟩ := hrun
    obtain ⟨n, ns, rfl, hnil, hg, -⟩ := runDefine_eq_done.1 hdefine
    cases hg
    exact ⟨block, s₁, rfl, hvalues, hnil⟩

/-- A text that begins with a quote and is bound to a callable is worth no text with a quote. -/
theorem not_mem_of_run_quote {w n : Text} {depth : Nat}
    (hbound : s.env.lookup ('"' :: w) = some (.callable none))
    (hrun : run settings (depth + 1) ('"' :: w) s = (.done (.text n), s')) : '"' ∉ n := by
  have hnumber : Number.ofText? ('"' :: w) = none :=
    Number.ofText?_of_head (by decide) (by decide) _
  rw [run_succ] at hrun
  cases hliteral : literal? ('"' :: w) with
  | some t =>
    rw [evaluate_string hnumber hliteral] at hrun
    cases hrun
    exact not_mem_of_literal? hliteral
  | none =>
    cases hequation : Equation.ofText? ('"' :: w) with
    | some e =>
      rw [evaluate_equation (Form.ofText_equation hnumber hliteral rfl hequation)] at hrun
      obtain ⟨x, hx⟩ := runEquation_done hrun
      cases hx
    | none =>
      rw [evaluate_bound (Form.ofText_other hnumber hliteral (.inr hequation)) hbound] at hrun
      cases hrun

/-- The first name with a quote splits the list. -/
theorem exists_first_quoted {ns : List Text} (h : ¬ ∀ n ∈ ns, '"' ∉ n) :
    ∃ pre n post, ns = pre ++ n :: post ∧ (∀ m ∈ pre, '"' ∉ m) ∧ '"' ∈ n := by
  induction ns with
  | nil => simp at h
  | cons m ns ih =>
    by_cases hm : '"' ∈ m
    · exact ⟨[], m, ns, rfl, by simp, hm⟩
    · obtain ⟨pre, n, post, rfl, hpre, hn⟩ := ih fun hall => h (by simp [hm]; exact hall)
      exact ⟨m :: pre, n, post, rfl, by simpa [hm] using hpre, hn⟩

section

variable (hbuiltins : settings.builtins = true) {f : Function} {depth : Nat}
  (h : ∀ env : Env, env.lookup f.source = none →
    ∃ s', run settings (depth + 2) f.source { s with env } = (.done (.callable (some f)), s'))

include hbuiltins h

/-- Where the names hold a quote, the first such one is cut wrongly: its argument is then a text
that an environment can bind to something else. -/
theorem unquoted_of_run : ∀ n ∈ f.names, '"' ∉ n := by
  by_contra hquoted
  obtain ⟨pre, n, post, hnames, hpre, hn⟩ := exists_first_quoted hquoted
  obtain ⟨w, others, hw⟩ := Function.allArguments_nameList_cons n post
    (')' :: '\x7b' :: (f.body ++ ['\x7d']))
  have hall := Function.allArguments_nameList_append hpre (List.cons_ne_nil n post)
    (')' :: '\x7b' :: (f.body ++ ['\x7d']))
  rw [hw, ← hnames] at hall
  obtain ⟨zs, hargs⟩ := argumentsIn_of_allArguments hall (List.cons_ne_nil _ _)
  let env := Env.empty.set ('"' :: w) (.callable none)
  have hunbound : env.lookup f.source = none := by
    simp [env, Env.lookup_set, f.source_eq]
  obtain ⟨s', hrun⟩ := h env hunbound
  obtain ⟨-, block, s₁, -, hvalues, -⟩ := of_run_source hbuiltins hunbound hrun
  rw [hargs, evaluateAll_quotes settings depth hpre, Action.bind_eq_done] at hvalues
  obtain ⟨values, s₂, hvalues, hdone⟩ := hvalues
  obtain ⟨v, s₃, hv, hrest⟩ := Action.bind_eq_done.1 hvalues
  obtain ⟨vs, s₄, -, hcons⟩ := Action.bind_eq_done.1 hrest
  cases hcons
  have hsame : v = .text n := by
    have hlist := congrArg Prod.fst hdone
    simp [Action.pure_apply, hnames] at hlist
    exact hlist.1
  subst hsame
  exact not_mem_of_run_quote (by simp [env, Env.lookup_set]) hv hn

/-- A function whose source form is worth that function in every environment is readable. -/
theorem readable_of_run : f.Readable := by
  have hunquoted := unquoted_of_run hbuiltins h
  obtain ⟨s', hrun⟩ := h Env.empty (Env.lookup_empty _)
  obtain ⟨hequation, block, s₁, hcall, -, hnamed⟩ :=
    of_run_source hbuiltins (Env.lookup_empty _) hrun
  refine ⟨hunquoted, hnamed, ?_, hequation⟩
  have hparens : parens (0, false) (Function.nameList f.names) = some (0, false) :=
    Function.track_nameList rfl rfl hunquoted
  rw [f.statement_source, Statement.ofCall, closeParen_balanced hparens] at hcall
  simp only at hcall
  cases hclose : closeBrace 0 (f.body ++ ['\x7d']) with
  | none =>
    rw [hclose] at hcall
    cases hcall
  | some found =>
    obtain ⟨body, rest⟩ := found
    rw [hclose] at hcall
    cases rest with
    | cons c rest => cases hcall
    | nil =>
      obtain ⟨hbody, hbraces⟩ := eq_of_closeBrace hclose
      obtain rfl := List.append_cancel_right hbody
      exact hbraces

end

end Script

end Scriptlet
