import Scriptlet.Proofs.Command.Join

/-! Expanding the keyword forms, command by command. What a command is expanded to is a function of
it and of the command before it, and the only command without an expansion is an `else` that does
not follow an `if`; so the expansion of a list is settled position by position. What comes out is
left alone by a second expansion: a definition no longer carries the mark of its keyword, a counting
loop begins with a quote, and an `else` has become an `if`. -/

namespace Scriptlet.Command

/-! ### Openings -/

/-- The text begins with `start` and goes on after it. -/
def GoesOn (start t : Text) : Prop := start <+: t ∧ start.length < t.length

def IsIf (command : Text) : Prop := GoesOn ['i', 'f', '('] command

def IsElse (command : Text) : Prop := GoesOn ['e', 'l', 's', 'e', '\x7b'] command

theorem goesOn_iff {start t : Text} : GoesOn start t ↔ ∃ rest, rest ≠ [] ∧ t = start ++ rest := by
  constructor
  · rintro ⟨⟨rest, rfl⟩, hlength⟩
    refine ⟨rest, ?_, rfl⟩
    rintro rfl
    simp at hlength
  · rintro ⟨rest, hne, rfl⟩
    exact ⟨List.prefix_append _ _, by simpa [List.length_pos_iff] using hne⟩

theorem opens?_eq_some_iff {start t rest : Text} :
    opens? start t = some rest ↔ rest ≠ [] ∧ t = start ++ rest := by
  rw [← Text.after?_eq_some_iff, opens?]
  rcases Text.after? start t with - | (- | ⟨c, u⟩)
  · simp
  · simp
  · constructor
    · rintro ⟨⟩
      exact ⟨List.cons_ne_nil _ _, rfl⟩
    · rintro ⟨-, ⟨⟩⟩
      rfl

theorem opening_if {rest : Text} (h : rest ≠ []) :
    opening (['i', 'f', '('] ++ rest) = .branch rest := by
  obtain ⟨c, rest, rfl⟩ := List.exists_cons_of_ne_nil h
  simp [opening, opens?, Text.after?]

theorem opening_else {rest : Text} (h : rest ≠ []) :
    opening (['e', 'l', 's', 'e', '\x7b'] ++ rest) = .otherwise rest := by
  obtain ⟨c, rest, rfl⟩ := List.exists_cons_of_ne_nil h
  simp [opening, opens?, Text.after?]

theorem opening_for {rest : Text} (h : rest ≠ []) :
    opening (['f', 'o', 'r', '('] ++ rest) = .count rest := by
  obtain ⟨c, rest, rfl⟩ := List.exists_cons_of_ne_nil h
  simp [opening, opens?, Text.after?]

/-- The call of `def` is no definition any more. -/
theorem opening_def (rest : Text) : opening (['d', 'e', 'f', '('] ++ rest) = .plain := by
  simp [opening, opens?, Text.after?]

/-- What an opening says about the text. -/
def Opening.Describes (t : Text) : Opening → Prop
  | .define _ => True
  | .count rest => rest ≠ [] ∧ t = ['f', 'o', 'r', '('] ++ rest
  | .branch rest => rest ≠ [] ∧ t = ['i', 'f', '('] ++ rest
  | .otherwise rest => rest ≠ [] ∧ t = ['e', 'l', 's', 'e', '\x7b'] ++ rest
  | .plain => True

theorem describes_opening (t : Text) : (opening t).Describes t := by
  unfold opening
  split
  · trivial
  · split
    · next hrest => exact opens?_eq_some_iff.1 hrest
    · split
      · next hrest => exact opens?_eq_some_iff.1 hrest
      · split
        · next hrest => exact opens?_eq_some_iff.1 hrest
        · trivial

theorem isIf_iff {command : Text} : IsIf command ↔ conditionOf command ≠ none := by
  constructor
  · intro h
    obtain ⟨rest, hne, rfl⟩ := goesOn_iff.1 h
    simp only [conditionOf, opening_if hne]
    exact Option.some_ne_none _
  · intro h
    have hdescribes := describes_opening command
    unfold conditionOf at h
    cases hopening : opening command with
    | branch rest =>
      rw [hopening] at hdescribes
      exact goesOn_iff.2 ⟨rest, hdescribes⟩
    | _ => simp [hopening] at h

/-! ### One command after another -/

/-- What a command is expanded to after the one before it, if there is one. -/
def expansion (before : Option Text) (command : Text) : Option Text :=
  expandOne (before.bind conditionOf) command

/-- Only an `else` that does not follow an `if` has no expansion. -/
theorem expansion_eq_none_iff {before : Option Text} {command : Text} :
    expansion before command = none ↔ IsElse command ∧ ∀ b, before = some b → ¬ IsIf b := by
  have hlatest : before.bind conditionOf = none ↔ ∀ b, before = some b → ¬ IsIf b := by
    simp [isIf_iff, Option.bind_eq_none_iff]
  rw [← hlatest, expansion]
  constructor
  · intro h
    have hdescribes := describes_opening command
    unfold expandOne at h
    cases hopening : opening command with
    | otherwise rest =>
      rw [hopening] at h hdescribes
      refine ⟨goesOn_iff.2 ⟨rest, hdescribes⟩, ?_⟩
      cases hbefore : before.bind conditionOf with
      | none => rfl
      | some latest => simp [hbefore] at h
    | _ => simp [hopening] at h
  · rintro ⟨helse, hnone⟩
    obtain ⟨rest, hne, rfl⟩ := goesOn_iff.1 helse
    simp only [expandOne, opening_else hne, hnone]

/-- The command before position `i`, where `first` stands before the list. -/
def previousAfter (first : Option Text) (commands : List Text) : Nat → Option Text
  | 0 => first
  | i + 1 => commands[i]?

/-- At position `i` there is an `else` with no `if` right before it. -/
def MisplacedAfter (first : Option Text) (commands : List Text) (i : Nat) : Prop :=
  ∃ command, commands[i]? = some command ∧ IsElse command ∧
    ∀ before, previousAfter first commands i = some before → ¬ IsIf before

/-- The command before position `i`. The first command has none. -/
abbrev previous : List Text → Nat → Option Text := previousAfter none

/-- At position `i` there is an `else` that is the first command or does not follow an `if`. -/
abbrev Misplaced : List Text → Nat → Prop := MisplacedAfter none

variable {first : Option Text} {command : Text} {commands expanded : List Text} {index : Nat}

theorem previousAfter_succ (i : Nat) :
    previousAfter first (command :: commands) (i + 1) =
      previousAfter (some command) commands i := by
  cases i <;> rfl

theorem misplacedAfter_zero :
    MisplacedAfter first (command :: commands) 0 ↔ expansion first command = none := by
  simp [MisplacedAfter, previousAfter, expansion_eq_none_iff]

theorem misplacedAfter_succ (i : Nat) :
    MisplacedAfter first (command :: commands) (i + 1) ↔
      MisplacedAfter (some command) commands i := by
  simp only [MisplacedAfter, previousAfter_succ, List.getElem?_cons_succ]

theorem expandFrom_cons_none (h : expansion first command = none) :
    expandFrom index (first.bind conditionOf) (command :: commands) = .error ⟨index, command⟩ := by
  unfold expansion expandOne at h
  cases hopening : opening command with
  | otherwise rest =>
    cases hlatest : first.bind conditionOf with
    | none => simp [expandFrom, hopening]
    | some latest => simp [hopening, hlatest] at h
  | _ => simp [hopening] at h

theorem expandFrom_cons_some {out : Text} (h : expansion first command = some out) :
    expandFrom index (first.bind conditionOf) (command :: commands) =
      (expandFrom (index + 1) ((some command).bind conditionOf) commands).map (out :: ·) := by
  unfold expansion expandOne at h
  rw [Option.bind_some, conditionOf]
  cases hopening : opening command with
  | otherwise rest =>
    cases hlatest : first.bind conditionOf with
    | none => simp [hopening, hlatest] at h
    | some latest =>
      obtain rfl : otherwiseCall latest rest = out := by simpa [hopening, hlatest] using h
      simp [expandFrom, hopening]
  | _ =>
    simp only [hopening, Option.some.injEq] at h
    subst h
    simp only [expandFrom, hopening]

theorem map_eq_error_iff {ε α β : Type} {f : α → β} {r : Except ε α} {e : ε} :
    r.map f = .error e ↔ r = .error e := by
  cases r <;> simp [Except.map]

/-- The list fails at its first misplaced `else`. -/
theorem expandFrom_eq_error_iff {e : MisplacedElse} :
    expandFrom index (first.bind conditionOf) commands = .error e ↔
      ∃ i, e.index = index + i ∧ commands[i]? = some e.command ∧
        MisplacedAfter first commands i ∧ ∀ j < i, ¬ MisplacedAfter first commands j := by
  induction commands generalizing index first with
  | nil => simp [expandFrom]
  | cons command commands ih =>
    cases hexpansion : expansion first command with
    | none =>
      have hmisplaced : MisplacedAfter first (command :: commands) 0 :=
        misplacedAfter_zero.2 hexpansion
      rw [expandFrom_cons_none hexpansion]
      constructor
      · rintro ⟨⟩
        exact ⟨0, rfl, rfl, hmisplaced, by simp⟩
      · rintro ⟨i, hindex, hcommand, -, hleast⟩
        -- Nothing comes before position zero, so it is the first.
        obtain rfl : i = 0 := Nat.eq_zero_of_not_pos fun hi => hleast 0 hi hmisplaced
        obtain ⟨index', command'⟩ := e
        simp_all
    | some out =>
      have hplaced : ¬ MisplacedAfter first (command :: commands) 0 := by
        rw [misplacedAfter_zero, hexpansion]
        simp
      rw [expandFrom_cons_some hexpansion, map_eq_error_iff, ih]
      constructor
      · rintro ⟨i, hindex, hcommand, hmisplaced, hleast⟩
        refine ⟨i + 1, by omega, hcommand, (misplacedAfter_succ i).2 hmisplaced, ?_⟩
        intro j hj
        cases j with
        | zero => exact hplaced
        | succ j => exact fun h => hleast j (by omega) ((misplacedAfter_succ j).1 h)
      · rintro ⟨i, hindex, hcommand, hmisplaced, hleast⟩
        cases i with
        | zero => exact absurd hmisplaced hplaced
        | succ i =>
          refine ⟨i, by omega, hcommand, (misplacedAfter_succ i).1 hmisplaced, fun j hj h => ?_⟩
          exact hleast (j + 1) (by omega) ((misplacedAfter_succ j).2 h)

/-- A list that does not fail is expanded position by position. -/
theorem getElem?_of_expandFrom
    (h : expandFrom index (first.bind conditionOf) commands = .ok expanded) (i : Nat) :
    expanded[i]? = commands[i]?.bind (expansion (previousAfter first commands i)) := by
  induction commands generalizing index first expanded i with
  | nil =>
    cases h
    simp
  | cons command commands ih =>
    cases hexpansion : expansion first command with
    | none =>
      rw [expandFrom_cons_none hexpansion] at h
      cases h
    | some out =>
      rw [expandFrom_cons_some hexpansion] at h
      obtain ⟨rest, hrest, rfl⟩ := map_cons_eq_ok.1 h
      cases i with
      | zero => simp [previousAfter, hexpansion]
      | succ i =>
        rw [List.getElem?_cons_succ, List.getElem?_cons_succ, previousAfter_succ]
        exact ih hrest i

theorem length_of_expandFrom {latest : Option Text}
    (h : expandFrom index latest commands = .ok expanded) : expanded.length = commands.length := by
  induction commands generalizing index latest expanded with
  | nil =>
    cases h
    rfl
  | cons command commands ih =>
    obtain ⟨out, rest, -, hrest, rfl⟩ := expandFrom_cons_eq_ok.1 h
    rw [List.length_cons, List.length_cons, ih hrest]

theorem expand_eq (commands : List Text) :
    expand commands = expandFrom 0 ((none : Option Text).bind conditionOf) commands := rfl

/-! ### Expanding again -/

/-- A command that is expanded to itself, whatever comes before it. -/
def Settled (command : Text) : Prop := ∀ latest, expandOne latest command = some command

theorem settled_if {rest : Text} (h : rest ≠ []) : Settled (['i', 'f', '('] ++ rest) := by
  intro latest
  simp only [expandOne, opening_if h]

theorem exists_defineCall (rest : Text) : ∃ t, defineCall rest = ['d', 'e', 'f', '('] ++ t := by
  unfold defineCall
  split <;> exact ⟨_, rfl⟩

theorem settled_defineCall (rest : Text) : Settled (defineCall rest) := by
  obtain ⟨t, ht⟩ := exists_defineCall rest
  intro latest
  simp only [ht, expandOne, opening_def]

/-- The first argument of a text that begins with a quote begins with one too. -/
theorem argumentsIn_quote (t : Text) :
    ∃ w others, argumentsIn ('"' :: t) = ('"' :: w) :: others := by
  have hopen : trackChar isOpening isClosing (0, false) '"' = some (0, true) := by decide
  have hall : allArguments ('"' :: t) =
      [] ++ ('"' :: (cutArguments 0 true t).1) :: (cutArguments 0 true t).2 := by
    rw [allArguments, cutArguments_cons hopen (by simp)]
    rfl
  obtain ⟨others, hothers⟩ := argumentsIn_of_allArguments hall (List.cons_ne_nil _ _)
  exact ⟨_, others, hothers⟩

/-- A loop header that begins with a quote stays as it is. -/
theorem countCall_quote (t : Text) : countCall ('"' :: t) = ['f', 'o', 'r', '('] ++ '"' :: t := by
  obtain ⟨w, others, hfirst⟩ := argumentsIn_quote t
  simp [countCall, hfirst]

theorem countCall_cases (rest : Text) :
    countCall rest = ['f', 'o', 'r', '('] ++ rest ∨
      ∃ t, countCall rest = ['f', 'o', 'r', '('] ++ '"' :: t := by
  unfold countCall
  dsimp only
  split
  · exact .inl rfl
  · exact .inl rfl
  · split
    · exact .inl rfl
    · exact .inr ⟨_, rfl⟩

theorem settled_countCall {rest : Text} (h : rest ≠ []) : Settled (countCall rest) := by
  intro latest
  rcases countCall_cases rest with hsame | ⟨t, ht⟩
  · simp only [hsame, expandOne, opening_for h]
  · simp only [ht, expandOne, opening_for (List.cons_ne_nil _ _), countCall_quote]

/-- Whatever comes out of an expansion is settled. -/
theorem settled_of_expandOne {latest : Option Text} {out : Text}
    (h : expandOne latest command = some out) : Settled out := by
  have hdescribes := describes_opening command
  unfold expandOne at h
  cases hopening : opening command with
  | define rest =>
    obtain rfl : defineCall rest = out := by simpa [hopening] using h
    exact settled_defineCall rest
  | count rest =>
    obtain rfl : countCall rest = out := by simpa [hopening] using h
    rw [hopening] at hdescribes
    exact settled_countCall hdescribes.1
  | branch rest =>
    obtain rfl : command = out := by simpa [hopening] using h
    rw [hopening] at hdescribes
    rw [hdescribes.2]
    exact settled_if hdescribes.1
  | otherwise rest =>
    cases latest with
    | none => simp [hopening] at h
    | some latest =>
      obtain rfl : otherwiseCall latest rest = out := by simpa [hopening] using h
      have hcall : otherwiseCall latest rest =
          ['i', 'f', '('] ++ '!' :: (latest ++ [')', '\x7b'] ++ rest) := by
        simp [otherwiseCall]
      rw [hcall]
      exact settled_if (List.cons_ne_nil _ _)
  | plain =>
    obtain rfl : command = out := by simpa [hopening] using h
    intro latest'
    simp only [expandOne, hopening]

theorem expandFrom_of_settled (h : ∀ command ∈ commands, Settled command) (latest : Option Text) :
    expandFrom index latest commands = .ok commands := by
  induction commands generalizing index latest with
  | nil => rfl
  | cons command commands ih =>
    obtain ⟨hfirst, hrest⟩ := List.forall_mem_cons.1 h
    exact expandFrom_cons_eq_ok.2 ⟨command, commands, hfirst latest, ih hrest _, rfl⟩

theorem settled_of_expandFrom {latest : Option Text}
    (h : expandFrom index latest commands = .ok expanded) :
    ∀ command ∈ expanded, Settled command := by
  induction commands generalizing index latest expanded with
  | nil =>
    cases h
    simp
  | cons command commands ih =>
    obtain ⟨out, rest, hout, hrest, rfl⟩ := expandFrom_cons_eq_ok.1 h
    exact List.forall_mem_cons.2 ⟨settled_of_expandOne hout, ih hrest⟩

/-- Expansion fails exactly at the first misplaced `else`, if there is one. Otherwise it goes
position by position, looking at the command there and at the one before it, and a second expansion
changes nothing. -/
theorem expand_local_idempotent (commands : List Text) :
    (∀ e, expand commands = .error e ↔
      commands[e.index]? = some e.command ∧ Misplaced commands e.index ∧
        ∀ i < e.index, ¬ Misplaced commands i) ∧
    ((∃ e, expand commands = .error e) ↔ ∃ i, Misplaced commands i) ∧
    ∀ expanded, expand commands = .ok expanded →
      expanded.length = commands.length ∧
      (∀ i, expanded[i]? = commands[i]?.bind (expansion (previous commands i))) ∧
      expand expanded = .ok expanded := by
  have herror : ∀ e, expand commands = .error e ↔
      commands[e.index]? = some e.command ∧ Misplaced commands e.index ∧
        ∀ i < e.index, ¬ Misplaced commands i := by
    intro e
    rw [expand_eq, expandFrom_eq_error_iff]
    constructor
    · rintro ⟨i, hindex, hfirst⟩
      obtain rfl : i = e.index := by omega
      exact hfirst
    · intro hfirst
      exact ⟨e.index, by omega, hfirst⟩
  have hlocal : ∀ expanded, expand commands = .ok expanded →
      ∀ i, expanded[i]? = commands[i]?.bind (expansion (previous commands i)) := by
    intro expanded h
    rw [expand_eq] at h
    exact getElem?_of_expandFrom h
  refine ⟨herror, ⟨?_, ?_⟩, fun expanded h => ⟨length_of_expandFrom h, hlocal expanded h, ?_⟩⟩
  · rintro ⟨e, he⟩
    exact ⟨e.index, ((herror e).1 he).2.1⟩
  · rintro ⟨i, command, hcommand, hmisplaced⟩
    cases h : expand commands with
    | error e => exact ⟨e, rfl⟩
    | ok expanded =>
      -- A misplaced `else` has no expansion, so the position would be missing in what comes out.
      have hnone : expanded[i]? = none := by
        rw [hlocal expanded h i, hcommand, Option.bind_some]
        exact expansion_eq_none_iff.2 hmisplaced
      have hlength := length_of_expandFrom h
      have hi := List.getElem?_eq_none_iff.1 hnone
      rw [hlength, ← List.getElem?_eq_none_iff, hcommand] at hi
      cases hi
  · exact expandFrom_of_settled (settled_of_expandFrom h) none

/-- Commands with every keyword form. -/
def keywordCommands : List Text :=
  ["def~f(x)\x7breturn=x\x7d".toList, "for(i=0,i<3,1)\x7bf(i)\x7d".toList,
    "if(f(1),2)\x7by=1\x7d".toList, "else\x7by=2\x7d".toList]

theorem expand_keywordCommands :
    let expanded : List Text :=
      ["def(\"f\",\"x\")\x7breturn=x\x7d".toList, "for(\"i\",0,i<3,1)\x7bf(i)\x7d".toList,
        "if(f(1),2)\x7by=1\x7d".toList, "if(!(f(1),2))\x7by=2\x7d".toList]
    expand keywordCommands = .ok expanded ∧ expand expanded = .ok expanded := by
  intro expanded
  have hexpand : expand keywordCommands = .ok expanded := by rfl
  exact ⟨hexpand, ((expand_local_idempotent keywordCommands).2.2 expanded hexpand).2.2⟩

end Scriptlet.Command
