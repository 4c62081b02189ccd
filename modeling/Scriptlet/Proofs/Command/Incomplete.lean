import Mathlib.Data.List.Induction
import Mathlib.Data.List.Infix
import Scriptlet.Proofs.Command.Join

/-! Scripts that end too early. Where a script ends can be told from its text alone: outside
strings, blocks and comments, or in the one that was opened last and is not closed yet. The cutter
follows this exactly, so what it reports as open is open, from the line on which it was opened, and
closing it completes the script. -/

namespace Scriptlet.Command

/-! ### Where a text ends -/

/-- Every beginning of the text has more open braces than close braces. -/
def LeavesOpen (t : Text) : Prop := ∀ u, u ≠ [] → u <+: t → u.count '\x7d' < u.count '\x7b'

/-- The text ends outside strings, blocks and comments. -/
inductive Outside : Text → Prop
  | nil : Outside []
  | char {p : Text} {c : Char} (hp : Outside p) (hc : c ∉ ['"', '#', '\x7b']) : Outside (p ++ [c])
  | string {p q : Text} (hp : Outside p) (hq : '"' ∉ q) : Outside (p ++ '"' :: (q ++ ['"']))
  | comment {p q : Text} (hp : Outside p) (hq : '\n' ∉ q) : Outside (p ++ '#' :: (q ++ ['\n']))
  | block {p q : Text} (hp : Outside p) (hq : LeavesOpen ('\x7b' :: q))
    (hclosed : q.count '\x7d' = q.count '\x7b') : Outside (p ++ '\x7b' :: (q ++ ['\x7d']))

/-- The text ends in a comment that begins after `p`. -/
def EndsInComment (t : Text) : Prop := ∃ p q, t = p ++ '#' :: q ∧ Outside p ∧ '\n' ∉ q

/-- The text ends in a string that is opened on the given line. -/
def EndsInString (line : Nat) (t : Text) : Prop :=
  ∃ p q, t = p ++ '"' :: q ∧ Outside p ∧ '"' ∉ q ∧ line = 1 + p.count '\n'

/-- The text ends in a block that is opened on the given line, with so many braces open in it. -/
def EndsInBraces (line depth : Nat) (t : Text) : Prop :=
  ∃ p q, t = p ++ '\x7b' :: q ∧ Outside p ∧ LeavesOpen ('\x7b' :: q) ∧
    q.count '\x7b' = q.count '\x7d' + depth ∧ line = 1 + p.count '\n'

/-- What the mode of the cutter says about the text before it. -/
def Mode.Describes (t : Text) : Mode → Prop
  | .code => Outside t
  | .comment => EndsInComment t
  | .string line => EndsInString line t
  | .block line depth => EndsInBraces line depth t

instance (t : Text) : Decidable (LeavesOpen t) :=
  decidable_of_iff (∀ u ∈ t.inits, u ≠ [] → u.count '\x7d' < u.count '\x7b')
    ⟨fun h u hne hu => h u ((List.mem_inits u t).2 hu) hne,
      fun h u hu hne => h u hne ((List.mem_inits u t).1 hu)⟩

theorem leavesOpen_singleton : LeavesOpen ['\x7b'] := by
  intro u hne hu
  rcases List.prefix_cons_iff.1 hu with rfl | ⟨v, rfl, hv⟩
  · exact absurd rfl hne
  · rw [List.prefix_nil.1 hv]
    decide

theorem LeavesOpen.concat {t : Text} (h : LeavesOpen t) {c : Char}
    (hc : (t ++ [c]).count '\x7d' < (t ++ [c]).count '\x7b') : LeavesOpen (t ++ [c]) := by
  intro u hne hu
  rcases List.prefix_concat_iff.1 hu with rfl | hu
  · exact hc
  · exact h u hne hu

/-- What follows the first brace closes none that it has not opened. -/
theorem LeavesOpen.count_le {q : Text} (h : LeavesOpen ('\x7b' :: q)) {u : Text} (hu : u <+: q) :
    u.count '\x7d' ≤ u.count '\x7b' := by
  have hlt := h ('\x7b' :: u) (List.cons_ne_nil _ _) (List.cons_prefix_cons.2 ⟨rfl, hu⟩)
  simp only [List.count_cons_self, List.count_cons_of_ne (show '\x7b' ≠ '\x7d' by decide)] at hlt
  omega

theorem LeavesOpen.braces_eq {q : Text} (h : LeavesOpen ('\x7b' :: q)) {depth : Nat}
    (hdepth : q.count '\x7b' = q.count '\x7d' + depth) : braces 0 q = some depth := by
  rw [braces_eq_count fun u hu => by have := h.count_le hu; omega]
  congr 1
  omega

/-! ### What a character does to the mode -/

/-- The mode after a character on the given line. -/
def Mode.next (line : Nat) : Mode → Char → Mode
  | .code, c =>
    if c = '"' then .string line
    else if c = '#' then .comment
    else if c = '\x7b' then .block line 0
    else .code
  | .comment, c => if c = '\n' then .code else .comment
  | .string openLine, c => if c = '"' then .code else .string openLine
  | .block openLine depth, c => ((braceChar depth c).map (Mode.block openLine)).getD .code

/-- The characters that change the mode. -/
def modeChars : List Char := ['"', '#', '\x7b', '\x7d']

section

variable {t : Text} {line depth : Nat}

theorem Outside.next (h : Outside t) (c : Char) :
    (Mode.next (1 + t.count '\n') .code c).Describes (t ++ [c]) := by
  unfold Mode.next
  dsimp only
  split
  · next hc =>
    subst hc
    exact ⟨t, [], rfl, h, List.not_mem_nil, rfl⟩
  next hquote =>
  split
  · next hc =>
    subst hc
    exact ⟨t, [], rfl, h, List.not_mem_nil⟩
  next hhash =>
  split
  · next hc =>
    subst hc
    exact ⟨t, [], rfl, h, leavesOpen_singleton, rfl, rfl⟩
  · next hopen => exact Outside.char h (by simp [hquote, hhash, hopen])

theorem EndsInComment.next (h : EndsInComment t) (c : Char) :
    (Mode.next line .comment c).Describes (t ++ [c]) := by
  obtain ⟨p, q, rfl, hp, hq⟩ := h
  unfold Mode.next
  dsimp only
  rw [List.append_assoc, List.cons_append]
  split
  · next hc =>
    subst hc
    exact Outside.comment hp hq
  · next hc => exact ⟨p, q ++ [c], rfl, hp, by simp [hq, Ne.symm hc]⟩

theorem EndsInString.next (h : EndsInString line t) (c : Char) (current : Nat) :
    (Mode.next current (.string line) c).Describes (t ++ [c]) := by
  obtain ⟨p, q, rfl, hp, hq, hline⟩ := h
  unfold Mode.next
  dsimp only
  rw [List.append_assoc, List.cons_append]
  split
  · next hc =>
    subst hc
    exact Outside.string hp hq
  · next hc => exact ⟨p, q ++ [c], rfl, hp, by simp [hq, Ne.symm hc], hline⟩

/-- As long as the block stays open, the depth is the number of braces open inside it. -/
theorem EndsInBraces.concat (h : EndsInBraces line depth t) {c : Char} {depth' : Nat}
    (hcount : depth + [c].count '\x7b' = [c].count '\x7d' + depth') :
    EndsInBraces line depth' (t ++ [c]) := by
  obtain ⟨p, q, rfl, hp, hq, hdepth, hline⟩ := h
  have hinside : (q ++ [c]).count '\x7b' = (q ++ [c]).count '\x7d' + depth' := by
    rw [List.count_append, List.count_append]
    omega
  refine ⟨p, q ++ [c], by simp, hp, ?_, hinside, hline⟩
  refine LeavesOpen.concat (t := '\x7b' :: q) hq ?_
  rw [List.cons_append, List.count_cons_self,
    List.count_cons_of_ne (show '\x7b' ≠ '\x7d' by decide)]
  omega

/-- The close brace of the block itself ends it. -/
theorem EndsInBraces.close (h : EndsInBraces line 0 t) : Outside (t ++ ['\x7d']) := by
  obtain ⟨p, q, rfl, hp, hq, hdepth, -⟩ := h
  rw [List.append_assoc, List.cons_append]
  exact Outside.block hp hq (by omega)

theorem EndsInBraces.next (h : EndsInBraces line depth t) (c : Char) (current : Nat) :
    (Mode.next current (.block line depth) c).Describes (t ++ [c]) := by
  unfold Mode.next braceChar
  dsimp only
  split
  · next hc =>
    subst hc
    exact h.concat (by simp)
  next hc =>
  split
  · next hclose =>
    subst hclose
    split
    · next hzero =>
      subst hzero
      exact h.close
    · next hne =>
      have hcount : depth + ['\x7d'].count '\x7b' = ['\x7d'].count '\x7d' + (depth - 1) := by
        simp
        omega
      exact h.concat hcount
  · next hclose => exact h.concat (by simp [hc, hclose])

end

/-- A character that moves the description on moves the mode on. -/
theorem Mode.Describes.next {t : Text} {mode : Mode} (h : mode.Describes t) (c : Char) :
    (mode.next (1 + t.count '\n') c).Describes (t ++ [c]) := by
  cases mode with
  | code => exact Outside.next h c
  | comment => exact EndsInComment.next h c
  | string line => exact EndsInString.next h c _
  | block line depth => exact EndsInBraces.next h c _

theorem Mode.next_of_plain {mode : Mode} (hmode : mode ≠ .comment) {c : Char} (hc : c ∉ modeChars)
    (line : Nat) : mode.next line c = mode := by
  cases mode with
  | comment => exact absurd rfl hmode
  | _ => simp_all [modeChars, next, braceChar]

namespace Cutter

variable {s : Cutter}

theorem mode_flush (s : Cutter) : s.flush.mode = s.mode := by
  unfold flush
  split <;> rfl

theorem mode_advance (s : Cutter) (c : Char) : (s.advance c).mode = s.mode := by
  unfold advance
  split <;> rfl

/-- A newline opens nothing, so it does not matter whether its line is counted already. -/
theorem next_advance (s : Cutter) (c : Char) (mode : Mode) :
    mode.next (s.advance c).line c = mode.next s.line c := by
  unfold advance
  split
  · next hnewline =>
    subst hnewline
    cases mode <;> rfl
  · rfl

theorem mode_stepCode (h : s.mode = .code) (c : Char) :
    (s.stepCode c).mode = Mode.next s.line .code c := by
  unfold stepCode
  split
  · rfl
  · rfl
  · rw [apply_ite Cutter.mode]
    simp [push, h, Mode.next]
  · rfl
  · rw [mode_flush, h]
    rfl
  · next hquote hhash hspace hopen hnewline =>
    rw [Mode.next, if_neg hquote, if_neg hhash, if_neg hopen]
    exact h

theorem mode_stepString {openLine : Nat} (h : s.mode = .string openLine) (c : Char) :
    (s.stepString c).mode = Mode.next s.line (.string openLine) c := by
  unfold stepString
  split
  · next hquote => rw [Mode.next, if_pos hquote]
  · next hquote =>
    rw [Mode.next, if_neg hquote]
    exact h

theorem mode_stepBlock {openLine depth : Nat} (h : s.mode = .block openLine depth) (c : Char) :
    (s.stepBlock openLine depth c).mode = Mode.next s.line (.block openLine depth) c := by
  rw [Mode.next]
  cases hc : braceChar depth c with
  | some depth' => rw [stepBlock_of_braceChar h hc, Option.map_some, Option.getD_some]
  | none =>
    obtain ⟨rfl, rfl⟩ := braceChar_eq_none_iff.1 hc
    rfl

section

variable {ignore : Text} (hignore : ∀ c ∈ modeChars, ignore.contains c = false)

include hignore

theorem mode_step (s : Cutter) (c : Char) : (s.step ignore c).mode = s.mode.next s.line c := by
  have hplain : ignore.contains c = true → c ∉ modeChars := by
    intro hc hm
    rw [hignore c hm] at hc
    cases hc
  rw [step_eq, ← next_advance, ← mode_advance s c]
  generalize s.advance c = s
  unfold act
  cases hmode : s.mode with
  | comment =>
    rw [Mode.next]
    dsimp only
    split
    · rfl
    · exact hmode
  | code =>
    dsimp only
    split
    · next hc => rw [Mode.next_of_plain (by simp) (hplain hc), hmode]
    · exact mode_stepCode hmode c
  | string openLine =>
    dsimp only
    split
    · next hc => rw [Mode.next_of_plain (by simp) (hplain hc), hmode]
    · exact mode_stepString hmode c
  | block openLine depth =>
    dsimp only
    split
    · next hc => rw [Mode.next_of_plain (by simp) (hplain hc), hmode]
    · exact mode_stepBlock hmode c

/-! ### The mode after a text -/

theorem mode_run_concat (t : Text) (c : Char) :
    (run ignore {} (t ++ [c])).mode = (run ignore {} t).mode.next (1 + t.count '\n') c := by
  have hstart : ({} : Cutter).On 1 := ⟨rfl, fun _ => rfl⟩
  have hrun : run ignore {} (t ++ [c]) = (run ignore {} t).step ignore c :=
    run_append ignore {} t [c]
  rw [hrun, mode_step hignore, (hstart.run t).line_eq]

/-- After any text, the mode tells where the text ends. -/
theorem describes_run (t : Text) : (run ignore {} t).mode.Describes t := by
  induction t using List.reverseRecOn with
  | nil => exact Outside.nil
  | append_singleton t c ih =>
    rw [mode_run_concat hignore]
    exact ih.next c

/-- A mode that no character of the text changes stays. -/
theorem mode_run_of_next {mode : Mode} {t : Text} (h : ∀ c ∈ t, ∀ line, mode.next line c = mode)
    (hmode : s.mode = mode) : (s.run ignore t).mode = mode := by
  induction t generalizing s with
  | nil => exact hmode
  | cons c t ih =>
    obtain ⟨hc, ht⟩ := List.forall_mem_cons.1 h
    rw [run_cons]
    refine ih ht ?_
    rw [mode_step hignore, hmode, hc]

theorem mode_run_block {q : Text} {openLine depth depth' : Nat}
    (hq : braces depth q = some depth') (hmode : s.mode = .block openLine depth) :
    (s.run ignore q).mode = .block openLine depth' := by
  induction q generalizing s depth with
  | nil =>
    cases hq
    exact hmode
  | cons c q ih =>
    obtain ⟨n, hc, hrest⟩ := braces_cons.1 hq
    rw [run_cons]
    refine ih hrest ?_
    rw [mode_step hignore, hmode, Mode.next, hc]
    rfl

/-- As many close braces as are open end the block. -/
theorem mode_run_close {openLine depth : Nat} (hmode : s.mode = .block openLine depth) :
    (s.run ignore (List.replicate (depth + 1) '\x7d')).mode = .code := by
  induction depth generalizing s with
  | zero =>
    rw [List.replicate_one, run_cons, run, List.foldl_nil, mode_step hignore, hmode]
    rfl
  | succ depth ih =>
    rw [List.replicate_succ, run_cons]
    refine ih ?_
    rw [mode_step hignore, hmode]
    rfl

section

variable {p q : Text} (hp : (run ignore {} p).mode = .code)

include hp

/-- What is opened after a text that ends outside is open after its first character. -/
theorem mode_run_open (c : Char) :
    (run ignore {} (p ++ [c])).mode = Mode.next (1 + p.count '\n') .code c := by
  rw [mode_run_concat hignore, hp]

theorem mode_run_comment (hq : '\n' ∉ q) : (run ignore {} (p ++ '#' :: q)).mode = .comment := by
  rw [List.append_cons, run_append]
  refine mode_run_of_next hignore (fun c hc line => ?_) (mode_run_open hignore hp '#')
  have hne : c ≠ '\n' := fun h => hq (h ▸ hc)
  rw [Mode.next, if_neg hne]

theorem mode_run_string (hq : '"' ∉ q) :
    (run ignore {} (p ++ '"' :: q)).mode = .string (1 + p.count '\n') := by
  rw [List.append_cons, run_append]
  refine mode_run_of_next hignore (fun c hc line => ?_) (mode_run_open hignore hp '"')
  have hne : c ≠ '"' := fun h => hq (h ▸ hc)
  rw [Mode.next, if_neg hne]

theorem mode_run_braces (hq : LeavesOpen ('\x7b' :: q)) {depth : Nat}
    (hdepth : q.count '\x7b' = q.count '\x7d' + depth) :
    (run ignore {} (p ++ '\x7b' :: q)).mode = .block (1 + p.count '\n') depth := by
  rw [List.append_cons, run_append]
  exact mode_run_block hignore (hq.braces_eq hdepth) (mode_run_open hignore hp '\x7b')

end

theorem mode_run_outside {t : Text} (h : Outside t) : (run ignore {} t).mode = .code := by
  induction h with
  | nil => rfl
  | @char p c hp hc ih =>
    have hnext : Mode.next (1 + p.count '\n') .code c = .code := by simp_all [Mode.next]
    rw [mode_run_open hignore ih, hnext]
  | @string p q hp hq ih =>
    rw [← List.cons_append, ← List.append_assoc, mode_run_concat hignore,
      mode_run_string hignore ih hq]
    rfl
  | @comment p q hp hq ih =>
    rw [← List.cons_append, ← List.append_assoc, mode_run_concat hignore,
      mode_run_comment hignore ih hq]
    rfl
  | @block p q hp hq hclosed ih =>
    have hdepth : q.count '\x7b' = q.count '\x7d' + 0 := by omega
    rw [← List.cons_append, ← List.append_assoc, mode_run_concat hignore,
      mode_run_braces hignore ih hq hdepth]
    rfl

/-- The mode is the only one that describes the text. -/
theorem mode_run_eq_iff {t : Text} {mode : Mode} :
    (run ignore {} t).mode = mode ↔ mode.Describes t := by
  constructor
  · rintro rfl
    exact describes_run hignore t
  · intro h
    cases mode with
    | code => exact mode_run_outside hignore h
    | comment =>
      obtain ⟨p, q, rfl, hp, hq⟩ := h
      exact mode_run_comment hignore (mode_run_outside hignore hp) hq
    | string line =>
      obtain ⟨p, q, rfl, hp, hq, rfl⟩ := h
      exact mode_run_string hignore (mode_run_outside hignore hp) hq
    | block line depth =>
      obtain ⟨p, q, rfl, hp, hq, hdepth, rfl⟩ := h
      exact mode_run_braces hignore (mode_run_outside hignore hp) hq hdepth

end

theorem finish_of_code (h : s.mode = .code) : s.finish = .ok s.flush.commands.reverse := by
  rw [finish, h]

theorem finish_eq_string_iff {line : Nat} :
    s.finish = .error ⟨.string, line⟩ ↔ s.mode = .string line := by
  unfold finish
  cases s.mode <;> simp

theorem finish_eq_block_iff {line : Nat} :
    s.finish = .error ⟨.block, line⟩ ↔ ∃ depth, s.mode = .block line depth := by
  unfold finish
  cases s.mode <;> simp

end Cutter

/-! ### What is left open -/

/-- None of the characters that open or close something is ignored by default. -/
theorem defaultIgnore_modeChars : ∀ c ∈ modeChars, defaultIgnore.contains c = false := by
  simp [modeChars, defaultIgnore]

instance (t : Text) : Decidable (Outside t) :=
  decidable_of_iff ((Cutter.run defaultIgnore {} t).mode = .code)
    (Cutter.mode_run_eq_iff defaultIgnore_modeChars)

theorem split_eq_string_iff {t : Text} {line : Nat} :
    split defaultIgnore t = .error ⟨.string, line⟩ ↔ EndsInString line t := by
  rw [split, Cutter.finish_eq_string_iff, Cutter.mode_run_eq_iff defaultIgnore_modeChars]
  rfl

theorem split_eq_block_iff {t : Text} {line : Nat} :
    split defaultIgnore t = .error ⟨.block, line⟩ ↔
      ∃ p q, t = p ++ '\x7b' :: q ∧ Outside p ∧ LeavesOpen ('\x7b' :: q) ∧
        line = 1 + p.count '\n' := by
  rw [split, Cutter.finish_eq_block_iff]
  constructor
  · rintro ⟨depth, hmode⟩
    obtain ⟨p, q, ht, hp, hq, -, hline⟩ :=
      (Cutter.mode_run_eq_iff defaultIgnore_modeChars).1 hmode
    exact ⟨p, q, ht, hp, hq, hline⟩
  · rintro ⟨p, q, ht, hp, hq, hline⟩
    have hle := hq.count_le List.prefix_rfl
    refine ⟨q.count '\x7b' - q.count '\x7d', ?_⟩
    exact (Cutter.mode_run_eq_iff defaultIgnore_modeChars).2 ⟨p, q, ht, hp, hq, by omega, hline⟩

/-- A block is closed by as many braces as are open in it. -/
theorem split_close_block {p q : Text} (hp : Outside p) (hq : LeavesOpen ('\x7b' :: q)) :
    ∃ commands, split defaultIgnore (p ++ '\x7b' :: q ++ List.replicate
      (('\x7b' :: q).count '\x7b' - ('\x7b' :: q).count '\x7d') '\x7d') = .ok commands := by
  have hle := hq.count_le List.prefix_rfl
  obtain ⟨depth, hdepth⟩ : ∃ depth, q.count '\x7b' = q.count '\x7d' + depth :=
    ⟨_, (Nat.add_sub_of_le hle).symm⟩
  have hopen : ('\x7b' :: q).count '\x7b' - ('\x7b' :: q).count '\x7d' = depth + 1 := by
    rw [List.count_cons_self, List.count_cons_of_ne (show '\x7b' ≠ '\x7d' by decide)]
    omega
  have hblock := Cutter.mode_run_braces defaultIgnore_modeChars
    (Cutter.mode_run_outside defaultIgnore_modeChars hp) hq hdepth
  have hcode := Cutter.mode_run_close defaultIgnore_modeChars hblock
  rw [hopen, split, Cutter.run_append, Cutter.finish_of_code hcode]
  exact ⟨_, rfl⟩

theorem split_outside {t : Text} (h : Outside t) :
    ∃ commands, split defaultIgnore t = .ok commands := by
  rw [split, Cutter.finish_of_code (Cutter.mode_run_outside defaultIgnore_modeChars h)]
  exact ⟨_, rfl⟩

/-- A script is cut off in a block, or in a string, exactly if its text from some place outside
everything on opens one and does not close it; the line told is the line of that place. Closing the
braces that are open, or the string, completes the script. -/
theorem split_incomplete_iff (t : Text) (line : Nat) :
    (split defaultIgnore t = .error ⟨.block, line⟩ ↔
      ∃ p q, t = p ++ '\x7b' :: q ∧ Outside p ∧ LeavesOpen ('\x7b' :: q) ∧
        line = 1 + p.count '\n') ∧
    (split defaultIgnore t = .error ⟨.string, line⟩ ↔
      ∃ p q, t = p ++ '"' :: q ∧ Outside p ∧ '"' ∉ q ∧ line = 1 + p.count '\n') ∧
    (∀ p q, t = p ++ '\x7b' :: q → Outside p → LeavesOpen ('\x7b' :: q) →
      ∃ commands, split defaultIgnore (t ++ List.replicate
        (('\x7b' :: q).count '\x7b' - ('\x7b' :: q).count '\x7d') '\x7d') = .ok commands) ∧
    ∀ p q, t = p ++ '"' :: q → Outside p → '"' ∉ q →
      ∃ commands, split defaultIgnore (t ++ ['"']) = .ok commands := by
  refine ⟨split_eq_block_iff, split_eq_string_iff, ?_, ?_⟩
  · rintro p q rfl hp hq
    exact split_close_block hp hq
  · rintro p q rfl hp hq
    have hclosed := split_outside (Outside.string hp hq)
    rwa [← List.cons_append, ← List.append_assoc] at hclosed

/-- What stands before the block of `openScript`: braces in a literal and in a comment. -/
def openScriptHead : Text := "s = \"\x7b\" # \x7b\nif(s)".toList

/-- The unfinished inside of a block, with a quote and a further block. -/
def openScriptBody : Text := " x = \" \x7b\n y".toList

def openScript : Text := openScriptHead ++ '\x7b' :: openScriptBody

theorem split_openScript :
    Outside openScriptHead ∧ LeavesOpen ('\x7b' :: openScriptBody) ∧
      split defaultIgnore openScript = .error ⟨.block, 2⟩ ∧
      ∃ commands, split defaultIgnore (openScript ++ ['\x7d', '\x7d']) = .ok commands := by
  have hhead : Outside openScriptHead := by decide
  have hbody : LeavesOpen ('\x7b' :: openScriptBody) := by decide
  have hline : 2 = 1 + openScriptHead.count '\n' := by decide
  have hopen : ('\x7b' :: openScriptBody).count '\x7b' -
      ('\x7b' :: openScriptBody).count '\x7d' = 2 := by
    decide
  obtain ⟨hblock, -, hclose, -⟩ := split_incomplete_iff openScript 2
  have hclosed := hclose openScriptHead openScriptBody rfl hhead hbody
  rw [hopen] at hclosed
  exact ⟨hhead, hbody, hblock.2 ⟨openScriptHead, openScriptBody, rfl, hhead, hbody, hline⟩, hclosed⟩

end Scriptlet.Command
