import Scriptlet.Proofs.Command.Join

/-! Cutting commands again. What the cutter has kept of a command leads a new cutter to the same
place in it: the characters that were dropped are no longer there, and those that were kept are kept
again, the mark of a definition among them. So every command that is cut off is by itself a script
of one command, and commands with newlines between them are cut into the same commands. -/

namespace Scriptlet.Command

/-- The same place in a command, whichever line it is on. What is pending in a comment is read again
without the comment. -/
inductive Mode.Matches : Mode → Mode → Prop
  | code : Matches .code .code
  | comment : Matches .comment .code
  | string (openLine openLine' : Nat) : Matches (.string openLine) (.string openLine')
  | block (openLine openLine' depth : Nat) :
    Matches (.block openLine depth) (.block openLine' depth)

namespace Mode.Matches

variable {mode : Mode}

theorem code_eq (h : Matches .code mode) : mode = .code := by
  cases h
  rfl

theorem comment_eq (h : Matches .comment mode) : mode = .code := by
  cases h
  rfl

theorem string_eq {openLine : Nat} (h : Matches (.string openLine) mode) :
    ∃ openLine', mode = .string openLine' := by
  cases h
  exact ⟨_, rfl⟩

theorem block_eq {openLine depth : Nat} (h : Matches (.block openLine depth) mode) :
    ∃ openLine', mode = .block openLine' depth := by
  cases h
  exact ⟨_, rfl⟩

end Mode.Matches

namespace Cutter

/-- A new cutter that reads what `s` has pending. -/
def again (ignore : Text) (s : Cutter) : Cutter := run ignore {} s.pending.reverse

/-- Reading the finished commands again gives each of them back, and reading the pending one leads
to the same place in it. -/
structure Rereads (ignore : Text) (s : Cutter) : Prop where
  commands : ∀ command ∈ s.commands, split ignore command = .ok [command]
  pending_eq : (s.again ignore).pending = s.pending
  commands_eq : (s.again ignore).commands = []
  mode_matches : s.mode.Matches (s.again ignore).mode

variable {ignore : Text} {s : Cutter}

theorem rereads_start : ({} : Cutter).Rereads ignore :=
  ⟨by simp, rfl, rfl, .code⟩

theorem again_push (s : Cutter) (c : Char) (mode : Mode) :
    again ignore { s.push c with mode := mode } = (s.again ignore).step ignore c := by
  simp [again, push, run]

/-- A character that goes into the command goes into it again. -/
theorem Rereads.push (h : s.Rereads ignore) {c : Char} {mode mode' : Mode}
    (hstep : (s.again ignore).step ignore c = (s.again ignore).after [c] [c] mode')
    (hmode : mode.Matches mode') : Rereads ignore { s.push c with mode := mode } := by
  refine ⟨h.commands, ?_, ?_, ?_⟩
  · rw [again_push, hstep]
    simp [after, Cutter.push, h.pending_eq]
  · rw [again_push, hstep]
    exact h.commands_eq
  · rw [again_push, hstep]
    exact hmode

/-- A command that ends outside strings and blocks is a script of one command. -/
theorem Rereads.flush (h : s.Rereads ignore) (hmode : (s.again ignore).mode = .code) :
    (∀ command ∈ s.flush.commands, split ignore command = .ok [command]) ∧
      s.flush.pending = [] := by
  cases hpending : s.pending with
  | nil =>
    have hflush : s.flush = s := by simp [Cutter.flush, hpending]
    rw [hflush]
    exact ⟨h.commands, hpending⟩
  | cons c pending =>
    have hsplit : split ignore s.pending.reverse = .ok [s.pending.reverse] := by
      have hpend := h.pending_eq
      have hcommands := h.commands_eq
      change (s.again ignore).finish = _
      generalize s.again ignore = r at hmode hpend hcommands
      simp [finish, hmode, Cutter.flush, hpend, hcommands, hpending]
    have hflush : s.flush =
        { s with pending := [], commands := s.pending.reverse :: s.commands } := by
      simp [Cutter.flush, hpending]
    rw [hflush]
    exact ⟨List.forall_mem_cons.2 ⟨hsplit, h.commands⟩, rfl⟩

/-- After the end of a command the new cutter has nothing to read. -/
theorem Rereads.ended {mode : Mode} (hpending : s.pending = [])
    (h : ∀ command ∈ s.commands, split ignore command = .ok [command])
    (hmode : mode.Matches .code) : Rereads ignore { s with mode := mode } := by
  have hagain : again ignore { s with mode := mode } = {} := by
    rw [again, hpending]
    rfl
  exact ⟨h, by rw [hagain, hpending], by rw [hagain], by rw [hagain]; exact hmode⟩

theorem Rereads.stepCode (h : s.Rereads ignore) (hmode : s.mode = .code)
    (hmark : ignore.contains '~' = false) {c : Char} (hc : ignore.contains c = false) :
    (s.stepCode c).Rereads ignore := by
  have hcode : (s.again ignore).mode = .code := (hmode ▸ h.mode_matches).code_eq
  obtain ⟨hflush, hempty⟩ := h.flush hcode
  have hpush : ∀ a, ignore.contains a = false → a ∉ ['"', ' ', '\n', '#', '\x7b'] →
      (s.push a).Rereads ignore := by
    intro a ha hplain
    have hpushed : Rereads ignore { s.push a with mode := .code } :=
      h.push (step_code hcode ha hplain) .code
    rwa [← hmode] at hpushed
  unfold Cutter.stepCode
  split
  · have hinline : (s.again ignore).Inline false := hcode
    obtain ⟨mode, hstep, openLine, hstring⟩ := step_quote hinline hc
    obtain rfl : mode = .string openLine := hstring
    exact h.push hstep (.string _ _)
  · exact .ended hempty hflush .comment
  · split
    · exact hpush '~' hmark (by decide)
    · exact h
  · exact h.push (step_open hcode hc) (.block _ _ _)
  · have hended : Rereads ignore { s.flush with mode := .code } := .ended hempty hflush .code
    have hflushed : s.flush.mode = .code := by
      unfold Cutter.flush
      split <;> exact hmode
    rwa [← hflushed] at hended
  · next hquote hhash hspace hopen hnewline => exact hpush c hc (by simp_all)

theorem Rereads.stepString {openLine : Nat} (h : s.Rereads ignore)
    (hmode : s.mode = .string openLine) {c : Char} (hc : ignore.contains c = false) :
    (s.stepString c).Rereads ignore := by
  obtain ⟨openLine', hstring⟩ := (hmode ▸ h.mode_matches).string_eq
  have hinline : (s.again ignore).Inline true := ⟨openLine', hstring⟩
  unfold Cutter.stepString
  split
  · next hquote =>
    subst hquote
    obtain ⟨mode, hstep, hcode⟩ := step_quote hinline hc
    obtain rfl : mode = .code := hcode
    exact h.push hstep .code
  · next hquote =>
    have hpushed : Rereads ignore { s.push c with mode := .string openLine } :=
      h.push (step_string hinline hc hquote) (by rw [hstring]; exact .string _ _)
    rwa [← hmode] at hpushed

theorem Rereads.stepBlock {openLine depth : Nat} (h : s.Rereads ignore)
    (hmode : s.mode = .block openLine depth) {c : Char} (hc : ignore.contains c = false) :
    (s.stepBlock openLine depth c).Rereads ignore := by
  obtain ⟨openLine', hblock⟩ := (hmode ▸ h.mode_matches).block_eq
  cases hdepth : braceChar depth c with
  | some depth' =>
    rw [stepBlock_of_braceChar hmode hdepth]
    exact h.push (step_block hblock hc hdepth) (.block _ _ _)
  | none =>
    obtain ⟨rfl, rfl⟩ := braceChar_eq_none_iff.1 hdepth
    have hsplit : split ignore ('\x7d' :: s.pending).reverse =
        .ok [('\x7d' :: s.pending).reverse] := by
      have hagain : run ignore {} ('\x7d' :: s.pending).reverse =
          (s.again ignore).step ignore '\x7d' := by
        simp [again, run]
      rw [split, hagain, step_close hblock hc, h.pending_eq, h.commands_eq]
      simp [finish, Cutter.flush]
    have hclose : s.stepBlock openLine 0 '\x7d' =
        { s with
          mode := .code
          pending := []
          commands := ('\x7d' :: s.pending).reverse :: s.commands } := by
      simp [Cutter.stepBlock, Cutter.flush, Cutter.push]
    rw [hclose]
    exact .ended (s := { s with pending := [], commands := _ :: s.commands }) rfl
      (List.forall_mem_cons.2 ⟨hsplit, h.commands⟩) .code

/-- One character keeps it so that what has been read can be read again. -/
theorem Rereads.step (h : s.Rereads ignore) (hmark : ignore.contains '~' = false) (c : Char) :
    (s.step ignore c).Rereads ignore := by
  have hadvance : (s.advance c).Rereads ignore := by
    unfold Cutter.advance
    split <;> exact ⟨h.commands, h.pending_eq, h.commands_eq, h.mode_matches⟩
  rw [step_eq]
  generalize s.advance c = s at hadvance
  unfold Cutter.act
  cases hmode : s.mode with
  | comment =>
    dsimp only
    split
    · have hcode : (s.again ignore).mode = .code := (hmode ▸ hadvance.mode_matches).comment_eq
      refine ⟨hadvance.commands, hadvance.pending_eq, hadvance.commands_eq, ?_⟩
      change Mode.code.Matches (s.again ignore).mode
      rw [hcode]
      exact .code
    · exact hadvance
  | code =>
    dsimp only
    split
    · exact hadvance
    · next hc => exact hadvance.stepCode hmode hmark (eq_false_of_ne_true hc)
  | string openLine =>
    dsimp only
    split
    · exact hadvance
    · next hc => exact hadvance.stepString hmode (eq_false_of_ne_true hc)
  | block openLine depth =>
    dsimp only
    split
    · exact hadvance
    · next hc => exact hadvance.stepBlock hmode (eq_false_of_ne_true hc)

theorem Rereads.run (h : s.Rereads ignore) (hmark : ignore.contains '~' = false) (t : Text) :
    (s.run ignore t).Rereads ignore := by
  induction t generalizing s with
  | nil => exact h
  | cons c t ih => exact ih (h.step hmark c)

theorem Rereads.finish (h : s.Rereads ignore) {commands : List Text}
    (hfinish : s.finish = .ok commands) :
    ∀ command ∈ commands, split ignore command = .ok [command] := by
  have hflush : (s.again ignore).mode = .code → s.flush.commands.reverse = commands →
      ∀ command ∈ commands, split ignore command = .ok [command] := by
    rintro hcode rfl command hcommand
    exact (h.flush hcode).1 command (List.mem_reverse.1 hcommand)
  rw [Cutter.finish] at hfinish
  cases hmode : s.mode with
  | code =>
    rw [hmode] at hfinish
    cases hfinish
    exact hflush (hmode ▸ h.mode_matches).code_eq rfl
  | comment =>
    rw [hmode] at hfinish
    cases hfinish
    exact hflush (hmode ▸ h.mode_matches).comment_eq rfl
  | string openLine =>
    rw [hmode] at hfinish
    cases hfinish
  | block openLine depth =>
    rw [hmode] at hfinish
    cases hfinish

end Cutter

theorem split_lines_of_single {ignore : Text} (hnewline : '\n' ∉ ignore) {commands : List Text}
    (h : ∀ command ∈ commands, split ignore command = .ok [command]) :
    split ignore (Text.lines commands) = .ok commands := by
  induction commands with
  | nil => rfl
  | cons command commands ih =>
    obtain ⟨hfirst, hrest⟩ := List.forall_mem_cons.1 h
    cases commands with
    | nil => simpa [Text.lines] using hfirst
    | cons next commands =>
      have hlines : Text.lines (command :: next :: commands) =
          command ++ '\n' :: Text.lines (next :: commands) := by
        simp [Text.lines]
      rw [hlines, split_append_newline hnewline hfirst, ih hrest]
      rfl

/-- Cutting is stable: the commands of a script, one after the other on lines of their own, are cut
into the same commands. -/
theorem split_lines_stable {ignore t : Text} {commands : List Text} (hnewline : '\n' ∉ ignore)
    (hmark : '~' ∉ ignore) (h : split ignore t = .ok commands) :
    split ignore (Text.lines commands) = .ok commands := by
  have hmark : ignore.contains '~' = false := by simpa using hmark
  exact split_lines_of_single hnewline ((Cutter.rereads_start.run hmark t).finish h)

/-- A definition, then a literal with the characters that are special elsewhere, then comments. -/
def markedScript : Text := "def f(x) \x7b x # \x7d y = \" #\n\x7b\" # \x7b\n\tz # \"".toList

theorem split_lines_markedScript :
    split defaultIgnore markedScript =
        .ok ["def~f(x)\x7b x # \x7d".toList, "y=\" #\n\x7b\"".toList, ['z']] ∧
      split defaultIgnore "def~f(x)\x7b x # \x7d\ny=\" #\n\x7b\"\nz".toList =
        .ok ["def~f(x)\x7b x # \x7d".toList, "y=\" #\n\x7b\"".toList, ['z']] := by
  have hsplit : split defaultIgnore markedScript =
      .ok ["def~f(x)\x7b x # \x7d".toList, "y=\" #\n\x7b\"".toList, ['z']] := by
    rfl
  exact ⟨hsplit, split_lines_stable (by decide) (by decide) hsplit⟩

end Scriptlet.Command
