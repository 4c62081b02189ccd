import Scriptlet.Command.Sugar
import Scriptlet.Proofs.Command.Bracket

/-! What the cutter makes of whole stretches of a script. Inside a block every character that is not
ignored goes into the pending command, up to the brace that closes the block; outside blocks, so do
the characters of a text that neither ends its command nor opens a block, spaces left out. -/

namespace Scriptlet.Command

/-- The characters of a text that are not ignored. -/
def kept (ignore t : Text) : Text := t.filter fun c => !ignore.contains c

theorem kept_cons (ignore : Text) (c : Char) (t : Text) :
    kept ignore (c :: t) = if ignore.contains c then kept ignore t else c :: kept ignore t := by
  simp only [kept, List.filter_cons]
  cases ignore.contains c <;> rfl

/-- The characters of a text that are kept outside blocks; none if it ends a command, holds a brace
outside strings, or leaves a string open. -/
def inline (ignore : Text) : (inString : Bool) → Text → Option Text
  | inString, [] => if inString then none else some []
  | inString, c :: t =>
    if ignore.contains c then inline ignore inString t
    else if c = '"' then (inline ignore (!inString) t).map (c :: ·)
    else if inString then (inline ignore inString t).map (c :: ·)
    else if c = ' ' then inline ignore inString t
    else if c ∈ ['\n', '#', '\x7b', '\x7d'] then none
    else (inline ignore inString t).map (c :: ·)

/-- Outside strings the kept text holds no braces, so its parentheses are all its brackets. -/
theorem parens_inline {ignore t u : Text} {n : Nesting} (h : inline ignore n.2 t = some u) :
    parens n u = brackets n u := by
  induction t generalizing n u with
  | nil =>
    rw [inline] at h
    split at h <;> cases h
    rfl
  | cons c t ih =>
    have hstep : ∀ v, u = c :: v → (n.2 = true ∨ c ∉ ['\x7b', '\x7d']) →
        inline ignore (if c = '"' then !n.2 else n.2) t = some v → parens n u = brackets n u := by
      rintro v rfl hplain hv
      rw [parens, brackets, track, track, List.foldlM_cons, List.foldlM_cons,
        trackChar_eq_of_not_brace hplain]
      cases hc : trackChar isOpening isClosing n c with
      | none => rfl
      | some m =>
        rw [← trackChar_inString hc] at hv
        exact ih hv
    rw [inline] at h
    split at h
    · exact ih h
    split at h
    · next hquote =>
      obtain ⟨v, hv, rfl⟩ := Option.map_eq_some_iff.1 h
      exact hstep v rfl (.inr (by simp [hquote])) (by rwa [if_pos hquote])
    next hquote =>
    split at h
    · next hstring =>
      obtain ⟨v, hv, rfl⟩ := Option.map_eq_some_iff.1 h
      exact hstep v rfl (.inl hstring) (by rwa [if_neg hquote])
    split at h
    · exact ih h
    split at h
    · cases h
    · next hplain =>
      obtain ⟨v, hv, rfl⟩ := Option.map_eq_some_iff.1 h
      have hbrace : c ∉ ['\x7b', '\x7d'] := fun hm =>
        hplain (List.mem_cons_of_mem _ (List.mem_cons_of_mem _ hm))
      exact hstep v rfl (.inr hbrace) (by rwa [if_neg hquote])

namespace Cutter

variable {ignore : Text} {s : Cutter}

/-- The state after `t` was read and `u` of it went into the pending command. -/
def after (s : Cutter) (t u : Text) (mode : Mode) : Cutter :=
  { s with line := s.line + t.count '\n', mode, pending := u.reverse ++ s.pending }

theorem after_after (s : Cutter) (t t' u u' : Text) (mode mode' : Mode) :
    (s.after t u mode).after t' u' mode' = s.after (t ++ t') (u ++ u') mode' := by
  simp [after, Nat.add_assoc]

theorem run_cons (ignore : Text) (s : Cutter) (c : Char) (t : Text) :
    s.run ignore (c :: t) = (s.step ignore c).run ignore t := rfl

/-! ### Blocks -/

theorem step_ignored {c : Char} (hmode : s.mode ≠ .comment) (hc : ignore.contains c = true) :
    s.step ignore c = s.after [c] [] s.mode := by
  obtain ⟨line, mode, pending, commands⟩ := s
  by_cases hnl : c = '\n' <;> cases mode <;> simp_all [step, after]

/-- As long as the block stays open, a character of it changes the depth alone. -/
theorem stepBlock_of_braceChar {openLine depth depth' : Nat} {c : Char}
    (hmode : s.mode = .block openLine depth) (h : braceChar depth c = some depth') :
    s.stepBlock openLine depth c = { s.push c with mode := .block openLine depth' } := by
  obtain ⟨line, mode, pending, commands⟩ := s
  cases hmode
  unfold braceChar at h
  split at h
  · next hopen =>
    cases h
    subst hopen
    rfl
  next hopen =>
  split at h
  · next hclose =>
    subst hclose
    cases depth with
    | zero => cases h
    | succ depth =>
      cases h
      rfl
  · next hclose =>
    cases h
    cases depth <;> simp_all [stepBlock, push]

theorem step_block {openLine depth depth' : Nat} {c : Char}
    (hmode : s.mode = .block openLine depth) (hc : ignore.contains c = false)
    (h : braceChar depth c = some depth') :
    s.step ignore c = s.after [c] [c] (.block openLine depth') := by
  obtain ⟨line, mode, pending, commands⟩ := s
  cases hmode
  have hinside (line : Nat) : stepBlock ⟨line, .block openLine depth, pending, commands⟩ openLine
      depth c = ⟨line, .block openLine depth', c :: pending, commands⟩ :=
    stepBlock_of_braceChar rfl h
  by_cases hnl : c = '\n' <;> simp_all [step, after]

theorem run_block {openLine depth depth' : Nat} {t : Text}
    (hmode : s.mode = .block openLine depth) (h : braces depth (kept ignore t) = some depth') :
    s.run ignore t = s.after t (kept ignore t) (.block openLine depth') := by
  induction t generalizing s depth with
  | nil =>
    cases h
    simp [run, after, kept, ← hmode]
  | cons c t ih =>
    rw [run_cons]
    rw [kept_cons] at h ⊢
    cases hc : ignore.contains c with
    | true =>
      rw [hc, if_pos rfl] at h
      rw [step_ignored (by simp [hmode]) hc, ih (s := s.after [c] [] s.mode) hmode h, after_after,
        if_pos rfl]
      rfl
    | false =>
      rw [hc, if_neg Bool.false_ne_true] at h
      obtain ⟨n, hbrace, ht⟩ := braces_cons.1 h
      rw [step_block hmode hc hbrace, ih rfl ht, after_after, if_neg Bool.false_ne_true]
      rfl

/-- A block that closes ends its command. -/
theorem step_close {openLine : Nat} (hmode : s.mode = .block openLine 0)
    (hc : ignore.contains '\x7d' = false) :
    s.step ignore '\x7d' =
      ⟨s.line, .code, [], ('\x7d' :: s.pending).reverse :: s.commands⟩ := by
  obtain ⟨line, mode, pending, commands⟩ := s
  cases hmode
  simp_all [step, stepBlock, push, flush]

/-! ### Text outside blocks -/

/-- The cutter is outside blocks and comments, in a string or not. -/
def Inline (s : Cutter) : (inString : Bool) → Prop
  | false => s.mode = .code
  | true => ∃ openLine, s.mode = .string openLine

theorem Inline.ne_comment {inString : Bool} (h : s.Inline inString) : s.mode ≠ .comment := by
  cases inString with
  | false =>
    have hcode : s.mode = .code := h
    simp [hcode]
  | true =>
    obtain ⟨openLine, h⟩ := h
    simp [h]

theorem Inline.after {inString : Bool} (h : s.Inline inString) (t u : Text) :
    (s.after t u s.mode).Inline inString := by
  cases inString <;> exact h

theorem inline_after_code (s : Cutter) (t u : Text) : (s.after t u .code).Inline false := rfl

theorem step_quote {inString : Bool} (h : s.Inline inString) (hc : ignore.contains '"' = false) :
    ∃ mode, s.step ignore '"' = s.after ['"'] ['"'] mode ∧
      (s.after ['"'] ['"'] mode).Inline (!inString) := by
  obtain ⟨line, mode, pending, commands⟩ := s
  cases inString with
  | false =>
    cases h
    exact ⟨.string line, by simp_all [step, stepCode, push, after], line, rfl⟩
  | true =>
    obtain ⟨openLine, h⟩ := h
    cases h
    exact ⟨.code, by simp_all [step, stepString, push, after], rfl⟩

theorem step_string {c : Char} (h : s.Inline true) (hc : ignore.contains c = false)
    (hquote : c ≠ '"') : s.step ignore c = s.after [c] [c] s.mode := by
  obtain ⟨line, mode, pending, commands⟩ := s
  obtain ⟨openLine, h⟩ := h
  cases h
  by_cases hnl : c = '\n' <;> simp_all [step, stepString, push, after]

/-- A space goes, unless it marks the keyword of a definition. -/
theorem step_space (h : s.Inline false) (hpending : '(' ∈ s.pending)
    (hc : ignore.contains ' ' = false) : s.step ignore ' ' = s.after [' '] [] .code := by
  obtain ⟨line, mode, pending, commands⟩ := s
  cases h
  have hdef : pending ≠ ['f', 'e', 'd'] := by
    rintro rfl
    simp at hpending
  simp_all [step, stepCode, after]

theorem step_code {c : Char} (h : s.Inline false) (hc : ignore.contains c = false)
    (hplain : c ∉ ['"', ' ', '\n', '#', '\x7b']) : s.step ignore c = s.after [c] [c] .code := by
  obtain ⟨line, mode, pending, commands⟩ := s
  cases h
  simp_all [step, stepCode, push, after]

theorem run_inline {inString : Bool} {t u : Text} (hmode : s.Inline inString)
    (hpending : '(' ∈ s.pending) (h : inline ignore inString t = some u) :
    s.run ignore t = s.after t u .code := by
  induction t generalizing s inString u with
  | nil =>
    cases inString with
    | false =>
      cases h
      obtain ⟨line, mode, pending, commands⟩ := s
      cases hmode
      rfl
    | true => cases h
  | cons c t ih =>
    rw [run_cons]
    rw [inline] at h
    have hlonger : ∀ v mode, '(' ∈ (s.after [c] v mode).pending := fun v mode =>
      List.mem_append_right _ hpending
    split at h
    · next hc =>
      rw [step_ignored hmode.ne_comment hc, ih (hmode.after _ _) (hlonger _ _) h, after_after]
      rfl
    next hc =>
    have hc := eq_false_of_ne_true hc
    split at h
    · next hquote =>
      subst hquote
      obtain ⟨v, hv, rfl⟩ := Option.map_eq_some_iff.1 h
      obtain ⟨mode, hstep, hinline⟩ := step_quote hmode hc
      rw [hstep, ih hinline (hlonger _ _) hv, after_after]
      rfl
    next hquote =>
    split at h
    · next hstring =>
      subst hstring
      obtain ⟨v, hv, rfl⟩ := Option.map_eq_some_iff.1 h
      rw [step_string hmode hc hquote, ih (hmode.after _ _) (hlonger _ _) hv, after_after]
      rfl
    next hstring =>
    obtain rfl := eq_false_of_ne_true hstring
    split at h
    · next hspace =>
      subst hspace
      rw [step_space hmode hpending hc, ih (inline_after_code _ _ _) (hlonger _ _) h, after_after]
      rfl
    next hspace =>
    split at h
    · cases h
    next hplain =>
    obtain ⟨v, hv, rfl⟩ := Option.map_eq_some_iff.1 h
    rw [step_code hmode hc (by simp_all), ih (inline_after_code _ _ _) (hlonger _ _) hv,
      after_after]
    rfl

theorem run_plain {t : Text} (h : s.Inline false)
    (ht : ∀ c ∈ t, ignore.contains c = false ∧ c ∉ ['"', ' ', '\n', '#', '\x7b']) :
    s.run ignore t = s.after t t .code := by
  induction t generalizing s with
  | nil =>
    obtain ⟨line, mode, pending, commands⟩ := s
    cases h
    rfl
  | cons c t ih =>
    obtain ⟨hc, hplain⟩ := ht c List.mem_cons_self
    rw [run_cons, step_code h hc hplain, ih (inline_after_code _ _ _) fun a ha =>
      ht a (List.mem_cons_of_mem _ ha), after_after]
    rfl

/-! ### Commands that end with a block -/

/-- A newline between commands only counts as a line. -/
theorem step_newline (line : Nat) (commands : List Text) :
    step ignore ⟨line, .code, [], commands⟩ '\n' = ⟨line + 1, .code, [], commands⟩ := by
  simp [step, stepCode, flush]

theorem step_open (h : s.Inline false) (hc : ignore.contains '\x7b' = false) :
    s.step ignore '\x7b' = s.after ['\x7b'] ['\x7b'] (.block s.line 0) := by
  obtain ⟨line, mode, pending, commands⟩ := s
  cases h
  simp_all [step, stepCode, push, after]

/-- A header and a block in which braces balance make one command. -/
theorem run_braced {head head' t : Text} (hhead : s.run ignore head = s.after head head' .code)
    (hopen : ignore.contains '\x7b' = false) (hclose : ignore.contains '\x7d' = false)
    (ht : braces 0 (kept ignore t) = some 0) :
    s.run ignore (head ++ '\x7b' :: (t ++ ['\x7d'])) =
      ⟨s.line + head.count '\n' + t.count '\n', .code, [],
        (s.pending.reverse ++ head' ++ '\x7b' :: (kept ignore t ++ ['\x7d'])) :: s.commands⟩ := by
  rw [run_append, hhead, run_cons, step_open (inline_after_code _ _ _) hopen, run_append,
    run_block rfl ht, run_cons, step_close rfl hclose]
  simp [run, after]

end Cutter

end Scriptlet.Command
