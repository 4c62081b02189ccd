import Scriptlet.Proofs.Command.Join

/-! The shape of the commands of a script. Along the whole text the cutter keeps what it has read of
a command in one of a few shapes, which the place of the next character decides: outside strings and
blocks it is a header, in which nothing that ends a command or opens a block stands outside its
string literals; in a block it is a header and the part of the block read so far, whose braces are
counted. So every command that is cut off is a header, or a header with one block, and that block is
the one that matching its opening brace finds again. -/

namespace Scriptlet.Command

/-! ### Headers and blocks -/

/-- Outside strings, these end a command, are dropped, or open a block. -/
def separators : List Char := ['\x7b', ' ', '\n', '#']

/-- No separator stands outside the string literals, that is after an even number of quotes. -/
def Bare (t : Text) : Prop :=
  ∀ before c after, t = before ++ c :: after → before.count '"' % 2 = 0 → c ∉ separators

/-- A text in which every string literal is closed and no separator stands outside them. -/
structure IsHeader (t : Text) : Prop where
  closed : t.count '"' % 2 = 0
  bare : Bare t

/-- A header and a block, which is found again at the brace that opens it and ends the text. -/
def EndsInBlock (t : Text) : Prop :=
  ∃ head body, t = head ++ '\x7b' :: (body ++ ['\x7d']) ∧ IsHeader head ∧
    blockAt t head.byteLength = some (body, t.byteLength)

/-- The shape of a command. -/
def WellShaped (t : Text) : Prop := t ≠ [] ∧ (IsHeader t ∨ EndsInBlock t)

theorem bare_nil : Bare [] := by
  intro before c after h
  simp at h

theorem isHeader_nil : IsHeader [] := ⟨rfl, bare_nil⟩

/-- A text stays bare under a further character that is no separator or stands in a string. -/
theorem Bare.concat {t : Text} (h : Bare t) {c : Char}
    (hc : t.count '"' % 2 = 0 → c ∉ separators) : Bare (t ++ [c]) := by
  intro before a after heq hbefore
  rcases List.eq_nil_or_concat after with rfl | ⟨rest, b, rfl⟩
  · obtain ⟨rfl, hlast⟩ := List.append_inj' heq rfl
    cases hlast
    exact hc hbefore
  · have hsplit : t ++ [c] = (before ++ a :: rest) ++ [b] := by simpa using heq
    exact h before a rest (List.append_inj' hsplit rfl).1 hbefore

theorem IsHeader.concat {t : Text} (h : IsHeader t) {c : Char} (hquote : c ≠ '"')
    (hc : c ∉ separators) : IsHeader (t ++ [c]) := by
  refine ⟨?_, h.bare.concat fun _ => hc⟩
  rw [List.count_append, List.count_singleton, if_neg (by simpa using hquote)]
  exact h.closed

theorem braces_concat {depth depth' : Nat} {t : Text} (h : braces depth t = some depth')
    (c : Char) : braces depth (t ++ [c]) = braceChar depth' c := by
  rw [braces, List.foldlM_append, show t.foldlM braceChar depth = some depth' from h]
  simp

/-- The braces that the cutter counts are those that the matcher counts. -/
theorem blockAt_balanced (head : Text) {body : Text} (h : braces 0 body = some 0) :
    blockAt (head ++ '\x7b' :: (body ++ ['\x7d'])) head.byteLength =
      some (body, (head ++ '\x7b' :: (body ++ ['\x7d'])).byteLength) := by
  rw [byteLength_append_block]
  exact blockAt_eq_some_iff.2 ⟨head, [], rfl, rfl, rfl, h⟩

/-! ### What the cutter keeps -/

/-- What has been read of a command when the next character stands in this mode. -/
def Mode.Admits : Mode → Text → Prop
  | .code, t => IsHeader t
  | .comment, t => t = []
  | .string _, t => Bare t ∧ t.count '"' % 2 = 1
  | .block _ depth, t =>
    ∃ head body, t = head ++ '\x7b' :: body ∧ IsHeader head ∧ braces 0 body = some depth

namespace Cutter

/-- The finished commands are well shaped, and the pending one fits the mode. -/
structure Sound (s : Cutter) : Prop where
  commands : ∀ command ∈ s.commands, WellShaped command
  pending : s.mode.Admits s.pending.reverse

variable {ignore : Text} {s : Cutter}

theorem sound_start : ({} : Cutter).Sound := ⟨by simp, isHeader_nil⟩

/-- Ending a command that is well shaped leaves nothing pending. -/
theorem Sound.flush (h : ∀ command ∈ s.commands, WellShaped command)
    (hpending : IsHeader s.pending.reverse ∨ EndsInBlock s.pending.reverse) :
    (∀ command ∈ s.flush.commands, WellShaped command) ∧ s.flush.pending = [] := by
  obtain ⟨line, mode, pending, commands⟩ := s
  cases pending with
  | nil => exact ⟨h, rfl⟩
  | cons c pending => exact ⟨List.forall_mem_cons.2 ⟨⟨by simp, hpending⟩, h⟩, rfl⟩

theorem Sound.push {c : Char} (h : s.Sound) (mode : Mode)
    (hadmits : mode.Admits (s.pending.reverse ++ [c])) : Sound { s.push c with mode := mode } :=
  ⟨h.commands, by simpa [Cutter.push] using hadmits⟩

theorem Sound.stepCode (h : s.Sound) (hmode : s.mode = .code) (c : Char) :
    (s.stepCode c).Sound := by
  have hheader : IsHeader s.pending.reverse := by
    have hpending := h.pending
    rwa [hmode] at hpending
  obtain ⟨hflush, hempty⟩ := Sound.flush h.commands (.inl hheader)
  have hmodeFlush : s.flush.mode = .code := by
    unfold Cutter.flush
    split <;> exact hmode
  have hpush : ∀ a, a ≠ '"' → a ∉ separators → (s.push a).Sound := by
    intro a hquote ha
    exact h.push s.mode (by rw [hmode]; exact hheader.concat hquote ha)
  unfold Cutter.stepCode
  split
  · -- A quote opens a string.
    refine h.push _ ⟨hheader.bare.concat fun _ => by decide, ?_⟩
    have hclosed := hheader.closed
    rw [List.count_append, List.count_singleton_self]
    omega
  · exact ⟨hflush, by rw [hempty]; rfl⟩
  · split
    · exact hpush '~' (by decide) (by decide)
    · exact h
  · exact h.push _ ⟨s.pending.reverse, [], rfl, hheader, rfl⟩
  · refine ⟨hflush, ?_⟩
    rw [hmodeFlush, hempty]
    exact isHeader_nil
  · next hquote hhash hspace hopen hnewline =>
    exact hpush c hquote (by simpa [separators] using ⟨hopen, hspace, hnewline, hhash⟩)

theorem Sound.stepString {openLine : Nat} (h : s.Sound) (hmode : s.mode = .string openLine)
    (c : Char) : (s.stepString c).Sound := by
  obtain ⟨hbare, hopen⟩ : Bare s.pending.reverse ∧ s.pending.reverse.count '"' % 2 = 1 := by
    have hpending := h.pending
    rwa [hmode] at hpending
  have hlonger : Bare (s.pending.reverse ++ [c]) := hbare.concat fun heven => by omega
  unfold Cutter.stepString
  split
  · next hquote =>
    subst hquote
    refine h.push _ ⟨?_, hlonger⟩
    rw [List.count_append, List.count_singleton_self]
    omega
  · next hquote =>
    have hcount : (s.pending.reverse ++ [c]).count '"' = s.pending.reverse.count '"' := by
      simp [hquote]
    exact h.push s.mode (by rw [hmode]; exact ⟨hlonger, hcount ▸ hopen⟩)

theorem Sound.stepBlock {openLine depth : Nat} (h : s.Sound)
    (hmode : s.mode = .block openLine depth) (c : Char) :
    (s.stepBlock openLine depth c).Sound := by
  obtain ⟨head, body, htext, hhead, hbraces⟩ :
      ∃ head body, s.pending.reverse = head ++ '\x7b' :: body ∧ IsHeader head ∧
        braces 0 body = some depth := by
    have hpending := h.pending
    rwa [hmode] at hpending
  have hlonger : s.pending.reverse ++ [c] = head ++ '\x7b' :: (body ++ [c]) := by simp [htext]
  cases hc : braceChar depth c with
  | some depth' =>
    rw [stepBlock_of_braceChar hmode hc]
    exact h.push _ ⟨head, body ++ [c], hlonger, hhead, (braces_concat hbraces c).trans hc⟩
  | none =>
    obtain ⟨rfl, rfl⟩ := braceChar_eq_none_iff.1 hc
    have hblock : EndsInBlock (s.push '\x7d').pending.reverse := by
      have hpending : (s.push '\x7d').pending.reverse = head ++ '\x7b' :: (body ++ ['\x7d']) := by
        rw [← hlonger]
        simp [Cutter.push]
      rw [hpending]
      exact ⟨head, body, rfl, hhead, blockAt_balanced head hbraces⟩
    obtain ⟨hflush, hempty⟩ := Sound.flush (s := s.push '\x7d') h.commands (.inr hblock)
    refine ⟨hflush, ?_⟩
    rw [show (s.stepBlock openLine 0 '\x7d').pending = [] from hempty]
    exact isHeader_nil

/-- One character keeps the cutter sound, whatever is ignored. -/
theorem Sound.step (h : s.Sound) (c : Char) : (s.step ignore c).Sound := by
  have hadvance : (s.advance c).Sound := by
    unfold Cutter.advance
    split <;> exact ⟨h.commands, h.pending⟩
  rw [step_eq]
  generalize s.advance c = s at hadvance
  unfold Cutter.act
  cases hmode : s.mode with
  | comment =>
    have hempty : s.pending.reverse = [] := by
      have hpending := hadvance.pending
      rwa [hmode] at hpending
    dsimp only
    split
    · exact ⟨hadvance.commands, by rw [hempty]; exact isHeader_nil⟩
    · exact hadvance
  | code =>
    dsimp only
    split
    · exact hadvance
    · exact hadvance.stepCode hmode c
  | string openLine =>
    dsimp only
    split
    · exact hadvance
    · exact hadvance.stepString hmode c
  | block openLine depth =>
    dsimp only
    split
    · exact hadvance
    · exact hadvance.stepBlock hmode c

theorem Sound.run (h : s.Sound) (t : Text) : (s.run ignore t).Sound := by
  induction t generalizing s with
  | nil => exact h
  | cons c t ih => exact ih (h.step c)

end Cutter

/-- Every command of a script is well shaped, whatever is ignored: it is a header, or a header and
one block, the one that is found again at its opening brace and ends with the command. -/
theorem split_wellShaped {ignore t : Text} {commands : List Text}
    (h : split ignore t = .ok commands) : ∀ command ∈ commands, WellShaped command := by
  have hsound : (Cutter.run ignore {} t).Sound := Cutter.sound_start.run t
  rw [split, Cutter.finish] at h
  generalize Cutter.run ignore {} t = s at h hsound
  have hheader : IsHeader s.pending.reverse → s.flush.commands.reverse = commands →
      ∀ command ∈ commands, WellShaped command := by
    rintro hpending rfl command hcommand
    have hflush := Cutter.Sound.flush hsound.commands (.inl hpending)
    exact hflush.1 command (List.mem_reverse.1 hcommand)
  have hpending := hsound.pending
  cases hmode : s.mode with
  | code =>
    rw [hmode] at h hpending
    cases h
    exact hheader hpending rfl
  | comment =>
    rw [hmode] at h hpending
    cases h
    exact hheader (by rw [show s.pending.reverse = [] from hpending]; exact isHeader_nil) rfl
  | string openLine =>
    rw [hmode] at h
    cases h
  | block openLine depth =>
    rw [hmode] at h
    cases h

/-- A block whose quotes do not pair up, after a literal with a brace and a comment. -/
def shapedScript : Text := "x = \"\x7b #\" # \x7b\nif(x) \x7b\"\x7b\x7d # \x7d y".toList

theorem split_shapedScript :
    split defaultIgnore shapedScript =
        .ok ["x=\"\x7b #\"".toList, "if(x)\x7b\"\x7b\x7d # \x7d".toList, ['y']] ∧
      WellShaped "if(x)\x7b\"\x7b\x7d # \x7d".toList := by
  have hsplit : split defaultIgnore shapedScript =
      .ok ["x=\"\x7b #\"".toList, "if(x)\x7b\"\x7b\x7d # \x7d".toList, ['y']] := by
    rfl
  exact ⟨hsplit, split_wellShaped hsplit _ (by simp)⟩

end Scriptlet.Command
