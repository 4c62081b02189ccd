import Scriptlet.Yaml.Cursor

/-! Moving over a text that has nothing wrong in it. Where every character may stand, a piece of the
text is always taken in, so that asking for characters changes nothing but what was taken in. What
the readers of tokens need to know of a cursor is then its place: the rest of the text, and where
that rest begins. -/

namespace Scriptlet.Yaml

/-! ### Readings that succeed and readings that fail -/

/-- A reading that gives a result, and what holds of the result. -/
def Yields {ε α : Type} (x : Except ε α) (P : α → Prop) : Prop := ∃ a, x = .ok a ∧ P a

namespace Yields

variable {ε α β : Type} {x : Except ε α} {P : α → Prop} {Q : β → Prop}

theorem pure {a : α} (h : P a) : Yields (Pure.pure a : Except ε α) P := ⟨a, rfl, h⟩

theorem bind {f : α → Except ε β} (h : Yields x P) (hf : ∀ a, P a → Yields (f a) Q) :
    Yields (x >>= f) Q := by
  obtain ⟨a, rfl, ha⟩ := h
  exact hf a ha

theorem mono {P' : α → Prop} (h : Yields x P) (hP : ∀ a, P a → P' a) : Yields x P' := by
  obtain ⟨a, hx, ha⟩ := h
  exact ⟨a, hx, hP a ha⟩

end Yields

/-- A reading that gives no result. -/
def Fails {ε α : Type} (x : Except ε α) : Prop := ∃ e, x = .error e

theorem Fails.bind {ε α β : Type} {x : Except ε α} {f : α → Except ε β} (h : Fails x) :
    Fails (x >>= f) := by
  obtain ⟨e, rfl⟩ := h
  exact ⟨e, rfl⟩

theorem Yields.bind_fails {ε α β : Type} {x : Except ε α} {f : α → Except ε β} {P : α → Prop}
    (h : Yields x P) (hf : ∀ a, P a → Fails (f a)) : Fails (x >>= f) := by
  obtain ⟨a, rfl, ha⟩ := h
  exact hf a ha

theorem ok_bind {ε α β : Type} (a : α) (f : α → Except ε β) : (Except.ok a >>= f) = f a := rfl

/-! ### Places -/

/-- Characters that may stand in a text and that no reader passes over unseen. -/
def isClean (c : Char) : Bool := isAllowed c && c != byteOrderMark

/-- The rest of a text, and where it begins. -/
structure Place where
  rest : Text
  index : Nat
  line : Nat
  column : Nat

namespace Cursor

/-- A cursor stands at a place of a text that is clean from there on. -/
structure At (cur : Cursor) (p : Place) : Prop where
  rest : cur.rest = p.rest
  index : cur.index = p.index
  line : cur.line = p.line
  column : cur.column = p.column
  left : cur.left = p.rest.length
  clean : ∀ c ∈ p.rest, isClean c = true
  window : cur.window.head? ≠ some byteOrderMark
  late : cur.late = none

theorem mem_of_mem_piece {room : Nat} {t : Text} {c : Char} (h : c ∈ piece room t) : c ∈ t := by
  induction t generalizing room with
  | nil => simp [piece] at h
  | cons d t ih =>
    rw [piece] at h
    split at h
    · rcases List.mem_cons.1 h with rfl | h
      · exact List.mem_cons_self
      · exact List.mem_cons_of_mem _ (ih h)
    · cases h

theorem load_of_all {cur : Cursor} (h : ∀ c ∈ cur.rest, isAllowed c = true) (room : Nat) :
    ∃ n, cur.load room = .ok { cur with loaded := n } := by
  rw [load]
  split
  · exact ⟨_, rfl⟩
  · have hall : (piece room (cur.rest.drop cur.loaded)).all isAllowed = true :=
      List.all_eq_true.2 fun c hc => h c (List.mem_of_mem_drop (mem_of_mem_piece hc))
    rw [if_pos hall]
    exact ⟨_, rfl⟩

theorem loadUpTo_of_all {cur : Cursor} (h : ∀ c ∈ cur.rest, isAllowed c = true) (n fuel : Nat) :
    ∃ k, cur.loadUpTo n fuel = .ok { cur with loaded := k } := by
  induction fuel generalizing cur with
  | zero => exact ⟨cur.loaded, rfl⟩
  | succ fuel ih =>
    obtain ⟨k, hk⟩ := load_of_all h pieceSize
    rw [loadUpTo]
    split
    · exact ⟨cur.loaded, rfl⟩
    · simp only [hk]
      show ∃ k', (if cur.left ≤ cur.loaded then _ else _) = _
      split
      · exact ⟨k, rfl⟩
      · exact ih h

namespace At

variable {cur : Cursor} {rest : Text} {p : Place} {index line column : Nat}

theorem isAllowed_of_mem (h : cur.At p) : ∀ c ∈ cur.rest, isAllowed c = true := by
  intro c hc
  rw [h.rest] at hc
  exact (Bool.and_eq_true_iff.1 (h.clean c hc)).1

theorem head_ne_byteOrderMark (h : cur.At p) : cur.rest.head? ≠ some byteOrderMark := by
  intro hhead
  rw [h.rest] at hhead
  have := h.clean _ (List.mem_of_mem_head? hhead)
  simp [isClean] at this

theorem atByteOrderMark (h : cur.At p) : cur.atByteOrderMark = false := by
  have := h.window
  simp [Cursor.atByteOrderMark, this]

theorem ensure (h : cur.At p) (n : Nat) : Yields (cur.ensure n) (·.At p) := by
  rw [Cursor.ensure]
  split
  · exact ⟨cur, rfl, h⟩
  · obtain ⟨k, hk⟩ : ∃ k, loadUpTo n n { cur with window := cur.rest } =
        .ok { cur with window := cur.rest, loaded := k } := by
      apply loadUpTo_of_all
      exact h.isAllowed_of_mem
    refine ⟨_, hk, ?_⟩
    exact { h with window := h.head_ne_byteOrderMark }

theorem skip {c : Char} (h : cur.At ⟨c :: rest, index, line, column⟩) :
    cur.skip.At ⟨rest, index + 1, line, column + 1⟩ where
  rest := by simp [Cursor.skip, h.rest]
  index := by simp [Cursor.skip, h.index]
  line := h.line
  column := by simp [Cursor.skip, h.column]
  left := by simp [Cursor.skip, h.left]
  clean := fun c hc => h.clean c (List.mem_cons_of_mem _ hc)
  window := h.window
  late := h.late

theorem skipMany {t : Text} {n : Nat} (h : cur.At ⟨t ++ rest, index, line, column⟩)
    (hn : t.length = n) : (cur.skipMany n).At ⟨rest, index + n, line, column + n⟩ := by
  induction t generalizing cur index column n with
  | nil =>
    subst hn
    exact h
  | cons c t ih =>
    subst hn
    have := ih h.skip rfl
    rwa [Nat.add_assoc, Nat.add_comm 1, Nat.add_assoc column, Nat.add_comm 1] at this

theorem nextLine {c : Char} (h : cur.At ⟨c :: rest, index, line, column⟩) :
    (cur.nextLine 1).At ⟨rest, index + 1, line + 1, 0⟩ where
  rest := by simp [Cursor.nextLine, h.rest]
  index := by simp [Cursor.nextLine, h.index]
  line := by simp [Cursor.nextLine, h.line]
  column := rfl
  left := by simp [Cursor.nextLine, h.left]
  clean := fun c hc => h.clean c (List.mem_cons_of_mem _ hc)
  window := h.window
  late := h.late

end At

end Cursor

/-! ### Runs of characters -/

/-- A text is a run of characters with a property and what follows it. -/
theorem exists_run (p : Char → Bool) (t : Text) :
    ∃ u v, t = u ++ v ∧ (∀ c ∈ u, p c = true) ∧ v.head?.any p = false := by
  refine ⟨t.takeWhile p, t.dropWhile p, List.takeWhile_append_dropWhile.symm,
    fun c hc => List.all_eq_true.1 List.all_takeWhile c hc, ?_⟩
  cases h : (t.dropWhile p).head? with
  | none => rfl
  | some c => simpa [h] using List.head?_dropWhile_not p t

theorem eq_nil_of_head? {p : Char → Bool} {t : Text} (h : t.head?.any p = false)
    (h' : (t.head?.any fun c => !p c) = false) : t = [] := by
  cases t with
  | nil => rfl
  | cons c t => simp_all

/-! ### Line breaks -/

/-- The line breaks that read as themselves. -/
def isSteadyBreak (c : Char) : Bool := c == '\n' || c == '\u2028' || c == '\u2029'

theorem isSteadyBreak_iff {c : Char} :
    isSteadyBreak c = true ↔ c = '\n' ∨ c = '\u2028' ∨ c = '\u2029' := by
  simp [isSteadyBreak, or_assoc]

theorem isBreak_of_isSteadyBreak {c : Char} (h : isSteadyBreak c = true) : isBreak c = true := by
  rcases isSteadyBreak_iff.1 h with rfl | rfl | rfl <;> rfl

theorem isSpace_of_isSteadyBreak {c : Char} (h : isSteadyBreak c = true) : isSpace c = false := by
  rcases isSteadyBreak_iff.1 h with rfl | rfl | rfl <;> rfl

namespace Cursor.At

variable {cur : Cursor} {rest t : Text} {index line column : Nat}

theorem takeBreak {c : Char} (h : cur.At ⟨c :: rest, index, line, column⟩)
    (hc : isSteadyBreak c = true) :
    Yields cur.takeBreak fun r => r.1 = [c] ∧ r.2.At ⟨rest, index + 1, line + 1, 0⟩ := by
  rw [Cursor.takeBreak]
  refine (h.ensure 2).bind fun cur h => ?_
  have hne : c ≠ '\r' := by
    rintro rfl
    simp [isSteadyBreak] at hc
  rw [h.rest]
  split
  · next heq =>
    cases heq
    exact absurd rfl hne
  · next d _ _ heq =>
    cases heq
    split
    · exact .pure ⟨rfl, h.nextLine⟩
    · next hsep =>
      rw [if_pos (isBreak_of_isSteadyBreak hc)]
      refine .pure ⟨?_, h.nextLine⟩
      simp only [isSteadyBreak, Bool.or_assoc, Bool.or_eq_true] at hc hsep
      rcases hc with hc | hc
      · rw [beq_iff_eq.1 hc]
      · exact absurd hc (by simpa using hsep)
  · next heq => cases heq

/-! ### Skipping runs -/

theorem skipWhile_go {p : Char → Bool} {fuel : Nat} (h : cur.At ⟨t ++ rest, index, line, column⟩)
    (ht : ∀ c ∈ t, p c = true) (hrest : rest.head?.any p = false) (hfuel : t.length < fuel) :
    Yields (Cursor.skipWhile.go p fuel cur)
      (·.At ⟨rest, index + t.length, line, column + t.length⟩) := by
  induction t generalizing cur index column fuel with
  | nil =>
    obtain ⟨fuel, rfl⟩ := Nat.exists_eq_add_one_of_ne_zero (Nat.ne_zero_of_lt hfuel)
    rw [Cursor.skipWhile.go]
    refine (h.ensure 1).bind fun cur h => ?_
    simp only [h.rest, List.nil_append, hrest, Bool.false_eq_true, if_false]
    exact .pure h
  | cons c t ih =>
    obtain ⟨fuel, rfl⟩ := Nat.exists_eq_add_one_of_ne_zero (Nat.ne_zero_of_lt hfuel)
    rw [Cursor.skipWhile.go]
    refine (h.ensure 1).bind fun cur h => ?_
    have hc : p c = true := ht c List.mem_cons_self
    simp only [h.rest, List.cons_append, List.head?_cons, Option.any_some, hc, if_true]
    refine (ih h.skip (fun d hd => ht d (List.mem_cons_of_mem _ hd)) ?_).mono fun cur h => ?_
    · simpa using hfuel
    · rw [List.length_cons]
      rwa [Nat.add_assoc, Nat.add_comm 1, Nat.add_assoc column, Nat.add_comm 1] at h

theorem skipWhile {p : Char → Bool} (h : cur.At ⟨t ++ rest, index, line, column⟩)
    (ht : ∀ c ∈ t, p c = true) (hrest : rest.head?.any p = false) :
    Yields (cur.skipWhile p) (·.At ⟨rest, index + t.length, line, column + t.length⟩) := by
  refine h.skipWhile_go ht hrest ?_
  rw [h.left, List.length_append]
  omega

/-! ### Comments -/

theorem glance {p : Place} (h : cur.At p) (n : Nat) :
    ∃ cur', cur.glance n = (true, cur') ∧ cur'.At p := by
  obtain ⟨cur', hok, h'⟩ := h.ensure n
  exact ⟨cur', by rw [Cursor.glance, hok], h'⟩

theorem commentAhead_none {p : Place} {ahead : Text} (h : cur.At p)
    (hahead : (ahead.dropWhile isSpace).head? ≠ some '#') (fuel n : Nat) :
    ∃ cur', commentAhead false fuel n ahead cur = (none, cur') ∧ cur'.At p := by
  induction fuel generalizing cur n ahead with
  | zero => exact ⟨cur, rfl, h⟩
  | succ fuel ih =>
    obtain ⟨cur', hglance, h'⟩ := h.glance (n + 1)
    cases ahead with
    | nil => exact ⟨cur', by simp only [commentAhead, hglance], h'⟩
    | cons c ahead =>
      cases hc : isSpace c with
      | true =>
        rw [List.dropWhile_cons_of_pos hc] at hahead
        simpa [commentAhead, hglance, hc] using ih h' hahead (n + 1)
      | false =>
        rw [List.dropWhile_cons_of_neg (by simp [hc])] at hahead
        have hne : c ≠ '#' := by simpa using hahead
        exact ⟨cur', by simp [commentAhead, hglance, hc, hne], h'⟩

/-- Where no comment follows on the line, the cursor stays. -/
theorem passLineComment {p : Place} (h : cur.At p)
    (hrest : (p.rest.dropWhile isSpace).head? ≠ some '#') :
    Yields cur.passLineComment (·.At p) := by
  rw [Cursor.passLineComment]
  split
  · exact .pure h
  · rw [← h.rest] at hrest
    obtain ⟨cur', hnone, h'⟩ := h.commentAhead_none hrest commentReach 0
    simp only [hnone]
    exact .pure h'

end Cursor.At

/-! ### Gaps -/

/-- Whether a gap ends before this text. -/
def endsGap (t : Text) : Bool := !t.head?.any fun c => isSpace c || isBreak c

theorem head?_of_endsGap {t : Text} (h : endsGap t = true) :
    t.head?.any isSpace = false ∧ t.head?.any isBreak = false := by
  cases t with
  | nil => exact ⟨rfl, rfl⟩
  | cons c t => simpa [endsGap] using h

namespace Gap

open Cursor (At)

variable {cur : Cursor} {rest spaces breaks : Text} {index line column : Nat}

theorem readFrom_end {g : Gap} {p : Place} {fuel : Nat} (h : cur.At p)
    (hend : endsGap p.rest = true) (start : Nat) (indent : Int) :
    Yields (readFrom start indent (fuel + 1) g cur) fun r => r.1 = g ∧ r.2.At p := by
  rw [readFrom, h.rest]
  cases hrest : p.rest with
  | nil => exact .pure ⟨rfl, h⟩
  | cons c t =>
    simp only [hrest, endsGap, List.head?_cons, Option.any_some, Bool.not_eq_true',
      Bool.or_eq_false_iff] at hend
    simp only [hend.1, hend.2, Bool.false_eq_true, if_false]
    exact .pure ⟨rfl, h⟩

/-- Spaces count as long as no line break stands before them. -/
theorem readFrom_spaces {g : Gap} {fuel : Nat}
    (h : cur.At ⟨spaces ++ rest, index, line, column⟩) (hspaces : ∀ c ∈ spaces, c = ' ')
    (hend : endsGap rest = true) (hfuel : spaces.length < fuel) (start : Nat) (indent : Int) :
    Yields (readFrom start indent fuel g cur) fun r =>
      r.1 = (if g.breaks.isEmpty then { g with spaces := g.spaces ++ spaces } else g) ∧
        r.2.At ⟨rest, index + spaces.length, line, column + spaces.length⟩ := by
  induction spaces generalizing cur index column fuel g with
  | nil =>
    obtain ⟨fuel, rfl⟩ := Nat.exists_eq_add_one_of_ne_zero (Nat.ne_zero_of_lt hfuel)
    simpa using readFrom_end h hend start indent
  | cons c spaces ih =>
    obtain ⟨fuel, rfl⟩ := Nat.exists_eq_add_one_of_ne_zero (Nat.ne_zero_of_lt hfuel)
    obtain rfl : c = ' ' := hspaces c List.mem_cons_self
    rw [readFrom, h.rest]
    have hspace : isSpace ' ' = true := rfl
    have htab : (' ' == '\t') = false := rfl
    simp only [List.cons_append, hspace, if_true, htab, Bool.and_false, Bool.false_eq_true,
      if_false]
    refine (h.skip.ensure 1).bind fun cur h => ?_
    refine (ih h (fun c hc => hspaces c (List.mem_cons_of_mem _ hc)) (by simpa using hfuel)).mono ?_
    rintro ⟨g', cur'⟩ ⟨hg, h'⟩
    refine ⟨?_, ?_⟩
    · rw [hg]
      split <;> simp_all
    · rw [List.length_cons]
      rwa [Nat.add_assoc, Nat.add_comm 1, Nat.add_assoc column, Nat.add_comm 1] at h'

/-- After a line break the spaces are the indentation of the next line and do not count. -/
theorem readFrom_breaks {g : Gap} {fuel : Nat}
    (h : cur.At ⟨breaks ++ (spaces ++ rest), index, line, column⟩)
    (hbreaks : ∀ c ∈ breaks, isSteadyBreak c = true) (hne : breaks ≠ [])
    (hspaces : ∀ c ∈ spaces, c = ' ') (hend : endsGap rest = true)
    (hfuel : breaks.length + spaces.length < fuel) (start : Nat) (indent : Int) :
    Yields (readFrom start indent fuel g cur) fun r =>
      r.1 = { g with breaks := g.breaks ++ breaks } ∧
        ∃ index line, r.2.At ⟨rest, index, line, spaces.length⟩ := by
  induction breaks generalizing cur index line column fuel g with
  | nil => exact absurd rfl hne
  | cons c breaks ih =>
    obtain ⟨fuel, rfl⟩ := Nat.exists_eq_add_one_of_ne_zero (Nat.ne_zero_of_lt hfuel)
    have hc := hbreaks c List.mem_cons_self
    rw [readFrom, h.rest]
    simp only [List.cons_append, isSpace_of_isSteadyBreak hc, Bool.false_eq_true, if_false,
      isBreak_of_isSteadyBreak hc, if_true]
    refine (h.takeBreak hc).bind ?_
    rintro ⟨b, cur⟩ ⟨rfl, h⟩
    refine (h.ensure 1).bind fun cur h => ?_
    simp only [List.length_cons] at hfuel
    cases breaks with
    | nil =>
      have hfuel : spaces.length < fuel := by
        rw [List.length_nil] at hfuel
        omega
      have h : cur.At ⟨spaces ++ rest, index + 1, line + 1, 0⟩ := h
      refine (readFrom_spaces h hspaces hend hfuel start indent).mono ?_
      rintro ⟨g', cur'⟩ ⟨hg, h'⟩
      exact ⟨by simpa using hg, _, _, by simpa using h'⟩
    | cons d breaks =>
      refine (ih h (fun c hc => hbreaks c (List.mem_cons_of_mem _ hc)) (by simp) ?_).mono ?_
      · simp only [List.length_cons] at hfuel ⊢
        omega
      · rintro ⟨g', cur'⟩ ⟨hg, h'⟩
        exact ⟨by simpa using hg, h'⟩

theorem read_spaces (h : cur.At ⟨spaces ++ rest, index, line, column⟩)
    (hspaces : ∀ c ∈ spaces, c = ' ') (hend : endsGap rest = true) (start : Nat) (indent : Int) :
    Yields (read start indent cur) fun r =>
      r.1 = { spaces } ∧ r.2.At ⟨rest, index + spaces.length, line, column + spaces.length⟩ := by
  refine readFrom_spaces h hspaces hend ?_ start indent
  rw [h.left, List.length_append]
  omega

theorem read_breaks (h : cur.At ⟨breaks ++ (spaces ++ rest), index, line, column⟩)
    (hbreaks : ∀ c ∈ breaks, isSteadyBreak c = true) (hne : breaks ≠ [])
    (hspaces : ∀ c ∈ spaces, c = ' ') (hend : endsGap rest = true) (start : Nat) (indent : Int) :
    Yields (read start indent cur) fun r =>
      r.1 = { breaks } ∧ ∃ index line, r.2.At ⟨rest, index, line, spaces.length⟩ := by
  refine readFrom_breaks h hbreaks hne hspaces hend ?_ start indent
  simp only [h.left, List.length_append]
  omega

/-- The gap at the end of a line, where the next line is not indented. -/
theorem read_newline (h : cur.At ⟨'\n' :: rest, index, line, column⟩) (hend : endsGap rest = true)
    (start : Nat) (indent : Int) :
    Yields (read start indent cur) fun r =>
      r.1 = { breaks := ['\n'] } ∧ ∃ index line, r.2.At ⟨rest, index, line, 0⟩ := by
  have h : cur.At ⟨['\n'] ++ ([] ++ rest), index, line, column⟩ := h
  exact read_breaks h (by simp [isSteadyBreak]) (by simp) (by simp) hend start indent

end Gap

end Scriptlet.Yaml
