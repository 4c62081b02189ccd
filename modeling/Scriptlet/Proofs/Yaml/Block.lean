import Scriptlet.Proofs.Yaml.Word
import Scriptlet.Yaml.Block
import Scriptlet.Yaml.Printer

/-! Texts that stand line by line under their key, each line indented by two. They read as what was
written: the breaks between two lines are kept, and what becomes of the breaks after the last line
is told by a mark in front of the first one. -/

namespace Scriptlet.Yaml

open Cursor (At)

variable {cur : Cursor} {rest : Text} {index line column : Nat}

/-! ### The head of a block -/

/-- The mark that asks for a way to end. -/
def Chomp.mark : Chomp → Text
  | strip => ['-']
  | clip => []
  | keep => ['+']

section Head

variable {b : Char}

theorem readChomp_break (hb : isSteadyBreak b = true)
    (h : cur.At ⟨b :: rest, index, line, column⟩) : readChomp cur = none := by
  rw [readChomp, h.rest]
  rcases isSteadyBreak_iff.1 hb with rfl | rfl | rfl <;> rfl

theorem readIncrement_break (hb : isSteadyBreak b = true)
    (h : cur.At ⟨b :: rest, index, line, column⟩) (start : Nat) :
    readIncrement start cur = .ok (0, cur) := by
  rw [readIncrement, h.rest]
  rcases isSteadyBreak_iff.1 hb with rfl | rfl | rfl <;> rfl

theorem readMarks_chomp (c : Chomp) (hb : isSteadyBreak b = true)
    (h : cur.At ⟨c.mark ++ b :: rest, index, line, column⟩) (start : Nat) :
    Yields (readMarks start cur) fun r =>
      r.1 = ⟨c, 0⟩ ∧ ∃ index column, r.2.At ⟨b :: rest, index, line, column⟩ := by
  rw [readMarks]
  refine (h.ensure 1).bind fun cur h => ?_
  cases c with
  | strip | keep =>
    simp only [readChomp, h.rest, Chomp.mark, List.cons_append]
    refine (h.skip.ensure 1).bind fun cur h => ?_
    rw [readIncrement_break hb h, ok_bind]
    exact .pure ⟨rfl, _, _, h⟩
  | clip =>
    simp only [readChomp_break hb h, readIncrement_break hb h, ok_bind]
    exact .pure ⟨rfl, _, _, h⟩

theorem readMarks_increment (c : Chomp) (hb : isSteadyBreak b = true)
    (h : cur.At ⟨'2' :: (c.mark ++ b :: rest), index, line, column⟩) (start : Nat) :
    Yields (readMarks start cur) fun r =>
      r.1 = ⟨c, 2⟩ ∧ ∃ index column, r.2.At ⟨b :: rest, index, line, column⟩ := by
  rw [readMarks]
  refine (h.ensure 1).bind fun cur h => ?_
  have hchomp : readChomp cur = none := by
    rw [readChomp, h.rest]
    rfl
  have hincrement : readIncrement start cur = .ok (2, cur.skip) := by
    rw [readIncrement, h.rest]
    rfl
  simp only [hchomp, hincrement, ok_bind]
  rw [if_neg (by decide)]
  refine (h.skip.ensure 1).bind fun cur h => ?_
  cases c with
  | strip | keep =>
    simp only [readChomp, h.rest, Chomp.mark, List.cons_append]
    exact .pure ⟨rfl, _, _, h.skip⟩
  | clip =>
    simp only [readChomp_break hb h]
    exact .pure ⟨rfl, _, _, h⟩

/-- The head of a block with nothing after its marks; `mark` tells the indentation, if it does. -/
theorem readHead_marks (c : Chomp) {mark : Text} (hmark : mark = ['2'] ∨ mark = [])
    (hb : isSteadyBreak b = true)
    (h : cur.At ⟨mark ++ (c.mark ++ b :: rest), index, line, column⟩) (start : Nat) :
    Yields (readHead start cur) fun r =>
      r.1 = ⟨c, if mark = [] then 0 else 2⟩ ∧ ∃ index, r.2.At ⟨rest, index, line + 1, 0⟩ := by
  have hmarks : Yields (readMarks start cur) fun r =>
      r.1 = ⟨c, if mark = [] then 0 else 2⟩ ∧
        ∃ index column, r.2.At ⟨b :: rest, index, line, column⟩ := by
    rcases hmark with rfl | rfl
    · exact readMarks_increment c hb h start
    · exact readMarks_chomp c hb h start
  have hbreak := isBreak_of_isSteadyBreak hb
  have hspace := isSpace_of_isSteadyBreak hb
  rw [readHead]
  refine hmarks.bind ?_
  rintro ⟨head, cur⟩ ⟨rfl, index, column, h⟩
  have h : cur.At ⟨[] ++ b :: rest, index, line, column⟩ := h
  refine (h.skipWhile (by simp) (by simp [hspace])).bind fun cur h => ?_
  have hcomment : (cur.rest.head? == some '#') = false := by
    rw [h.rest]
    cases heq : b == '#' with
    | false => simpa using heq
    | true =>
      rw [beq_iff_eq.1 heq] at hbreak
      cases hbreak
  have hend : atLineEnd cur.rest = true := by
    rw [h.rest]
    exact hbreak
  have hempty : cur.rest.isEmpty = false := by
    rw [h.rest]
    rfl
  simp only [hcomment, hend, hempty, Bool.not_true, Bool.false_eq_true, if_false, pure_bind]
  refine (h.takeBreak hb).bind ?_
  rintro ⟨b, cur⟩ ⟨-, h⟩
  exact .pure ⟨rfl, _, h⟩

end Head

/-! ### Indentation -/

theorem skipIndent_spaces {indent fuel : Nat} {spaces : Text}
    (h : cur.At ⟨spaces ++ rest, index, line, column⟩) (hspaces : ∀ c ∈ spaces, c = ' ')
    (hfit : indent = 0 ∨ column + spaces.length ≤ indent)
    (hstop : indent ≠ 0 ∧ column + spaces.length = indent ∨ rest.head? ≠ some ' ')
    (hfuel : spaces.length < fuel) :
    Yields (skipIndent indent fuel cur)
      (·.At ⟨rest, index + spaces.length, line, column + spaces.length⟩) := by
  induction spaces generalizing cur index column fuel with
  | nil =>
    obtain ⟨fuel, rfl⟩ := Nat.exists_eq_add_one_of_ne_zero (Nat.ne_zero_of_lt hfuel)
    rw [skipIndent]
    refine (h.ensure 1).bind fun cur h => ?_
    have hno : ((decide (indent = 0) || decide (cur.column < indent)) &&
        cur.rest.head? == some ' ') = false := by
      rw [h.column, h.rest]
      rcases hstop with ⟨hne, hcolumn⟩ | hne
      · have hlt : ¬column < indent := by
          rw [List.length_nil] at hcolumn
          omega
        simp [hne, hlt]
      · have : (rest.head? == some ' ') = false := by simpa using hne
        simp [this]
    simp only [hno, Bool.false_eq_true, if_false]
    exact .pure h
  | cons c spaces ih =>
    obtain ⟨fuel, rfl⟩ := Nat.exists_eq_add_one_of_ne_zero (Nat.ne_zero_of_lt hfuel)
    obtain rfl : c = ' ' := hspaces c List.mem_cons_self
    rw [skipIndent]
    refine (h.ensure 1).bind fun cur h => ?_
    simp only [List.length_cons] at hfit hstop hfuel
    have hyes : ((decide (indent = 0) || decide (cur.column < indent)) &&
        cur.rest.head? == some ' ') = true := by
      rw [h.column, h.rest]
      have : indent = 0 ∨ column < indent := by omega
      simpa using this
    simp only [hyes, if_true]
    refine (ih h.skip (fun d hd => hspaces d (List.mem_cons_of_mem _ hd)) (by omega) ?_
      (by omega)).mono fun cur h => ?_
    · exact hstop.imp_left fun h => ⟨h.1, by omega⟩
    · rw [List.length_cons]
      rwa [Nat.add_assoc, Nat.add_comm 1, Nat.add_assoc column, Nat.add_comm 1] at h

/-- The indentation of a line that is not empty. -/
theorem readBlanks_spaces {start indent fuel : Nat} {b : Blanks} {spaces : Text}
    (h : cur.At ⟨spaces ++ rest, index, line, 0⟩) (hspaces : ∀ c ∈ spaces, c = ' ')
    (hfit : indent = 0 ∨ spaces.length ≤ indent)
    (hstop : indent ≠ 0 ∧ spaces.length = indent ∨ rest.head?.any isSpace = false)
    (hrest : rest.head?.any isBreak = false) :
    Yields (readBlanks start indent (fuel + 1) b cur) fun r =>
      r.1.breaks = b.breaks ∧ r.1.width = max b.width spaces.length ∧
        ∃ index line, r.2.At ⟨rest, index, line, spaces.length⟩ := by
  rw [readBlanks]
  refine (skipIndent_spaces h hspaces (by simpa using hfit) ?_ ?_).bind fun cur h => ?_
  · refine hstop.imp (fun h => ⟨h.1, by omega⟩) fun h heq => ?_
    simp [heq, isSpace] at h
  · rw [h.left, List.length_append]
    omega
  · rw [Nat.zero_add] at h
    have htab : ((decide (indent = 0) || decide (cur.column < indent)) &&
        cur.rest.head? == some '\t') = false := by
      rw [h.column, h.rest]
      rcases hstop with ⟨hne, hcolumn⟩ | hspace
      · simp [hne, hcolumn]
      · have : (rest.head? == some '\t') = false := by
          cases rest with
          | nil => rfl
          | cons c rest =>
            simp only [List.head?_cons, Option.any_some, isSpace, Bool.or_eq_false_iff] at hspace
            simpa using hspace.2
        simp [this]
    have hbreak : cur.rest.head?.any isBreak = false := by rw [h.rest]; exact hrest
    simp only [htab, hbreak, Bool.false_eq_true, if_false]
    exact .pure ⟨rfl, by rw [h.column], _, _, h⟩

/-- One empty line. -/
theorem readBlanks_break {start indent fuel : Nat} {b : Blanks} {c : Char}
    (h : cur.At ⟨c :: rest, index, line, 0⟩) (hc : isSteadyBreak c = true) :
    ∃ cur', cur'.At ⟨rest, index + 1, line + 1, 0⟩ ∧ readBlanks start indent (fuel + 1) b cur =
      readBlanks start indent fuel { b with breaks := b.breaks ++ [c] } cur' := by
  have h : cur.At ⟨[] ++ c :: rest, index, line, 0⟩ := h
  have hne : (c :: rest).head? ≠ some ' ' := by
    rintro heq
    obtain rfl : c = ' ' := Option.some.inj heq
    cases hc
  obtain ⟨cur, hskip, h⟩ : Yields (skipIndent indent (cur.left + 1) cur) _ :=
    skipIndent_spaces h (by simp) (.inr (by simp)) (.inr hne) (Nat.succ_pos cur.left)
  have htab : (cur.rest.head? == some '\t') = false := by
    rw [h.rest]
    simp
    rintro rfl
    cases hc
  have hbreak : cur.rest.head?.any isBreak = true := by
    rw [h.rest]
    exact isBreak_of_isSteadyBreak hc
  have hwidth : max b.width cur.column = b.width := by
    rw [h.column]
    exact Nat.max_zero _
  obtain ⟨⟨x, cur'⟩, htake, rfl, h'⟩ := h.takeBreak hc
  refine ⟨cur', h', ?_⟩
  rw [readBlanks, hskip, ok_bind]
  simp only [htab, hbreak, hwidth, Bool.and_false, Bool.false_eq_true, if_false, if_true, htake]
  rfl

/-- Empty lines, and the indentation of the line after them. -/
theorem readBlanks_breaks {start indent fuel : Nat} {b : Blanks} {breaks spaces : Text}
    (h : cur.At ⟨breaks ++ (spaces ++ rest), index, line, 0⟩)
    (hbreaks : ∀ c ∈ breaks, isSteadyBreak c = true) (hspaces : ∀ c ∈ spaces, c = ' ')
    (hfit : indent = 0 ∨ spaces.length ≤ indent)
    (hstop : indent ≠ 0 ∧ spaces.length = indent ∨ rest.head?.any isSpace = false)
    (hrest : rest.head?.any isBreak = false) (hfuel : breaks.length < fuel) :
    Yields (readBlanks start indent fuel b cur) fun r =>
      r.1.breaks = b.breaks ++ breaks ∧ r.1.width = max b.width spaces.length ∧
        ∃ index line, r.2.At ⟨rest, index, line, spaces.length⟩ := by
  obtain ⟨fuel, rfl⟩ := Nat.exists_eq_add_one_of_ne_zero (Nat.ne_zero_of_lt hfuel)
  induction breaks generalizing cur index line fuel b with
  | nil =>
    rw [List.append_nil]
    exact readBlanks_spaces h hspaces hfit hstop hrest
  | cons c breaks ih =>
    rw [List.length_cons] at hfuel
    obtain ⟨fuel, rfl⟩ : ∃ k, fuel = k + 1 := ⟨fuel - 1, by omega⟩
    obtain ⟨cur', h', heq⟩ := readBlanks_break h (hbreaks c List.mem_cons_self)
    rw [heq]
    refine (ih h' (fun d hd => hbreaks d (List.mem_cons_of_mem _ hd)) _ (by omega)).mono ?_
    rintro r ⟨hr, hafter⟩
    exact ⟨by simpa using hr, hafter⟩

/-! ### Lines -/

section Indented

variable {write : Char → Text}

theorem indented_line {u : Text} (hu : ∀ c ∈ u, isBreak c = false) (t : Text) :
    indented write false (u ++ t) = u.flatMap write ++ indented write false t := by
  induction u with
  | nil => rfl
  | cons c u ih =>
    have hc := hu c List.mem_cons_self
    simp [indented, hc, ih fun d hd => hu d (List.mem_cons_of_mem _ hd)]

theorem indented_breaks {breaks : Text} {fresh : Bool} (hne : breaks ≠ [])
    (hbreaks : ∀ c ∈ breaks, isBreak c = true) (t : Text) :
    indented write fresh (breaks ++ t) = breaks ++ indented write true t := by
  induction breaks generalizing fresh with
  | nil => exact absurd rfl hne
  | cons c breaks ih =>
    have hc := hbreaks c List.mem_cons_self
    rw [List.cons_append, indented, if_pos hc]
    cases breaks with
    | nil => rfl
    | cons d breaks =>
      rw [ih (by simp) fun e he => hbreaks e (List.mem_cons_of_mem _ he)]
      rfl

theorem indented_lead {lead : Text} (hlead : ∀ c ∈ lead, isBreak c = true) (t : Text) :
    indented write true (lead ++ t) = lead ++ indented write true t := by
  by_cases hne : lead = []
  · rw [hne]
    rfl
  · exact indented_breaks hne hlead t

theorem indented_fresh {c : Char} (hc : isBreak c = false) (t : Text) :
    indented write true (c :: t) = ' ' :: ' ' :: indented write false (c :: t) := by
  simp [indented, hc]

/-- Breaks at the end of a text are written as they are. -/
theorem indented_append_breaks {breaks : Text} (hbreaks : ∀ c ∈ breaks, isBreak c = true)
    (fresh : Bool) (t : Text) :
    indented write fresh (t ++ breaks) = indented write fresh t ++ breaks := by
  induction t generalizing fresh with
  | nil =>
    cases breaks with
    | nil => rfl
    | cons c breaks => simpa [indented] using indented_breaks (by simp) hbreaks []
  | cons c t ih =>
    rw [List.cons_append, indented, indented]
    split <;> simp [ih]

theorem length_le_indented (fresh : Bool) (t : Text) :
    t.length ≤ (indented (fun c => [c]) fresh t).length := by
  induction t generalizing fresh with
  | nil => simp
  | cons c t ih =>
    have := ih true
    have := ih false
    rw [indented]
    split <;> simp <;> omega

end Indented

/-- Lines, none of them empty, with line breaks between them. -/
inductive Lines : Text → Prop
  | last {u : Text} (hne : u ≠ []) (hu : ∀ c ∈ u, isBreak c = false) : Lines u
  | more {u breaks t : Text} (hne : u ≠ []) (hu : ∀ c ∈ u, isBreak c = false)
      (hsome : breaks ≠ []) (hbreaks : ∀ c ∈ breaks, isSteadyBreak c = true) (ht : Lines t) :
      Lines (u ++ (breaks ++ t))

theorem Lines.exists_cons {t : Text} (h : Lines t) : ∃ c t', t = c :: t' ∧ isBreak c = false := by
  cases h with
  | @last u hne hu | @more u _ _ hne hu _ _ _ =>
    obtain ⟨c, u', rfl⟩ := List.exists_cons_of_ne_nil hne
    exact ⟨c, _, rfl, hu c List.mem_cons_self⟩

/-- Every text that begins with a line and has steady breaks is made of lines and the breaks after
the last one. -/
theorem exists_lines {t : Text} (hne : t ≠ []) (hhead : t.head?.any isBreak = false)
    (hsteady : ∀ c ∈ t, isBreak c = true → isSteadyBreak c = true) :
    ∃ body breaks, t = body ++ breaks ∧ Lines body ∧ ∀ c ∈ breaks, isSteadyBreak c = true := by
  induction hn : t.length using Nat.strongRecOn generalizing t with
  | ind n ih =>
    obtain ⟨u, r, rfl, hu, hr⟩ := exists_run (fun c => !isBreak c) t
    obtain ⟨breaks, t', rfl, hbreaks, ht'⟩ := exists_run isBreak r
    have hune : u ≠ [] := by
      rintro rfl
      exact hne (eq_nil_of_head? hhead hr)
    have hu : ∀ c ∈ u, isBreak c = false := by simpa using hu
    have hbs : ∀ c ∈ breaks, isSteadyBreak c = true := fun c hc =>
      hsteady c (by simp [hc]) (hbreaks c hc)
    by_cases hnil : t' = []
    · exact ⟨u, breaks, by simp [hnil], .last hune hu, hbs⟩
    · have hsome : breaks ≠ [] := by
        rintro rfl
        exact hnil (eq_nil_of_head? ht' hr)
      have hlt : t'.length < n := by
        have := List.length_pos_iff.2 hune
        rw [← hn]
        simp only [List.length_append]
        omega
      obtain ⟨body, trail, rfl, hbody, htrail⟩ :=
        ih t'.length hlt hnil ht' (fun c hc => hsteady c (by simp [hc])) rfl
      exact ⟨u ++ (breaks ++ body), trail, by simp, .more hune hu hsome hbs hbody, htrail⟩

/-- A line, the breaks after it and the indentation `spaces` of what follows. -/
theorem readBlock_line {start fuel : Nat} {b : BlockText} {u breaks spaces : Text} {c : Char}
    (h : cur.At ⟨u ++ (c :: (breaks ++ (spaces ++ rest))), index, line, 2⟩)
    (hu : ∀ d ∈ u, isBreak d = false) (hc : isSteadyBreak c = true)
    (hbreaks : ∀ d ∈ breaks, isSteadyBreak d = true) (hspaces : ∀ d ∈ spaces, d = ' ')
    (hfit : spaces.length = 2 ∨ spaces = [] ∧ rest.head?.any isSpace = false)
    (hrest : rest.head?.any isBreak = false) :
    ∃ cur', (∃ index line, cur'.At ⟨rest, index, line, spaces.length⟩) ∧
      readBlock start true 2 (fuel + 1) b cur =
        readBlock start true 2 fuel { b.add true u with lineEnd := [c], breaks } cur' := by
  have hbreak := isBreak_of_isSteadyBreak hc
  have hcolumn : cur.column = 2 := h.column
  have hempty : cur.rest.isEmpty = false := by simp [h.rest]
  have hline : cur.rest.takeWhile (fun d => !isBreak d) = u := by
    rw [h.rest, List.takeWhile_append_of_pos (by simpa using hu)]
    simp [hbreak]
  obtain ⟨cur₁, hend, h₁⟩ : Yields cur.toLineEnd _ :=
    h.skipWhile (by simpa using hu) (by simp [hbreak])
  obtain ⟨⟨x, cur₂⟩, htake, hx, h₂⟩ := h₁.takeBreak hc
  obtain ⟨⟨blanks, cur₃⟩, hblanks, hbs, -, h₃⟩ :
      Yields (readBlanks start 2 (cur₂.left + 1) {} cur₂) _ :=
    readBlanks_breaks h₂ hbreaks hspaces (.inr (by rcases hfit with h | h <;> simp [h]))
      (hfit.imp (fun h => ⟨by decide, h⟩) And.right) hrest
      (by rw [h₂.left, List.length_append]; omega)
  refine ⟨cur₃, h₃, ?_⟩
  obtain rfl : x = [c] := hx
  have hbs : blanks.breaks = breaks := by simpa using hbs
  rw [readBlock]
  simp only [hcolumn, hempty, decide_true, Bool.not_false, Bool.and_self, if_true, hline, hend,
    ok_bind, htake, hblanks, hbs]

theorem readBlock_end {start fuel : Nat} {b : BlockText} {p : Place} (h : cur.At p)
    (hcolumn : p.column ≠ 2) : readBlock start true 2 fuel b cur = .ok (b, cur) := by
  cases fuel with
  | zero => rfl
  | succ fuel =>
    have : cur.column ≠ 2 := by rwa [h.column]
    simp [readBlock, this]
    rfl

theorem readBlock_lines {start fuel : Nat} {b : BlockText} {t breaks : Text} {c : Char}
    (ht : Lines t)
    (h : cur.At ⟨indented (fun d => [d]) false t ++ (c :: (breaks ++ rest)), index, line, 2⟩)
    (hc : isSteadyBreak c = true) (hbreaks : ∀ d ∈ breaks, isSteadyBreak d = true)
    (hrest : endsGap rest = true) (hfuel : t.length < fuel) :
    Yields (readBlock start true 2 fuel b cur) fun r =>
      r.1.read.reverse = b.read.reverse ++ b.lineEnd ++ b.breaks ++ t ∧ r.1.lineEnd = [c] ∧
        r.1.breaks = breaks ∧ ∃ index line, r.2.At ⟨rest, index, line, 0⟩ := by
  induction ht generalizing cur index line fuel b with
  | @last u hne hu =>
    obtain ⟨fuel, rfl⟩ := Nat.exists_eq_add_one_of_ne_zero (Nat.ne_zero_of_lt hfuel)
    have hlast : indented (fun d => [d]) false u = u := by
      have : indented (fun d => [d]) false (u ++ []) = _ := indented_line hu []
      simpa [indented] using this
    have h : cur.At ⟨u ++ (c :: (breaks ++ ([] ++ rest))), index, line, 2⟩ := by rwa [hlast] at h
    obtain ⟨hspace, hbreak⟩ := head?_of_endsGap hrest
    obtain ⟨cur', ⟨index, line, h'⟩, heq⟩ :=
      readBlock_line h hu hc hbreaks (by simp) (.inr ⟨rfl, hspace⟩) hbreak
    rw [heq, readBlock_end h' (by simp)]
    exact ⟨_, rfl, by simp [BlockText.add], rfl, rfl, index, line, h'⟩
  | @more u bs t hne hu hsome hbs ht ih =>
    obtain ⟨fuel, rfl⟩ := Nat.exists_eq_add_one_of_ne_zero (Nat.ne_zero_of_lt hfuel)
    obtain ⟨d, bs', rfl⟩ := List.exists_cons_of_ne_nil hsome
    obtain ⟨e, t', rfl, he⟩ := ht.exists_cons
    have h : cur.At ⟨u ++ (d :: (bs' ++ ([' ', ' '] ++ (indented (fun d => [d]) false (e :: t') ++
        (c :: (breaks ++ rest)))))), index, line, 2⟩ := by
      rw [indented_line hu, indented_breaks hsome (fun c hc => isBreak_of_isSteadyBreak (hbs c hc)),
        indented_fresh he] at h
      simpa using h
    obtain ⟨cur', ⟨index, line, h'⟩, heq⟩ :=
      readBlock_line h hu (hbs d List.mem_cons_self) (fun c hc => hbs c (List.mem_cons_of_mem _ hc))
        (by simp) (.inl rfl) (by simp [indented, he])
    rw [heq]
    simp only [List.length_append, List.length_cons] at hfuel
    refine (ih h' (by simp only [List.length_cons]; omega)).mono ?_
    rintro ⟨b', cur''⟩ ⟨hread, hrest⟩
    exact ⟨by simpa [BlockText.add] using hread, hrest⟩

/-! ### Blocks -/

/-- The indentation of a block is told by a mark, or by the first line if that is not empty and does
not begin with a space. -/
theorem readIndent_block {start : Nat} {given : Nat} {lead t : Text}
    (h : cur.At ⟨lead ++ ' ' :: ' ' :: t, index, line, 0⟩)
    (hlead : ∀ c ∈ lead, isSteadyBreak c = true)
    (hgiven : given = 2 ∨ given = 0 ∧ t.head?.any isSpace = false)
    (ht : t.head?.any isBreak = false) :
    Yields (readBlanks start given (cur.left + 1) {} cur) fun r =>
      r.1.breaks = lead ∧
        (if given = 0 then max (max r.1.width ((0 : Int) + 1).toNat) 1 else given) = 2 ∧
        ∃ index line, r.2.At ⟨t, index, line, 2⟩ := by
  have h : cur.At ⟨lead ++ ([' ', ' '] ++ t), index, line, 0⟩ := h
  refine (readBlanks_breaks h hlead (by simp) ?_ ?_ ht ?_).mono ?_
  · rcases hgiven with rfl | ⟨rfl, -⟩ <;> simp
  · exact hgiven.imp (fun h => by simp [h]) And.right
  · rw [h.left, List.length_append]
    omega
  · rintro ⟨blanks, cur⟩ ⟨hbreaks, hwidth, h⟩
    refine ⟨hbreaks, ?_, h⟩
    rcases hgiven with rfl | ⟨rfl, -⟩
    · rfl
    · rw [hwidth]
      rfl

/-- What the head of a block says about its indentation. -/
theorem given_of_mark {mark : Text} (hmark : mark = ['2'] ∨ mark = []) :
    (if (if mark = [] then 0 else 2) = 0 then 0
      else (max (0 : Int) 0).toNat + if mark = [] then 0 else 2) = if mark = [] then 0 else 2 := by
  rcases hmark with rfl | rfl <;> rfl

/-- Lines under a bar in a block that is not indented itself, with the breaks `lead` before them. -/
theorem block_lines {lead body breaks mark : Text} {b c : Char} {chomp : Chomp}
    (hbody : Lines body) (hmark : mark = ['2'] ∨ mark = [] ∧ body.head?.any isSpace = false)
    (h : cur.At ⟨'|' :: (mark ++ (chomp.mark ++ b :: (lead ++
      (indented (fun d => [d]) true body ++ (c :: (breaks ++ rest)))))), index, line, column⟩)
    (hb : isSteadyBreak b = true) (hlead : ∀ d ∈ lead, isSteadyBreak d = true)
    (hc : isSteadyBreak c = true) (hbreaks : ∀ d ∈ breaks, isSteadyBreak d = true)
    (hrest : endsGap rest = true) :
    Yields (block true 0 cur) fun r =>
      r.1 = BlockText.finish { read := (lead ++ body).reverse, lineEnd := [c], breaks } chomp ∧
        ∃ index line, r.2.At ⟨rest, index, line, 0⟩ := by
  obtain ⟨d, body', rfl, hd⟩ := hbody.exists_cons
  have hmark' : mark = ['2'] ∨ mark = [] := hmark.imp_right And.left
  rw [indented_fresh hd] at h
  rw [block]
  refine (readHead_marks chomp hmark' hb h.skip _).bind ?_
  rintro ⟨head, cur₁⟩ ⟨rfl, index, h⟩
  have h : cur₁.At ⟨lead ++ ' ' :: ' ' :: (indented (fun d => [d]) false (d :: body') ++
    c :: (breaks ++ rest)), index, line + 1, 0⟩ := h
  simp only [given_of_mark hmark']
  refine (readIndent_block h hlead ?_ (by simp [indented, hd])).bind ?_
  · refine hmark.imp (fun h => by simp [h]) fun h => ⟨by simp [h.1], ?_⟩
    simpa [indented, hd] using h.2
  · rintro ⟨blanks, cur₂⟩ ⟨hblanks, hindent, index, line, h₂⟩
    simp only [hindent]
    refine (h₂.ensure 1).bind fun cur₃ h => ?_
    refine (readBlock_lines hbody h hc hbreaks hrest ?_).bind ?_
    · have := length_le_indented false (d :: body')
      rw [h₂.left, List.length_append]
      omega
    · rintro ⟨b, cur₄⟩ ⟨hread, hend, hbs, h⟩
      dsimp only at hblanks hread hend hbs
      rw [hblanks] at hread
      have hread : b.read.reverse = lead ++ d :: body' := hread
      refine .pure ⟨?_, h⟩
      cases chomp <;> simp [BlockText.finish, hread, hend, hbs]

/-- Breaks under a bar that keeps them. -/
theorem block_breaks {lead : Text} {b : Char}
    (h : cur.At ⟨'|' :: '2' :: '+' :: b :: (lead ++ rest), index, line, column⟩)
    (hb : isSteadyBreak b = true) (hlead : ∀ d ∈ lead, isSteadyBreak d = true)
    (hrest : endsGap rest = true) :
    Yields (block true 0 cur) fun r =>
      r.1 = lead ∧ ∃ index line, r.2.At ⟨rest, index, line, 0⟩ := by
  obtain ⟨hspace, hbreak⟩ := head?_of_endsGap hrest
  have h : cur.At ⟨'|' :: (['2'] ++ (Chomp.keep.mark ++ b :: (lead ++ ([] ++ rest)))), index, line,
    column⟩ := h
  rw [block]
  refine (readHead_marks .keep (.inl rfl) hb h.skip _).bind ?_
  rintro ⟨head, cur₁⟩ ⟨rfl, index, h⟩
  refine (readBlanks_breaks h hlead (by simp) (.inr (by simp)) (.inr hspace) hbreak ?_).bind ?_
  · rw [h.left, List.length_append]
    omega
  · rintro ⟨blanks, cur₂⟩ ⟨hblanks, -, index, line, h₂⟩
    refine (h₂.ensure 1).bind fun cur₃ h => ?_
    show Yields (readBlock cur.line true 2 _ _ cur₃ >>= fun r => _) _
    rw [readBlock_end h (by simp), ok_bind]
    exact .pure ⟨hblanks, _, _, h⟩

/-- The indentation of a block cannot be told by a line that begins with a tab. -/
theorem block_tab {chomp : Chomp}
    (h : cur.At ⟨'|' :: (chomp.mark ++ '\n' :: ' ' :: ' ' :: '\t' :: rest), index, line,
      column⟩) : Fails (block true 0 cur) := by
  have h : cur.At ⟨'|' :: ([] ++ (chomp.mark ++ '\n' :: ([' ', ' '] ++ '\t' :: rest))), index, line,
    column⟩ := h
  rw [block]
  refine (readHead_marks chomp (.inr rfl) rfl h.skip _).bind_fails ?_
  rintro ⟨head, cur₁⟩ ⟨rfl, index, h⟩
  refine Fails.bind ?_
  show Fails (readBlanks cur.line 0 (cur₁.left + 1) {} cur₁)
  rw [readBlanks]
  refine (skipIndent_spaces h (by simp) (.inl rfl) (.inr (by simp)) ?_).bind_fails fun cur₂ h => ?_
  · rw [h.left, List.length_append]
    omega
  · have htab : cur₂.rest.head? = some '\t' := by
      rw [h.rest]
      rfl
    simp only [htab]
    exact ⟨_, rfl⟩

end Scriptlet.Yaml
