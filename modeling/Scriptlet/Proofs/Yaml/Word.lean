import Scriptlet.Proofs.Yaml.Cursor
import Scriptlet.Yaml.Word

/-! Scalars that stand on the line of their key and read as what was written. A plain scalar is made
of words, a quoted one of runs of characters; what lies between two words, or between two runs, is
folded to itself. -/

namespace Scriptlet.Yaml

open Cursor (At)

variable {cur : Cursor} {rest : Text} {index line column : Nat}

/-! ### Plain scalars -/

/-- A word that no plain scalar ends in, neither in front of it nor inside. -/
structure IsWord (u : Text) : Prop where
  ne_nil : u ≠ []
  solid : ∀ c ∈ u, isSpace c = false ∧ isBreak c = false
  head : u.head? ≠ some '#'
  last : u.getLast? ≠ some ':'

/-- Words with spaces between them. -/
inductive Words : Text → Prop
  | last {u : Text} (hu : IsWord u) : Words u
  | more {u spaces t : Text} (hu : IsWord u) (hne : spaces ≠ []) (hspaces : ∀ c ∈ spaces, c = ' ')
      (ht : Words t) : Words (u ++ (spaces ++ t))

theorem Words.head? {t : Text} (h : Words t) :
    ∃ c t', t = c :: t' ∧ isSpace c = false ∧ isBreak c = false ∧ c ≠ '#' := by
  have key {u : Text} (hu : IsWord u) (v : Text) :
      ∃ c t', u ++ v = c :: t' ∧ isSpace c = false ∧ isBreak c = false ∧ c ≠ '#' := by
    obtain ⟨c, u', rfl⟩ := List.exists_cons_of_ne_nil hu.ne_nil
    obtain ⟨hspace, hbreak⟩ := hu.solid c List.mem_cons_self
    exact ⟨c, u' ++ v, rfl, hspace, hbreak, fun h => hu.head (by rw [h]; rfl)⟩
  cases h with
  | last hu => simpa using key hu []
  | more hu _ _ _ => exact key hu _

theorem plainRun_word {u : Text} {fuel : Nat} {read : Text}
    (h : cur.At ⟨u ++ rest, index, line, column⟩)
    (hsolid : ∀ c ∈ u, isSpace c = false ∧ isBreak c = false) (hlast : u.getLast? ≠ some ':')
    (hrest : endsPlain false rest = true) (hfuel : u.length < fuel) :
    Yields (plainRun false fuel read cur) fun r =>
      r.1 = u.reverse ++ read ∧ r.2.At ⟨rest, index + u.length, line, column + u.length⟩ := by
  induction u generalizing cur index column fuel read with
  | nil =>
    obtain ⟨fuel, rfl⟩ := Nat.exists_eq_add_one_of_ne_zero (Nat.ne_zero_of_lt hfuel)
    have hrest' : cur.rest = rest := h.rest
    rw [plainRun, hrest']
    cases rest with
    | nil => exact .pure ⟨rfl, h⟩
    | cons c rest =>
      simp only [hrest, if_true]
      exact .pure ⟨rfl, h⟩
  | cons c u ih =>
    obtain ⟨fuel, rfl⟩ := Nat.exists_eq_add_one_of_ne_zero (Nat.ne_zero_of_lt hfuel)
    obtain ⟨hspace, hbreak⟩ := hsolid c List.mem_cons_self
    have hcolon : (c == ':' && atWordEnd (u ++ rest)) = false := by
      cases u with
      | nil =>
        have hne : c ≠ ':' := by simpa using hlast
        simp [hne]
      | cons d u =>
        obtain ⟨hspace, hbreak⟩ := hsolid d (by simp)
        simp [atWordEnd, hspace, hbreak]
    rw [plainRun, h.rest]
    simp only [List.cons_append, endsPlain, hspace, hbreak, hcolon, Bool.or_false, Bool.false_and,
      Bool.false_eq_true, if_false]
    refine (h.skip.ensure 2).bind fun cur h => ?_
    have hlast' : u.getLast? ≠ some ':' := by
      intro heq
      apply hlast
      rw [List.getLast?_cons, heq]
      rfl
    refine (ih h (fun d hd => hsolid d (List.mem_cons_of_mem _ hd)) hlast'
      (by simpa using hfuel)).mono ?_
    rintro ⟨run, cur'⟩ ⟨hrun, h'⟩
    refine ⟨by simpa using hrun, ?_⟩
    rw [List.length_cons]
    rwa [Nat.add_assoc, Nat.add_comm 1, Nat.add_assoc column, Nat.add_comm 1] at h'

/-- No mark of a document begins here. -/
def Place.IsInside (p : Place) : Prop :=
  p.column ≠ 0 ∨ (p.rest.head? ≠ some '-' ∧ p.rest.head? ≠ some '.')

theorem Cursor.At.atMarker {p : Place} {c : Char} (h : cur.At p)
    (hp : p.column ≠ 0 ∨ p.rest.head? ≠ some c) : cur.atMarker c = false := by
  rw [Cursor.atMarker, h.column, h.rest]
  rcases hp with hp | hp
  · simp [hp]
  · split
    · next a _ _ _ heq =>
      have hne : a ≠ c := by simpa [heq] using hp
      simp [hne]
    · simp

theorem Cursor.At.atDocumentMarker {p : Place} (h : cur.At p) (hp : p.IsInside) :
    cur.atDocumentMarker = false := by
  rw [Cursor.atDocumentMarker, h.atMarker (hp.imp_right And.left),
    h.atMarker (hp.imp_right And.right)]
  rfl

/-- How a plain scalar goes on after a word. -/
def plainAfter (start : Nat) (indent : Int) (fuel : Nat) (read : Text) (cur : Cursor) :
    Except Fault Plain := do
  if !cur.rest.head?.any (fun c => isSpace c || isBreak c) then return ⟨read.reverse, cur, false⟩
  let (gap, cur) ← Gap.read start indent (← cur.ensure 1)
  if (cur.column : Int) < indent then return ⟨read.reverse, cur, !gap.breaks.isEmpty⟩
  plainFrom start false indent fuel read gap cur

theorem plainFrom_word {u read : Text} {gap : Gap} {start fuel : Nat} {indent : Int} (hu : IsWord u)
    (h : cur.At ⟨u ++ rest, index, line, column⟩)
    (hinside : Place.IsInside ⟨u ++ rest, index, line, column⟩)
    (hrest : endsPlain false rest = true) :
    ∃ cur', cur'.At ⟨rest, index + u.length, line, column + u.length⟩ ∧
      plainFrom start false indent (fuel + 1) read gap cur =
        plainAfter start indent fuel (u.reverse ++ gap.folded.reverse ++ read) cur' := by
  obtain ⟨c, u', rfl⟩ := List.exists_cons_of_ne_nil hu.ne_nil
  have hne : c ≠ '#' := by simpa using hu.head
  obtain ⟨cur₁, hensure, h₁⟩ := h.ensure 4
  obtain ⟨⟨run, cur₂⟩, hplain, hrun, h₂⟩ : Yields (plainRun false (cur₁.left + 1) [] cur₁) _ :=
    plainRun_word h₁ hu.solid hu.last hrest (by rw [h₁.left, List.length_append]; omega)
  refine ⟨cur₂, h₂, ?_⟩
  have hhead : (cur₁.rest.head? == some '#') = false := by simpa [h₁.rest] using hne
  have hrun : run = (c :: u').reverse := by simpa using hrun
  have hempty : run.isEmpty = false := by simp [hrun]
  rw [plainFrom, hensure]
  simp only [ok_bind, h₁.atDocumentMarker hinside, hhead, hplain, hempty, Bool.or_false,
    Bool.false_eq_true, if_false, Bool.not_false, Bool.true_and, decide_eq_true_eq]
  rw [plainAfter, hrun]

/-- Words to the end of their line are read as they are; `gap` holds the spaces before them. -/
theorem plainFrom_words {t : Text} {fuel start : Nat} {read spaces : Text} (ht : Words t)
    (h : cur.At ⟨t ++ '\n' :: rest, index, line, column⟩) (hcolumn : 0 < column)
    (hrest : endsGap rest = true) (hfuel : t.length < fuel) :
    Yields (plainFrom start false 1 fuel read { spaces } cur) fun p =>
      p.text = read.reverse ++ spaces ++ t ∧ p.newline = true ∧
        ∃ index line, p.cursor.At ⟨rest, index, line, 0⟩ := by
  induction ht generalizing cur index column fuel read spaces with
  | @last u hu =>
    obtain ⟨fuel, rfl⟩ := Nat.exists_eq_add_one_of_ne_zero (Nat.ne_zero_of_lt hfuel)
    obtain ⟨cur, h, heq⟩ := plainFrom_word hu h (.inl (Nat.ne_of_gt hcolumn)) rfl
    rw [heq, plainAfter, h.rest]
    refine (h.ensure 1).bind fun cur h => ?_
    refine (Gap.read_newline h hrest start 1).bind ?_
    rintro ⟨gap, cur⟩ ⟨rfl, index, line, h⟩
    dsimp only at h ⊢
    rw [if_pos (by simp [h.column])]
    exact .pure ⟨by simp [Gap.folded], rfl, index, line, h⟩
  | @more u sp t hu hne hsp ht ih =>
    obtain ⟨fuel, rfl⟩ := Nat.exists_eq_add_one_of_ne_zero (Nat.ne_zero_of_lt hfuel)
    obtain ⟨d, sp', rfl⟩ := List.exists_cons_of_ne_nil hne
    obtain rfl : d = ' ' := hsp d List.mem_cons_self
    rw [List.append_assoc, List.append_assoc] at h
    obtain ⟨cur, h, heq⟩ := plainFrom_word hu h (.inl (Nat.ne_of_gt hcolumn)) rfl
    rw [heq, plainAfter, h.rest]
    refine (h.ensure 1).bind fun cur h => ?_
    refine (Gap.read_spaces h hsp ?_ start 1).bind ?_
    · obtain ⟨c, t', rfl, hspace, hbreak, -⟩ := ht.head?
      simp [endsGap, hspace, hbreak]
    · rintro ⟨gap, cur⟩ ⟨rfl, h⟩
      dsimp only at h ⊢
      have hlt : ¬(cur.column : Int) < 1 := by
        have := h.column
        simp only at this
        omega
      rw [if_neg hlt]
      simp only [List.length_append, List.length_cons] at hfuel
      refine (ih h (by omega) (by omega)).mono ?_
      rintro p ⟨htext, hrest⟩
      exact ⟨by simpa [Gap.folded] using htext, hrest⟩

theorem plain_words {t : Text} (ht : Words t)
    (h : cur.At ⟨t ++ '\n' :: rest, index, line, column⟩) (hcolumn : 0 < column)
    (hrest : endsGap rest = true) :
    Yields (plain false 1 cur) fun p =>
      p.text = t ∧ p.newline = true ∧ ∃ index line, p.cursor.At ⟨rest, index, line, 0⟩ := by
  refine plainFrom_words ht h hcolumn hrest ?_
  rw [h.left, List.length_append]
  omega

/-- A word in front of a colon that is the mark of a value. -/
theorem plain_key {u : Text} {indent : Int} (hu : IsWord u)
    (h : cur.At ⟨u ++ ':' :: ' ' :: rest, index, line, column⟩)
    (hinside : Place.IsInside ⟨u ++ ':' :: ' ' :: rest, index, line, column⟩) :
    Yields (plain false indent cur) fun p =>
      p.text = u ∧ p.newline = false ∧
        p.cursor.At ⟨':' :: ' ' :: rest, index + u.length, line, column + u.length⟩ := by
  obtain ⟨cur, h, heq⟩ := plainFrom_word hu h hinside rfl
  rw [plain, heq, plainAfter, h.rest]
  exact .pure ⟨by simp [Gap.folded], rfl, h⟩

/-! ### Quoted scalars -/

/-- A character is written between quotes so that the reader adds just this character. -/
structure Writes (quote : Char) (c : Char) (w : Text) : Prop where
  ne_nil : w ≠ []
  solid : endsGap w = true
  step {cur : Cursor} {rest : Text} {index line column : Nat}
    (h : cur.At ⟨w ++ rest, index, line, column⟩) (start fuel : Nat) (read : Text) :
    ∃ cur', cur'.At ⟨rest, index + w.length, line, column + w.length⟩ ∧
      quotedRun start quote (fuel + 1) read cur = quotedRun start quote fuel (c :: read) cur'

theorem writes_self {quote c : Char} (hgap : (isSpace c || isBreak c) = false) (hquote : c ≠ quote)
    (hescape : c ≠ '\\' ∨ quote ≠ '"') : Writes quote c [c] := by
  refine ⟨by simp, by simpa [endsGap] using hgap, ?_⟩
  intro cur rest index line column h start fuel read
  obtain ⟨cur', hensure, h'⟩ := h.skip.ensure 2
  refine ⟨cur', h', ?_⟩
  have hne : (c == '\\' && quote == '"') = false := by
    rcases hescape with h | h <;> simp [h]
  have hq : (c == quote) = false := by simpa using hquote
  rw [quotedRun, h.rest]
  simp only [List.cons_append, hgap, hq, hne, Bool.false_eq_true, if_false, hensure, ok_bind]

theorem writes_quote : Writes '\'' '\'' ['\'', '\''] := by
  refine ⟨by simp, rfl, fun {cur rest index line column} h start fuel read => ?_⟩
  obtain ⟨cur', hensure, h'⟩ := (h.skipMany rfl).ensure 2
  refine ⟨cur', h', ?_⟩
  rw [quotedRun, h.rest]
  have hgap : (isSpace '\'' || isBreak '\'') = false := rfl
  simp only [List.cons_append, hgap, Bool.false_eq_true, if_false, beq_self_eq_true, if_true,
    List.head?_cons, Bool.and_self]
  rw [show List.length ['\'', '\''] = 2 from rfl] at hensure
  rw [hensure, ok_bind]

theorem Writes.endsGap_append {quote c : Char} {w : Text} (h : Writes quote c w) (rest : Text) :
    endsGap (w ++ rest) = true := by
  obtain ⟨d, w', rfl⟩ := List.exists_cons_of_ne_nil h.ne_nil
  exact h.solid

/-- The run of a quoted scalar up to a gap or the end quote. -/
theorem quotedRun_run {quote : Char} {write : Char → Text} {run read : Text} {start fuel : Nat}
    (h : cur.At ⟨run.flatMap write ++ rest, index, line, column⟩)
    (hrun : ∀ c ∈ run, Writes quote c (write c)) (hfuel : (run.flatMap write).length < fuel)
    (hrest : endsGap rest = false ∨
      rest.head? = some quote ∧ (quote = '\'' → rest.tail.head? ≠ some '\'')) :
    Yields (quotedRun start quote fuel read cur) fun r =>
      r.1 = run.reverse ++ read ∧ r.2.1 = false ∧
        ∃ index, ∃ column' ≥ column, r.2.2.At ⟨rest, index, line, column'⟩ := by
  induction run generalizing cur index column fuel read with
  | nil =>
    obtain ⟨fuel, rfl⟩ := Nat.exists_eq_add_one_of_ne_zero (Nat.ne_zero_of_lt hfuel)
    have hrest' : cur.rest = rest := h.rest
    rw [quotedRun, hrest']
    cases rest with
    | nil => exact .pure ⟨rfl, rfl, index, column, Nat.le_refl _, h⟩
    | cons c rest =>
      cases hgap : isSpace c || isBreak c with
      | true =>
        simp only [hgap, if_true]
        exact .pure ⟨rfl, rfl, index, column, Nat.le_refl _, h⟩
      | false =>
        obtain ⟨rfl, htail⟩ : c = quote ∧ (quote = '\'' → rest.head? ≠ some '\'') := by
          simpa [endsGap, hgap] using hrest
        have hdouble : (c == '\'' && rest.head? == some '\'') = false := by
          simpa using htail
        simp only [hgap, hdouble, Bool.false_eq_true, if_false, beq_self_eq_true, if_true]
        exact .pure ⟨rfl, rfl, index, column, Nat.le_refl _, h⟩
  | cons c run ih =>
    obtain ⟨fuel, rfl⟩ := Nat.exists_eq_add_one_of_ne_zero (Nat.ne_zero_of_lt hfuel)
    have hc := hrun c List.mem_cons_self
    rw [List.flatMap_cons, List.append_assoc] at h
    obtain ⟨cur', h', heq⟩ := hc.step h start fuel read
    have hpos := List.length_pos_iff.2 hc.ne_nil
    simp only [List.flatMap_cons, List.length_append] at hfuel
    rw [heq]
    refine (ih h' (fun d hd => hrun d (List.mem_cons_of_mem _ hd)) (by omega)).mono ?_
    rintro ⟨r, b, cur''⟩ ⟨hr, hb, index, column', hle, h''⟩
    exact ⟨by simpa using hr, hb, index, column', by omega, h''⟩

/-- What stands between quotes, and the text that it means: runs of characters, with spaces or with
line breaks between them. A line after a break is indented. -/
inductive QuotedBody (quote : Char) (write : Char → Text) : (body text : Text) → Prop
  | last {run : Text} (hrun : ∀ c ∈ run, Writes quote c (write c)) :
      QuotedBody quote write (run.flatMap write) run
  | spaces {run spaces body text : Text} (hrun : ∀ c ∈ run, Writes quote c (write c))
      (hne : spaces ≠ []) (hspaces : ∀ c ∈ spaces, c = ' ')
      (hend : endsGap (body ++ [quote]) = true) (hbody : QuotedBody quote write body text) :
      QuotedBody quote write (run.flatMap write ++ (spaces ++ body)) (run ++ (spaces ++ text))
  | breaks {run breaks indent body text : Text} (hrun : ∀ c ∈ run, Writes quote c (write c))
      (hne : breaks ≠ []) (hbreaks : ∀ c ∈ breaks, isSteadyBreak c = true ∧ c ≠ '\n')
      (hindent : ∀ c ∈ indent, c = ' ') (hend : endsGap (body ++ [quote]) = true)
      (hinside : indent ≠ [] ∨ body = []) (hbody : QuotedBody quote write body text) :
      QuotedBody quote write (run.flatMap write ++ (breaks ++ (indent ++ body)))
        (run ++ (breaks ++ text))

theorem length_le_flatMap_of_writes {quote : Char} {write : Char → Text} {run : Text}
    (hrun : ∀ c ∈ run, Writes quote c (write c)) : run.length ≤ (run.flatMap write).length := by
  induction run with
  | nil => simp
  | cons c run ih =>
    have hpos := List.length_pos_iff.2 (hrun c List.mem_cons_self).ne_nil
    have := ih fun d hd => hrun d (List.mem_cons_of_mem _ hd)
    simp only [List.length_cons, List.flatMap_cons, List.length_append]
    omega

theorem QuotedBody.length_le {quote : Char} {write : Char → Text} {body text : Text}
    (h : QuotedBody quote write body text) : text.length ≤ body.length := by
  induction h with
  | last hrun => exact length_le_flatMap_of_writes hrun
  | spaces hrun _ _ _ _ ih | breaks hrun _ _ _ _ _ _ ih =>
    have := length_le_flatMap_of_writes hrun
    simp only [List.length_append]
    omega

theorem endsGap_append {t : Text} {c : Char} (h : endsGap (t ++ [c]) = true) (rest : Text) :
    endsGap (t ++ c :: rest) = true := by
  cases t with
  | nil => exact h
  | cons d t => exact h

theorem Gap.folded_of_head {c : Char} {breaks : Text} (h : c ≠ '\n') :
    Gap.folded { breaks := c :: breaks } = c :: breaks := by
  simp only [Gap.folded]
  split <;> simp_all

/-- How a quoted scalar goes on after a run. -/
def quotedAfter (start : Nat) (quote : Char) (fuel : Nat) (read : Text) (cur : Cursor) :
    Except Fault (Text × Cursor) := do
  let cur ← cur.ensure 1
  if cur.rest.head? == some quote then return (read.reverse, cur.skip)
  let (gap, cur) ← Gap.read start 0 cur
  quotedFrom start quote fuel (gap.folded.reverse ++ read) cur

theorem quotedFrom_run {quote : Char} {write : Char → Text} {run read : Text} {start fuel : Nat}
    (h : cur.At ⟨run.flatMap write ++ rest, index, line, column⟩)
    (hinside : Place.IsInside ⟨run.flatMap write ++ rest, index, line, column⟩)
    (hrun : ∀ c ∈ run, Writes quote c (write c)) (hne : rest ≠ [])
    (hrest : endsGap rest = false ∨
      rest.head? = some quote ∧ (quote = '\'' → rest.tail.head? ≠ some '\'')) :
    ∃ cur', (∃ index, ∃ column' ≥ column, cur'.At ⟨rest, index, line, column'⟩) ∧
      quotedFrom start quote (fuel + 1) read cur =
        quotedAfter start quote fuel (run.reverse ++ read) cur' := by
  obtain ⟨cur₁, hensure, h₁⟩ := h.ensure 4
  have hempty : cur₁.rest.isEmpty = false := by simp [h₁.rest, hne]
  have hfuel : (run.flatMap write).length < cur₁.left + 1 := by
    rw [h₁.left, List.length_append]
    omega
  obtain ⟨⟨read', escaped, cur₂⟩, hquoted, hread, hescaped, h₂⟩ :
      Yields (quotedRun start quote (cur₁.left + 1) read cur₁) _ :=
    quotedRun_run h₁ hrun hfuel hrest
  obtain rfl : read' = run.reverse ++ read := hread
  obtain rfl : escaped = false := hescaped
  refine ⟨cur₂, h₂, ?_⟩
  rw [quotedFrom, hensure]
  simp only [ok_bind, h₁.atDocumentMarker hinside, hempty, hquoted, Bool.false_eq_true, if_false,
    quotedAfter]

/-- A gap does not begin with the quote, so the scalar goes on after it. -/
theorem quotedAfter_gap {quote : Char} {read : Text} {start fuel : Nat} {Q : Gap × Cursor → Prop}
    {R : Text × Cursor → Prop} (hquote : quote = '\'' ∨ quote = '"')
    (h : cur.At ⟨rest, index, line, column⟩) (hrest : endsGap rest = false)
    (hgap : ∀ cur : Cursor, cur.At ⟨rest, index, line, column⟩ → Yields (Gap.read start 0 cur) Q)
    (hnext : ∀ r, Q r → Yields (quotedFrom start quote fuel (r.1.folded.reverse ++ read) r.2) R) :
    Yields (quotedAfter start quote fuel read cur) R := by
  rw [quotedAfter]
  refine (h.ensure 1).bind fun cur h => ?_
  have hhead : (cur.rest.head? == some quote) = false := by
    rw [h.rest, beq_eq_false_iff_ne]
    intro hquoted
    rw [endsGap, hquoted] at hrest
    rcases hquote with rfl | rfl <;> cases hrest
  simp only [hhead, Bool.false_eq_true, if_false]
  exact (hgap cur h).bind hnext

/-- A quoted scalar is read up to its end quote. -/
theorem quotedFrom_body {quote : Char} {write : Char → Text} {body text read : Text}
    {start fuel : Nat} (hquote : quote = '\'' ∨ quote = '"')
    (hbody : QuotedBody quote write body text)
    (h : cur.At ⟨body ++ quote :: rest, index, line, column⟩) (hinside : column ≠ 0 ∨ body = [])
    (hrest : rest.head? ≠ some '\'') (hfuel : text.length < fuel) :
    Yields (quotedFrom start quote fuel read cur) fun r =>
      r.1 = read.reverse ++ text ∧ ∃ index line column, r.2.At ⟨rest, index, line, column⟩ := by
  induction hbody generalizing cur index line column fuel read with
  | @last run hrun =>
    obtain ⟨fuel, rfl⟩ := Nat.exists_eq_add_one_of_ne_zero (Nat.ne_zero_of_lt hfuel)
    have hin : Place.IsInside ⟨run.flatMap write ++ quote :: rest, index, line, column⟩ := by
      refine hinside.imp_right fun hnil => ?_
      rw [hnil]
      rcases hquote with rfl | rfl <;> simp
    obtain ⟨cur, ⟨index, column, -, h⟩, heq⟩ :=
      quotedFrom_run h hin hrun (by simp) (.inr ⟨rfl, fun _ => hrest⟩)
    rw [heq, quotedAfter]
    refine (h.ensure 1).bind fun cur h => ?_
    rw [if_pos (by simp [h.rest])]
    exact .pure ⟨by simp, _, _, _, h.skip⟩
  | @spaces run spaces body text hrun hne hspaces hend hbody ih =>
    obtain ⟨fuel, rfl⟩ := Nat.exists_eq_add_one_of_ne_zero (Nat.ne_zero_of_lt hfuel)
    obtain ⟨c, spaces', rfl⟩ := List.exists_cons_of_ne_nil hne
    obtain rfl : c = ' ' := hspaces c List.mem_cons_self
    rw [List.append_assoc, List.append_assoc] at h
    obtain ⟨cur, ⟨index, column, -, h⟩, heq⟩ :=
      quotedFrom_run h (.inl (by simpa using hinside)) hrun (by simp) (.inl rfl)
    rw [heq]
    refine quotedAfter_gap hquote h rfl
      (fun cur h => Gap.read_spaces h hspaces (endsGap_append hend rest) start 0) ?_
    rintro ⟨gap, cur⟩ ⟨rfl, h⟩
    simp only [List.length_append, List.length_cons] at hfuel
    refine (ih h (.inl (by simp)) (by omega)).mono ?_
    rintro ⟨r, cur⟩ ⟨hr, h⟩
    exact ⟨by simpa [Gap.folded] using hr, h⟩
  | @breaks run breaks indent body text hrun hne hbreaks hindent hend hin hbody ih =>
    obtain ⟨fuel, rfl⟩ := Nat.exists_eq_add_one_of_ne_zero (Nat.ne_zero_of_lt hfuel)
    obtain ⟨c, breaks', rfl⟩ := List.exists_cons_of_ne_nil hne
    obtain ⟨hc, hnewline⟩ := hbreaks c List.mem_cons_self
    have hgap : endsGap (c :: breaks' ++ (indent ++ (body ++ quote :: rest))) = false := by
      simp [endsGap, isBreak_of_isSteadyBreak hc]
    rw [List.append_assoc, List.append_assoc, List.append_assoc] at h
    obtain ⟨cur, ⟨index, column, -, h⟩, heq⟩ :=
      quotedFrom_run h (.inl (by simpa using hinside)) hrun (by simp) (.inl hgap)
    rw [heq]
    refine quotedAfter_gap hquote h hgap (fun cur h => Gap.read_breaks h
      (fun c hc => (hbreaks c hc).1) hne hindent (endsGap_append hend rest) start 0) ?_
    rintro ⟨gap, cur⟩ ⟨rfl, index, line, h⟩
    simp only [List.length_append, List.length_cons] at hfuel
    refine (ih h (hin.imp_left (by simp)) (by omega)).mono ?_
    rintro ⟨r, cur⟩ ⟨hr, h⟩
    refine ⟨?_, h⟩
    rw [hr, Gap.folded_of_head hnewline]
    simp

/-- The contents of a quoted scalar on the line of its key. -/
theorem quoted_body {quote : Char} {write : Char → Text} {body text : Text}
    (hquote : quote = '\'' ∨ quote = '"') (hbody : QuotedBody quote write body text)
    (h : cur.At ⟨quote :: (body ++ quote :: rest), index, line, column⟩)
    (hrest : rest.head? ≠ some '\'') :
    Yields (quoted quote cur) fun r =>
      r.1 = text ∧ ∃ index line column, r.2.At ⟨rest, index, line, column⟩ := by
  refine quotedFrom_body hquote hbody h.skip (.inl (by simp)) hrest ?_
  have := hbody.length_le
  rw [h.left, List.length_cons, List.length_append]
  omega

end Scriptlet.Yaml
