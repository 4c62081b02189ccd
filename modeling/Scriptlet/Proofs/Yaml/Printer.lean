import Scriptlet.Proofs.Yaml.Block

/-! What is written reads as it was meant. Each style in which a text is written is one of the forms
that the readers of scalars are known to read: words, runs between quotes, or lines in a block. -/

namespace Scriptlet.Yaml

open Cursor (At)

/-! ### Forms of values -/

/-- A plain scalar can begin with this text. -/
def OpensPlain (t : Text) : Prop :=
  ∃ c t', t = c :: t' ∧ indicators.contains c = false ∧
    (['?', ':', '-'].contains c = true → atWordEnd t' = false)

/-- How a block ends that has these breaks after its last line. -/
def Chomp.ofBreaks : Text → Chomp
  | [] => strip
  | [_] => clip
  | _ => keep

/-- A value as it is written, the text that is read for it, and whether that is text in any case. -/
inductive Value : (written text : Text) → (quoted : Bool) → Prop
  | plain {t : Text} (hwords : Words t) (hopens : OpensPlain t) : Value t t false
  | quoted {quote : Char} {write : Char → Text} {body text : Text}
      (hquote : quote = '\'' ∨ quote = '"') (hbody : QuotedBody quote write body text) :
      Value (quote :: (body ++ [quote])) text true
  | lines {b : Char} {lead body breaks mark : Text} (hb : isSteadyBreak b = true)
      (hlead : ∀ c ∈ lead, isSteadyBreak c = true) (hbody : Lines body)
      (hbreaks : ∀ c ∈ breaks, isSteadyBreak c = true)
      (hmark : mark = ['2'] ∨ mark = [] ∧ body.head?.any isSpace = false) :
      Value ('|' :: (mark ++ ((Chomp.ofBreaks breaks).mark ++ b :: (lead ++
        indented (fun c => [c]) true (body ++ breaks))))) (lead ++ (body ++ breaks)) true
  | breaks {b : Char} {lead : Text} (hb : isSteadyBreak b = true)
      (hlead : ∀ c ∈ lead, isSteadyBreak c = true) :
      Value ('|' :: '2' :: '+' :: b :: lead) lead true

theorem Value.exists_cons {written text : Text} {quoted : Bool} (h : Value written text quoted) :
    ∃ c t, written = c :: t ∧ isSpace c = false ∧ isBreak c = false ∧ c ≠ '#' := by
  cases h with
  | plain hwords _ => exact hwords.head?
  | quoted hquote _ =>
    refine ⟨_, _, rfl, ?_⟩
    rcases hquote with rfl | rfl <;> exact ⟨rfl, rfl, by decide⟩
  | lines _ _ _ _ _ | breaks _ _ => exact ⟨_, _, rfl, rfl, rfl, by decide⟩

/-! ### Escapes -/

theorem hexValue?_digitChar {d : Nat} (h : d < 16) :
    hexValue? (Nat.digitChar d).toUpper = some d := by
  have hall : ∀ d : Fin 16, hexValue? (Nat.digitChar d).toUpper = some d.val := by decide
  exact hall ⟨d, h⟩

/-- One digit more of a hexadecimal number. -/
def addHexDigit (n : Nat) (c : Char) : Option Nat := (hexValue? c).map fun d => 16 * n + d

theorem foldlM_toDigits (n : Nat) :
    ((Nat.toDigits 16 n).map Char.toUpper).foldlM addHexDigit 0 = some n := by
  induction n using Nat.strongRecOn with
  | ind n ih =>
    rw [Nat.toDigits_eq_if (by decide)]
    split
    · next hlt => simp [addHexDigit, hexValue?_digitChar hlt]
    · next hge =>
      have hdigit := hexValue?_digitChar (Nat.mod_lt n (by decide : 0 < 16))
      rw [List.map_append, List.foldlM_append, ih (n / 16) (by omega)]
      simp [addHexDigit, hdigit]
      omega

theorem foldlM_replicate_zero (k : Nat) (t : Text) :
    (List.replicate k '0' ++ t).foldlM addHexDigit 0 = t.foldlM addHexDigit 0 := by
  induction k with
  | zero => rfl
  | succ k ih =>
    rw [List.replicate_succ, List.cons_append, List.foldlM_cons, ← ih]
    rfl

theorem hexNumber?_code {width : Nat} {c : Char} (hwidth : 0 < width)
    (h : c.toNat < Nat.pow 16 width) (rest : Text) :
    ((Text.hexCode width c).map Char.toUpper).length = width ∧
      hexNumber? width ((Text.hexCode width c).map Char.toUpper ++ rest) = some c.toNat := by
  have hle := (Nat.length_toDigits_le_iff (by decide : 1 < 16) hwidth).2 h
  have hlength : ((Text.hexCode width c).map Char.toUpper).length = width := by
    simp [Text.hexCode, List.leftpad]
    omega
  have hzero : Char.toUpper '0' = '0' := rfl
  refine ⟨hlength, ?_⟩
  rw [hexNumber?, List.take_left' hlength, if_pos hlength]
  rw [Text.hexCode, List.leftpad, List.map_append, List.map_replicate, hzero]
  exact (foldlM_replicate_zero _ _).trans (foldlM_toDigits _)

theorem writes_escape {c e : Char} {w : Text} (he : isBreak e = false)
    (hescape : ∀ {cur : Cursor} {rest : Text} {index line column : Nat},
      cur.At ⟨'\\' :: e :: (w ++ rest), index, line, column⟩ → ∀ start,
        Yields (escape start cur) fun r => r.1 = c ∧
          r.2.At ⟨rest, index + (w.length + 2), line, column + (w.length + 2)⟩) :
    Writes '"' c ('\\' :: e :: w) := by
  refine ⟨by simp, rfl, fun {cur rest index line column} h start fuel read => ?_⟩
  obtain ⟨⟨d, cur₁⟩, hok, hd, h₁⟩ := hescape h start
  obtain rfl : d = c := hd
  obtain ⟨cur₂, hensure, h₂⟩ := h₁.ensure 2
  refine ⟨cur₂, h₂, ?_⟩
  have hgap : (isSpace '\\' || isBreak '\\') = false := rfl
  have hquote : ('\\' == '"') = false := rfl
  rw [quotedRun, h.rest]
  simp only [List.cons_append, hgap, hquote, Bool.false_eq_true, if_false, beq_self_eq_true,
    Bool.and_self, if_true, List.head?_cons, Option.any_some, he, hok, ok_bind]
  dsimp only at hensure
  rw [hensure, ok_bind]

theorem writes_short {c e : Char} (he : isBreak e = false) (h : shortEscape? e = some c) :
    Writes '"' c ['\\', e] := by
  refine writes_escape he fun {cur rest index line column} hcur start => ?_
  rw [escape, hcur.rest]
  dsimp only
  rw [h]
  have hcur : cur.At ⟨['\\', e] ++ rest, index, line, column⟩ := hcur
  exact .pure ⟨rfl, hcur.skipMany rfl⟩

theorem writes_code {c e : Char} {width : Nat} (he : isBreak e = false)
    (hshort : shortEscape? e = none) (hwidth : escapeWidth? e = some width) (hpos : 0 < width)
    (h : c.toNat < Nat.pow 16 width) :
    Writes '"' c ('\\' :: e :: (Text.hexCode width c).map Char.toUpper) := by
  refine writes_escape he fun {cur rest index line column} hcur start => ?_
  obtain ⟨hlength, hnumber⟩ := hexNumber?_code hpos h rest
  rw [escape, hcur.rest]
  dsimp only
  rw [hshort, hwidth]
  have hcur : cur.At ⟨['\\', e] ++ ((Text.hexCode width c).map Char.toUpper ++ rest),
    index, line, column⟩ := hcur
  refine (At.ensure (hcur.skipMany rfl) width).bind fun cur hcur => ?_
  have hvalid : c.toNat.isValidChar := c.valid
  rw [hnumber]
  show Yields (if h : c.toNat.isValidChar then _ else _) _
  rw [dif_pos hvalid]
  refine .pure ⟨?_, ?_⟩
  · exact Char.toNat_inj.1 rfl
  · have := hcur.skipMany hlength
    rw [hlength]
    rwa [Nat.add_assoc, Nat.add_assoc, Nat.add_comm _ width] at this

theorem toNat_lt_pow (c : Char) : c.toNat < Nat.pow 16 8 := by
  have h : c.toNat.isValidChar := c.valid
  rcases h with h | ⟨-, h⟩ <;> exact Nat.lt_trans h (by decide)

/-- Between double quotes every character is written so that it is read back. -/
theorem writes_escaped {always : Bool} {c : Char} (h : always = true ∨ c ≠ ' ') :
    Writes '"' c (escaped always c) := by
  have key {n : Nat} {d e : Char} (hn : c.toNat = n) (hd : d.toNat = n) (he : isBreak e = false)
      (hshort : shortEscape? e = some d) : Writes '"' c ['\\', e] := by
    obtain rfl : c = d := Char.toNat_inj.1 (hn.trans hd.symm)
    exact writes_short he hshort
  rw [escaped]
  split
  iterate 14 exact key ‹_› rfl rfl rfl
  simp only
  split
  · next hplain =>
    have hspace : c ≠ ' ' := h.resolve_left (by simp_all)
    refine writes_self ?_ ?_ (.inl ?_)
    · simp only [isSpace, isBreak, Bool.or_eq_false_iff, beq_eq_false_iff_ne]
      refine ⟨⟨hspace, ?_⟩, ⟨⟨⟨?_, ?_⟩, ?_⟩, ?_⟩, ?_⟩ <;> rintro rfl <;> contradiction
    · rintro rfl
      contradiction
    · rintro rfl
      contradiction
  · split
    · exact key ‹_› rfl rfl rfl
    · split
      · next hle =>
        exact writes_code rfl rfl rfl (by decide) (Nat.lt_of_le_of_lt hle (by decide))
      · split
        · next hle =>
          exact writes_code rfl rfl rfl (by decide) (Nat.lt_of_le_of_lt hle (by decide))
        · exact writes_code rfl rfl rfl (by decide) (toNat_lt_pow c)

/-! ### Quotes -/

theorem flatMap_spaces {write : Char → Text} (hwrite : write ' ' = [' ']) {spaces : Text}
    (h : ∀ c ∈ spaces, c = ' ') : spaces.flatMap write = spaces := by
  induction spaces with
  | nil => rfl
  | cons c spaces ih =>
    obtain rfl : c = ' ' := h c List.mem_cons_self
    rw [List.flatMap_cons, hwrite, ih fun d hd => h d (List.mem_cons_of_mem _ hd)]
    rfl

theorem quotedBody_escaped (t : Text) :
    QuotedBody '"' (escaped false) (t.flatMap (escaped false)) t := by
  induction hn : t.length using Nat.strongRecOn generalizing t with
  | ind n ih =>
    obtain ⟨u, r, rfl, hu, hr⟩ := exists_run (fun c => c != ' ') t
    obtain ⟨spaces, t', rfl, hspaces, ht'⟩ := exists_run (· == ' ') r
    have hrun : ∀ c ∈ u, Writes '"' c (escaped false c) := fun c hc =>
      writes_escaped (.inr (by simpa using hu c hc))
    by_cases hne : spaces = []
    · subst hne
      obtain rfl : t' = [] := eq_nil_of_head? ht' hr
      simpa using QuotedBody.last hrun
    · have hsp : ∀ c ∈ spaces, c = ' ' := by simpa using hspaces
      have hraw : spaces.flatMap (escaped false) = spaces := flatMap_spaces rfl hsp
      have hlt : t'.length < n := by
        have := List.length_pos_iff.2 hne
        rw [← hn]
        simp only [List.length_append]
        omega
      have hend : endsGap (t'.flatMap (escaped false) ++ ['"']) = true := by
        cases t' with
        | nil => rfl
        | cons c t' =>
          have hc : c ≠ ' ' := by simpa using ht'
          rw [List.flatMap_cons, List.append_assoc]
          exact (writes_escaped (.inr hc)).endsGap_append _
      simpa [hraw] using QuotedBody.spaces hrun hne hsp hend (ih _ hlt t' rfl)

/-- A text in double quotes is read back. -/
theorem quotedBody_double (always : Bool) (t : Text) :
    QuotedBody '"' (escaped always) (t.flatMap (escaped always)) t := by
  cases always with
  | false => exact quotedBody_escaped t
  | true => exact .last fun c _ => writes_escaped (.inl rfl)

/-- A character between single quotes. -/
def doubled (c : Char) : Text := if c == '\'' then ['\'', '\''] else [c]

theorem writes_doubled {c : Char} (h : (isSpace c || isBreak c) = false) :
    Writes '\'' c (doubled c) := by
  rw [doubled]
  split
  · next heq =>
    rw [beq_iff_eq.1 heq]
    exact writes_quote
  · next hne => exact writes_self h (by simpa using hne) (.inr (by decide))

theorem hasAdjacent_append {p q : Char → Bool} {u v : Text} (h : hasAdjacent p q (u ++ v) = false) :
    hasAdjacent p q v = false := by
  induction u with
  | nil => exact h
  | cons a u ih =>
    apply ih
    cases hv : u ++ v with
    | nil => rfl
    | cons b t =>
      rw [List.cons_append, hv, hasAdjacent, Bool.or_eq_false_iff] at h
      exact h.2

theorem head?_of_hasAdjacent {p q : Char → Bool} {u v : Text}
    (h : hasAdjacent p q (u ++ v) = false) (hne : u ≠ []) (hu : ∀ c ∈ u, p c = true) :
    v.head?.any q = false := by
  obtain ⟨u', a, rfl⟩ := (List.eq_nil_or_concat u).resolve_left hne
  rw [List.concat_eq_append, List.append_assoc] at h
  have ha : p a = true := hu a (by simp)
  cases v with
  | nil => rfl
  | cons b v => simpa [hasAdjacent, ha] using (Bool.or_eq_false_iff.1 (hasAdjacent_append h)).1

theorem endsGap_indented {t : Text} (hspace : t.head?.any isSpace = false)
    (hbreak : t.head?.any isBreak = false) :
    endsGap (indented doubled false t ++ ['\'']) = true := by
  cases t with
  | nil => rfl
  | cons c t =>
    have hb : isBreak c = false := by simpa using hbreak
    have hs : isSpace c = false := by simpa using hspace
    have hw : Writes '\'' c (doubled c) := writes_doubled (by simp [hs, hb])
    simpa [indented, hb] using hw.endsGap_append (indented doubled false t ++ ['\''])

/-- After a run without spaces and breaks the text ends, or a gap of spaces or of breaks follows. -/
theorem exists_gap (t : Text) : ∃ u gap t', t = u ++ (gap ++ t') ∧
    (∀ c ∈ u, c ≠ ' ' ∧ isBreak c = false) ∧
      (gap = [] ∧ t' = [] ∨
        gap ≠ [] ∧ (∀ c ∈ gap, c = ' ') ∧ t'.head?.any (· == ' ') = false ∨
        gap ≠ [] ∧ (∀ c ∈ gap, isBreak c = true) ∧ t'.head?.any isBreak = false) := by
  obtain ⟨u, r, rfl, hu, hr⟩ := exists_run (fun c => !(c == ' ' || isBreak c)) t
  have hu : ∀ c ∈ u, c ≠ ' ' ∧ isBreak c = false := by simpa using hu
  obtain ⟨spaces, t', rfl, hspaces, ht'⟩ := exists_run (· == ' ') r
  by_cases hne : spaces = []
  · subst hne
    obtain ⟨breaks, t', rfl, hbreaks, hend⟩ := exists_run isBreak t'
    refine ⟨u, breaks, t', rfl, hu, ?_⟩
    by_cases hnone : breaks = []
    · subst hnone
      cases t' with
      | nil => exact .inl ⟨rfl, rfl⟩
      | cons c t' => simp_all
    · exact .inr (.inr ⟨hnone, hbreaks, hend⟩)
  · exact ⟨u, spaces, t', rfl, hu, .inr (.inl ⟨hne, by simpa using hspaces, ht'⟩)⟩

/-- A text in single quotes is read back. -/
theorem quotedBody_single {t : Text} (htab : ∀ c ∈ t, c ≠ '\t')
    (hsteady : ∀ c ∈ t, isBreak c = true → isSteadyBreak c = true ∧ c ≠ '\n')
    (hbreakSpace : hasAdjacent isBreak (· == ' ') t = false)
    (hspaceBreak : hasAdjacent (· == ' ') isBreak t = false) :
    QuotedBody '\'' doubled (indented doubled false t) t := by
  induction hn : t.length using Nat.strongRecOn generalizing t with
  | ind n ih =>
    obtain ⟨u, gap, t', rfl, hu, hgap⟩ := exists_gap t
    have hspace {c : Char} (hc : c ∈ u ++ (gap ++ t')) : isSpace c = (c == ' ') := by
      simp [isSpace, htab c hc]
    have hrun : ∀ c ∈ u, Writes '\'' c (doubled c) := fun c hc =>
      writes_doubled (by simp [hspace (List.mem_append_left _ hc), hu c hc])
    have hbody (hne : gap ≠ []) : QuotedBody '\'' doubled (indented doubled false t') t' := by
      refine ih t'.length ?_ (fun c hc => htab c (by simp [hc]))
        (fun c hc => hsteady c (by simp [hc])) ?_ ?_ rfl
      · have := List.length_pos_iff.2 hne
        rw [← hn]
        simp only [List.length_append]
        omega
      · exact hasAdjacent_append (hasAdjacent_append hbreakSpace)
      · exact hasAdjacent_append (hasAdjacent_append hspaceBreak)
    have hend (hsp : t'.head?.any (· == ' ') = false) (hbr : t'.head?.any isBreak = false) :
        endsGap (indented doubled false t' ++ ['\'']) = true := by
      refine endsGap_indented ?_ hbr
      cases t' with
      | nil => rfl
      | cons c t' => simpa [hspace (show c ∈ u ++ (gap ++ c :: t') by simp)] using hsp
    rw [indented_line fun c hc => (hu c hc).2]
    obtain ⟨rfl, rfl⟩ | ⟨hne, hsp, ht'⟩ | ⟨hne, hbreaks, ht'⟩ := hgap
    · simpa [indented] using QuotedBody.last hrun
    · have hbreak : t'.head?.any isBreak = false :=
        head?_of_hasAdjacent (hasAdjacent_append hspaceBreak) hne (by simpa using hsp)
      rw [indented_line fun c hc => by rw [hsp c hc]; rfl, flatMap_spaces rfl hsp]
      exact .spaces hrun hne hsp (hend ht' hbreak) (hbody hne)
    · have hbs : ∀ c ∈ gap, isSteadyBreak c = true ∧ c ≠ '\n' := fun c hc =>
        hsteady c (by simp [hc]) (hbreaks c hc)
      have hsp := head?_of_hasAdjacent (hasAdjacent_append hbreakSpace) hne hbreaks
      rw [indented_breaks hne hbreaks]
      cases t' with
      | nil =>
        have hindent : ∀ c ∈ ([] : Text), c = ' ' := by simp
        exact .breaks hrun hne hbs hindent rfl (.inr rfl) (hbody hne)
      | cons c t' =>
        have hindent : ∀ c ∈ [' ', ' '], c = ' ' := by simp
        rw [indented_fresh (by simpa using ht')]
        exact .breaks hrun hne hbs hindent (hend hsp ht') (.inl (by simp)) (hbody hne)

/-! ### Words -/

theorem hasMark_append {first spaced : Bool} {u : Text} {c : Char} {t : Text}
    (h : hasMark first spaced (u ++ c :: t) = false) :
    hasMark false (isSpace c || isBreak c) t = false := by
  induction u generalizing first spaced with
  | nil => exact (Bool.or_eq_false_iff.1 h).2
  | cons d u ih => exact ih (Bool.or_eq_false_iff.1 h).2

theorem hasMark_colon {first spaced : Bool} {u t : Text}
    (ht : (t.isEmpty || t.head?.any isSpace) = true) :
    hasMark first spaced (u ++ ':' :: t) = true := by
  induction u generalizing first spaced with
  | nil => cases first <;> simp [hasMark, ht]
  | cons d u ih => simp only [List.cons_append, hasMark, ih, Bool.or_true]

theorem hasMark_hash {first : Bool} (t : Text) : hasMark first true ('#' :: t) = true := by
  cases first <;> simp [hasMark, indicators]

/-- A text without marks is made of words. -/
theorem words_of_unmarked {first : Bool} {t : Text} (hne : t ≠ [])
    (hsolid : ∀ c ∈ t, c ≠ '\t' ∧ isBreak c = false) (hhead : t.head?.any (· == ' ') = false)
    (hlast : t.getLast?.any (· == ' ') = false) (hmark : hasMark first true t = false) :
    Words t := by
  induction hn : t.length using Nat.strongRecOn generalizing t first with
  | ind n ih =>
    obtain ⟨u, r, rfl, hu, hr⟩ := exists_run (fun c => c != ' ') t
    have hfollows : (r.isEmpty || r.head?.any isSpace) = true := by
      cases r with
      | nil => rfl
      | cons c r =>
        obtain rfl : c = ' ' := by simpa using hr
        rfl
    have hword : IsWord u := by
      refine ⟨?_, fun c hc => ?_, fun hhash => ?_, fun hcolon => ?_⟩
      · rintro rfl
        exact hne (eq_nil_of_head? hhead hr)
      · obtain ⟨htab, hbreak⟩ := hsolid c (by simp [hc])
        have hspace : c ≠ ' ' := by simpa using hu c hc
        exact ⟨by simp [isSpace, hspace, htab], hbreak⟩
      · obtain ⟨u', rfl⟩ := List.head?_eq_some_iff.1 hhash
        rw [List.cons_append, hasMark_hash] at hmark
        cases hmark
      · obtain ⟨u', rfl⟩ := List.getLast?_eq_some_iff.1 hcolon
        rw [List.append_assoc, List.singleton_append, hasMark_colon hfollows] at hmark
        cases hmark
    obtain ⟨spaces, t', rfl, hspaces, ht'⟩ := exists_run (· == ' ') r
    have hsp : ∀ c ∈ spaces, c = ' ' := by simpa using hspaces
    by_cases hnone : spaces = []
    · subst hnone
      obtain rfl : t' = [] := eq_nil_of_head? ht' hr
      simpa using Words.last hword
    · obtain ⟨spaces', c, hconcat⟩ := (List.eq_nil_or_concat spaces).resolve_left hnone
      obtain rfl : c = ' ' := hsp c (by simp [hconcat])
      rw [List.concat_eq_append] at hconcat
      have hmark' : hasMark false true t' = false := by
        rw [hconcat, ← List.append_assoc, ← List.append_assoc, List.append_assoc _ [' ']] at hmark
        exact hasMark_append hmark
      refine .more hword hnone hsp (ih t'.length ?_ ?_ ?_ ?_ ?_ hmark' rfl)
      · have := List.length_pos_iff.2 hword.ne_nil
        rw [← hn]
        simp only [List.length_append]
        omega
      · rintro rfl
        simp [hconcat] at hlast
      · exact fun c hc => hsolid c (by simp [hc])
      · exact ht'
      · cases heq : t'.getLast? with
        | none => rfl
        | some c => simpa [heq] using hlast

theorem opensPlain_of_unmarked {t : Text} (hne : t ≠ []) (hbreak : ∀ c ∈ t, isBreak c = false)
    (hmark : hasMark true true t = false) : OpensPlain t := by
  obtain ⟨c, t', rfl⟩ := List.exists_cons_of_ne_nil hne
  rw [hasMark, if_pos rfl] at hmark
  simp only [Bool.or_eq_false_iff] at hmark
  obtain ⟨⟨hindicator, hmark⟩, -⟩ := hmark
  refine ⟨c, t', rfl, hindicator, fun hc => ?_⟩
  rw [hc, Bool.true_and] at hmark
  cases t' with
  | nil => cases hmark
  | cons d t' =>
    have hspace : isSpace d = false := by simpa using hmark
    simp [atWordEnd, hspace, hbreak d (by simp)]

/-! ### Lines -/

theorem Lines.exists_concat {t : Text} (h : Lines t) :
    ∃ t' c, t = t' ++ [c] ∧ isBreak c = false := by
  induction h with
  | @last u hne hu =>
    obtain ⟨u', c, rfl⟩ := (List.eq_nil_or_concat u).resolve_left hne
    exact ⟨u', c, List.concat_eq_append, hu c (by simp)⟩
  | @more u breaks t _ _ _ _ _ ih =>
    obtain ⟨t', c, rfl, hc⟩ := ih
    exact ⟨u ++ (breaks ++ t'), c, by simp, hc⟩

/-- The mark tells the breaks after the last line, whatever stands before it. -/
theorem chompMark_lines {body breaks : Text} (hbody : Lines body)
    (hbreaks : ∀ c ∈ breaks, isBreak c = true) (before : Text) :
    chompMark (before ++ (body ++ breaks)) = (Chomp.ofBreaks breaks).mark := by
  obtain ⟨t', c, rfl, hc⟩ := hbody.exists_concat
  rw [chompMark, List.reverse_append, List.reverse_append, List.reverse_append,
    List.reverse_singleton]
  rcases breaks with _ | ⟨d, _ | ⟨e, bs⟩⟩
  · simp [hc, Chomp.ofBreaks, Chomp.mark]
  · have hd := hbreaks d (by simp)
    simp [hc, hd, Chomp.ofBreaks, Chomp.mark]
  · have hmem : ∀ x ∈ (d :: e :: bs).reverse, isBreak x = true := fun x hx =>
      hbreaks x (List.mem_reverse.1 hx)
    rcases hrev : (d :: e :: bs).reverse with _ | ⟨x, _ | ⟨y, l⟩⟩
    · simp at hrev
    · simpa using congrArg List.length hrev
    · rw [hrev] at hmem
      have hx := hmem x (by simp)
      have hy := hmem y (by simp)
      simp [hx, hy, Chomp.ofBreaks, Chomp.mark]

theorem chompMark_breaks {breaks : Text} (hne : breaks ≠ [])
    (hbreaks : ∀ c ∈ breaks, isBreak c = true) : chompMark breaks = ['+'] := by
  have hmem : ∀ c ∈ breaks.reverse, isBreak c = true := fun c hc =>
    hbreaks c (List.mem_reverse.1 hc)
  rw [chompMark]
  rcases hrev : breaks.reverse with _ | ⟨c, rest⟩
  · exact absurd (List.reverse_eq_nil_iff.1 hrev) hne
  · rw [hrev] at hmem
    have hc := hmem c List.mem_cons_self
    cases rest with
    | nil => simp [hc]
    | cons d rest => simp [hc, hmem d (by simp)]

theorem exists_chompMark (t : Text) : ∃ chomp : Chomp, chompMark t = chomp.mark := by
  rw [chompMark]
  split
  · exact ⟨.strip, rfl⟩
  · split
    · exact ⟨.strip, rfl⟩
    · split
      · exact ⟨.keep, rfl⟩
      · exact ⟨.clip, rfl⟩

theorem isSteadyBreak_of_isPrintable {c : Char} (hc : c = '\t' ∨ isPrintable c = true)
    (hbreak : isBreak c = true) : isSteadyBreak c = true := by
  simp only [isBreak, Bool.or_eq_true, beq_iff_eq] at hbreak
  rcases hbreak with (((rfl | rfl) | rfl) | rfl) | rfl
  · rfl
  · exact absurd hc (by decide)
  · exact absurd hc (by decide)
  · rfl
  · rfl

/-! ### Styles -/

/-- What is read for a text that was written. Where it is written line by line, a line break at its
start is lost, and with a tab at its start it is not read at all. -/
def readBack? (t : Text) : Option Text :=
  if styleOf t != .literal then some t
  else if t.head? == some '\t' then none
  else if t.head?.any isBreak then some t.tail
  else some t

theorem value_of_plain {t : Text} (h : styleOf t = .plain) :
    Value t t false ∧ Scalar.ofPlain t = .text := by
  rw [styleOf] at h
  split at h
  · split at h <;> cases h
  · split at h
    · cases h
    · next htext =>
      split at h
      · next hplain =>
        simp only [Bool.and_eq_true, Bool.not_eq_true', Bool.or_eq_false_iff] at hplain
        obtain ⟨⟨⟨⟨⟨⟨⟨⟨hhead, hlast⟩, -⟩, -⟩, -⟩, htabs⟩, -⟩, hbreaks⟩, ⟨hmark, -⟩, -⟩ := hplain
        have hstays : staysText t = true := by simpa using htext
        have hscalar : Scalar.ofPlain t = .text := by
          simp only [staysText, Bool.and_eq_true, beq_iff_eq] at hstays
          exact hstays.1.1.1
        have hne : t ≠ [] := by
          rintro rfl
          cases hscalar
        have hbreak : ∀ c ∈ t, isBreak c = false := by simpa using hbreaks
        have htab : ∀ c ∈ t, c ≠ '\t' := by
          rintro c hc rfl
          simp [hc] at htabs
        refine ⟨.plain ?_ (opensPlain_of_unmarked hne hbreak hmark), hscalar⟩
        exact words_of_unmarked hne (fun c hc => ⟨htab c hc, hbreak c hc⟩) hhead hlast hmark
      · split at h <;> cases h

/-- Every character of a text that is written without escapes is printable, or a tab. -/
theorem isPrintable_of_any {t : Text} (h : (t.any fun c => c != '\t' && !isPrintable c) = false) :
    ∀ c ∈ t, c = '\t' ∨ isPrintable c = true := by
  intro c hc
  have := List.any_eq_false.1 h c hc
  by_cases htab : c = '\t'
  · exact .inl htab
  · exact .inr (by simpa [htab] using this)

theorem value_of_single {t : Text} (h : styleOf t = .single) :
    Value ('\'' :: (indented doubled false t ++ ['\''])) t true := by
  rw [styleOf] at h
  split at h
  · split at h <;> cases h
  · next hnewline =>
    split at h
    · cases h
    · split at h
      · cases h
      · split at h
        · next hsingle =>
          simp only [Bool.and_eq_true, Bool.not_eq_true'] at hsingle
          obtain ⟨⟨⟨hbreakSpace, hspaceBreak⟩, htabs⟩, hspecial⟩ := hsingle
          refine .quoted (.inl rfl) (quotedBody_single ?_ ?_ hbreakSpace hspaceBreak)
          · rintro c hc rfl
            simp [hc] at htabs
          · intro c hc hbreak
            refine ⟨isSteadyBreak_of_isPrintable (isPrintable_of_any hspecial c hc) hbreak, ?_⟩
            rintro rfl
            exact hnewline (by simpa using hc)
        · cases h

theorem value_of_double {t : Text} : Value (doubleQuoted t) t true :=
  .quoted (.inr rfl) (quotedBody_double _ t)

/-- What is written line by line has a line, and no escapes. -/
theorem printable_of_styleOf {t : Text} (h : styleOf t ≠ .double) :
    ∀ c ∈ t, c = '\t' ∨ isPrintable c = true := by
  apply isPrintable_of_any
  cases hspecial : t.any fun c => c != '\t' && !isPrintable c with
  | false => rfl
  | true =>
    refine absurd ?_ h
    simp [styleOf, hspecial]

theorem ne_nil_of_literal {t : Text} (h : styleOf t = .literal) : t ≠ [] := by
  rintro rfl
  cases h

/-- In a text that begins with a break, this ends the line of the bar. -/
theorem value_of_literal_break {c : Char} {t : Text} (hc : isBreak c = true)
    (hsteady : ∀ d ∈ c :: t, isBreak d = true → isSteadyBreak d = true) :
    Value (literal (c :: t)) t true := by
  have hliteral : literal (c :: t) =
      '|' :: '2' :: (chompMark (c :: t) ++ c :: indented (fun c => [c]) true t) := by
    simp [literal, hc, indented]
  have hb : isSteadyBreak c = true := hsteady c (by simp) hc
  obtain ⟨lead, t, rfl, hlead, ht⟩ := exists_run isBreak t
  have hlead' : ∀ d ∈ lead, isSteadyBreak d = true := fun d hd =>
    hsteady d (by simp [hd]) (hlead d hd)
  rw [hliteral, indented_lead hlead]
  by_cases hnil : t = []
  · subst hnil
    rw [chompMark_breaks (by simp) (by simpa [hc] using hlead)]
    simpa [indented] using Value.breaks hb hlead'
  · obtain ⟨body, breaks, rfl, hbody, hbreaks⟩ := exists_lines hnil ht
      fun d hd => hsteady d (by simp [hd])
    have hchomp := chompMark_lines hbody
      (fun d hd => isBreak_of_isSteadyBreak (hbreaks d hd)) (c :: lead)
    rw [List.cons_append] at hchomp
    rw [hchomp]
    exact Value.lines hb hlead' hbody hbreaks (.inl rfl)

theorem value_of_literal_line {c : Char} {t : Text} (hc : isBreak c = false) (htab : c ≠ '\t')
    (hsteady : ∀ d ∈ c :: t, isBreak d = true → isSteadyBreak d = true) :
    Value (literal (c :: t)) (c :: t) true := by
  obtain ⟨body, breaks, ht, hbody, hbreaks⟩ :=
    exists_lines (List.cons_ne_nil c t) (by simpa using hc) hsteady
  obtain ⟨d, body', rfl, -⟩ := hbody.exists_cons
  obtain ⟨rfl, rfl⟩ := List.cons.inj ht
  have hchomp := chompMark_lines hbody (fun d hd => isBreak_of_isSteadyBreak (hbreaks d hd)) []
  rw [List.nil_append] at hchomp
  have hmark : (if c = ' ' then ['2'] else []) = ['2'] ∨
      (if c = ' ' then ['2'] else []) = [] ∧ (c :: body').head?.any isSpace = false := by
    by_cases hspace : c = ' '
    · exact .inl (if_pos hspace)
    · exact .inr ⟨if_neg hspace, by simp [isSpace, hspace, htab]⟩
  have hvalue : Value ('|' :: (_ ++ (_ ++ '\n' :: ([] ++ _)))) ([] ++ _) true :=
    Value.lines rfl (by simp) hbody hbreaks hmark
  rw [← hchomp] at hvalue
  simpa [literal, hc] using hvalue

theorem value_of_literal {t u : Text} (h : styleOf t = .literal) (hread : readBack? t = some u) :
    Value (literal t) u true := by
  have hsteady : ∀ c ∈ t, isBreak c = true → isSteadyBreak c = true := fun c hc =>
    isSteadyBreak_of_isPrintable (printable_of_styleOf (by simp [h]) c hc)
  obtain ⟨c, t, rfl⟩ := List.exists_cons_of_ne_nil (ne_nil_of_literal h)
  simp only [readBack?, h, bne_self_eq_false, Bool.false_eq_true, if_false] at hread
  split at hread
  · cases hread
  · next hhead =>
    cases hc : isBreak c with
    | true =>
      obtain rfl : t = u := by simpa [hc] using hread
      exact value_of_literal_break hc hsteady
    | false =>
      obtain rfl : c :: t = u := by simpa [hc] using hread
      exact value_of_literal_line hc (by simpa using hhead) hsteady

/-- A text that is not read has a tab where the indentation of its block is told. -/
theorem render_of_readBack?_none {t : Text} (h : readBack? t = none) :
    ∃ (chomp : Chomp) (rest : Text),
      render t = '|' :: (chomp.mark ++ '\n' :: ' ' :: ' ' :: '\t' :: rest) := by
  by_cases hstyle : styleOf t = .literal
  · obtain ⟨c, t, rfl⟩ := List.exists_cons_of_ne_nil (ne_nil_of_literal hstyle)
    obtain ⟨chomp, hchomp⟩ := exists_chompMark (c :: t)
    obtain rfl : c = '\t' := by
      simp only [readBack?, hstyle, bne_self_eq_false, Bool.false_eq_true, if_false] at h
      split at h
      · next hhead => simpa using hhead
      · split at h <;> cases h
    refine ⟨chomp, indented (fun c => [c]) false t, ?_⟩
    rw [render, hstyle, ← hchomp]
    simp [literal, indented, isBreak]
  · simp [readBack?, hstyle] at h

/-- Texts are written so that they are read back. -/
theorem value_render {t u : Text} (h : readBack? t = some u) :
    ∃ quoted, Value (render t) u quoted ∧ (quoted = false → Scalar.ofPlain u = .text) := by
  by_cases hstyle : styleOf t = .literal
  · rw [render, hstyle]
    exact ⟨true, value_of_literal hstyle h, nofun⟩
  · obtain rfl : t = u := by simpa [readBack?, hstyle] using h
    rw [render]
    split
    · next h => exact ⟨false, (value_of_plain h).1, fun _ => (value_of_plain h).2⟩
    · next h => exact ⟨true, value_of_single h, nofun⟩
    · exact ⟨true, value_of_double, nofun⟩
    · next h => exact absurd h hstyle

/-! ### Entries -/

/-- What ends the line of a value that does not end it itself. -/
def lineEnd (written : Text) : Text := if written.getLast?.any isBreak then [] else ['\n']

theorem renderEntry_eq (key : Text) {written : Text} (hne : written ≠ []) :
    renderEntry key written = key ++ ':' :: ' ' :: (written ++ lineEnd written) := by
  obtain ⟨c, written', rfl⟩ := List.exists_cons_of_ne_nil hne
  have hlast : (key ++ [':', ' '] ++ c :: written').getLast? = (c :: written').getLast? := by
    simp [List.getLast?_cons]
  rw [renderEntry, hlast, lineEnd]
  split <;> simp

theorem Words.exists_concat {t : Text} (h : Words t) :
    ∃ t' c, t = t' ++ [c] ∧ isBreak c = false := by
  induction h with
  | @last u hu =>
    obtain ⟨u', c, rfl⟩ := (List.eq_nil_or_concat u).resolve_left hu.ne_nil
    exact ⟨u', c, List.concat_eq_append, (hu.solid c (by simp)).2⟩
  | @more u spaces t _ _ _ _ ih =>
    obtain ⟨t', c, rfl, hc⟩ := ih
    exact ⟨u ++ (spaces ++ t'), c, by simp, hc⟩

theorem lineEnd_concat {t : Text} {c : Char} (hc : isBreak c = false) :
    lineEnd (t ++ [c]) = ['\n'] := by
  simp [lineEnd, hc]

theorem lineEnd_breaks {b : Char} {lead : Text} (head : Text) (hb : isSteadyBreak b = true)
    (hlead : ∀ c ∈ lead, isSteadyBreak c = true) : lineEnd (head ++ b :: lead) = [] := by
  have hlast : isBreak (lead.getLast?.getD b) = true := by
    cases h : lead.getLast? with
    | none => exact isBreak_of_isSteadyBreak hb
    | some c => exact isBreak_of_isSteadyBreak (hlead c (List.mem_of_getLast? h))
  rw [lineEnd, List.getLast?_append, List.getLast?_cons]
  simp [hlast]

theorem getLast?_indented (fresh : Bool) (t : Text) :
    (indented (fun c => [c]) fresh t).getLast? = t.getLast? := by
  induction t generalizing fresh with
  | nil => rfl
  | cons c t ih =>
    rw [indented]
    split
    · rw [List.getLast?_cons, List.getLast?_cons, ih]
    · rw [List.getLast?_append, ih, List.getLast?_cons]
      cases t.getLast? <;> simp

/-- Together with the end of its line, a block has a break after its last line. -/
theorem exists_breaks_lineEnd {body breaks : Text} (hbody : Lines body)
    (hbreaks : ∀ c ∈ breaks, isSteadyBreak c = true) (head : Text) :
    ∃ c rest, isSteadyBreak c = true ∧ (∀ d ∈ rest, isSteadyBreak d = true) ∧
      breaks ++ lineEnd (head ++ indented (fun c => [c]) true (body ++ breaks)) = c :: rest ∧
      ∀ read : Text, BlockText.finish { read, lineEnd := [c], breaks := rest }
        (Chomp.ofBreaks breaks) = read.reverse ++ breaks := by
  obtain ⟨t', x, rfl, hx⟩ := hbody.exists_concat
  have hlast : (head ++ indented (fun c => [c]) true (t' ++ [x] ++ breaks)).getLast? =
      some (breaks.getLast?.getD x) := by
    rw [List.getLast?_append, getLast?_indented]
    simp [List.getLast?_cons]
  rcases breaks with _ | ⟨c, breaks⟩
  · refine ⟨'\n', [], rfl, by simp, ?_, ?_⟩
    · rw [lineEnd, hlast]
      simp [hx]
    · simp [BlockText.finish, Chomp.ofBreaks]
  · refine ⟨c, breaks, hbreaks c (by simp), fun d hd => hbreaks d (by simp [hd]), ?_, ?_⟩
    · obtain ⟨l, y, hy⟩ := (List.eq_nil_or_concat (c :: breaks)).resolve_left (by simp)
      have hbreak : isBreak y = true := isBreak_of_isSteadyBreak (hbreaks y (by simp [hy]))
      rw [lineEnd, hlast, hy]
      simp [hbreak]
    · cases breaks <;> simp [BlockText.finish, Chomp.ofBreaks]

/-- The lines of a value are read with the breaks that were meant, up to what follows the value. -/
theorem block_written {b : Char} {lead body breaks mark written rest : Text} {cur : Cursor}
    {index line column : Nat} (hb : isSteadyBreak b = true)
    (hlead : ∀ c ∈ lead, isSteadyBreak c = true) (hbody : Lines body)
    (hbreaks : ∀ c ∈ breaks, isSteadyBreak c = true)
    (hmark : mark = ['2'] ∨ mark = [] ∧ body.head?.any isSpace = false)
    (hwritten : written = '|' :: (mark ++ ((Chomp.ofBreaks breaks).mark ++ b :: (lead ++
      indented (fun c => [c]) true (body ++ breaks)))))
    (h : cur.At ⟨written ++ (lineEnd written ++ rest), index, line, column⟩)
    (hrest : endsGap rest = true) :
    Yields (block true 0 cur) fun r =>
      r.1 = lead ++ (body ++ breaks) ∧ ∃ index line, r.2.At ⟨rest, index, line, 0⟩ := by
  have hhead : written = '|' :: (mark ++ ((Chomp.ofBreaks breaks).mark ++ b :: lead)) ++
      indented (fun c => [c]) true (body ++ breaks) := by
    simp only [hwritten, List.cons_append, List.append_assoc]
  obtain ⟨c, more, hc, hmore, heq, hfinish⟩ := exists_breaks_lineEnd hbody hbreaks _
  rw [← hhead] at heq
  generalize lineEnd written = e at h heq
  have hall : ∀ c ∈ breaks, isBreak c = true := fun c hc =>
    isBreak_of_isSteadyBreak (hbreaks c hc)
  have hend : breaks ++ (e ++ rest) = c :: (more ++ rest) := by
    rw [← List.append_assoc, heq, List.cons_append]
  have htext : written ++ (e ++ rest) = '|' :: (mark ++ ((Chomp.ofBreaks breaks).mark ++
      b :: (lead ++ (indented (fun c => [c]) true body ++ c :: (more ++ rest))))) := by
    rw [hwritten, ← hend, indented_append_breaks hall]
    simp only [List.cons_append, List.append_assoc]
  rw [htext] at h
  refine (block_lines hbody hmark h hb hlead hc hmore hrest).mono ?_
  rintro r ⟨hr, h⟩
  rw [hfinish, List.reverse_reverse, List.append_assoc] at hr
  exact ⟨hr, h⟩

/-! ### Characters -/

theorem isClean_of_isPrintable {c : Char} (h : c = '\t' ∨ isPrintable c = true) :
    isClean c = true := by
  rcases h with rfl | h
  · rfl
  · have hmark : c ≠ byteOrderMark := by
      rintro rfl
      cases h
    simp only [isPrintable, Bool.or_eq_true, Bool.and_eq_true, decide_eq_true_eq, beq_iff_eq] at h
    have hallowed : isAllowed c = true := by
      simp only [isAllowed, Bool.or_eq_true, Bool.and_eq_true, decide_eq_true_eq, beq_iff_eq]
      omega
    simp [isClean, hallowed, hmark]

theorem isClean_of_mem_toDigits {n : Nat} {c : Char} (h : c ∈ Nat.toDigits 16 n) :
    isClean c.toUpper = true := by
  have hdigit : ∀ d : Fin 16, isClean (Nat.digitChar d).toUpper = true := by decide
  induction n using Nat.strongRecOn with
  | ind n ih =>
    rw [Nat.toDigits_eq_if (by decide)] at h
    split at h
    · next hlt =>
      obtain rfl := List.mem_singleton.1 h
      exact hdigit ⟨n, hlt⟩
    · rcases List.mem_append.1 h with h | h
      · exact ih (n / 16) (by omega) h
      · obtain rfl := List.mem_singleton.1 h
        exact hdigit ⟨n % 16, Nat.mod_lt n (by decide)⟩

theorem isClean_of_mem_hexCode {width : Nat} {c d : Char}
    (h : d ∈ (Text.hexCode width c).map Char.toUpper) : isClean d = true := by
  obtain ⟨e, he, rfl⟩ := List.mem_map.1 h
  rcases List.mem_append.1 he with he | he
  · rw [List.eq_of_mem_replicate he]
    rfl
  · exact isClean_of_mem_toDigits he

theorem isClean_of_mem_escaped {always : Bool} {c d : Char} (h : d ∈ escaped always c) :
    isClean d = true := by
  have hshort {e : Char} (he : isClean e = true) (hd : d ∈ ['\\', e]) : isClean d = true := by
    rcases List.mem_cons.1 hd with rfl | hd
    · rfl
    · rwa [List.mem_singleton.1 hd]
  have hcode {e : Char} {width : Nat} (he : isClean e = true)
      (hd : d ∈ '\\' :: e :: (Text.hexCode width c).map Char.toUpper) : isClean d = true := by
    rcases List.mem_cons.1 hd with rfl | hd
    · rfl
    · rcases List.mem_cons.1 hd with rfl | hd
      · exact he
      · exact isClean_of_mem_hexCode hd
  rw [escaped] at h
  split at h
  iterate 14 exact hshort rfl h
  simp only at h
  split at h
  · next hprint =>
    obtain rfl := List.mem_singleton.1 h
    exact isClean_of_isPrintable (.inr (Bool.and_eq_true_iff.1 hprint).2)
  · split at h
    · exact hshort rfl h
    · split at h
      · exact hcode rfl h
      · split at h
        · exact hcode rfl h
        · exact hcode rfl h

theorem mem_indented {write : Char → Text} {fresh : Bool} {t : Text} {c : Char}
    (h : c ∈ indented write fresh t) : c = ' ' ∨ c ∈ t ∨ ∃ d ∈ t, c ∈ write d := by
  induction t generalizing fresh with
  | nil => cases h
  | cons d t ih =>
    have hrest {fresh : Bool} (h : c ∈ indented write fresh t) :
        c = ' ' ∨ c ∈ d :: t ∨ ∃ e ∈ d :: t, c ∈ write e := by
      rcases ih h with h | h | ⟨e, he, h⟩
      · exact .inl h
      · exact .inr (.inl (List.mem_cons_of_mem _ h))
      · exact .inr (.inr ⟨e, List.mem_cons_of_mem _ he, h⟩)
    rw [indented] at h
    split at h
    · rcases List.mem_cons.1 h with rfl | h
      · exact .inr (.inl List.mem_cons_self)
      · exact hrest h
    · rcases List.mem_append.1 h with h | h
      · rcases List.mem_append.1 h with h | h
        · split at h
          · exact .inl (by simpa using h)
          · cases h
        · exact .inr (.inr ⟨d, List.mem_cons_self, h⟩)
      · exact hrest h

theorem mem_chompMark {t : Text} {c : Char} (h : c ∈ chompMark t) : c = '-' ∨ c = '+' := by
  rw [chompMark] at h
  split at h
  · exact .inl (List.mem_singleton.1 h)
  · split at h
    · exact .inl (List.mem_singleton.1 h)
    · split at h
      · exact .inr (List.mem_singleton.1 h)
      · cases h

/-- The clean characters of a text are clean in its lines as well. -/
theorem isClean_of_mem_indented {write : Char → Text} {fresh : Bool} {t : Text} {c : Char}
    (h : c ∈ indented write fresh t) (ht : ∀ d ∈ t, isClean d = true)
    (hwrite : ∀ d ∈ t, ∀ e ∈ write d, e = d) : isClean c = true := by
  rcases mem_indented h with rfl | h | ⟨d, hd, h⟩
  · rfl
  · exact ht c h
  · rw [hwrite d hd c h]
    exact ht d hd

theorem isClean_of_mem_literal {t : Text} {c : Char} (h : c ∈ literal t)
    (ht : ∀ d ∈ t, isClean d = true) : isClean c = true := by
  rw [literal] at h
  simp only [List.mem_append, List.mem_cons] at h
  rcases h with (((rfl | h) | h) | h) | h
  · rfl
  · split at h
    · obtain rfl := List.mem_singleton.1 h
      rfl
    · cases h
  · rcases mem_chompMark h with rfl | rfl <;> rfl
  · split at h
    · cases h
    · obtain rfl := List.mem_singleton.1 h
      rfl
  · exact isClean_of_mem_indented h ht fun d _ e he => List.mem_singleton.1 he

/-- No character of a written text is told or passed over. -/
theorem isClean_of_mem_render {t : Text} {c : Char} (h : c ∈ render t) : isClean c = true := by
  have hclean (hstyle : styleOf t ≠ .double) : ∀ d ∈ t, isClean d = true := fun d hd =>
    isClean_of_isPrintable (printable_of_styleOf hstyle d hd)
  rw [render] at h
  split at h
  · next hstyle => exact hclean (by simp [hstyle]) c h
  · next hstyle =>
    rcases List.mem_append.1 h with h | h
    · rcases List.mem_cons.1 h with rfl | h
      · rfl
      · refine isClean_of_mem_indented h (hclean (by simp [hstyle])) fun d _ e he => ?_
        split at he
        · next hquote =>
          obtain rfl : d = '\'' := by simpa using hquote
          simpa using he
        · exact List.mem_singleton.1 he
    · obtain rfl := List.mem_singleton.1 h
      rfl
  · rcases List.mem_append.1 h with h | h
    · rcases List.mem_cons.1 h with rfl | h
      · rfl
      · obtain ⟨d, -, h⟩ := List.mem_flatMap.1 h
        exact isClean_of_mem_escaped h
    · obtain rfl := List.mem_singleton.1 h
      rfl
  · next hstyle => exact isClean_of_mem_literal h (hclean (by simp [hstyle]))

end Scriptlet.Yaml
