import Scriptlet.Proofs.Command.Nesting

/-! Matching brackets are partners. The matchers count how many brackets are open and stop at the
first that brings the count back; which brackets belong together is said by a grammar. Counting and
grammar agree: a text whose count never falls below its start and comes back to it is nested, and
the bracket behind it is the only one with a nested text in front. For parentheses this holds of
what is left without string literals, for braces of the whole text. -/

namespace Scriptlet.Command

/-! ### Counting and nesting -/

section

variable {pair : Char × Char}

/-- The brackets of one kind open after a character. One that closes must have been opened. -/
def depthChar (pair : Char × Char) (depth : Nat) (c : Char) : Option Nat :=
  if c = pair.1 then some (depth + 1)
  else if c = pair.2 then if depth = 0 then none else some (depth - 1)
  else some depth

/-- The brackets of one kind open after a text. -/
def depthAfter (pair : Char × Char) (depth : Nat) (t : Text) : Option Nat :=
  t.foldlM (depthChar pair) depth

theorem depthAfter_cons {depth depth' : Nat} {c : Char} {t : Text} :
    depthAfter pair depth (c :: t) = some depth' ↔
      ∃ n, depthChar pair depth c = some n ∧ depthAfter pair n t = some depth' := by
  rw [depthAfter, List.foldlM_cons]
  exact Option.bind_eq_some_iff

theorem depthAfter_append {depth depth' : Nat} {t : Text}
    (h : depthAfter pair depth t = some depth') (u : Text) :
    depthAfter pair depth (t ++ u) = depthAfter pair depth' u := by
  rw [depthAfter, List.foldlM_append]
  exact congrArg (Option.bind · _) h

theorem braces_eq_depthAfter (depth : Nat) (t : Text) :
    braces depth t = depthAfter ('\x7b', '\x7d') depth t := rfl

/-- Where nothing is a quote, tracking is counting. -/
theorem track_eq_depthAfter (pair : Char × Char) (depth : Nat) {t : Text} (h : '"' ∉ t) :
    track (· == pair.1) (· == pair.2) (depth, false) t =
      (depthAfter pair depth t).map fun n => (n, false) := by
  induction t generalizing depth with
  | nil => rfl
  | cons c t ih =>
    obtain ⟨hc, ht⟩ := List.ne_and_not_mem_of_not_mem_cons h
    have hstep : trackChar (· == pair.1) (· == pair.2) (depth, false) c =
        (depthChar pair depth c).map fun n => (n, false) := by
      simp only [trackChar, depthChar, hc.symm, beq_iff_eq, if_false, Bool.false_eq_true]
      split
      · rfl
      · split
        · split <;> rfl
        · rfl
    rw [track, depthAfter, List.foldlM_cons, List.foldlM_cons, hstep]
    cases depthChar pair depth c with
    | none => rfl
    | some n => exact ih n ht

theorem Nested.append {pairs : List (Char × Char)} {t u : Text} (ht : Nested pairs t)
    (hu : Nested pairs u) : Nested pairs (t ++ u) := by
  induction ht with
  | nil => exact hu
  | plain hc _ ih => exact .plain hc ih
  | @pair p t v hp ht _ _ ihv =>
    rw [List.cons_append, List.append_assoc, List.cons_append]
    exact .pair hp ht ihv

theorem Nested.depthAfter_eq (hne : pair.1 ≠ pair.2) {t : Text} (h : Nested [pair] t)
    (depth : Nat) : depthAfter pair depth t = some depth := by
  induction h generalizing depth with
  | nil => rfl
  | @plain c t hc ht ih =>
    obtain ⟨hopen, hclose⟩ := hc pair List.mem_cons_self
    exact depthAfter_cons.2 ⟨depth, by simp [depthChar, hopen, hclose], ih depth⟩
  | @pair p t u hp ht hu iht ihu =>
    obtain rfl := List.mem_singleton.1 hp
    refine depthAfter_cons.2 ⟨depth + 1, by simp [depthChar], ?_⟩
    rw [depthAfter_append (iht (depth + 1))]
    exact depthAfter_cons.2 ⟨depth, by simp [depthChar, hne.symm], ihu depth⟩

/-- A text that closes `depth` brackets more than it opens, and is nested between those. -/
def Closes (pair : Char × Char) : (depth : Nat) → Text → Prop
  | 0, t => Nested [pair] t
  | depth + 1, t => ∃ u v, t = u ++ pair.2 :: v ∧ Nested [pair] u ∧ Closes pair depth v

theorem Closes.append {depth : Nat} {t u : Text} (ht : Nested [pair] t)
    (hu : Closes pair depth u) : Closes pair depth (t ++ u) := by
  cases depth with
  | zero => exact ht.append hu
  | succ depth =>
    obtain ⟨v, w, rfl, hv, hw⟩ := hu
    exact ⟨t ++ v, w, (List.append_assoc _ _ _).symm, ht.append hv, hw⟩

/-- Counting down to zero from any depth closes that many brackets. The induction is along the text,
and an open bracket finds its partner in what one depth more closes. -/
theorem closes_of_depthAfter {depth : Nat} {t : Text} (h : depthAfter pair depth t = some 0) :
    Closes pair depth t := by
  induction t generalizing depth with
  | nil =>
    cases h
    exact .nil
  | cons c t ih =>
    obtain ⟨n, hc, ht⟩ := depthAfter_cons.1 h
    have hrest := ih ht
    by_cases hopen : c = pair.1
    · subst hopen
      obtain rfl : depth + 1 = n := by simpa [depthChar] using hc
      obtain ⟨u, v, rfl, hu, hv⟩ := hrest
      have hpair : Nested [pair] (pair.1 :: (u ++ [pair.2])) :=
        .pair List.mem_cons_self hu .nil
      simpa using hv.append hpair
    · by_cases hclose : c = pair.2
      · subst hclose
        cases depth with
        | zero => simp [depthChar, hopen] at hc
        | succ depth =>
          obtain rfl : depth = n := by simpa [depthChar, hopen] using hc
          exact ⟨[], t, rfl, .nil, hrest⟩
      · obtain rfl : depth = n := by simpa [depthChar, hopen, hclose] using hc
        have hplain : Nested [pair] [c] := .plain (by simp [hopen, hclose]) .nil
        exact hrest.append hplain

/-- A text is nested exactly if counting along it ends where it began and never goes below. -/
theorem nested_iff (hne : pair.1 ≠ pair.2) {t : Text} :
    Nested [pair] t ↔ depthAfter pair 0 t = some 0 :=
  ⟨fun h => h.depthAfter_eq hne 0, closes_of_depthAfter⟩

end

theorem braces_iff_nested {t : Text} : braces 0 t = some 0 ↔ Nested [('\x7b', '\x7d')] t := by
  rw [braces_eq_depthAfter, nested_iff (by decide)]

/-- The parentheses of a text balance exactly if its strings are closed and the parentheses are
nested without them. -/
theorem parens_iff_nested {t : Text} :
    parens (0, false) t = some (0, false) ↔
      t.count '"' % 2 = 0 ∧ Nested [('(', ')')] (withoutStrings false t) := by
  have htrack : parens (0, false) t =
      (depthAfter ('(', ')') 0 (withoutStrings false t)).map fun n =>
        (n, false ^^ (t.count '"' % 2 == 1)) := by
    rw [parens, track_eq_withoutStrings,
      track_eq_depthAfter ('(', ')') 0 (quote_not_mem_withoutStrings false t),
      Option.map_map]
    rfl
  rw [htrack, nested_iff (by decide), Option.map_eq_some_iff]
  constructor
  · rintro ⟨n, hdepth, heq⟩
    obtain ⟨rfl, hstring⟩ := Prod.mk.inj heq
    exact ⟨by simpa using hstring, hdepth⟩
  · rintro ⟨hclosed, hdepth⟩
    exact ⟨0, hdepth, by simp [hclosed]⟩

/-! ### Partners in a text -/

/-- The parentheses at bytes `start` and `close` are partners. The second stands outside the string
literals counted from the first, and without these the text between the two is nested. -/
def Partners (t : Text) (start close : Int) : Prop :=
  ∃ front inside rest : Text, t = front ++ '(' :: (inside ++ ')' :: rest) ∧
    start = front.byteLength ∧ close = (front ++ '(' :: inside).byteLength ∧
    inside.count '"' % 2 = 0 ∧ Nested [('(', ')')] (withoutStrings false inside)

/-- From byte `start` to before byte `stop` stands a block: a text in braces, in which braces are
nested. A quote is a character like others there. -/
def IsBlock (t : Text) (start : Int) (body : Text) (stop : Int) : Prop :=
  ∃ front rest : Text, t = front ++ '\x7b' :: (body ++ '\x7d' :: rest) ∧
    start = front.byteLength ∧ stop = (front ++ '\x7b' :: (body ++ ['\x7d'])).byteLength ∧
    Nested [('\x7b', '\x7d')] body

theorem partners_iff {t : Text} {start close : Int} :
    Partners t start close ↔
      ∃ n m : Nat, start = n ∧ close = m ∧ closingOffset t n = some m := by
  constructor
  · rintro ⟨front, inside, rest, rfl, rfl, rfl, hnested⟩
    refine ⟨_, _, rfl, rfl, closingOffset_eq_some_iff.2 ⟨front, inside, rest, rfl, rfl, ?_, ?_⟩⟩
    · rw [byteLength_append_paren]
    · exact parens_iff_nested.2 hnested
  · rintro ⟨n, m, rfl, rfl, hclose⟩
    obtain ⟨front, inside, rest, htext, rfl, rfl, hparens⟩ := closingOffset_eq_some_iff.1 hclose
    refine ⟨front, inside, rest, htext, rfl, ?_, parens_iff_nested.1 hparens⟩
    rw [byteLength_append_paren]

theorem isBlock_iff {t body : Text} {start stop : Int} :
    IsBlock t start body stop ↔
      ∃ n m : Nat, start = n ∧ stop = m ∧ blockAt t n = some (body, m) := by
  constructor
  · rintro ⟨front, rest, rfl, rfl, rfl, hnested⟩
    refine ⟨_, _, rfl, rfl, blockAt_eq_some_iff.2 ⟨front, rest, rfl, rfl, ?_, ?_⟩⟩
    · rw [byteLength_append_block]
    · exact braces_iff_nested.2 hnested
  · rintro ⟨n, m, rfl, rfl, hblock⟩
    obtain ⟨front, rest, htext, rfl, rfl, hbraces⟩ := blockAt_eq_some_iff.1 hblock
    refine ⟨front, rest, htext, rfl, ?_, braces_iff_nested.1 hbraces⟩
    rw [byteLength_append_block]

/-! ### The indices that are found -/

theorem closingIndex_eq_iff {t : Text} {start close : Int} :
    closingIndex t start = close ∧ 0 ≤ close ↔ Partners t start close := by
  rw [partners_iff]
  constructor
  · rintro ⟨rfl, hle⟩
    cases start with
    | negSucc n => cases hle
    | ofNat n =>
      cases hclose : closingOffset t n with
      | none =>
        rw [closingIndex, hclose] at hle
        cases hle
      | some m => exact ⟨n, m, rfl, by rw [closingIndex, hclose]; rfl, hclose⟩
  · rintro ⟨n, m, rfl, rfl, hclose⟩
    refine ⟨?_, Int.natCast_nonneg m⟩
    change ((closingOffset t n).map Int.ofNat).getD (-1) = m
    rw [hclose]
    rfl

theorem closingIndex_cases (t : Text) (start : Int) :
    closingIndex t start = -1 ∨ 0 ≤ closingIndex t start := by
  cases start with
  | negSucc n => exact .inl rfl
  | ofNat n =>
    rw [closingIndex]
    cases closingOffset t n with
    | none => exact .inl rfl
    | some m => exact .inr (Int.natCast_nonneg m)

theorem blockFrom_eq_iff {t body : Text} {start stop : Int} :
    blockFrom t start = (body, stop, true) ↔ IsBlock t start body stop := by
  rw [isBlock_iff]
  constructor
  · intro h
    cases start with
    | negSucc n => cases h
    | ofNat n =>
      cases hblock : blockAt t n with
      | none =>
        rw [blockFrom, hblock] at h
        cases h
      | some block =>
        rw [blockFrom, hblock] at h
        cases h
        exact ⟨n, block.2, rfl, rfl, hblock⟩
  · rintro ⟨n, m, rfl, rfl, hblock⟩
    change ((blockAt t n).map _).getD _ = _
    rw [hblock]
    rfl

theorem blockFrom_cases (t : Text) (start : Int) :
    blockFrom t start = ([], start, false) ∨
      ∃ body stop, blockFrom t start = (body, stop, true) := by
  cases start with
  | negSucc n => exact .inl rfl
  | ofNat n =>
    rw [blockFrom]
    cases blockAt t n with
    | none => exact .inl rfl
    | some block => exact .inr ⟨block.1, block.2, rfl⟩

/-- Brackets are matched exactly. The index found for a parenthesis is that of its partner, the
block found at a brace is the nested text up to the partner of the brace, and there is one such
partner at most. Where there is none, the index is -1, and no block is found. -/
theorem matching_exact (t : Text) (start : Int) :
    (∀ close, closingIndex t start = close ∧ 0 ≤ close ↔ Partners t start close) ∧
    (∀ body stop, blockFrom t start = (body, stop, true) ↔ IsBlock t start body stop) ∧
    (∀ close close', Partners t start close → Partners t start close' → close = close') ∧
    (∀ body stop body' stop', IsBlock t start body stop → IsBlock t start body' stop' →
      body = body' ∧ stop = stop') ∧
    (closingIndex t start = -1 ↔ ¬ ∃ close, Partners t start close) ∧
    (blockFrom t start = ([], start, false) ↔ ¬ ∃ body stop, IsBlock t start body stop) := by
  refine ⟨fun close => closingIndex_eq_iff, fun body stop => blockFrom_eq_iff, ?_, ?_, ?_, ?_⟩
  · intro close close' h h'
    exact (closingIndex_eq_iff.2 h).1.symm.trans (closingIndex_eq_iff.2 h').1
  · intro body stop body' stop' h h'
    have heq := (blockFrom_eq_iff.2 h).symm.trans (blockFrom_eq_iff.2 h')
    cases heq
    exact ⟨rfl, rfl⟩
  · constructor
    · rintro hnone ⟨close, h⟩
      obtain ⟨hclose, hle⟩ := closingIndex_eq_iff.2 h
      omega
    · intro hnone
      refine (closingIndex_cases t start).resolve_right fun hle => hnone ?_
      exact ⟨_, closingIndex_eq_iff.1 ⟨rfl, hle⟩⟩
  · constructor
    · rintro hnone ⟨body, stop, h⟩
      rw [blockFrom_eq_iff.2 h] at hnone
      cases hnone
    · intro hnone
      refine (blockFrom_cases t start).resolve_right fun ⟨body, stop, h⟩ => hnone ?_
      exact ⟨body, stop, blockFrom_eq_iff.1 h⟩

/-- The text `é(")"(a)){"}"`: a parenthesis in a string, a quote in a block, and a letter of two
bytes in front. -/
def bracketSample : Text :=
  ['é', '(', '"', ')', '"', '(', 'a', ')', ')', '\x7b', '"', '\x7d', '"']

theorem matching_exact_bracketSample :
    closingIndex bracketSample 2 = 9 ∧ (∀ close, Partners bracketSample 2 close → close = 9) ∧
      blockFrom bracketSample 10 = (['"'], 13, true) ∧ IsBlock bracketSample 10 ['"'] 13 ∧
      (¬ ∃ close, Partners bracketSample 1 close) ∧
      ¬ ∃ body stop, IsBlock bracketSample (-1) body stop := by
  have hclose : closingIndex bracketSample 2 = 9 := by decide
  have hblock : blockFrom bracketSample 10 = (['"'], 13, true) := by decide
  obtain ⟨hpartners, -, hunique, -⟩ := matching_exact bracketSample 2
  obtain ⟨-, hblocks, -⟩ := matching_exact bracketSample 10
  obtain ⟨-, -, -, -, hinside, -⟩ := matching_exact bracketSample 1
  obtain ⟨-, -, -, -, -, hbefore⟩ := matching_exact bracketSample (-1)
  have hpartner : Partners bracketSample 2 9 := (hpartners 9).1 ⟨hclose, by decide⟩
  exact ⟨hclose, fun close h => hunique close 9 h hpartner, hblock, (hblocks _ _).1 hblock,
    hinside.1 (by decide), hbefore.1 (by decide)⟩

end Scriptlet.Command
