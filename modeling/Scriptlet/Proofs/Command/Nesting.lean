import Scriptlet.Proofs.Command.Bracket

/-! Properly nested text. Which brackets belong together is said by a grammar, for the characters
outside string literals. The trackers only follow how many brackets are open, one of them without
looking at braces; a properly nested text balances for both. A comma that stands in a string or
between brackets ends no argument, so a text with no other commas is one argument. -/

namespace Scriptlet.Command

/-! ### The grammar -/

/-- What is left of a text without its string literals. -/
def withoutStrings : (inString : Bool) → Text → Text
  | _, [] => []
  | inString, c :: t =>
    if c = '"' then withoutStrings (!inString) t
    else if inString then withoutStrings inString t
    else c :: withoutStrings inString t

/-- Every bracket of the given kinds has its partner, and what stands between them is nested too. -/
inductive Nested (pairs : List (Char × Char)) : Text → Prop
  | nil : Nested pairs []
  | plain {c : Char} {t : Text} (hc : ∀ p ∈ pairs, c ≠ p.1 ∧ c ≠ p.2) (ht : Nested pairs t) :
    Nested pairs (c :: t)
  | pair {p : Char × Char} {t u : Text} (hp : p ∈ pairs) (ht : Nested pairs t)
    (hu : Nested pairs u) : Nested pairs (p.1 :: (t ++ p.2 :: u))

/-- Parentheses and braces. -/
def bracketPairs : List (Char × Char) := [('(', ')'), ('\x7b', '\x7d')]

/-- A text that is one argument wherever it stands in a list. Its strings are closed, its brackets
are properly nested, and none of its commas stands outside of both. -/
structure StandsAlone (t : Text) : Prop where
  ne_nil : t ≠ []
  closed : t.count '"' % 2 = 0
  nested : Nested bracketPairs (withoutStrings false t)
  commas : ∀ u v, withoutStrings false t = u ++ ',' :: v →
    u.countP isClosing ≠ u.countP isOpening

theorem nested_of_plain {t : Text} (h : ∀ c ∈ t, c ∉ ['(', ')', '\x7b', '\x7d']) :
    Nested bracketPairs t := by
  induction t with
  | nil => exact .nil
  | cons c t ih =>
    obtain ⟨hc, ht⟩ := List.forall_mem_cons.1 h
    exact .plain (by simpa [bracketPairs, and_assoc] using hc) (ih ht)

/-! ### Tracking nested text -/

section

variable {opens closes : Char → Bool} {pairs : List (Char × Char)}

/-- Both brackets of a pair are counted, or neither is, and no other character is. -/
structure Follows (opens closes : Char → Bool) (pairs : List (Char × Char)) : Prop where
  pair : ∀ p ∈ pairs, ∀ depth, ∃ inner,
    trackChar opens closes (depth, false) p.1 = some (inner, false) ∧
      trackChar opens closes (inner, false) p.2 = some (depth, false)
  plain : ∀ c, c ≠ '"' → (∀ p ∈ pairs, c ≠ p.1 ∧ c ≠ p.2) → ∀ depth,
    trackChar opens closes (depth, false) c = some (depth, false)

theorem follows_parens : Follows (· == '(') (· == ')') bracketPairs where
  pair p hp depth := by
    rcases (by simpa [bracketPairs] using hp : p = ('(', ')') ∨ p = ('\x7b', '\x7d')) with rfl | rfl
    · exact ⟨depth + 1, by simp [trackChar]⟩
    · exact ⟨depth, by simp [trackChar]⟩
  plain c hquote hc depth := by
    obtain ⟨⟨hopen, hclose⟩, -⟩ : (c ≠ '(' ∧ c ≠ ')') ∧ c ≠ '\x7b' ∧ c ≠ '\x7d' := by
      simpa [bracketPairs] using hc
    simp [trackChar, hquote, hopen, hclose]

theorem follows_brackets : Follows isOpening isClosing bracketPairs where
  pair p hp depth := by
    rcases (by simpa [bracketPairs] using hp : p = ('(', ')') ∨ p = ('\x7b', '\x7d')) with rfl | rfl
    · exact ⟨depth + 1, by simp [trackChar, isOpening, isClosing]⟩
    · exact ⟨depth + 1, by simp [trackChar, isOpening, isClosing]⟩
  plain c hquote hc depth := by
    obtain ⟨⟨hopen, hclose⟩, hopen', hclose'⟩ :
        (c ≠ '(' ∧ c ≠ ')') ∧ c ≠ '\x7b' ∧ c ≠ '\x7d' := by
      simpa [bracketPairs] using hc
    simp [trackChar, isOpening, isClosing, hquote, hopen, hclose, hopen', hclose']

/-- A nested text leaves open what was open before. -/
theorem Nested.track_eq (hfollows : Follows opens closes pairs) {t : Text} (h : Nested pairs t)
    (hquote : '"' ∉ t) (depth : Nat) :
    track opens closes (depth, false) t = some (depth, false) := by
  induction h generalizing depth with
  | nil => rfl
  | @plain c t hc ht ih =>
    obtain ⟨hne, hrest⟩ := List.ne_and_not_mem_of_not_mem_cons hquote
    exact track_cons.2 ⟨_, hfollows.plain c hne.symm hc depth, ih hrest depth⟩
  | @pair p t u hp ht hu iht ihu =>
    obtain ⟨hinside, hrest⟩ : '"' ∉ t ∧ '"' ∉ u := by
      constructor <;> intro hmem <;> exact hquote (by simp [hmem])
    obtain ⟨inner, hopen, hclose⟩ := hfollows.pair p hp depth
    refine track_cons.2 ⟨_, hopen, ?_⟩
    rw [track_append (iht hinside inner)]
    exact track_cons.2 ⟨_, hclose, ihu hrest depth⟩

theorem quote_not_mem_withoutStrings (inString : Bool) (t : Text) :
    '"' ∉ withoutStrings inString t := by
  induction t generalizing inString with
  | nil => simp [withoutStrings]
  | cons c t ih =>
    rw [withoutStrings]
    split
    · exact ih _
    · next hc =>
      split
      · exact ih _
      · intro hmem
        rcases List.mem_cons.1 hmem with heq | hmem
        · exact hc heq.symm
        · exact ih _ hmem

/-- A quote more changes whether a string is open at the end. -/
theorem inString_quote_cons (inString : Bool) (t : Text) :
    (inString ^^ (('"' :: t).count '"' % 2 == 1)) = (!inString ^^ (t.count '"' % 2 == 1)) := by
  rw [List.count_cons_self]
  rcases Nat.mod_two_eq_zero_or_one (t.count '"') with heven | hodd
  · rw [show (t.count '"' + 1) % 2 = 1 by omega, heven]
    cases inString <;> rfl
  · rw [show (t.count '"' + 1) % 2 = 0 by omega, hodd]
    cases inString <;> rfl

/-- Tracking a text is tracking what is left of it without its string literals, while its quotes
open and close strings. -/
theorem track_eq_withoutStrings (depth : Nat) (inString : Bool) (t : Text) :
    track opens closes (depth, inString) t =
      (track opens closes (depth, false) (withoutStrings inString t)).map fun n =>
        (n.1, inString ^^ (t.count '"' % 2 == 1)) := by
  induction t generalizing depth inString with
  | nil => simp [track, withoutStrings]
  | cons c t ih =>
    have hstep (m : Nesting) (h : trackChar opens closes (depth, inString) c = some m) :
        track opens closes (depth, inString) (c :: t) = track opens closes m t := by
      rw [track, List.foldlM_cons, h]
      rfl
    by_cases hquote : c = '"'
    · subst hquote
      rw [hstep (depth, !inString) rfl, ih, inString_quote_cons]
      rfl
    · rw [List.count_cons_of_ne hquote, withoutStrings, if_neg hquote]
      cases inString with
      | true => rw [hstep (depth, true) (by simp [trackChar, hquote]), ih, if_pos rfl]
      | false =>
        rw [if_neg (by simp), track, track, List.foldlM_cons, List.foldlM_cons]
        cases hc : trackChar opens closes (depth, false) c with
        | none => rfl
        | some m =>
          obtain ⟨inner, inString⟩ := m
          obtain rfl : inString = false := by simpa [hquote] using trackChar_inString hc
          exact ih inner false

/-! ### One argument -/

theorem StandsAlone.track_eq {t : Text} (h : StandsAlone t)
    (hfollows : Follows opens closes bracketPairs) :
    track opens closes (0, false) t = some (0, false) := by
  have hnested := h.nested.track_eq hfollows (quote_not_mem_withoutStrings false t) 0
  rw [track_eq_withoutStrings, hnested, h.closed]
  rfl

end

/-- One character more or less of the text without its string literals, with the brackets it opens
or closes. -/
theorem withoutStrings_cons {n m : Nesting} {c : Char}
    (h : trackChar isOpening isClosing n c = some m) (t : Text) :
    withoutStrings n.2 (c :: t) = withoutStrings m.2 t ∧ m.1 = n.1 ∨
      withoutStrings n.2 (c :: t) = c :: withoutStrings m.2 t ∧
        m.1 + [c].countP isClosing = n.1 + [c].countP isOpening := by
  obtain ⟨depth, inString⟩ := n
  have hnot : isOpening c = true → isClosing c = false := by
    intro hopen
    rcases (by simpa [isOpening] using hopen : c = '(' ∨ c = '\x7b') with rfl | rfl <;> rfl
  unfold trackChar at h
  rw [withoutStrings]
  grind

/-- No argument ends in a text whose commas all stand in strings or between brackets. -/
theorem cutArguments_of_commas {n m : Nesting} {t : Text} (h : brackets n t = some m)
    (hcommas : ∀ u v, withoutStrings n.2 t = u ++ ',' :: v →
      u.countP isClosing ≠ n.1 + u.countP isOpening) :
    cutArguments n.1 n.2 t = (t, []) := by
  induction t generalizing n with
  | nil => rfl
  | cons c t ih =>
    obtain ⟨n', hc, ht⟩ := track_cons.1 h
    have hinside : c ≠ ',' ∨ n.2 = true ∨ 0 < n.1 := by
      apply Decidable.byContradiction
      intro hsplit
      obtain ⟨rfl, hstring, hdepth⟩ : c = ',' ∧ n.2 = false ∧ n.1 = 0 := by simpa using hsplit
      have hfirst : withoutStrings n.2 (',' :: t) = [] ++ ',' :: withoutStrings false t := by
        simp [withoutStrings, hstring]
      exact hcommas [] _ hfirst (by simp [hdepth])
    have hrest : ∀ u v, withoutStrings n'.2 t = u ++ ',' :: v →
        u.countP isClosing ≠ n'.1 + u.countP isOpening := by
      intro u v huv
      rcases withoutStrings_cons hc t with ⟨hsame, hdepth⟩ | ⟨hmore, hdepth⟩
      · rw [hdepth]
        exact hcommas u v (hsame.trans huv)
      · have hcounts := hcommas (c :: u) v (by rw [hmore, huv]; rfl)
        rw [← List.singleton_append, List.countP_append, List.countP_append] at hcounts
        omega
    rw [cutArguments_cons hc hinside, ih ht hrest]
    rfl

theorem StandsAlone.cutArguments_eq {t : Text} (h : StandsAlone t) :
    cutArguments 0 false t = (t, []) := by
  apply cutArguments_of_commas (n := (0, false)) (h.track_eq follows_brackets)
  intro u v huv
  rw [Nat.zero_add]
  exact h.commas u v huv

theorem StandsAlone.cons {c : Char} (hc : c ∉ ['"', ',', '(', ')', '\x7b', '\x7d']) {t : Text}
    (h : StandsAlone t) : StandsAlone (c :: t) := by
  obtain ⟨hquote, hcomma, hbrackets⟩ : c ≠ '"' ∧ c ≠ ',' ∧
      c ≠ '(' ∧ c ≠ ')' ∧ c ≠ '\x7b' ∧ c ≠ '\x7d' := by
    simpa using hc
  have hmore : withoutStrings false (c :: t) = c :: withoutStrings false t := by
    simp [withoutStrings, hquote]
  refine ⟨List.cons_ne_nil c t, ?_, ?_, ?_⟩
  · rw [List.count_cons_of_ne hquote]
    exact h.closed
  · rw [hmore]
    exact .plain (by simp [bracketPairs, hbrackets]) h.nested
  · intro u v huv
    rw [hmore] at huv
    cases u with
    | nil => exact absurd (List.cons.inj huv).1 hcomma
    | cons a u =>
      obtain ⟨rfl, hrest⟩ := List.cons.inj huv
      have hcounts := h.commas u v hrest
      rwa [List.countP_cons_of_neg (by simp [isClosing, hbrackets]),
        List.countP_cons_of_neg (by simp [isOpening, hbrackets])]

theorem StandsAlone.append {s : Text} (hs : ∀ c ∈ s, c ∉ ['"', ',', '(', ')', '\x7b', '\x7d'])
    {t : Text} (h : StandsAlone t) : StandsAlone (s ++ t) := by
  induction s with
  | nil => exact h
  | cons c s ih =>
    obtain ⟨hc, hs⟩ := List.forall_mem_cons.1 hs
    exact (ih hs).cons hc

theorem withoutStrings_quote {t : Text} (h : '"' ∉ t) : withoutStrings false t.quote = [] := by
  have hinside : withoutStrings true (t ++ ['"']) = [] := by
    induction t with
    | nil => rfl
    | cons c t ih =>
      obtain ⟨hc, ht⟩ := List.ne_and_not_mem_of_not_mem_cons h
      rw [List.cons_append, withoutStrings, if_neg hc.symm, if_pos rfl, ih ht]
  exact hinside

/-- Outside its strings a text without brackets and commas is one argument. -/
theorem standsAlone_of_plain {t : Text} (hne : t ≠ []) (hclosed : t.count '"' % 2 = 0)
    (h : ∀ c ∈ withoutStrings false t, c ∉ [',', '(', ')', '\x7b', '\x7d']) : StandsAlone t where
  ne_nil := hne
  closed := hclosed
  nested := nested_of_plain fun c hc hmem => h c hc (List.mem_cons_of_mem _ hmem)
  commas u v huv := by
    have hmem : ',' ∈ withoutStrings false t := by simp [huv]
    exact absurd List.mem_cons_self (h ',' hmem)

theorem standsAlone_quote {t : Text} (h : '"' ∉ t) : StandsAlone t.quote := by
  apply standsAlone_of_plain
  · exact List.cons_ne_nil _ _
  · simp [Text.quote, List.count_eq_zero.2 h]
  · simp [withoutStrings_quote h]

/-! ### Lists of arguments -/

section

variable {args : List Text} (h : ∀ t ∈ args, StandsAlone t)

include h

theorem parens_joined_standsAlone :
    parens (0, false) (List.intercalate [','] args) = some (0, false) :=
  track_join rfl rfl fun t ht => (h t ht).track_eq follows_parens

theorem brackets_joined_standsAlone :
    brackets (0, false) (List.intercalate [','] args) = some (0, false) :=
  track_join rfl rfl fun t ht => (h t ht).track_eq follows_brackets

/-- The arguments of a list are found again, whatever follows the list. -/
theorem argumentsIn_joined_standsAlone (rest : Text) :
    argumentsIn (List.intercalate [','] args ++ ')' :: rest) = args := by
  rw [argumentsIn_close (brackets_joined_standsAlone h) rfl]
  apply argumentsIn_join_of_uncut
  · intro hnil
    exact (h [] hnil).ne_nil rfl
  · intro t ht
    exact ⟨(h t ht).track_eq follows_brackets, (h t ht).cutArguments_eq⟩

end

end Scriptlet.Command
