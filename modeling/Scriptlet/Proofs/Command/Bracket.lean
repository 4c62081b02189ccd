import Scriptlet.Command.Form

/-! Brackets that balance. A tracker follows how many brackets are open along a text, and a matcher
that meets a text along which nothing is closed that was open before runs over it: the matching
bracket is looked for in what follows, and no argument ends inside brackets. -/

namespace Scriptlet

theorem Text.eq_append_of_dropBytes {n : Nat} {t u : Text} (h : dropBytes n t = some u) :
    ∃ front, t = front ++ u ∧ front.byteLength = n := by
  induction t generalizing n with
  | nil =>
    cases n with
    | zero =>
      cases h
      exact ⟨[], rfl, rfl⟩
    | succ n => cases h
  | cons c t ih =>
    cases n with
    | zero =>
      cases h
      exact ⟨[], rfl, rfl⟩
    | succ n =>
      rw [dropBytes] at h
      split at h
      · next hsize =>
        obtain ⟨front, rfl, hfront⟩ := ih h
        exact ⟨c :: front, rfl, by rw [byteLength_cons]; omega⟩
      · cases h

theorem Text.dropBytes_eq_some_iff {n : Nat} {t u : Text} :
    dropBytes n t = some u ↔ ∃ front, t = front ++ u ∧ front.byteLength = n := by
  constructor
  · exact eq_append_of_dropBytes
  · rintro ⟨front, rfl, rfl⟩
    exact dropBytes_append front u

namespace Command

/-! ### Following brackets -/

/-- The number of open brackets and whether a string is open. -/
abbrev Nesting := Nat × Bool

section Track

variable (opens closes : Char → Bool)

/-- Brackets count outside string literals. One that closes must have been opened. -/
def trackChar (n : Nesting) (c : Char) : Option Nesting :=
  if c = '"' then some (n.1, !n.2)
  else if n.2 then some n
  else if opens c then some (n.1 + 1, false)
  else if closes c then if n.1 = 0 then none else some (n.1 - 1, false)
  else some n

def track (n : Nesting) (t : Text) : Option Nesting := t.foldlM (trackChar opens closes) n

variable {opens closes}

theorem track_append {n m : Nesting} {t : Text} (h : track opens closes n t = some m) (u : Text) :
    track opens closes n (t ++ u) = track opens closes m u := by
  rw [track, List.foldlM_append]
  exact congrArg (Option.bind · _) h

theorem of_track_append {n m : Nesting} {t u : Text} (h : track opens closes n (t ++ u) = some m) :
    ∃ k, track opens closes n t = some k ∧ track opens closes k u = some m := by
  rw [track, List.foldlM_append] at h
  exact Option.bind_eq_some_iff.1 h

theorem track_cons {n m : Nesting} {c : Char} {t : Text} :
    track opens closes n (c :: t) = some m ↔
      ∃ n', trackChar opens closes n c = some n' ∧ track opens closes n' t = some m := by
  rw [track, List.foldlM_cons]
  exact Option.bind_eq_some_iff

/-- Further brackets around a character change nothing. -/
theorem trackChar_add {n m : Nesting} {c : Char} (h : trackChar opens closes n c = some m)
    (k : Nat) : trackChar opens closes (n.1 + k, n.2) c = some (m.1 + k, m.2) := by
  unfold trackChar at h ⊢
  grind

theorem track_add {n m : Nesting} {t : Text} (h : track opens closes n t = some m) (k : Nat) :
    track opens closes (n.1 + k, n.2) t = some (m.1 + k, m.2) := by
  induction t generalizing n with
  | nil =>
    cases h
    rfl
  | cons c t ih =>
    obtain ⟨n', hc, ht⟩ := track_cons.1 h
    exact track_cons.2 ⟨_, trackChar_add hc k, ih ht⟩

theorem track_string (depth : Nat) {t : Text} (h : '"' ∉ t) :
    track opens closes (depth, true) t = some (depth, true) := by
  induction t with
  | nil => rfl
  | cons c t ih =>
    obtain ⟨hc, ht⟩ := List.ne_and_not_mem_of_not_mem_cons h
    exact track_cons.2 ⟨_, by simp [trackChar, hc.symm], ih ht⟩

theorem track_quote (depth : Nat) {t : Text} (h : '"' ∉ t) :
    track opens closes (depth, false) t.quote = some (depth, false) := by
  have hclose : track opens closes (depth, true) (t ++ ['"']) = some (depth, false) := by
    rw [track_append (track_string depth h)]
    simp [track, trackChar]
  exact track_cons.2 ⟨(depth, true), by simp [trackChar], hclose⟩

/-- Characters that are no brackets and no quotes leave the nesting alone. -/
theorem track_plain (n : Nesting) {t : Text}
    (h : ∀ c ∈ t, c ≠ '"' ∧ opens c = false ∧ closes c = false) :
    track opens closes n t = some n := by
  induction t with
  | nil => rfl
  | cons c t ih =>
    obtain ⟨hq, ho, hc⟩ := h c List.mem_cons_self
    refine track_cons.2 ⟨n, ?_, ih fun a ha => h a (List.mem_cons_of_mem _ ha)⟩
    simp [trackChar, hq, ho, hc]

end Track

/-- The parentheses open after a text. -/
abbrev parens : Nesting → Text → Option Nesting := track (· == '(') (· == ')')

/-- The brackets of both kinds open after a text. -/
abbrev brackets : Nesting → Text → Option Nesting := track isOpening isClosing

theorem trackChar_eq_of_not_brace {n : Nesting} {c : Char}
    (h : n.2 = true ∨ c ∉ ['\x7b', '\x7d']) :
    trackChar (· == '(') (· == ')') n c = trackChar isOpening isClosing n c := by
  obtain ⟨depth, inString⟩ := n
  cases inString <;> simp_all [trackChar, isOpening, isClosing]

theorem brackets_eq_parens {n : Nesting} {t : Text} (h : ∀ c ∈ t, c ∉ ['\x7b', '\x7d']) :
    brackets n t = parens n t := by
  induction t generalizing n with
  | nil => rfl
  | cons c t ih =>
    obtain ⟨hc, ht⟩ := List.forall_mem_cons.1 h
    simp only [brackets, parens, track, List.foldlM_cons, trackChar_eq_of_not_brace (.inr hc)]
    exact congrArg _ (funext fun m => ih ht)

/-- Only a quote opens or closes a string. -/
theorem trackChar_inString {opens closes : Char → Bool} {n m : Nesting} {c : Char}
    (h : trackChar opens closes n c = some m) : m.2 = if c = '"' then !n.2 else n.2 := by
  unfold trackChar at h
  grind

/-- Braces count wherever they stand, also in strings. -/
def braceChar (depth : Nat) (c : Char) : Option Nat :=
  if c = '\x7b' then some (depth + 1)
  else if c = '\x7d' then if depth = 0 then none else some (depth - 1)
  else some depth

/-- Only the close brace of the block itself is not counted. -/
theorem braceChar_eq_none_iff {depth : Nat} {c : Char} :
    braceChar depth c = none ↔ c = '\x7d' ∧ depth = 0 := by
  unfold braceChar
  grind

/-- The braces open after a text. -/
def braces (depth : Nat) (t : Text) : Option Nat := t.foldlM braceChar depth

theorem braces_cons {depth depth' : Nat} {c : Char} {t : Text} :
    braces depth (c :: t) = some depth' ↔
      ∃ n, braceChar depth c = some n ∧ braces n t = some depth' := by
  rw [braces, List.foldlM_cons]
  exact Option.bind_eq_some_iff

theorem braceChar_eq {depth : Nat} {c : Char}
    (h : [c].count '\x7d' ≤ depth + [c].count '\x7b') :
    braceChar depth c = some (depth + [c].count '\x7b' - [c].count '\x7d') := by
  unfold braceChar
  split
  · next hopen =>
    subst hopen
    rfl
  · next hopen =>
    split
    · next hclose =>
      subst hclose
      have hpos : depth ≠ 0 := by simpa [Nat.one_le_iff_ne_zero] using h
      simp [hpos]
    · next hclose => simp [hopen, hclose]

/-- A text that closes no brace too many leaves open what it has not closed. -/
theorem braces_eq_count {depth : Nat} {t : Text}
    (h : ∀ u, u <+: t → u.count '\x7d' ≤ depth + u.count '\x7b') :
    braces depth t = some (depth + t.count '\x7b' - t.count '\x7d') := by
  induction t generalizing depth with
  | nil => rfl
  | cons c t ih =>
    have hcount : ∀ (a : Char) (u : Text), (c :: u).count a = [c].count a + u.count a :=
      fun a u => by rw [← List.count_append, List.singleton_append]
    have hc := h [c] (List.cons_prefix_cons.2 ⟨rfl, List.nil_prefix⟩)
    have hrest : ∀ u, u <+: t →
        u.count '\x7d' ≤ depth + [c].count '\x7b' - [c].count '\x7d' + u.count '\x7b' := by
      intro u hu
      have hle := h (c :: u) (List.cons_prefix_cons.2 ⟨rfl, hu⟩)
      have hopen := hcount '\x7b' u
      have hclose := hcount '\x7d' u
      omega
    have hopen := hcount '\x7b' t
    have hclose := hcount '\x7d' t
    refine braces_cons.2 ⟨_, braceChar_eq hc, ?_⟩
    rw [ih hrest]
    congr 1
    omega

/-! ### Matching parentheses and braces -/

theorem closeParen_cons {n m : Nesting} {c : Char}
    (h : trackChar (· == '(') (· == ')') n c = some m) (t : Text) :
    closeParen n.1 n.2 (c :: t) = keep c (closeParen m.1 m.2 t) := by
  obtain ⟨depth, inString⟩ := n
  unfold trackChar at h
  cases depth <;> simp only [closeParen] <;> grind

/-- The matching parenthesis is looked for after a text along which the parentheses nest. -/
theorem closeParen_append {n m : Nesting} {t : Text} (h : parens n t = some m) (u : Text) :
    closeParen n.1 n.2 (t ++ u) =
      (closeParen m.1 m.2 u).map fun (inside, rest) => (t ++ inside, rest) := by
  induction t generalizing n with
  | nil =>
    cases h
    simp
  | cons c t ih =>
    obtain ⟨n', hc, ht⟩ := track_cons.1 h
    rw [List.cons_append, closeParen_cons hc, ih ht]
    simp [keep, Function.comp_def]

theorem closeParen_balanced {t : Text} (h : parens (0, false) t = some (0, false)) (rest : Text) :
    closeParen 0 false (t ++ ')' :: rest) = some (t, rest) := by
  rw [closeParen_append h]
  simp [closeParen]

/-- The parentheses balance up to the one that is found. -/
theorem eq_of_closeParen {n : Nesting} {t inside rest : Text}
    (h : closeParen n.1 n.2 t = some (inside, rest)) :
    t = inside ++ ')' :: rest ∧ parens n inside = some (0, false) := by
  induction t generalizing n inside with
  | nil =>
    rw [closeParen] at h
    cases h
  | cons c t ih =>
    cases hc : trackChar (· == '(') (· == ')') n c with
    | none =>
      obtain ⟨depth, inString⟩ := n
      obtain ⟨rfl, rfl, rfl⟩ : c = ')' ∧ inString = false ∧ depth = 0 := by
        unfold trackChar at hc
        grind
      cases h
      exact ⟨rfl, rfl⟩
    | some m =>
      rw [closeParen_cons hc, keep] at h
      obtain ⟨⟨inside', rest'⟩, hrest, heq⟩ := Option.map_eq_some_iff.1 h
      cases heq
      obtain ⟨rfl, hparens⟩ := ih hrest
      exact ⟨rfl, track_cons.2 ⟨m, hc, hparens⟩⟩

theorem closeBrace_cons {depth depth' : Nat} {c : Char} (h : braceChar depth c = some depth')
    (t : Text) : closeBrace depth (c :: t) = keep c (closeBrace depth' t) := by
  unfold braceChar at h
  cases depth <;> simp only [closeBrace] <;> grind

theorem closeBrace_append {depth depth' : Nat} {t : Text} (h : braces depth t = some depth')
    (u : Text) :
    closeBrace depth (t ++ u) =
      (closeBrace depth' u).map fun (inside, rest) => (t ++ inside, rest) := by
  induction t generalizing depth with
  | nil =>
    cases h
    simp
  | cons c t ih =>
    obtain ⟨n, hc, ht⟩ := braces_cons.1 h
    rw [List.cons_append, closeBrace_cons hc, ih ht]
    simp [keep, Function.comp_def]

theorem closeBrace_balanced {t : Text} (h : braces 0 t = some 0) (rest : Text) :
    closeBrace 0 (t ++ '\x7d' :: rest) = some (t, rest) := by
  rw [closeBrace_append h]
  simp [closeBrace]

/-- The braces balance up to the one that is found. -/
theorem eq_of_closeBrace {depth : Nat} {t inside rest : Text}
    (h : closeBrace depth t = some (inside, rest)) :
    t = inside ++ '\x7d' :: rest ∧ braces depth inside = some 0 := by
  induction t generalizing depth inside with
  | nil => cases depth <;> cases h
  | cons c t ih =>
    cases hc : braceChar depth c with
    | none =>
      obtain ⟨rfl, rfl⟩ := braceChar_eq_none_iff.1 hc
      cases h
      exact ⟨rfl, rfl⟩
    | some n =>
      rw [closeBrace_cons hc, keep] at h
      obtain ⟨⟨inside', rest'⟩, hrest, heq⟩ := Option.map_eq_some_iff.1 h
      cases heq
      obtain ⟨rfl, hbraces⟩ := ih hrest
      exact ⟨rfl, braces_cons.2 ⟨n, hc, hbraces⟩⟩

theorem parenthesized?_eq_some_iff {t inside rest : Text} :
    parenthesized? t = some (inside, rest) ↔
      t = '(' :: (inside ++ ')' :: rest) ∧ parens (0, false) inside = some (0, false) := by
  constructor
  · intro h
    rw [parenthesized?.eq_def] at h
    split at h
    · obtain ⟨rfl, hparens⟩ := eq_of_closeParen (n := (0, false)) h
      exact ⟨rfl, hparens⟩
    · cases h
  · rintro ⟨rfl, hparens⟩
    exact closeParen_balanced hparens rest

theorem braced?_eq_some_iff {t body rest : Text} :
    braced? t = some (body, rest) ↔
      t = '\x7b' :: (body ++ '\x7d' :: rest) ∧ braces 0 body = some 0 := by
  constructor
  · intro h
    rw [braced?.eq_def] at h
    split at h
    · obtain ⟨rfl, hbraces⟩ := eq_of_closeBrace h
      exact ⟨rfl, hbraces⟩
    · cases h
  · rintro ⟨rfl, hbraces⟩
    exact closeBrace_balanced hbraces rest

/-! ### Offsets -/

theorem byteLength_append_paren (front inside : Text) :
    (front ++ '(' :: inside).byteLength = front.byteLength + 1 + inside.byteLength := by
  rw [Text.byteLength_append, Text.byteLength_cons, show Char.utf8Size '(' = 1 from rfl]
  omega

theorem byteLength_append_block (front body : Text) :
    (front ++ '\x7b' :: (body ++ ['\x7d'])).byteLength =
      front.byteLength + body.byteLength + 2 := by
  simp only [Text.byteLength_append, Text.byteLength_cons, Text.byteLength_nil,
    show Char.utf8Size '\x7b' = 1 from rfl, show Char.utf8Size '\x7d' = 1 from rfl]
  omega

/-- The parenthesis at `start` and the one that closes it, with the text between them. -/
theorem closingOffset_eq_some_iff {t : Text} {start close : Nat} :
    closingOffset t start = some close ↔
      ∃ front inside rest : Text, t = front ++ '(' :: (inside ++ ')' :: rest) ∧
        front.byteLength = start ∧ start + 1 + inside.byteLength = close ∧
        parens (0, false) inside = some (0, false) := by
  constructor
  · intro h
    obtain ⟨u, hdrop, h⟩ := Option.bind_eq_some_iff.1 h
    obtain ⟨⟨inside, rest⟩, hparen, h⟩ := Option.bind_eq_some_iff.1 h
    cases h
    obtain ⟨front, rfl, hfront⟩ := Text.dropBytes_eq_some_iff.1 hdrop
    obtain ⟨rfl, hparens⟩ := parenthesized?_eq_some_iff.1 hparen
    exact ⟨front, inside, rest, rfl, hfront, rfl, hparens⟩
  · rintro ⟨front, inside, rest, rfl, rfl, rfl, hparens⟩
    refine Option.bind_eq_some_iff.2 ⟨_, Text.dropBytes_append front _, ?_⟩
    exact Option.bind_eq_some_iff.2
      ⟨(inside, rest), parenthesized?_eq_some_iff.2 ⟨rfl, hparens⟩, rfl⟩

/-- The block between the brace at `start` and the one that closes it. -/
theorem blockAt_eq_some_iff {t body : Text} {start stop : Nat} :
    blockAt t start = some (body, stop) ↔
      ∃ front rest : Text, t = front ++ '\x7b' :: (body ++ '\x7d' :: rest) ∧
        front.byteLength = start ∧ start + body.byteLength + 2 = stop ∧
        braces 0 body = some 0 := by
  constructor
  · intro h
    obtain ⟨u, hdrop, h⟩ := Option.bind_eq_some_iff.1 h
    obtain ⟨⟨inside, rest⟩, hbrace, h⟩ := Option.bind_eq_some_iff.1 h
    cases h
    obtain ⟨front, rfl, hfront⟩ := Text.dropBytes_eq_some_iff.1 hdrop
    obtain ⟨rfl, hbraces⟩ := braced?_eq_some_iff.1 hbrace
    exact ⟨front, rest, rfl, hfront, rfl, hbraces⟩
  · rintro ⟨front, rest, rfl, rfl, rfl, hbraces⟩
    refine Option.bind_eq_some_iff.2 ⟨_, Text.dropBytes_append front _, ?_⟩
    exact Option.bind_eq_some_iff.2 ⟨(body, rest), braced?_eq_some_iff.2 ⟨rfl, hbraces⟩, rfl⟩

/-! ### Arguments -/

/-- A text in front of the current argument. -/
def extendBy (t : Text) : Text × List Text → Text × List Text :=
  fun (arg, others) => (t ++ arg, others)

theorem extend_extendBy (c : Char) (t : Text) (all : Text × List Text) :
    extend c (extendBy t all) = extendBy (c :: t) all := rfl

/-- A character that is no comma between arguments belongs to the current one. -/
theorem cutArguments_cons {n m : Nesting} {c : Char}
    (h : trackChar isOpening isClosing n c = some m)
    (hc : c ≠ ',' ∨ n.2 = true ∨ 0 < n.1) (t : Text) :
    cutArguments n.1 n.2 (c :: t) = extend c (cutArguments m.1 m.2 t) := by
  obtain ⟨depth, inString⟩ := n
  unfold trackChar at h
  cases depth <;> simp only [cutArguments] <;> grind

theorem cutArguments_comma (t : Text) :
    cutArguments 0 false (',' :: t) =
      ([], (cutArguments 0 false t).1 :: (cutArguments 0 false t).2) := by
  simp [cutArguments, isOpening, isClosing]

/-- Any character belongs to the current argument, except a comma outside everything. -/
theorem cutArguments_step {n m : Nesting} {c : Char}
    (h : trackChar isOpening isClosing n c = some m) :
    (∀ t, cutArguments n.1 n.2 (c :: t) = extend c (cutArguments m.1 m.2 t)) ∨
      c = ',' ∧ n = (0, false) ∧ m = (0, false) := by
  by_cases hcomma : c ≠ ',' ∨ n.2 = true ∨ 0 < n.1
  · exact .inl (cutArguments_cons h hcomma)
  · obtain ⟨rfl, hstring, hdepth⟩ : c = ',' ∧ n.2 = false ∧ n.1 = 0 := by simpa using hcomma
    obtain rfl : n = (0, false) := Prod.ext hdepth hstring
    obtain rfl : m = (0, false) := by simpa [trackChar, isOpening, isClosing, eq_comm] using h
    exact .inr ⟨rfl, rfl, rfl⟩

/-- Inside brackets no argument ends. -/
theorem cutArguments_inside {n m : Nesting} {t : Text} (h : brackets n t = some m) (u : Text) :
    cutArguments (n.1 + 1) n.2 (t ++ u) = extendBy t (cutArguments (m.1 + 1) m.2 u) := by
  induction t generalizing n with
  | nil =>
    cases h
    rfl
  | cons c t ih =>
    obtain ⟨n', hc, ht⟩ := track_cons.1 h
    rw [List.cons_append, cutArguments_cons (n := (n.1 + 1, n.2)) (trackChar_add hc 1) (by simp),
      ih ht, extend_extendBy]

/-- Inside a string literal no argument ends. -/
theorem cutArguments_string (depth : Nat) {t : Text} (h : '"' ∉ t) (u : Text) :
    cutArguments depth true (t ++ u) = extendBy t (cutArguments depth true u) := by
  induction t with
  | nil => rfl
  | cons c t ih =>
    obtain ⟨hc, ht⟩ := List.ne_and_not_mem_of_not_mem_cons h
    have hstep : trackChar isOpening isClosing (depth, true) c = some (depth, true) := by
      simp [trackChar, hc.symm]
    rw [List.cons_append, cutArguments_cons hstep (by simp), ih ht, extend_extendBy]

theorem cutArguments_quote {t : Text} (h : '"' ∉ t) (u : Text) :
    cutArguments 0 false (t.quote ++ u) = extendBy t.quote (cutArguments 0 false u) := by
  have hopen : trackChar isOpening isClosing (0, false) '"' = some (0, true) := by
    simp [trackChar]
  have hclose : trackChar isOpening isClosing (0, true) '"' = some (0, false) := by
    simp [trackChar]
  have hquote : t.quote ++ u = '"' :: (t ++ '"' :: u) := by simp [Text.quote]
  rw [hquote, cutArguments_cons hopen (by simp), cutArguments_string 0 h,
    cutArguments_cons hclose (by simp)]
  simp [extend, extendBy, Text.quote]

/-- All arguments of a text, an empty one at the end included. -/
def allArguments (t : Text) : List Text := (cutArguments 0 false t).1 :: (cutArguments 0 false t).2

theorem argumentsIn_eq (t : Text) :
    argumentsIn t =
      if (allArguments t).getLast? = some [] then (allArguments t).dropLast
      else allArguments t := rfl

/-- Leaving out an empty argument at the end touches nothing up to one that is not empty. -/
theorem argumentsIn_of_allArguments {t x : Text} {xs ys : List Text}
    (h : allArguments t = xs ++ x :: ys) (hx : x ≠ []) : ∃ zs, argumentsIn t = xs ++ x :: zs := by
  rw [argumentsIn_eq, h]
  split
  · next hlast =>
    cases ys with
    | nil => exact absurd (by simpa using hlast) hx
    | cons y ys => exact ⟨(y :: ys).dropLast, by simp [List.dropLast_append_of_ne_nil]⟩
  · exact ⟨ys, rfl⟩

/-- An argument list ends at the first bracket that closes more than was opened. -/
theorem cutArguments_close {n : Nesting} {t : Text} (h : brackets n t = some (0, false)) {c : Char}
    (hc : isClosing c = true) (u : Text) :
    cutArguments n.1 n.2 (t ++ c :: u) = cutArguments n.1 n.2 t := by
  induction t generalizing n with
  | nil =>
    cases h
    rcases (by simpa [isClosing] using hc : c = ')' ∨ c = '\x7d') with rfl | rfl <;>
      simp [cutArguments, isOpening, isClosing]
  | cons a t ih =>
    obtain ⟨m, ha, ht⟩ := track_cons.1 h
    obtain hcons | ⟨rfl, rfl, rfl⟩ := cutArguments_step ha
    · rw [List.cons_append, hcons, hcons, ih ht]
    · rw [List.cons_append, cutArguments_comma, cutArguments_comma, ih ht]

theorem argumentsIn_close {t : Text} (h : brackets (0, false) t = some (0, false)) {c : Char}
    (hc : isClosing c = true) (u : Text) : argumentsIn (t ++ c :: u) = argumentsIn t := by
  rw [argumentsIn, argumentsIn, cutArguments_close h hc]

theorem intercalate_extend (c : Char) (all : Text × List Text) :
    List.intercalate [','] ((extend c all).1 :: (extend c all).2) =
      c :: List.intercalate [','] (all.1 :: all.2) := by
  obtain ⟨arg, others⟩ := all
  cases others <;> simp [extend, List.intercalate]

/-- Joined again, all arguments are the text up to the first bracket that closes more than was
opened, or the whole text. -/
theorem exists_used_cutArguments (n : Nesting) (t : Text) :
    ∃ used left, t = used ++ left ∧
      List.intercalate [','] ((cutArguments n.1 n.2 t).1 :: (cutArguments n.1 n.2 t).2) = used ∧
      (left = [] ∨
        brackets n used = some (0, false) ∧ ∃ c u, left = c :: u ∧ isClosing c = true) := by
  induction t generalizing n with
  | nil => exact ⟨[], [], rfl, by simp [cutArguments], .inl rfl⟩
  | cons c t ih =>
    cases hc : trackChar isOpening isClosing n c with
    | none =>
      obtain ⟨depth, inString⟩ := n
      obtain ⟨hquote, rfl, hopen, hclose, rfl⟩ : c ≠ '"' ∧ inString = false ∧ isOpening c = false ∧
          isClosing c = true ∧ depth = 0 := by
        unfold trackChar at hc
        grind
      refine ⟨[], c :: t, rfl, ?_, .inr ⟨rfl, c, t, rfl, hclose⟩⟩
      simp [cutArguments, hquote, hopen, hclose]
    | some m =>
      obtain ⟨used, left, rfl, hjoin, hstop⟩ := ih m
      refine ⟨c :: used, left, rfl, ?_,
        hstop.imp_right fun ⟨hused, hleft⟩ => ⟨track_cons.2 ⟨m, hc, hused⟩, hleft⟩⟩
      obtain hcons | ⟨rfl, rfl, rfl⟩ := cutArguments_step hc
      · rw [hcons, intercalate_extend, hjoin]
      · rw [cutArguments_comma]
        simpa [List.intercalate] using hjoin

theorem trackChar_closing {c : Char} (h : isClosing c = true) :
    trackChar isOpening isClosing (0, false) c = none := by
  rcases (by simpa [isClosing] using h : c = ')' ∨ c = '\x7d') with rfl | rfl <;>
    simp [trackChar, isOpening, isClosing]

/-- Arguments with commas between them make up the text. -/
theorem intercalate_cutArguments {n : Nesting} {t : Text} (h : brackets n t = some (0, false)) :
    List.intercalate [','] ((cutArguments n.1 n.2 t).1 :: (cutArguments n.1 n.2 t).2) = t := by
  obtain ⟨used, left, rfl, hjoin, rfl | ⟨hused, c, u, rfl, hclose⟩⟩ := exists_used_cutArguments n t
  · rw [hjoin, List.append_nil]
  · obtain ⟨m, hm, -⟩ := track_cons.1 ((track_append hused _).symm.trans h)
    rw [trackChar_closing hclose] at hm
    cases hm

/-- A comma outside all brackets begins a new argument. -/
theorem cutArguments_append_comma {n : Nesting} {t : Text} (h : brackets n t = some (0, false))
    (u : Text) :
    cutArguments n.1 n.2 (t ++ ',' :: u) =
      ((cutArguments n.1 n.2 t).1, (cutArguments n.1 n.2 t).2 ++ allArguments u) := by
  induction t generalizing n with
  | nil =>
    cases h
    rw [List.nil_append, cutArguments_comma]
    rfl
  | cons a t ih =>
    obtain ⟨m, ha, ht⟩ := track_cons.1 h
    obtain hcons | ⟨rfl, rfl, rfl⟩ := cutArguments_step ha
    · rw [List.cons_append, hcons, hcons, ih ht]
      rfl
    · rw [List.cons_append, cutArguments_comma, cutArguments_comma, ih ht]
      rfl

theorem allArguments_append_comma {t : Text} (h : brackets (0, false) t = some (0, false))
    (u : Text) : allArguments (t ++ ',' :: u) = allArguments t ++ allArguments u := by
  rw [allArguments, cutArguments_append_comma h]
  rfl

theorem intercalate_append_nil (x : Text) (xs : List Text) :
    List.intercalate [','] (x :: xs ++ [[]]) = List.intercalate [','] (x :: xs) ++ [','] := by
  induction xs generalizing x with
  | nil => simp [List.intercalate]
  | cons y ys ih =>
    have := ih y
    simp_all [List.intercalate]

/-- Without the empty argument at the end, what the arguments make up may have lost a comma. -/
theorem eq_intercalate_argumentsIn_of_all {t used : Text}
    (h : List.intercalate [','] (allArguments t) = used) :
    used = List.intercalate [','] (argumentsIn t) ∨
      used = List.intercalate [','] (argumentsIn t) ++ [','] := by
  by_cases hlast : (allArguments t).getLast? = some []
  · obtain ⟨ys, hys⟩ := List.getLast?_eq_some_iff.1 hlast
    have hargs : argumentsIn t = ys := by
      rw [argumentsIn_eq, if_pos hlast, hys, List.dropLast_concat]
    rw [hys] at h
    rw [hargs]
    cases ys with
    | nil => exact .inl h.symm
    | cons x xs => exact .inr (h.symm.trans (intercalate_append_nil x xs))
  · left
    rw [argumentsIn_eq, if_neg hlast, h]

/-- Joined again, the arguments are the text, up to a comma that ends it. -/
theorem eq_intercalate_argumentsIn {t : Text} (h : brackets (0, false) t = some (0, false)) :
    t = List.intercalate [','] (argumentsIn t) ∨
      t = List.intercalate [','] (argumentsIn t) ++ [','] :=
  eq_intercalate_argumentsIn_of_all (intercalate_cutArguments h)

theorem track_of_comma {opens closes : Char → Bool} (hopens : opens ',' = false)
    (hcloses : closes ',' = false) {n : Nesting} {t u : Text} (h : t = u ∨ t = u ++ [','])
    (ht : track opens closes n t = some (0, false)) : track opens closes n u = some (0, false) := by
  rcases h with rfl | rfl
  · exact ht
  · obtain ⟨k, hk, hcomma⟩ := of_track_append ht
    obtain rfl : k = (0, false) := by simpa [track, trackChar, hopens, hcloses] using hcomma
    exact hk

/-- The arguments of a list joined again are the same ones. -/
theorem argumentsIn_intercalate {t : Text} (h : brackets (0, false) t = some (0, false))
    (hne : [] ∉ argumentsIn t) :
    argumentsIn (List.intercalate [','] (argumentsIn t)) = argumentsIn t := by
  have hjoin := eq_intercalate_argumentsIn h
  have hbalanced := track_of_comma rfl rfl hjoin h
  generalize hu : List.intercalate [','] (argumentsIn t) = u at hjoin hbalanced
  rcases hjoin with rfl | rfl
  · rfl
  · -- The empty argument after the comma is left out of the whole text, and is not in the rest.
    have hall : argumentsIn (u ++ [',']) = allArguments u := by
      have hnil : allArguments [] = [[]] := rfl
      rw [argumentsIn_eq, allArguments_append_comma hbalanced, hnil, List.getLast?_concat,
        if_pos rfl,
        List.dropLast_concat]
    rw [hall] at hne ⊢
    rw [argumentsIn_eq, if_neg fun hend => hne (List.mem_of_getLast? hend)]

/-- A text that is one argument wherever it stands in a list. -/
structure IsArgument (t : Text) : Prop where
  ne_nil : t ≠ []
  nests : brackets (0, false) t = some (0, false)
  plain : ',' ∉ t

theorem cutArguments_of_not_mem {n m : Nesting} {t : Text} (h : brackets n t = some m)
    (hcomma : ',' ∉ t) : cutArguments n.1 n.2 t = (t, []) := by
  induction t generalizing n with
  | nil => rfl
  | cons c t ih =>
    obtain ⟨hc, ht⟩ := List.ne_and_not_mem_of_not_mem_cons hcomma
    obtain ⟨n', hn', hrest⟩ := track_cons.1 h
    rw [cutArguments_cons hn' (.inl hc.symm), ih hrest ht]
    rfl

/-- Texts in which no argument ends are the arguments of their list. -/
theorem argumentsIn_join_of_uncut {args : List Text} (hne : [] ∉ args)
    (h : ∀ t ∈ args, brackets (0, false) t = some (0, false) ∧ cutArguments 0 false t = (t, [])) :
    argumentsIn (List.intercalate [','] args) = args := by
  cases args with
  | nil => rfl
  | cons t args =>
    have hall : allArguments (List.intercalate [','] (t :: args)) = t :: args := by
      clear hne
      induction args generalizing t with
      | nil =>
        rw [List.intercalate_singleton, allArguments, (h t List.mem_cons_self).2]
      | cons u args ih =>
        obtain ⟨⟨ht, huncut⟩, hargs⟩ := List.forall_mem_cons.1 h
        have hjoin : List.intercalate [','] (t :: u :: args) =
            t ++ ',' :: List.intercalate [','] (u :: args) := by
          simp
        rw [hjoin, allArguments_append_comma ht, ih u hargs, allArguments, huncut]
        rfl
    have hlast : (t :: args).getLast? ≠ some [] := fun hlast => hne (List.mem_of_getLast? hlast)
    rw [argumentsIn_eq, hall, if_neg hlast]

/-- Arguments with commas between them are the arguments of their list. -/
theorem argumentsIn_join {args : List Text} (h : ∀ t ∈ args, IsArgument t) :
    argumentsIn (List.intercalate [','] args) = args := by
  apply argumentsIn_join_of_uncut
  · intro hnil
    exact (h [] hnil).ne_nil rfl
  · intro t ht
    exact ⟨(h t ht).nests, cutArguments_of_not_mem (h t ht).nests (h t ht).plain⟩

theorem IsArgument.argumentsIn_eq {t : Text} (h : IsArgument t) : argumentsIn t = [t] := by
  have hjoin : argumentsIn (List.intercalate [','] [t]) = [t] :=
    argumentsIn_join (List.forall_mem_singleton.2 h)
  rwa [List.intercalate_singleton] at hjoin

theorem track_join {opens closes : Char → Bool} (hopens : opens ',' = false)
    (hcloses : closes ',' = false) {args : List Text}
    (h : ∀ t ∈ args, track opens closes (0, false) t = some (0, false)) :
    track opens closes (0, false) (List.intercalate [','] args) = some (0, false) := by
  induction args with
  | nil => rfl
  | cons t args ih =>
    obtain ⟨ht, hargs⟩ := List.forall_mem_cons.1 h
    cases args with
    | nil => simpa using ht
    | cons u args =>
      have hjoin : List.intercalate [','] (t :: u :: args) =
          t ++ ',' :: List.intercalate [','] (u :: args) := by
        simp
      have hcomma : trackChar opens closes (0, false) ',' = some (0, false) := by
        simp [trackChar, hopens, hcloses]
      rw [hjoin, track_append ht]
      exact track_cons.2 ⟨_, hcomma, ih hargs⟩

end Command

end Scriptlet
