import Scriptlet.Proofs.Command.Form

/-! What the arguments of a call are made of. The parenthesis that ends a call is matched against
parentheses alone, while the list of its arguments ends at the first bracket of either kind that
closes more than was opened. So the arguments make up the text between the parentheses exactly if
braces and parentheses nest in it; a brace too many cuts the arguments short, and one too few lets
them run on behind the call. -/

namespace Scriptlet

/-- Where a text is cut at a byte is one place. -/
theorem Text.append_inj_of_byteLength {a b a' b' : Text} (h : a ++ b = a' ++ b')
    (hlength : a.byteLength = a'.byteLength) : a = a' ∧ b = b' := by
  induction a generalizing a' with
  | nil =>
    cases a' with
    | nil => exact ⟨rfl, h⟩
    | cons c a' =>
      have hpos := c.utf8Size_pos
      rw [byteLength_nil, byteLength_cons] at hlength
      omega
  | cons c a ih =>
    cases a' with
    | nil =>
      have hpos := c.utf8Size_pos
      rw [byteLength_nil, byteLength_cons] at hlength
      omega
    | cons c' a' =>
      obtain ⟨rfl, htail⟩ := List.cons.inj h
      rw [byteLength_cons, byteLength_cons] at hlength
      obtain ⟨rfl, hrest⟩ := ih htail (by omega)
      exact ⟨rfl, hrest⟩

namespace Command

theorem eq_of_closingOffset {t : Text} {start close : Nat}
    (h : closingOffset t start = some close) :
    ∃ front inside rest : Text, t = front ++ '(' :: (inside ++ ')' :: rest) ∧
      front.byteLength = start ∧ start + 1 + inside.byteLength = close := by
  obtain ⟨front, inside, rest, htext, hfront, hclose, -⟩ := closingOffset_eq_some_iff.1 h
  exact ⟨front, inside, rest, htext, hfront, hclose⟩

/-- Arguments that are a text when they are joined with commas, up to a comma that ends it. -/
def MakeUp (args : List Text) (t : Text) : Prop :=
  t = List.intercalate [','] args ∨ t = List.intercalate [','] args ++ [',']

/-- Where an argument list ends: at a bracket that closes more than was opened, or with the text. -/
def EndsBefore (used left : Text) : Prop :=
  left = [] ∨
    brackets (0, false) used = some (0, false) ∧ ∃ c u, left = c :: u ∧ isClosing c = true

theorem exists_used_argumentsIn (t : Text) :
    ∃ used left, t = used ++ left ∧ MakeUp (argumentsIn t) used ∧ EndsBefore used left := by
  obtain ⟨used, left, htext, hjoin, hstop⟩ := exists_used_cutArguments (0, false) t
  exact ⟨used, left, htext, eq_intercalate_argumentsIn_of_all hjoin, hstop⟩

/-- Two texts that the same arguments make up, each followed by something else than a comma, are
one. -/
theorem MakeUp.unique {args : List Text} {t t' u u' : Text} (h : MakeUp args t)
    (h' : MakeUp args t') (heq : t ++ u = t' ++ u') (hu : u.head? ≠ some ',')
    (hu' : u'.head? ≠ some ',') : t = t' := by
  rcases h with rfl | rfl <;> rcases h' with rfl | rfl
  · rfl
  · rw [List.append_assoc, List.append_cancel_left_eq] at heq
    simp [heq] at hu
  · rw [List.append_assoc, List.append_cancel_left_eq] at heq
    simp [← heq] at hu'
  · rfl

theorem EndsBefore.head?_ne {used left : Text} (h : EndsBefore used left) :
    left.head? ≠ some ',' := by
  rcases h with rfl | ⟨-, c, u, rfl, hc⟩
  · simp
  · rintro ⟨rfl⟩
    cases hc

/-- The arguments make up what stands before a parenthesis exactly if brackets of both kinds nest
in it. -/
theorem makeUp_argumentsIn_iff (inside rest : Text) :
    MakeUp (argumentsIn (inside ++ ')' :: rest)) inside ↔
      brackets (0, false) inside = some (0, false) := by
  constructor
  · intro h
    obtain ⟨used, left, htext, hused, hends⟩ := exists_used_argumentsIn (inside ++ ')' :: rest)
    obtain rfl : inside = used := h.unique hused htext (by simp) hends.head?_ne
    rcases hends with rfl | ⟨hbrackets, -⟩
    · simp at htext
    · exact hbrackets
  · intro h
    rw [argumentsIn_close h (by rfl)]
    exact eq_intercalate_argumentsIn h

/-- A call has all of the text between its parentheses in its arguments, and nothing else, exactly
if braces and parentheses nest in that text. In every case the arguments make up what stands before
the first bracket of either kind that closes more than was opened. -/
theorem arguments_make_up_iff {t : Text} {start close : Nat}
    (h : closingOffset t start = some close) :
    ∃ front inside rest : Text, t = front ++ '(' :: (inside ++ ')' :: rest) ∧
      front.byteLength = start ∧ start + 1 + inside.byteLength = close ∧
      (MakeUp (arguments ('(' :: (inside ++ ')' :: rest))) inside ↔
        brackets (0, false) inside = some (0, false)) ∧
      (∃ used left, inside ++ ')' :: rest = used ++ left ∧
        MakeUp (arguments ('(' :: (inside ++ ')' :: rest))) used ∧ EndsBefore used left) ∧
      ∀ call, Statement.ofCall front (inside ++ ')' :: rest) = .call call →
        call.arguments = arguments ('(' :: (inside ++ ')' :: rest)) := by
  obtain ⟨front, inside, rest, htext, hstart, hclose⟩ := eq_of_closingOffset h
  refine ⟨front, inside, rest, htext, hstart, hclose, makeUp_argumentsIn_iff inside rest,
    exists_used_argumentsIn _, fun call hcall => ?_⟩
  rcases Statement.ofCall_cases front (inside ++ ')' :: rest) with ⟨fault, hfault⟩ | ⟨block, hblock⟩
  · rw [hfault] at hcall
    cases hcall
  · rw [hblock] at hcall
    cases hcall
    rfl

/-- The argument of `f(a}b)` loses what follows the brace. -/
theorem arguments_lost_after_brace :
    closingOffset "f(a\x7db)".toList 1 = some 5 ∧
      arguments "(a\x7db)".toList = [['a']] ∧
      ¬ MakeUp (arguments "(a\x7db)".toList) "a\x7db".toList := by
  have hclose : closingOffset "f(a\x7db)".toList 1 = some 5 := by decide
  refine ⟨hclose, by decide, ?_⟩
  obtain ⟨front, inside, rest, htext, hstart, hend, hiff, -⟩ := arguments_make_up_iff hclose
  have hcut : ['f'] ++ ('(' :: "a\x7db)".toList) = front ++ '(' :: (inside ++ ')' :: rest) := htext
  obtain ⟨-, hrest⟩ := Text.append_inj_of_byteLength hcut hstart.symm
  have hcut' : "a\x7db".toList ++ [')'] = inside ++ ')' :: rest := (List.cons.inj hrest).2
  obtain ⟨rfl, hrest'⟩ := Text.append_inj_of_byteLength hcut'
    (show 3 = inside.byteLength by omega)
  rw [← hrest'] at hiff
  exact fun h => absurd (hiff.1 h) (by decide)

end Command

end Scriptlet
