import Scriptlet.Proofs.Command.Expansion
import Scriptlet.Proofs.Command.Form
import Scriptlet.Proofs.Command.Nesting
import Scriptlet.Proofs.Command.Shape

/-! Counting loops. The variable of a counting loop is quoted by cutting the command behind its
first argument, and what comes out is taken apart again by three readers: for the arguments, for the
parenthesis that ends them, and for the block. All four agree on where the parts are, whatever
strings, brackets, commas and further `=` stand in them. -/

namespace Scriptlet.Command

/-- The parts of a counting loop. -/
structure Counting where
  counter : Text
  start : Text
  condition : Text
  step : Text
  block : Text

namespace Counting

/-- The loop as it is cut off from a script. -/
def command (l : Counting) : Text :=
  ['f', 'o', 'r', '('] ++ l.counter ++ '=' :: l.start ++ ',' :: l.condition ++ ',' :: l.step ++
    ')' :: '\x7b' :: l.block ++ ['\x7d']

/-- The call that the loop stands for, up to the parenthesis that ends its arguments. -/
def head (l : Counting) : Text :=
  ['f', 'o', 'r', '('] ++ l.counter.quote ++ ',' :: l.start ++ ',' :: l.condition ++ ',' :: l.step

/-- The call that the loop stands for. -/
def call (l : Counting) : Text := l.head ++ ')' :: '\x7b' :: (l.block ++ ['\x7d'])

/-- The variable is made of name characters, every other part between the parentheses is one
argument, and the braces of the block balance. -/
structure WellFormed (l : Counting) : Prop where
  counter : ∀ c ∈ l.counter, Text.isNameChar c = true
  start : StandsAlone l.start
  condition : StandsAlone l.condition
  step : StandsAlone l.step
  braces_eq : l.block.count '\x7d' = l.block.count '\x7b'
  braces_le : ∀ t, t <+: l.block → t.count '\x7d' ≤ t.count '\x7b'

/-- The first argument of the loop, which the expansion cuts in two. -/
def declaration (l : Counting) : Text := l.counter ++ '=' :: l.start

/-- What follows the arguments. -/
def ending (l : Counting) : Text := '\x7b' :: (l.block ++ ['\x7d'])

variable {l : Counting}

theorem command_eq (l : Counting) :
    l.command = ['f', 'o', 'r', '('] ++
      (List.intercalate [','] [l.declaration, l.condition, l.step] ++ ')' :: l.ending) := by
  simp [command, declaration, ending]

theorem call_eq (l : Counting) :
    l.call = ['f', 'o', 'r'] ++ '(' ::
      (List.intercalate [','] [l.counter.quote, l.start, l.condition, l.step] ++
        ')' :: l.ending) := by
  simp [call, head, ending]

theorem WellFormed.not_mark (h : l.WellFormed) :
    ∀ c ∈ l.counter, c ∉ ['"', ',', '(', ')', '\x7b', '\x7d', '='] := fun c hc =>
  Text.not_mem_of_isNameChar (by simp [Text.marks]) (h.counter c hc)

theorem WellFormed.declaration (h : l.WellFormed) : StandsAlone l.declaration := by
  apply StandsAlone.append
  · intro c hc
    have hmark := h.not_mark c hc
    simp_all
  · exact h.start.cons (by decide)

theorem WellFormed.quoted (h : l.WellFormed) : StandsAlone l.counter.quote := by
  apply standsAlone_quote
  intro hquote
  exact h.not_mark '"' hquote (by simp)

theorem WellFormed.standAlone (h : l.WellFormed) :
    ∀ t ∈ [l.counter.quote, l.start, l.condition, l.step], StandsAlone t := by
  simp [h.quoted, h.start, h.condition, h.step]

/-- The variable ends at the first `=`, and no quote begins it. -/
theorem WellFormed.countCall_eq (h : l.WellFormed) {others : List Text} {rest : Text}
    (hargs : argumentsIn (l.declaration ++ rest) = l.declaration :: others) :
    countCall (l.declaration ++ rest) =
      ['f', 'o', 'r', '('] ++ l.counter.quote ++ ',' :: l.start ++ rest := by
  have hsplit : l.declaration.splitFirst (· == '=') = some (l.counter, '=', l.start) := by
    apply Text.splitFirst_append
    · intro c hc
      have hmark := h.not_mark c hc
      simp_all
    · rfl
  obtain ⟨c, t, hfirst, hquote⟩ : ∃ c t, l.declaration = c :: t ∧ c ≠ '"' := by
    cases hcounter : l.counter with
    | nil => exact ⟨'=', l.start, by simp [Counting.declaration, hcounter], by decide⟩
    | cons c t =>
      refine ⟨c, t ++ '=' :: l.start, by simp [Counting.declaration, hcounter], ?_⟩
      intro heq
      exact h.not_mark c (by simp [hcounter]) (by simp [heq])
  have hdrop : (l.declaration ++ rest).drop l.declaration.length = rest := List.drop_left
  rw [hfirst] at hargs hsplit hdrop ⊢
  simp only [countCall, hargs, List.cons.injEq, hquote, false_and, IsEmpty.forall_iff, implies_true,
    hsplit, hdrop]

theorem WellFormed.expandOne_eq (h : l.WellFormed) (latest : Option Text) :
    expandOne latest l.command = some l.call := by
  let rest : Text := ',' :: l.condition ++ ',' :: l.step ++ ')' :: l.ending
  have hcommand : l.command = ['f', 'o', 'r', '('] ++ (l.declaration ++ rest) := by
    simp [rest, command_eq]
  have hargs : argumentsIn (l.declaration ++ rest) =
      l.declaration :: [l.condition, l.step] := by
    have hjoined := argumentsIn_joined_standsAlone
      (show ∀ t ∈ [l.declaration, l.condition, l.step], StandsAlone t by
        simp [h.declaration, h.condition, h.step]) l.ending
    simpa [rest] using hjoined
  have hne : l.declaration ++ rest ≠ [] := by simp [rest]
  simp only [hcommand, expandOne, opening_for hne, h.countCall_eq hargs]
  simp [rest, call, head, ending]

theorem WellFormed.arguments_call (h : l.WellFormed) :
    arguments l.call = [l.counter.quote, l.start, l.condition, l.step] := by
  have hname : ∀ c ∈ ['f', 'o', 'r'], (c == '(') = false := by simp
  rw [call_eq, arguments, Text.splitFirst_append hname rfl]
  exact argumentsIn_joined_standsAlone h.standAlone l.ending

theorem WellFormed.closingOffset_call (h : l.WellFormed) :
    closingOffset l.call 3 = some l.head.byteLength := by
  let inside : Text := List.intercalate [','] [l.counter.quote, l.start, l.condition, l.step]
  have hhead : l.head = ['f', 'o', 'r'] ++ '(' :: inside := by simp [head, inside]
  rw [hhead, byteLength_append_paren]
  exact closingOffset_eq_some_iff.2 ⟨['f', 'o', 'r'], inside, l.ending, call_eq l, rfl, rfl,
    parens_joined_standsAlone h.standAlone⟩

theorem WellFormed.blockAt_call (h : l.WellFormed) :
    blockAt l.call (l.head.byteLength + 1) = some (l.block, l.call.byteLength) := by
  have hbraces : braces 0 l.block = some 0 := by
    rw [braces_eq_count (by simpa using h.braces_le), h.braces_eq]
    simp
  have hlength : (l.head ++ [')']).byteLength = l.head.byteLength + 1 := by
    rw [Text.byteLength_append]
    rfl
  have hcall : l.call = l.head ++ [')'] ++ '\x7b' :: (l.block ++ ['\x7d']) := by simp [call]
  rw [hcall, ← hlength]
  exact blockAt_balanced (l.head ++ [')']) hbraces

end Counting

/-- A counting loop keeps its parts. Wherever it stands, it is expanded to the call with its
variable quoted; the arguments of that call are the quoted variable and the three texts, the
parenthesis that closes the first one is that before the block, and the block that is found there is
the one of the loop and ends the call. -/
theorem counting_keeps_parts {l : Counting} (h : l.WellFormed) :
    expand [l.command] = .ok [l.call] ∧
    (∀ (commands expanded : List Text) (i : Nat), expand commands = .ok expanded →
      commands[i]? = some l.command → expanded[i]? = some l.call) ∧
    arguments l.call = [l.counter.quote, l.start, l.condition, l.step] ∧
    closingOffset l.call 3 = some l.head.byteLength ∧
    blockAt l.call (l.head.byteLength + 1) = some (l.block, l.call.byteLength) := by
  refine ⟨?_, ?_, h.arguments_call, h.closingOffset_call, h.blockAt_call⟩
  · exact expandFrom_cons_eq_ok.2 ⟨l.call, [], h.expandOne_eq none, rfl, rfl⟩
  · intro commands expanded i hexpand hcommand
    rw [expand_eq] at hexpand
    rw [getElem?_of_expandFrom hexpand i, hcommand, Option.bind_some]
    exact h.expandOne_eq _

/-- A loop with commas and brackets in strings, a list in braces, further `=` and letters of more
than one byte. -/
def sampleCounting : Counting where
  counter := ['ñ', '_', '1']
  start := ['f', '(', '"', ',', ')', '"', ',', '\x7b', '2', ',', '3', '\x7d', ')']
  condition := ['"', '\x7d', '(', ',', '"', '!', '=', 'ñ', '_', '1']
  step := ['ñ', '_', '1', '=', '4']
  block := ['i', 'f', '(', '1', ')', '\x7b', 'x', '=', '"', 'é', ')', '\x7d']

theorem sampleCounting_wellFormed : sampleCounting.WellFormed where
  counter := List.all_iff_forall_prop.1 (by decide +kernel)
  start := by
    refine ⟨by decide, by decide, ?_, ?_⟩
    · have hlist : Nested bracketPairs ['2', ',', '3'] := nested_of_plain (by simp)
      have hinside : Nested bracketPairs [',', '\x7b', '2', ',', '3', '\x7d'] :=
        .plain (by simp [bracketPairs])
          (.pair (p := ('\x7b', '\x7d')) (by simp [bracketPairs]) hlist .nil)
      exact .plain (by simp [bracketPairs])
        (.pair (p := ('(', ')')) (by simp [bracketPairs]) hinside .nil)
    · have hinits : ∀ u ∈ (withoutStrings false sampleCounting.start).inits,
          u ++ [','] <+: withoutStrings false sampleCounting.start →
            u.countP isClosing ≠ u.countP isOpening := by
        decide
      intro u v huv
      exact hinits u ((List.mem_inits u _).2 ⟨',' :: v, huv.symm⟩) ⟨v, by simp [huv]⟩
  condition := standsAlone_of_plain (by decide) (by decide)
    (by simp [sampleCounting, withoutStrings])
  step := standsAlone_of_plain (by decide) (by decide) (by simp [sampleCounting, withoutStrings])
  braces_eq := by decide
  braces_le := by
    have hinits : ∀ t ∈ sampleCounting.block.inits, t.count '\x7d' ≤ t.count '\x7b' := by decide
    intro t ht
    exact hinits t ((List.mem_inits t _).2 ht)

theorem sampleCounting_keeps_parts :
    sampleCounting.call =
      "for(\"ñ_1\",f(\",)\",\x7b2,3\x7d),\"\x7d(,\"!=ñ_1,ñ_1=4)\x7bif(1)\x7bx=\"é)\x7d\x7d".toList ∧
      expand [sampleCounting.command] = .ok [sampleCounting.call] ∧
      (arguments sampleCounting.call).length = 4 ∧
      closingOffset sampleCounting.call 3 = some 43 ∧
      blockAt sampleCounting.call 44 = some (sampleCounting.block, 59) := by
  obtain ⟨hexpand, -, hargs, hclose, hblock⟩ := counting_keeps_parts sampleCounting_wellFormed
  refine ⟨by decide, hexpand, ?_, hclose, hblock⟩
  rw [hargs]
  rfl

end Scriptlet.Command
