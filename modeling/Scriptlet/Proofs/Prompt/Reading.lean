import Scriptlet.Prompt
import Scriptlet.Proofs.Script.Console

/-! Reading at the prompt. The lines that are gathered for one text depend on the lines alone, so
gathering from a list of prepared lines is cutting that list: off come the fewest lines that are no
longer incomplete, or all of them if they stay incomplete to the end. -/

namespace Scriptlet

namespace Text

theorem lines_singleton (t : Text) : lines [t] = t := by
  simp [lines, List.intercalate]

theorem lines_cons_cons (t u : Text) (ts : List Text) :
    lines (t :: u :: ts) = t ++ '\n' :: lines (u :: ts) := by
  simp [lines, List.intercalate]

theorem lines_cons_append (t u : Text) (ts : List Text) :
    lines ((t ++ '\n' :: u) :: ts) = lines (t :: u :: ts) := by
  rw [lines_cons_cons]
  cases ts with
  | nil => rw [lines_singleton, lines_singleton]
  | cons v ts => simp [lines_cons_cons]

/-- Lines in two groups are the first group, a newline, and the second. -/
theorem lines_append (t : Text) (ts : List Text) {us : List Text} (h : us ≠ []) :
    lines (t :: ts ++ us) = lines (t :: ts) ++ '\n' :: lines us := by
  obtain ⟨u, us, rfl⟩ := List.exists_cons_of_ne_nil h
  induction ts generalizing t with
  | nil => rw [lines_singleton, List.singleton_append, lines_cons_cons]
  | cons v ts ih =>
    rw [List.cons_append, List.cons_append, lines_cons_cons, ← List.cons_append, ih,
      lines_cons_cons]
    simp

end Text

namespace Prompt

open Script (Settings State)

/-- The next text after the lines that are pending, and the lines that are left. -/
def takeText (incomplete : Text → Bool) (pending : Text) : List Text → Option (Text × List Text)
  | [] => if pending.isEmpty then none else some (pending, [])
  | line :: lines =>
    if incomplete (addLine pending line) then takeText incomplete (addLine pending line) lines
    else some (addLine pending line, lines)

/-- Reading goes through the lines that a console is paired with, and stays at the end of the input
after the last of them. -/
structure Feeds (holds : List Text → Console → Prop) : Prop where
  line {line : Text} {lines : List Text} {c : Console} (h : holds (line :: lines) c)
    (prompt : Text) : (c.read prompt).1 = some (.ok line) ∧ holds lines (c.read prompt).2
  stop {c : Console} (h : holds [] c) (prompt : Text) :
    (c.read prompt).1 = some (.error .endOfInput) ∧ holds [] (c.read prompt).2

/-- Gathering takes the next text of the lines and leaves the others. -/
theorem Feeds.gather {holds : List Text → Console → Prop} (hfeeds : Feeds holds)
    (incomplete : Text → Bool) (pending : Text) {fuel : Nat} {lines : List Text} {c : Console}
    (hc : holds lines c) (hfuel : lines.length < fuel) :
    ∃ c', gather incomplete fuel pending c =
        ((takeText incomplete pending lines).map Prod.fst, c') ∧
      holds ((takeText incomplete pending lines).elim [] Prod.snd) c' := by
  induction lines generalizing pending fuel c with
  | nil =>
    obtain _ | fuel := fuel
    · omega
    rw [Prompt.gather, takeText]
    generalize hprompt : (if pending.isEmpty then mainPrompt else morePrompt) = prompt
    obtain ⟨hend, hrest⟩ := hfeeds.stop hc prompt
    have hread : c.read prompt = (some (.error .endOfInput), (c.read prompt).2) :=
      Prod.ext hend rfl
    rw [hread]
    refine ⟨(c.read prompt).2, ?_, ?_⟩
    · cases pending.isEmpty <;> rfl
    · cases pending.isEmpty <;> exact hrest
  | cons line lines ih =>
    obtain _ | fuel := fuel
    · omega
    rw [Prompt.gather, takeText]
    generalize hprompt : (if pending.isEmpty then mainPrompt else morePrompt) = prompt
    obtain ⟨hline, hrest⟩ := hfeeds.line hc prompt
    have hread : c.read prompt = (some (.ok line), (c.read prompt).2) := Prod.ext hline rfl
    rw [hread]
    by_cases hmore : incomplete (addLine pending line) = true
    · simp only [hmore, if_true]
      exact ih _ hrest (Nat.lt_of_succ_lt_succ hfuel)
    · simp only [hmore]
      exact ⟨(c.read prompt).2, rfl, hrest⟩

/-- A console that reads prepared lines changes in its reader and its prompts alone. -/
theorem feeds_prepared (c : Console) :
    Feeds fun lines c' => ∃ prompts,
      c' = { c with reader := .entries (lines.map .ok), prompts } where
  line := by
    rintro line lines _ ⟨prompts, rfl⟩ prompt
    exact ⟨rfl, prompts ++ [prompt], rfl⟩
  stop := by
    rintro _ ⟨prompts, rfl⟩ prompt
    exact ⟨rfl, prompts ++ [prompt], rfl⟩

/-- Once a text is begun, the lines that follow are added to it for as long as it is incomplete. -/
theorem takeText_of_pending (incomplete : Text → Bool) {pending : Text} (hpending : pending ≠ [])
    (hincomplete : incomplete pending = true) (lines : List Text) :
    ∃ more rest, lines = more ++ rest ∧
      takeText incomplete pending lines = some (Text.lines (pending :: more), rest) ∧
      (incomplete (Text.lines (pending :: more)) = false ∨ rest = []) ∧
      ∀ first, first <+: more → first ≠ more →
        incomplete (Text.lines (pending :: first)) = true := by
  induction lines generalizing pending with
  | nil =>
    refine ⟨[], [], rfl, ?_, .inr rfl, fun first hfirst hne => absurd (by simpa using hfirst) hne⟩
    simp [takeText, hpending, Text.lines_singleton]
  | cons line lines ih =>
    have hadd : addLine pending line = pending ++ '\n' :: line := by simp [addLine, hpending]
    have hone : Text.lines [pending, line] = pending ++ '\n' :: line := by
      rw [Text.lines_cons_cons, Text.lines_singleton]
    by_cases hmore : incomplete (pending ++ '\n' :: line) = true
    · obtain ⟨more, rest, hlines, htake, hend, hbefore⟩ :=
        @ih (pending ++ '\n' :: line) (by simp) hmore
      rw [Text.lines_cons_append] at htake hend
      refine ⟨line :: more, rest, by simp [hlines], ?_, hend, ?_⟩
      · rw [takeText, hadd, if_pos hmore, htake]
      · intro first hfirst hne
        obtain rfl | ⟨front, rfl, hfront⟩ := List.prefix_cons_iff.1 hfirst
        · rwa [Text.lines_singleton]
        · rw [← Text.lines_cons_append]
          apply hbefore front hfront
          rintro rfl
          exact hne rfl
    · refine ⟨[line], lines, rfl, ?_, .inl ?_, ?_⟩
      · rw [takeText, hadd, if_neg hmore, hone]
      · rw [hone]
        simpa using hmore
      · intro first hfirst hne
        obtain rfl | ⟨front, rfl, hfront⟩ := List.prefix_cons_iff.1 hfirst
        · rwa [Text.lines_singleton]
        · exact absurd (by simpa using hfront) hne

/-- The next text is made of the first lines. It is no longer incomplete unless it has them all, and
with fewer lines it was incomplete. -/
theorem takeText_shortest {incomplete : Text → Bool} (hempty : incomplete [] = false) (line : Text)
    (lines : List Text) :
    ∃ more rest, lines = more ++ rest ∧
      takeText incomplete [] (line :: lines) = some (Text.lines (line :: more), rest) ∧
      (incomplete (Text.lines (line :: more)) = false ∨ rest = []) ∧
      ∀ first, first <+: more → first ≠ more →
        incomplete (Text.lines (line :: first)) = true := by
  by_cases hmore : incomplete line = true
  · have hline : line ≠ [] := fun heq => by simp [heq, hempty] at hmore
    obtain ⟨more, rest, hlines, htake, hend⟩ := takeText_of_pending incomplete hline hmore lines
    refine ⟨more, rest, hlines, ?_, hend⟩
    simpa [takeText, addLine, hmore] using htake
  · refine ⟨[], lines, rfl, ?_, .inl ?_, fun first hfirst hne => absurd (by simpa using hfirst) hne⟩
    · simp [takeText, addLine, hmore, Text.lines_singleton]
    · simpa [Text.lines_singleton] using hmore

/-- Where the next text has more than one line, the first was incomplete. -/
theorem takeText_cons {incomplete : Text → Bool} (hempty : incomplete [] = false) (line : Text)
    (lines : List Text) :
    ∃ more rest, lines = more ++ rest ∧
      takeText incomplete [] (line :: lines) = some (Text.lines (line :: more), rest) ∧
      (incomplete (Text.lines (line :: more)) = false ∨ rest = []) ∧
      (more ≠ [] → incomplete line = true) := by
  obtain ⟨more, rest, hlines, htake, hend, hbefore⟩ := takeText_shortest hempty line lines
  refine ⟨more, rest, hlines, htake, hend, fun hmore => ?_⟩
  rw [← Text.lines_singleton line]
  exact hbefore [] List.nil_prefix hmore.symm

/-- Reading from prepared lines leaves all but the reader and the prompts as it was. -/
theorem readText_eq (settings : Settings) {lines : List Text} {s : State}
    (h : s.console.reader = .entries (lines.map .ok)) :
    ∃ prompts, readText settings s =
      (.done ((takeText (isIncomplete settings.ignore) [] lines).map Prod.fst),
        { s with console := { s.console with
            reader := .entries
              (((takeText (isIncomplete settings.ignore) [] lines).elim [] Prod.snd).map .ok)
            prompts } }) := by
  have hprepared : s.console = { s.console with
      reader := .entries (lines.map .ok), prompts := s.console.prompts } := by
    rw [← h]
  obtain ⟨_, hgather, prompts, rfl⟩ := (feeds_prepared s.console).gather
    (isIncomplete settings.ignore) [] ⟨_, hprepared⟩
    (show lines.length < s.console.reader.size + 1 by simp [h, Console.Reader.size])
  refine ⟨prompts, ?_⟩
  simp only [readText, next, hgather]

end Prompt

end Scriptlet
