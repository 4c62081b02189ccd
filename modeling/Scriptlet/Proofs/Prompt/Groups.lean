import Scriptlet.Proofs.Prompt.Reading

/-! Text after text at the prompt. Whatever the lines come from, reading on and on cuts them into
groups and uses every line once. A group ends with the first line after which its text is no longer
incomplete, or with the last line of all. -/

namespace Scriptlet

namespace Console

/-- The console after reading with each of the prompts. -/
def readAfter (c : Console) (prompts : List Text) : Console :=
  prompts.foldl (fun c prompt => (c.read prompt).2) c

/-- Whatever the prompts are, the console answers with the lines in turn and with the end of the
input from then on. -/
def Supplies : List Text → Console → Prop
  | [], c => ∀ prompts prompt, ((c.readAfter prompts).read prompt).1 = some (.error .endOfInput)
  | line :: lines, c => ∀ prompt,
      (c.read prompt).1 = some (.ok line) ∧ Supplies lines (c.read prompt).2

theorem Supplies.after_end {c : Console} (h : c.Supplies []) (prompt : Text) :
    (c.read prompt).2.Supplies [] :=
  fun prompts => h (prompt :: prompts)

/-! ### The size of the input -/

theorem length_nextLine {t line rest : Text} (h : nextLine t = some (line, rest)) :
    rest.length < t.length := by
  obtain ⟨⟨before, c, rest⟩, hsplit, heq⟩ := Option.map_eq_some_iff.1 h
  cases heq
  clear h
  induction t generalizing before with
  | nil => simp [Text.splitFirst] at hsplit
  | cons a t ih =>
    rw [Text.splitFirst] at hsplit
    split at hsplit
    · cases hsplit
      simp
    · obtain ⟨⟨before', c', rest'⟩, hsplit', heq⟩ := Option.map_eq_some_iff.1 hsplit
      cases heq
      have hlt := ih before' hsplit'
      rw [List.length_cons]
      omega

/-- Reading a line uses up some of the input. -/
theorem size_read {c : Console} {prompt line : Text} (h : (c.read prompt).1 = some (.ok line)) :
    (c.read prompt).2.reader.size < c.reader.size := by
  cases hreader : c.reader with
  | absent => simp [read, hreader] at h
  | entries rest =>
    cases rest with
    | nil => simp [read_nil hreader] at h
    | cons entry rest => simp [read_cons hreader, Reader.size]
  | stream t =>
    cases hnext : nextLine t with
    | none => simp [read, hreader, hnext] at h
    | some found =>
      simp only [read, hreader, hnext, Reader.size]
      exact length_nextLine hnext
  | dialogue t =>
    cases hnext : nextLine t with
    | none =>
      cases t with
      | nil => simp [read, hreader, hnext] at h
      | cons a t => simp [read, hreader, hnext, Reader.size]
    | some found =>
      simp only [read, hreader, hnext, Reader.size]
      exact length_nextLine hnext

theorem Supplies.length_le {lines : List Text} {c : Console} (h : c.Supplies lines) :
    lines.length ≤ c.reader.size := by
  induction lines generalizing c with
  | nil => simp
  | cons line lines ih =>
    obtain ⟨hread, hrest⟩ := h []
    have hlt := size_read hread
    have hle := ih hrest
    rw [List.length_cons]
    omega

/-! ### Consoles that supply lines -/

/-- A reader that is at its end and stays as it is. -/
theorem supplies_nil {r : Reader}
    (hend : ∀ c : Console, c.reader = r → ∀ prompt,
      (c.read prompt).1 = some (.error .endOfInput) ∧ (c.read prompt).2.reader = r)
    {c : Console} (h : c.reader = r) : c.Supplies [] := by
  intro prompts
  induction prompts generalizing c with
  | nil => exact fun prompt => (hend c h prompt).1
  | cons prompt prompts ih => exact ih (hend c h prompt).2

theorem supplies_entries {lines : List Text} {c : Console}
    (h : c.reader = .entries (lines.map .ok)) : c.Supplies lines := by
  induction lines generalizing c with
  | nil =>
    refine supplies_nil (fun c hc prompt => ?_) h
    rw [read_nil hc]
    exact ⟨rfl, hc⟩
  | cons line lines ih =>
    intro prompt
    rw [read_cons h]
    exact ⟨rfl, ih rfl⟩

/-- A dialogue supplies the lines of its text, without what ends them. -/
theorem supplies_dialogue {lines : List Text} {c : Console}
    (hplain : ∀ line ∈ lines, ∀ a ∈ line, Text.isLineEnd a = false)
    (h : c.reader = .dialogue (lines.flatMap (· ++ ['\n']))) : c.Supplies lines := by
  induction lines generalizing c with
  | nil =>
    refine supplies_nil (fun c hc prompt => ?_) h
    simp only [read, hc]
    exact ⟨rfl, hc⟩
  | cons line lines ih =>
    intro prompt
    have hline := hplain line List.mem_cons_self
    have hnext : nextLine ((line :: lines).flatMap (· ++ ['\n'])) =
        some (line ++ ['\n'], lines.flatMap (· ++ ['\n'])) := by
      rw [List.flatMap_cons, List.append_assoc, List.singleton_append, nextLine,
        Text.splitFirst_append (fun a ha => ?_) rfl]
      · rfl
      · have hend := hline a ha
        simp only [Text.isLineEnd, Bool.or_eq_false_iff] at hend
        exact hend.1
    have htrim : (line ++ ['\n']).trimEnd Text.isLineEnd = line := by
      rw [Text.trimEnd, List.reverse_append, List.reverse_singleton, List.singleton_append,
        List.dropWhile_cons_of_pos rfl, List.dropWhile_eq_self_iff.2, List.reverse_reverse]
      intro hne
      simpa using hline _ (List.mem_reverse.1 (List.getElem_mem hne))
    simp only [read, h, hnext, htrim, true_and]
    exact ih (fun line' hmem => hplain line' (List.mem_cons_of_mem _ hmem)) rfl

end Console

namespace Prompt

open Script (Settings State)

/-! ### One text -/

theorem feeds_supplies : Feeds fun lines c => c.Supplies lines where
  line h := h
  stop h prompt := ⟨h [] prompt, h.after_end prompt⟩

theorem readText_of_supplies (settings : Settings) {lines : List Text} {s : State}
    (h : s.console.Supplies lines) :
    ∃ s', readText settings s =
        (.done ((takeText (isIncomplete settings.ignore) [] lines).map Prod.fst), s') ∧
      s'.console.Supplies
        ((takeText (isIncomplete settings.ignore) [] lines).elim [] Prod.snd) := by
  obtain ⟨c', hgather, hsupplies⟩ := feeds_supplies.gather (isIncomplete settings.ignore) [] h
    (Nat.lt_succ_of_le h.length_le)
  exact ⟨{ s with console := c' }, by simp only [readText, next, hgather], hsupplies⟩

/-! ### All texts -/

/-- The lines of a group are no longer incomplete, unless nothing comes after them, and no fewer of
them would do. -/
structure Shortest (incomplete : Text → Bool) (group rest : List Text) : Prop where
  ne_nil : group ≠ []
  before : ∀ first, first ≠ [] → first <+: group → first ≠ group →
    incomplete (Text.lines first) = true
  ends : incomplete (Text.lines group) = false ∨ rest = []

/-- The lines fall into groups, each of which is the shortest that can be taken off. -/
inductive Cut (incomplete : Text → Bool) : List Text → List (List Text) → Prop
  | nil : Cut incomplete [] []
  | group {group rest : List Text} {groups : List (List Text)} :
      Shortest incomplete group rest → Cut incomplete rest groups →
      Cut incomplete (group ++ rest) (group :: groups)

/-- Reading on and on gives the texts, and then that there is nothing more. -/
inductive Reads (settings : Settings) : State → List Text → State → Prop
  | nothing {s s' : State} : readText settings s = (.done none, s') → Reads settings s [] s'
  | text {s s₁ s' : State} {t : Text} {ts : List Text} :
      readText settings s = (.done (some t), s₁) → Reads settings s₁ ts s' →
      Reads settings s (t :: ts) s'

/-- From lines that are left, the next text is the shortest group of them. -/
theorem readText_group (settings : Settings) {line : Text} {lines : List Text} {s : State}
    (h : s.console.Supplies (line :: lines)) :
    ∃ group rest s', line :: lines = group ++ rest ∧
      Shortest (isIncomplete settings.ignore) group rest ∧
      readText settings s = (.done (some (Text.lines group)), s') ∧ s'.console.Supplies rest := by
  obtain ⟨more, rest, rfl, htake, hend, hbefore⟩ :=
    takeText_shortest (show isIncomplete settings.ignore [] = false from rfl) line lines
  obtain ⟨s', hread, hsupplies⟩ := readText_of_supplies settings h
  rw [htake] at hread hsupplies
  refine ⟨line :: more, rest, s', rfl, ⟨by simp, ?_, hend⟩, hread, hsupplies⟩
  intro first hne hfirst hproper
  obtain rfl | ⟨front, rfl, hfront⟩ := List.prefix_cons_iff.1 hfirst
  · exact absurd rfl hne
  · apply hbefore front hfront
    rintro rfl
    exact hproper rfl

/-- Reading on and on loses no line and repeats none. The texts that are read are the groups of a
cut of the lines, each joined by newlines, and then the end is reported and nothing is left. -/
theorem readings_cut_lines (settings : Settings) {lines : List Text} {s : State}
    (h : s.console.Supplies lines) :
    ∃ groups s', Reads settings s (groups.map Text.lines) s' ∧ groups.flatten = lines ∧
      Cut (isIncomplete settings.ignore) lines groups ∧ s'.console.Supplies [] := by
  -- Every text takes a line, so the induction is on how many are left.
  induction hlength : lines.length using Nat.strongRecOn generalizing lines s with
  | ind n ih =>
    cases lines with
    | nil =>
      obtain ⟨s', hread, hend⟩ := readText_of_supplies settings h
      exact ⟨[], s', .nothing hread, rfl, .nil, hend⟩
    | cons line lines =>
      obtain ⟨group, rest, s₁, hlines, hshortest, hread, hrest⟩ := readText_group settings h
      rw [hlines] at hlength ⊢
      have hlt : rest.length < n := by
        have hpos := List.length_pos_iff.2 hshortest.ne_nil
        rw [List.length_append] at hlength
        omega
      obtain ⟨groups, s', hreads, hflatten, hcut, hend⟩ := ih rest.length hlt hrest rfl
      refine ⟨group :: groups, s', .text hread hreads, ?_, .group hshortest hcut, hend⟩
      rw [List.flatten_cons, hflatten]

/-- Lines with empty ones among them, a block over several, an `else` on its own, and a string that
is never closed. -/
def sampleLines : List Text :=
  ["x = 1".toList, [], "if (x == 1) \x7b".toList, [], "y = 2 \x7d".toList,
    "else \x7b y = 3 \x7d".toList, "\"left open".toList, []]

/-- A session that reads with the reader. -/
def readingWith (reader : Console.Reader) : State := { console := { reader } }

theorem readings_cut_sampleLines :
    (∃ groups s', Reads {} (readingWith (.entries (sampleLines.map .ok)))
        (groups.map Text.lines) s' ∧
      groups.flatten = sampleLines ∧ Cut (isIncomplete Command.defaultIgnore) sampleLines groups ∧
      s'.console.Supplies []) ∧
    ∃ groups s', Reads {} (readingWith (.dialogue (sampleLines.flatMap (· ++ ['\n']))))
        (groups.map Text.lines) s' ∧
      groups.flatten = sampleLines ∧ Cut (isIncomplete Command.defaultIgnore) sampleLines groups ∧
      s'.console.Supplies [] := by
  have hplain : ∀ line ∈ sampleLines, ∀ a ∈ line, Text.isLineEnd a = false := by
    have hall : (sampleLines.all fun line => !line.any Text.isLineEnd) = true := by decide +kernel
    intro line hline a ha
    have hline := List.all_eq_true.1 hall line hline
    rw [Bool.not_eq_true', List.any_eq_false] at hline
    exact Bool.eq_false_of_not_eq_true (hline a ha)
  exact ⟨readings_cut_lines {} (Console.supplies_entries rfl),
    readings_cut_lines {} (Console.supplies_dialogue hplain rfl)⟩

end Prompt

end Scriptlet
