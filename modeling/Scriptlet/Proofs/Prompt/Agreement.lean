import Scriptlet.Proofs.Prompt.Reading
import Scriptlet.Proofs.Script.Join

/-! Typing a script in at the prompt. The prompt cuts the lines of a script into texts and runs each
by itself. Where no `else` is cut off from its `if` this comes to the same as running the script at
once: the same environment, the same store, and the same output but for the values that the prompt
shows. -/

namespace Scriptlet

/-! ### Blanks -/

namespace Text

theorem head?_trimEnd {p : Char → Bool} {c : Char} (hc : p c = false) (t : Text) :
    (trimEnd p (c :: t)).head? = some c := by
  obtain ⟨u, hu, hblank⟩ := trimEnd_append p (c :: t)
  cases htrim : trimEnd p (c :: t) with
  | nil =>
    rw [htrim, List.nil_append] at hu
    have hmem : c ∈ u := hu ▸ List.mem_cons_self
    exact absurd (hblank c hmem) (by simp [hc])
  | cons d v =>
    rw [htrim, List.cons_append] at hu
    rw [(List.cons.inj hu).1]
    rfl

/-- A trimmed text begins with the first character that is not blank. -/
theorem head?_trim (t : Text) : t.trim.head? = t.find? fun c => !isBlank c := by
  induction t with
  | nil => rfl
  | cons c t ih =>
    cases hc : isBlank c with
    | true =>
      rw [List.find?_cons_of_neg (by simp [hc]), ← ih, trim, List.dropWhile_cons_of_pos hc, trim]
    | false =>
      rw [List.find?_cons_of_pos (by simp [hc]), trim, List.dropWhile_cons_of_neg (by simp [hc]),
        head?_trimEnd hc]

/-- What follows a text that is not blank does not change how it begins. -/
theorem head?_trim_append {t : Text} (h : t.trim ≠ []) (u : Text) :
    (t ++ u).trim.head? = t.trim.head? := by
  rw [head?_trim, head?_trim, List.find?_append, Option.or_eq_left_of_isSome]
  rw [← head?_trim]
  cases htrim : t.trim with
  | nil => exact absurd htrim h
  | cons c v => rfl

end Text

/-! ### Cutting off a complete text -/

namespace Prompt

open Command (defaultIgnore parse split startsWithElse)

/-- What is left of a text from each beginning of a line outside of blocks and strings on. -/
def restarts (ignore text : Text) : List Text :=
  text :: (List.range text.length).filterMap fun n =>
    if text[n]? = some '\n' ∧ (split ignore (text.take n)).isOk then some (text.drop (n + 1))
    else none

def firstLine (t : Text) : Text := t.takeWhile (· != '\n')

/-- A text that can be cut at the beginnings of lines outside of blocks and strings: no `else` is
cut off from its `if`, and no line that looks blank is a command. -/
structure Linewise (ignore text : Text) : Prop where
  newline : '\n' ∉ ignore
  elses : ∀ rest ∈ restarts ignore text, (split ignore rest).toOption.any startsWithElse = false
  blanks : ∀ rest ∈ restarts ignore text, (firstLine rest).trim = [] →
    split ignore (firstLine rest) = .ok []

variable {ignore : Text}

theorem isIncomplete_eq_false {t : Text} :
    isIncomplete ignore t = false ↔ ∃ commands, split ignore t = .ok commands := by
  unfold isIncomplete parse
  cases split ignore t with
  | error e => simp
  | ok commands =>
    dsimp only
    cases Command.expand commands <;> exact iff_of_true rfl ⟨commands, rfl⟩

theorem mem_restarts {text rest : Text} :
    rest ∈ restarts ignore text ↔ rest = text ∨ ∃ before commands,
      text = before ++ '\n' :: rest ∧ split ignore before = .ok commands := by
  rw [restarts, List.mem_cons, List.mem_filterMap]
  refine or_congr_right ⟨?_, ?_⟩
  · rintro ⟨n, _, hcut⟩
    split at hcut
    · next hn =>
      obtain ⟨hnewline, hok⟩ := hn
      cases hcut
      cases hsplit : split ignore (text.take n) with
      | error e =>
        rw [hsplit] at hok
        cases hok
      | ok commands =>
        obtain ⟨hlt, hchar⟩ := List.getElem?_eq_some_iff.1 hnewline
        refine ⟨text.take n, commands, ?_, hsplit⟩
        rw [← hchar, ← List.drop_eq_getElem_cons hlt, List.take_append_drop]
    · cases hcut
  · rintro ⟨before, commands, rfl, hsplit⟩
    refine ⟨before.length, by simp, ?_⟩
    simp [hsplit, Except.isOk, Except.toBool]

/-- What is left of a text that can be cut can be cut on. -/
theorem Linewise.of_append {before rest : Text} {commands : List Text}
    (h : Linewise ignore (before ++ '\n' :: rest)) (hbefore : split ignore before = .ok commands) :
    Linewise ignore rest := by
  have hsubset : restarts ignore rest ⊆ restarts ignore (before ++ '\n' :: rest) := by
    intro rest' hrest'
    obtain rfl | ⟨between, found, rfl, hbetween⟩ := mem_restarts.1 hrest'
    · exact mem_restarts.2 (.inr ⟨before, commands, rfl, hbefore⟩)
    · refine mem_restarts.2 (.inr ⟨before ++ '\n' :: between, commands ++ found, by simp, ?_⟩)
      rw [Command.split_append_newline h.newline hbefore, hbetween]
      rfl
  exact ⟨h.newline, fun rest' hrest' => h.elses rest' (hsubset hrest'),
    fun rest' hrest' => h.blanks rest' (hsubset hrest')⟩

theorem linewise_nil (h : '\n' ∉ ignore) : Linewise ignore [] where
  newline := h
  elses _ hrest := by
    obtain rfl := List.mem_singleton.1 hrest
    rfl
  blanks _ hrest _ := by
    obtain rfl := List.mem_singleton.1 hrest
    rfl

/-- A text is loaded by loading what is cut off and what is left. -/
theorem Linewise.parse_cut {before rest : Text} {commands found : List Text}
    (h : Linewise ignore (before ++ '\n' :: rest)) (hbefore : split ignore before = .ok found)
    (hparse : parse ignore (before ++ '\n' :: rest) = .ok commands) :
    ∃ as bs, parse ignore before = .ok as ∧ parse ignore rest = .ok bs ∧ commands = as ++ bs := by
  obtain ⟨all, hall, hexpand⟩ := Command.parse_eq_ok.1 hparse
  rw [Command.split_append_newline h.newline hbefore] at hall
  cases hrest : split ignore rest with
  | error e =>
    rw [hrest] at hall
    cases hall
  | ok ys =>
    rw [hrest] at hall
    cases hall
    have helse := h.elses rest (mem_restarts.2 (.inr ⟨before, found, rfl, hbefore⟩))
    rw [hrest] at helse
    obtain ⟨as, bs, has, hbs, rfl⟩ := (Command.expand_append_eq_ok helse).1 hexpand
    exact ⟨as, bs, Command.parse_eq_ok.2 ⟨found, hbefore, has⟩,
      Command.parse_eq_ok.2 ⟨ys, hrest, hbs⟩, rfl⟩

theorem firstLine_lines {line : Text} (h : '\n' ∉ line) (more : List Text) :
    firstLine (Text.lines (line :: more)) = line := by
  have hall : ∀ c ∈ line, (c != '\n') = true := fun c hc => by
    simpa using fun heq : c = '\n' => h (heq ▸ hc)
  cases more with
  | nil => rw [Text.lines_singleton, firstLine, List.takeWhile_eq_self_iff.2 hall]
  | cons next others =>
    rw [Text.lines_cons_cons, firstLine, List.takeWhile_append_of_pos hall]
    simp

section

variable {line : Text} {more rest : List Text}
  (h : Linewise ignore (Text.lines (line :: more ++ rest)))

include h

/-- The first text is loaded by itself, and so are the lines that are left. -/
theorem Linewise.cut {commands : List Text}
    (hparse : parse ignore (Text.lines (line :: more ++ rest)) = .ok commands)
    (hend : isIncomplete ignore (Text.lines (line :: more)) = false ∨ rest = []) :
    ∃ as bs, parse ignore (Text.lines (line :: more)) = .ok as ∧
      parse ignore (Text.lines rest) = .ok bs ∧ commands = as ++ bs ∧
      Linewise ignore (Text.lines rest) := by
  by_cases hrest : rest = []
  · subst hrest
    rw [List.append_nil] at hparse
    exact ⟨commands, [], hparse, rfl, by simp, linewise_nil h.newline⟩
  · obtain ⟨found, hfound⟩ := isIncomplete_eq_false.1 (hend.resolve_right hrest)
    rw [Text.lines_append line more hrest] at h hparse
    obtain ⟨as, bs, has, hbs, hcommands⟩ := h.parse_cut hfound hparse
    exact ⟨as, bs, has, hbs, hcommands, h.of_append hfound⟩

/-- A first line that is blank holds no command. -/
theorem Linewise.split_blank (hplain : '\n' ∉ line) (hline : line.trim = []) :
    split ignore line = .ok [] := by
  have hfirst := firstLine_lines hplain (more ++ rest)
  rw [← List.cons_append] at hfirst
  have hblanks := h.blanks _ List.mem_cons_self
  rw [hfirst] at hblanks
  exact hblanks hline

variable (hplain : '\n' ∉ line) (hfirst : more ≠ [] → isIncomplete ignore line = true)

include hplain hfirst

/-- The first text begins as its first line does: a blank line is not incomplete, so that nothing
is added to it. -/
theorem Linewise.head?_trim :
    (Text.lines (line :: more)).trim.head? = line.trim.head? := by
  cases more with
  | nil => rw [Text.lines_singleton]
  | cons next others =>
    have hline : line.trim ≠ [] := fun hblank => by
      have hcomplete := isIncomplete_eq_false.2 ⟨[], h.split_blank hplain hblank⟩
      simp [hcomplete] at hfirst
    rw [Text.lines_cons_cons, Text.head?_trim_append hline]

/-- A first text that is blank holds no command. -/
theorem Linewise.parse_blank (hblank : (Text.lines (line :: more)).trim = []) :
    parse ignore (Text.lines (line :: more)) = .ok [] := by
  have hline : line.trim = [] := by
    rw [← List.head?_eq_none_iff, ← h.head?_trim hplain hfirst, hblank]
    rfl
  have hsplit := h.split_blank hplain hline
  obtain rfl : more = [] := by
    by_contra hmore
    exact absurd (hfirst hmore) (by simp [isIncomplete_eq_false.2 ⟨[], hsplit⟩])
  rw [Text.lines_singleton, parse, hsplit]
  rfl

end

/-! ### Turns -/

open Script

/-- Lines that are run together at the prompt, with their value and what they print. -/
structure Turn where
  lines : List Text
  value : Value
  printed : Text

def Turn.text (turn : Turn) : Text := Text.lines turn.lines

/-- A value is shown on a line of its own unless there is nothing to show. -/
def valueLine (v : Value) : Text := if v.display.isEmpty then [] else v.display ++ ['\n']

/-- What is seen of a turn. -/
def Turn.shown (turn : Turn) : Text := turn.printed ++ valueLine turn.value

/-- The texts of the turns are run as scripts one after another, and beside changing the environment
and the store they only print. -/
def Takes (settings : Settings) : List Turn → State → State → Prop
  | [], s, s' => s' = s
  | turn :: turns, s, s' => ∃ s₁, runScript settings turn.text s = (.done turn.value, s₁) ∧
      s₁.console = s.console.write turn.printed ∧ Takes settings turns s₁ s'

theorem Takes.console {settings : Settings} {turns : List Turn} {s s' : State}
    (h : Takes settings turns s s') :
    s'.console = s.console.write (turns.flatMap Turn.printed) := by
  induction turns generalizing s with
  | nil =>
    obtain rfl := h
    simp
  | cons turn turns ih =>
    obtain ⟨s₁, _, hconsole, hrest⟩ := h
    rw [ih hrest, hconsole]
    simp

/-- A turn that only prints is shown with its value. -/
theorem showValue_eq {settings : Settings} {turn : Turn} {s s₁ : State} {c : Console}
    (h : runScript settings turn.text { s with console := c } =
      (.done turn.value, { s₁ with console := c.write turn.printed })) :
    showValue (Session.evaluate settings turn.text) { s with console := c } =
      (.done (), { s₁ with console := c.write turn.shown }) := by
  unfold showValue Session.evaluate
  simp only [Action.bind_apply, Action.attempt, h, Action.pure_apply]
  cases hempty : turn.value.display.isEmpty with
  | true => simp [Turn.shown, valueLine, hempty, Action.pure_apply]
  | false => simp [Turn.shown, valueLine, hempty, say, Action.onConsole, Console.writeLine]

/-- Commands that read nothing read nothing up to a point between them either. -/
theorem run_cut {settings : Settings} {as bs : List Text} {s s₁ : State} {v : Value}
    (hs : s.console.IsPrepared)
    (hrun : runCommands (runCommand settings) (as ++ bs) s = (.done v, s₁))
    (hprompts : s₁.console.prompts = s.console.prompts) :
    ∃ u s₂ printed w, runCommands (runCommand settings) as s = (.done u, s₂) ∧
      Writes (runCommands (runCommand settings) as) s printed ∧
      s₂.console = s.console.write printed ∧
      runCommands (runCommand settings) bs s₂ = (.done w, s₁) := by
  rw [runCommands_append] at hrun
  obtain ⟨u, s₂, has, hbs⟩ := Action.bind_eq_done.1 hrun
  have hrest : ∃ w, runCommands (runCommand settings) bs s₂ = (.done w, s₁) := by
    cases bs with
    | nil => exact ⟨.null, by cases hbs; rfl⟩
    | cons b bs => exact ⟨v, hbs⟩
  obtain ⟨w, hrest⟩ := hrest
  refine ⟨u, s₂, ?_⟩
  obtain hasked | ⟨printed, hprinted⟩ := asked_or_writes_runCommands settings as s hs
  · rw [has] at hasked
    have hlater := asked_or_writes_runCommands settings bs s₂ hasked.1
    rw [hrest] at hlater
    have hgrown : s.console.Asked s₁.console := by
      obtain hagain | ⟨printed, hprinted⟩ := hlater
      · exact hasked.trans hagain
      · have hconsole := hprinted.console
        rw [hrest] at hconsole
        exact hconsole ▸ hasked.write printed
    exact absurd hgrown.2 (by simp [hprompts])
  · have hconsole := hprinted.console
    rw [has] at hconsole
    exact ⟨printed, w, has, hprinted, hconsole, hrest⟩

section

variable {settings : Settings} {d : Disk} {fuel : Nat} {s s' : State}

theorem serve_end (h : readText settings s = (.done none, s')) :
    serve settings d (fuel + 1) s =
      (.done [], { s' with console := s'.console.write ['\n'] }) := by
  simp only [serve, Action.bind_apply, h]
  rfl

theorem serve_blank {t : Text} (h : readText settings s = (.done (some t), s'))
    (ht : t.trim = []) : serve settings d (fuel + 1) s = serve settings d fuel s' := by
  simp only [serve, Action.bind_apply, h, ht, List.isEmpty_nil, if_true]

theorem serve_text {t : Text} (h : readText settings s = (.done (some t), s')) (ht : t.trim ≠ [])
    (horder : t.trim.head? ≠ some ':') :
    serve settings d (fuel + 1) s = (do
      showValue (Session.evaluate settings t)
      let texts ← serve settings d fuel
      return t :: texts) s' := by
  have hempty : t.trim.isEmpty = false := by simpa using ht
  have hcolon : (t.trim.head? == some ':') = false := by simpa using horder
  simp only [serve, Action.bind_apply, h, hempty, hcolon, Bool.false_eq_true, if_false]

end

/-- The console after a text was read, with the lines that are left. -/
def leaving (c : Console) (rest asked : List Text) : Console :=
  { c with reader := .entries (rest.map .ok), prompts := asked }

/-- Serving the lines on the console `c` takes them in turns from `s` to `s₁`, and all that happens
to the console is that the turns are shown, and a last newline. -/
def Serves (settings : Settings) (d : Disk) (fuel : Nat) (lines : List Text) (s s₁ : State)
    (c : Console) : Prop :=
  ∃ turns asked, turns.flatMap Turn.lines = lines ∧ Takes settings turns s s₁ ∧
    serve settings d fuel { s with console := c } =
      (.done ((turns.map Turn.text).filter fun t => !t.trim.isEmpty),
        { s₁ with console := (leaving c [] asked).write (turns.flatMap Turn.shown ++ ['\n']) })

section

variable {settings : Settings} {d : Disk} {fuel : Nat} {rest asked : List Text}
  {s s₁ s₂ : State} {c : Console} (turn : Turn)
  (hread : readText settings { s with console := c } =
    (.done (some turn.text), { s with console := leaving c rest asked }))

include hread

theorem Serves.blank (hblank : turn.text.trim = []) (hshown : turn.shown = [])
    (hrun : runScript settings turn.text s = (.done turn.value, s))
    (hrest : Serves settings d fuel rest s s₁ (leaving c rest asked)) :
    Serves settings d (fuel + 1) (turn.lines ++ rest) s s₁ c := by
  obtain ⟨turns, asked', hlines, htakes, hserve⟩ := hrest
  have hprinted : turn.printed = [] := (List.append_eq_nil_iff.1 hshown).1
  refine ⟨turn :: turns, asked', by simp [hlines], ⟨s, hrun, by simp [hprinted], htakes⟩, ?_⟩
  rw [serve_blank hread hblank, hserve]
  simp [hblank, hshown, leaving]

theorem Serves.text (hblank : turn.text.trim ≠ []) (horder : turn.text.trim.head? ≠ some ':')
    (hrun : runScript settings turn.text s = (.done turn.value, s₂))
    (hconsole : s₂.console = s.console.write turn.printed)
    (hframe : runScript settings turn.text { s with console := leaving c rest asked } =
      (.done turn.value, { s₂ with console := (leaving c rest asked).write turn.printed }))
    (hrest : Serves settings d fuel rest s₂ s₁ ((leaving c rest asked).write turn.shown)) :
    Serves settings d (fuel + 1) (turn.lines ++ rest) s s₁ c := by
  obtain ⟨turns, asked', hlines, htakes, hserve⟩ := hrest
  refine ⟨turn :: turns, asked', by simp [hlines], ⟨s₂, hrun, hconsole, htakes⟩, ?_⟩
  rw [serve_text hread hblank horder]
  simp only [Action.bind_apply, showValue_eq hframe, hserve]
  simp [hblank, leaving, Action.pure_apply, Console.write]

end

/-- The prompt serves lines that can be cut as if they were run at once. -/
theorem serves_lines (settings : Settings) (d : Disk) {fuel : Nat} {lines commands : List Text}
    {s s₁ : State} {v : Value} {c : Console} (hfuel : lines.length < fuel)
    (hlines : Linewise settings.ignore (Text.lines lines))
    (hplain : ∀ line ∈ lines, '\n' ∉ line)
    (horders : ∀ line ∈ lines, line.trim.head? ≠ some ':')
    (hparse : parse settings.ignore (Text.lines lines) = .ok commands)
    (hs : s.console.IsPrepared)
    (hrun : runCommands (runCommand settings) commands s = (.done v, s₁))
    (hprompts : s₁.console.prompts = s.console.prompts)
    (hreader : c.reader = .entries (lines.map .ok)) (hwriter : c.writer = s.console.writer) :
    Serves settings d fuel lines s s₁ c := by
  induction fuel generalizing lines commands s v c with
  | zero => omega
  | succ fuel ih =>
    obtain ⟨asked, hread⟩ := readText_eq settings (s := { s with console := c }) hreader
    cases lines with
    | nil =>
      cases hparse
      cases hrun
      refine ⟨[], asked, rfl, rfl, ?_⟩
      rw [serve_end hread]
      rfl
    | cons line lines =>
      have hnothing : isIncomplete settings.ignore [] = false :=
        isIncomplete_eq_false.2 ⟨[], rfl⟩
      obtain ⟨more, rest, rfl, htake, hend, hfirst⟩ := takeText_cons hnothing line lines
      obtain ⟨as, bs, has, hbs, rfl, hrest⟩ := hlines.cut hparse hend
      obtain ⟨u, s₂, printed, w, hrunas, hwrites, hconsole, hrunbs⟩ := run_cut hs hrun hprompts
      have hscript : runScript settings (Text.lines (line :: more)) s = (.done u, s₂) := by
        rw [runScript_ok has, reported, hrunas]
      -- The lines that are left are served from the state that the first text leaves.
      have hnext : ∀ c', c'.reader = .entries (rest.map .ok) → c'.writer = c.writer →
          Serves settings d fuel rest s₂ s₁ c' := by
        intro c' hreader' hwriter'
        refine ih ?_ hrest (fun l hl => hplain l (by simp [hl]))
          (fun l hl => horders l (by simp [hl])) hbs ?_ hrunbs ?_ hreader' ?_
        · simp only [List.length_cons, List.length_append] at hfuel
          omega
        · rw [hconsole]
          exact hs
        · rw [hconsole]
          exact hprompts
        · rw [hwriter', hwriter, hconsole]
          rfl
      have hnewline := hplain line List.mem_cons_self
      rw [htake] at hread
      by_cases hblank : (Text.lines (line :: more)).trim = []
      · rw [hlines.parse_blank hnewline hfirst hblank] at has
        cases has
        cases hrunas
        exact Serves.blank ⟨line :: more, .null, []⟩ hread hblank rfl hscript (hnext _ rfl rfl)
      · have horder : (Text.lines (line :: more)).trim.head? ≠ some ':' :=
          hlines.head?_trim hnewline hfirst ▸ horders line List.mem_cons_self
        have hframe : runScript settings (Text.lines (line :: more))
            { s with console := leaving c rest asked } =
              (.done u, { s₂ with console := (leaving c rest asked).write printed }) := by
          have hsame := hwrites (leaving c rest asked) hwriter
          simp only [runScript_ok has, reported, hsame, hrunas]
        exact Serves.text ⟨line :: more, u, printed⟩ hread hblank horder hscript hconsole hframe
          (hnext _ rfl rfl)

/-- Typing in the lines of a script is running the script, if it reads nothing, is not cut between
an `if` and its `else`, and holds no command that looks blank. The lines are run in turns. Run from
one state, the turns and the script end in one state; at the prompt, what the turns print is shown
together with their values, followed by a last newline, and nothing else happens. -/
theorem prompt_agrees (settings : Settings) (d : Disk) {text : Text} {commands : List Text}
    {s s₁ : State} {v : Value} (hlinewise : Linewise settings.ignore text)
    (horders : ∀ line ∈ text.splitOn '\n', (Text.trim line).head? ≠ some ':')
    (hreader : s.console.reader = .entries ((text.splitOn '\n').map .ok))
    (hparse : parse settings.ignore text = .ok commands)
    (hrun : runCommands (runCommand settings) commands s = (.done v, s₁))
    (hprompts : s₁.console.prompts = s.console.prompts) :
    runScript settings text s = (.done v, s₁) ∧
    ∃ turns asked, turns.flatMap Turn.lines = text.splitOn '\n' ∧ Takes settings turns s s₁ ∧
      s₁.console = s.console.write (turns.flatMap Turn.printed) ∧
      loop settings d s =
        (.done ((turns.map Turn.text).filter fun t => !t.trim.isEmpty), { s₁ with
          console :=
            (leaving s.console [] asked).write (turns.flatMap Turn.shown ++ ['\n']) }) := by
  have htext : Text.lines (text.splitOn '\n') = text := List.intercalate_splitOn '\n'
  have hfuel : (text.splitOn '\n').length < s.console.reader.size + 1 := by
    simp [hreader, Console.Reader.size]
  have hscript : runScript settings text s = (.done v, s₁) := by
    rw [runScript_ok hparse, reported, hrun]
  rw [← htext] at hlinewise hparse
  obtain ⟨turns, asked, hlines, htakes, hserve⟩ := serves_lines settings d hfuel hlinewise
    (fun _ => Text.not_mem_of_mem_splitOn) horders hparse ⟨_, hreader⟩ hrun hprompts hreader rfl
  exact ⟨hscript, turns, asked, hlines, htakes, htakes.console, hserve⟩

/-- A session that is about to read the lines of a text. -/
def typedIn (text : Text) : State :=
  { console := { reader := .entries ((text.splitOn '\n').map .ok) } }

/-- A comment, a blank line and a block over several lines. -/
def typedScript : Text :=
  "x = 1 # first\n\nif(x)\x7b\n  x = x + 1\n  print(x)\n\x7d\nx".toList

theorem prompt_agrees_sample :
    Linewise defaultIgnore typedScript ∧
    ∃ s₁ turns, runScript {} typedScript (typedIn typedScript) = (.done (.number 2), s₁) ∧
      turns.flatMap Turn.lines = typedScript.splitOn '\n' ∧
      Takes {} turns (typedIn typedScript) s₁ ∧
      (loop {} { dir := [] } (typedIn typedScript)).2.env = s₁.env ∧
      (loop {} { dir := [] } (typedIn typedScript)).2.console.output =
        turns.flatMap Turn.shown ++ ['\n'] := by
  have hlinewise : Linewise defaultIgnore typedScript :=
    ⟨by decide, by decide +kernel, by decide +kernel⟩
  have horders : ∀ line ∈ typedScript.splitOn '\n', (Text.trim line).head? ≠ some ':' := by
    decide +kernel
  have hparse : parse defaultIgnore typedScript = .ok ["x=1".toList,
      "if(x)\x7b\n  x = x + 1\n  print(x)\n\x7d".toList, "x".toList] := by
    decide +kernel
  have hvalue : (runCommands (runCommand {}) ["x=1".toList,
      "if(x)\x7b\n  x = x + 1\n  print(x)\n\x7d".toList, "x".toList]
      (typedIn typedScript)).1 = .done (.number 2) := by
    decide +kernel
  have hprompts : (runCommands (runCommand {}) ["x=1".toList,
      "if(x)\x7b\n  x = x + 1\n  print(x)\n\x7d".toList, "x".toList]
      (typedIn typedScript)).2.console.prompts = [] := by
    decide +kernel
  generalize hrun : runCommands (runCommand {}) ["x=1".toList,
    "if(x)\x7b\n  x = x + 1\n  print(x)\n\x7d".toList, "x".toList] (typedIn typedScript) = ended
    at hvalue hprompts
  obtain ⟨value, s₁⟩ := ended
  obtain rfl : value = .done (.number 2) := hvalue
  obtain ⟨hscript, turns, asked, hlines, htakes, -, hloop⟩ :=
    prompt_agrees {} { dir := [] } hlinewise horders rfl hparse hrun hprompts
  refine ⟨hlinewise, s₁, turns, hscript, hlines, htakes, ?_, ?_⟩
  · rw [hloop]
  · rw [hloop]
    rfl

/-- An `else` on a line of its own. -/
def cutElse : Text := "x=0\nif(x)\x7bx=1\x7d\nelse\x7bx=2\x7d".toList

/-- As a script the lines set the variable in the second block; typed in, the `else` is refused. -/
theorem cutElse_disagrees :
    (runScript {} cutElse (typedIn cutElse)).1 = .done .null ∧
    (runScript {} cutElse (typedIn cutElse)).2.console.reported = [] ∧
    (runScript {} cutElse (typedIn cutElse)).2.console.prompts = [] ∧
    (runScript {} cutElse (typedIn cutElse)).2.env.lookup ['x'] = some (.number 2) ∧
    (∀ line ∈ cutElse.splitOn '\n', (Text.trim line).head? ≠ some ':') ∧
    (loop {} { dir := [] } (typedIn cutElse)).2.env.lookup ['x'] = some (.number 0) ∧
    (loop {} { dir := [] } (typedIn cutElse)).2.console.output =
      "0\nError: else must follow if (command 1: \"else\x7bx=2\x7d\")\n\n".toList := by
  decide +kernel

end Prompt

end Scriptlet
