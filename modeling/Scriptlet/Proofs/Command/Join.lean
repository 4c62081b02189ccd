import Scriptlet.Proofs.Command.Split

/-! Scripts one after another. A newline outside strings and blocks leaves the cutter as it was at
the beginning, but for the line it is on and the commands it has found, so what follows is cut as a
script of its own. What a command is expanded to depends on it and on the command right before it;
so scripts that can be expanded apart are expanded together in the same way. Only an `else` at the
beginning of the second one would make a difference. -/

namespace Scriptlet.Command

/-! ### Cutting further down -/

/-- The same part left open `n` lines further down. -/
def Incomplete.shift (n : Nat) (e : Incomplete) : Incomplete := { e with line := e.line + n }

def Mode.shift (n : Nat) : Mode → Mode
  | .string openLine => .string (openLine + n)
  | .block openLine depth => .block (openLine + n) depth
  | mode => mode

namespace Cutter

variable {ignore : Text}

/-- The same state `n` lines further down, with more commands before it. -/
def shift (n : Nat) (before : List Text) (s : Cutter) : Cutter :=
  { line := s.line + n
    mode := s.mode.shift n
    pending := s.pending
    commands := s.commands ++ before }

theorem flush_shift (n : Nat) (before : List Text) (s : Cutter) :
    (s.shift n before).flush = s.flush.shift n before := by
  obtain ⟨line, mode, pending, commands⟩ := s
  cases pending <;> rfl

theorem stepCode_shift (n : Nat) (before : List Text) {s : Cutter} (h : s.mode = .code) (c : Char) :
    (s.shift n before).stepCode c = (s.stepCode c).shift n before := by
  obtain ⟨line, mode, pending, commands⟩ := s
  cases h
  unfold stepCode
  split
  · rfl
  · rw [flush_shift]
    rfl
  · rw [apply_ite (shift n before)]
    rfl
  · rfl
  · exact flush_shift n before _
  · rfl

theorem stepString_shift (n : Nat) (before : List Text) (s : Cutter) (c : Char) :
    (s.shift n before).stepString c = (s.stepString c).shift n before := by
  unfold stepString
  split <;> rfl

theorem stepBlock_shift (n : Nat) (before : List Text) (s : Cutter) (openLine depth : Nat)
    (c : Char) :
    (s.shift n before).stepBlock (openLine + n) depth c =
      (s.stepBlock openLine depth c).shift n before := by
  have hpush : (s.shift n before).push c = (s.push c).shift n before := rfl
  unfold stepBlock
  rw [hpush]
  dsimp only
  split
  · rfl
  · rw [flush_shift]
    rfl
  · rfl
  · rfl

/-- Counts the lines. -/
def advance (s : Cutter) (c : Char) : Cutter :=
  if c = '\n' then { s with line := s.line + 1 } else s

/-- What a step does once the line is counted. -/
def act (ignore : Text) (s : Cutter) (c : Char) : Cutter :=
  match s.mode with
  | .comment => if c = '\n' then { s with mode := .code } else s
  | .code => if ignore.contains c then s else s.stepCode c
  | .string _ => if ignore.contains c then s else s.stepString c
  | .block openLine depth => if ignore.contains c then s else s.stepBlock openLine depth c

theorem step_eq (ignore : Text) (s : Cutter) (c : Char) :
    s.step ignore c = (s.advance c).act ignore c := rfl

theorem advance_shift (n : Nat) (before : List Text) (s : Cutter) (c : Char) :
    (s.shift n before).advance c = (s.advance c).shift n before := by
  unfold advance
  split
  · simp only [shift, Nat.add_right_comm]
  · rfl

theorem act_shift (n : Nat) (before : List Text) (s : Cutter) (c : Char) :
    (s.shift n before).act ignore c = (s.act ignore c).shift n before := by
  have hmode : (s.shift n before).mode = s.mode.shift n := rfl
  unfold act
  cases h : s.mode with
  | comment =>
    rw [hmode, h, apply_ite (shift n before)]
    rfl
  | code =>
    rw [hmode, h, apply_ite (shift n before), ← stepCode_shift n before h]
    rfl
  | string openLine =>
    rw [hmode, h, apply_ite (shift n before), ← stepString_shift]
    rfl
  | block openLine depth =>
    rw [hmode, h, apply_ite (shift n before), ← stepBlock_shift]
    rfl

theorem step_shift (n : Nat) (before : List Text) (s : Cutter) (c : Char) :
    (s.shift n before).step ignore c = (s.step ignore c).shift n before := by
  rw [step_eq, step_eq, advance_shift, act_shift]

theorem run_shift (n : Nat) (before : List Text) (s : Cutter) (t : Text) :
    (s.shift n before).run ignore t = (s.run ignore t).shift n before := by
  induction t generalizing s with
  | nil => rfl
  | cons c t ih => rw [run_cons, run_cons, step_shift, ih]

theorem finish_shift (n : Nat) (before : List Text) (s : Cutter) :
    (s.shift n before).finish =
      (s.finish.map (before.reverse ++ ·)).mapError (Incomplete.shift n) := by
  have hmode : (s.shift n before).mode = s.mode.shift n := rfl
  have hcommands : (s.shift n before).flush.commands.reverse =
      before.reverse ++ s.flush.commands.reverse := by
    rw [flush_shift, ← List.reverse_append]
    rfl
  unfold finish
  rw [hmode, hcommands]
  cases s.mode <;> rfl

/-! ### A newline between scripts -/

/-- The cutter is on a line, and has nothing pending while it passes over a comment. -/
structure On (s : Cutter) (line : Nat) : Prop where
  line_eq : s.line = line
  pending_eq : s.mode = .comment → s.pending = []

theorem On.flush {s : Cutter} {line : Nat} (h : s.On line) : s.flush.On line := by
  unfold Cutter.flush
  split
  · exact h
  · exact ⟨h.line_eq, fun _ => rfl⟩

theorem on_of_mode {s : Cutter} {line : Nat} (hline : s.line = line) (hmode : s.mode ≠ .comment) :
    s.On line :=
  ⟨hline, fun h => absurd h hmode⟩

theorem On.stepCode {s : Cutter} {line : Nat} (h : s.On line) (hmode : s.mode = .code) (c : Char) :
    (s.stepCode c).On line := by
  have hcode : s.mode ≠ .comment := by simp [hmode]
  have hpending : s.flush.pending = [] := by
    unfold Cutter.flush
    split
    · next hempty => exact List.isEmpty_iff.1 hempty
    · rfl
  unfold Cutter.stepCode
  split
  · exact on_of_mode h.line_eq (by simp)
  · exact ⟨h.flush.line_eq, fun _ => hpending⟩
  · split
    · exact on_of_mode h.line_eq hcode
    · exact h
  · exact on_of_mode h.line_eq (by simp)
  · exact h.flush
  · exact on_of_mode h.line_eq hcode

theorem On.act {s : Cutter} {line : Nat} (h : s.On line) (c : Char) : (s.act ignore c).On line := by
  unfold Cutter.act
  cases hmode : s.mode with
  | comment =>
    dsimp only
    split
    · exact on_of_mode h.line_eq (by simp)
    · exact h
  | code =>
    dsimp only
    split
    · exact h
    · exact h.stepCode hmode c
  | string openLine =>
    dsimp only
    split
    · exact h
    · unfold stepString
      split
      · exact on_of_mode h.line_eq (by simp)
      · exact on_of_mode h.line_eq (by simp [push, hmode])
  | block openLine depth =>
    dsimp only
    split
    · exact h
    · have hpush : (s.push c).On line := on_of_mode h.line_eq (by simp [push, hmode])
      unfold stepBlock
      dsimp only
      split
      · exact on_of_mode h.line_eq (by simp)
      · exact on_of_mode hpush.flush.line_eq (by simp)
      · exact on_of_mode h.line_eq (by simp)
      · exact hpush

theorem On.run {s : Cutter} {line : Nat} (h : s.On line) (t : Text) :
    (s.run ignore t).On (line + t.count '\n') := by
  induction t generalizing s line with
  | nil => exact h
  | cons c t ih =>
    have hadvance : (s.advance c).On (line + if c = '\n' then 1 else 0) := by
      unfold advance
      split
      · exact ⟨congrArg (· + 1) h.line_eq, h.pending_eq⟩
      · exact h
    have hcount : line + (c :: t).count '\n' =
        (line + if c = '\n' then 1 else 0) + t.count '\n' := by
      rw [List.count_cons]
      simp only [beq_iff_eq]
      omega
    rw [run_cons, step_eq, hcount]
    exact ih (hadvance.act c)

/-- After a text that is complete, a newline begins a script anew. -/
theorem step_newline_of_finish {s : Cutter} {line : Nat} (h : s.On line)
    (hnewline : '\n' ∉ ignore) {commands : List Text}
    (hfinish : s.finish = .ok commands) :
    s.step ignore '\n' = shift line commands.reverse {} := by
  obtain ⟨hline, hpending⟩ := h
  obtain ⟨_, mode, pending, found⟩ := s
  obtain rfl := hline
  rw [step_eq]
  cases mode with
  | code =>
    cases hfinish
    cases pending <;>
      simp [advance, act, stepCode, flush, shift, Mode.shift, hnewline, Nat.add_comm]
  | comment =>
    obtain rfl := hpending rfl
    cases hfinish
    simp [advance, act, flush, shift, Mode.shift, Nat.add_comm]
  | string openLine => cases hfinish
  | block openLine depth => cases hfinish

end Cutter

theorem split_append_newline {ignore : Text} (hnewline : '\n' ∉ ignore) {a : Text}
    {commands : List Text} (ha : split ignore a = .ok commands) (b : Text) :
    split ignore (a ++ '\n' :: b) =
      ((split ignore b).map (commands ++ ·)).mapError (Incomplete.shift (a.count '\n' + 1)) := by
  have hstart : ({} : Cutter).On 1 := ⟨rfl, fun _ => rfl⟩
  have hjoin := Cutter.step_newline_of_finish (hstart.run a) hnewline ha
  rw [split, Cutter.run_append, Cutter.run_cons, hjoin, Cutter.run_shift, Cutter.finish_shift,
    List.reverse_reverse, Nat.add_comm 1]
  rfl

/-! ### Expanding -/

/-- The condition of an `if`. -/
def conditionOf (command : Text) : Option Text :=
  match opening command with
  | .branch rest => some (condition rest)
  | _ => none

/-- What a command is expanded to after one whose condition is `latest`. -/
def expandOne (latest : Option Text) (command : Text) : Option Text :=
  match opening command, latest with
  | .define rest, _ => some (defineCall rest)
  | .count rest, _ => some (countCall rest)
  | .otherwise _, none => none
  | .otherwise rest, some latest => some (otherwiseCall latest rest)
  | .branch _, _ | .plain, _ => some command

/-- Whether the first command is an `else`. -/
def startsWithElse : List Text → Bool
  | [] => false
  | command :: _ => opening command matches .otherwise _

theorem map_cons_eq_ok {ε α : Type} {r : Except ε (List α)} {x : α} {xs : List α} :
    r.map (x :: ·) = .ok xs ↔ ∃ rest, r = .ok rest ∧ xs = x :: rest := by
  cases r with
  | error e => simp [Except.map]
  | ok rest => simp [Except.map, eq_comm]

theorem expandFrom_cons_eq_ok {index : Nat} {latest : Option Text} {command : Text}
    {commands expanded : List Text} :
    expandFrom index latest (command :: commands) = .ok expanded ↔
      ∃ first rest, expandOne latest command = some first ∧
        expandFrom (index + 1) (conditionOf command) commands = .ok rest ∧
        expanded = first :: rest := by
  cases h : opening command with
  | otherwise t =>
    cases latest <;> simp [expandFrom, expandOne, conditionOf, h, map_cons_eq_ok]
  | _ => simp [expandFrom, expandOne, conditionOf, h, map_cons_eq_ok]

/-- The condition that counts after some commands. -/
def latestAfter (latest : Option Text) (commands : List Text) : Option Text :=
  commands.foldl (fun _ command => conditionOf command) latest

theorem expandFrom_append_eq_ok {index : Nat} {latest : Option Text} {xs ys expanded : List Text} :
    expandFrom index latest (xs ++ ys) = .ok expanded ↔
      ∃ as bs, expandFrom index latest xs = .ok as ∧
        expandFrom (index + xs.length) (latestAfter latest xs) ys = .ok bs ∧
        expanded = as ++ bs := by
  induction xs generalizing index latest expanded with
  | nil => simp [expandFrom, latestAfter]
  | cons x xs ih =>
    rw [List.cons_append, expandFrom_cons_eq_ok]
    simp only [ih, expandFrom_cons_eq_ok, List.length_cons, latestAfter, List.foldl_cons]
    constructor
    · rintro ⟨first, rest, hfirst, ⟨as, bs, has, hbs, rfl⟩, rfl⟩
      rw [Nat.add_right_comm] at hbs
      exact ⟨first :: as, bs, ⟨first, as, hfirst, has, rfl⟩, hbs, rfl⟩
    · rintro ⟨-, bs, ⟨first, as, hfirst, has, rfl⟩, hbs, rfl⟩
      rw [← Nat.add_assoc, Nat.add_right_comm] at hbs
      exact ⟨first, as ++ bs, hfirst, ⟨as, bs, has, hbs, rfl⟩, rfl⟩

/-- Positions only matter for the complaint about a misplaced `else`. -/
theorem expandFrom_index {latest : Option Text} {xs expanded : List Text} {index : Nat}
    (h : expandFrom index latest xs = .ok expanded) (index' : Nat) :
    expandFrom index' latest xs = .ok expanded := by
  induction xs generalizing index index' latest expanded with
  | nil => exact h
  | cons x xs ih =>
    obtain ⟨first, rest, hfirst, hrest, rfl⟩ := expandFrom_cons_eq_ok.1 h
    exact expandFrom_cons_eq_ok.2 ⟨first, rest, hfirst, ih hrest (index' + 1), rfl⟩

/-- Only an `else` at the beginning looks at the command before. -/
theorem expandFrom_latest {xs expanded : List Text} (hxs : startsWithElse xs = false)
    {latest : Option Text} {index : Nat} (h : expandFrom index latest xs = .ok expanded)
    (latest' : Option Text) : expandFrom index latest' xs = .ok expanded := by
  cases xs with
  | nil => exact h
  | cons x xs =>
    obtain ⟨first, rest, hfirst, hrest, rfl⟩ := expandFrom_cons_eq_ok.1 h
    refine expandFrom_cons_eq_ok.2 ⟨first, rest, ?_, hrest, rfl⟩
    rw [← hfirst]
    unfold expandOne
    cases hopening : opening x with
    | otherwise t => simp [startsWithElse, hopening] at hxs
    | _ => rfl

theorem startsWithElse_of_expand {xs expanded : List Text} (h : expand xs = .ok expanded) :
    startsWithElse xs = false := by
  cases xs with
  | nil => rfl
  | cons x xs =>
    obtain ⟨first, -, hfirst, -⟩ := expandFrom_cons_eq_ok.1 h
    cases hopening : opening x with
    | otherwise t => simp [expandOne, hopening] at hfirst
    | _ => simp [startsWithElse, hopening]

theorem expand_append_eq_ok {xs ys expanded : List Text} (hys : startsWithElse ys = false) :
    expand (xs ++ ys) = .ok expanded ↔
      ∃ as bs, expand xs = .ok as ∧ expand ys = .ok bs ∧ expanded = as ++ bs := by
  rw [expand, expandFrom_append_eq_ok]
  constructor
  · rintro ⟨as, bs, has, hbs, rfl⟩
    exact ⟨as, bs, has, expandFrom_latest hys (expandFrom_index hbs 0) none, rfl⟩
  · rintro ⟨as, bs, has, hbs, rfl⟩
    exact ⟨as, bs, has, expandFrom_latest hys (expandFrom_index hbs _) _, rfl⟩

/-! ### Loading -/

theorem mapError_eq_ok {ε ε' α : Type} {f : ε → ε'} {r : Except ε α} {a : α} :
    r.mapError f = .ok a ↔ r = .ok a := by
  constructor
  · intro h
    cases r with
    | error e => cases h
    | ok b =>
      cases h
      rfl
  · rintro rfl
    rfl

theorem parse_eq_ok {ignore t : Text} {commands : List Text} :
    parse ignore t = .ok commands ↔
      ∃ found, split ignore t = .ok found ∧ expand found = .ok commands := by
  unfold parse
  cases split ignore t with
  | error e => simp
  | ok found => simp [mapError_eq_ok]

theorem parse_append_newline {ignore : Text} (hnewline : '\n' ∉ ignore) {a b : Text}
    {as bs : List Text} (ha : parse ignore a = .ok as) (hb : parse ignore b = .ok bs) :
    parse ignore (a ++ '\n' :: b) = .ok (as ++ bs) := by
  obtain ⟨xs, hxs, has⟩ := parse_eq_ok.1 ha
  obtain ⟨ys, hys, hbs⟩ := parse_eq_ok.1 hb
  refine parse_eq_ok.2 ⟨xs ++ ys, ?_, ?_⟩
  · rw [split_append_newline hnewline hxs, hys]
    rfl
  · exact (expand_append_eq_ok (startsWithElse_of_expand hbs)).2 ⟨as, bs, has, hbs, rfl⟩

end Scriptlet.Command
