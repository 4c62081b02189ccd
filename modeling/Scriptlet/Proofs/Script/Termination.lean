import Scriptlet.Proofs.Script.Limits

/-! Evaluation ends if loops have a limit. Texts are evaluated again and again, from variables, from
the store and from the bodies of functions, so nothing about a text gets smaller on the way. What
does get smaller is the number of levels left, within a level the commands and arguments that are
still to be evaluated, and within a loop the rounds up to its limit. -/

namespace Scriptlet.Script

/-! ### Loops -/

section

variable {settings : Settings} (hlimit : 0 < settings.loopLimit)

include hlimit

/-- Before the limit is reached there is another round to go. -/
theorem lt_of_not_atLimit {n : Nat} (hn : ¬settings.AtLimit n) : n < settings.loopLimit := by
  by_contra hle
  exact hn ⟨hlimit, not_lt.1 hle⟩

/-- A loop does not depend on its fuel as long as this reaches beyond the limit. -/
theorem runFrom_eq_of_limit_lt (self : Text → Action Value) (loop : Loop) {fuel fuel' n : Nat}
    (hn : n ≤ settings.loopLimit) (hfuel : settings.loopLimit < n + fuel)
    (hfuel' : settings.loopLimit < n + fuel') (last : Value) :
    loop.runFrom settings self fuel n last = loop.runFrom settings self fuel' n last := by
  induction fuel generalizing fuel' n last with
  | zero => omega
  | succ fuel ih =>
    obtain _ | fuel' := fuel'
    · omega
    rw [Loop.runFrom_succ, Loop.runFrom_succ]
    congr 1
    funext c
    congr 1
    by_cases hstop : settings.AtLimit n
    · rw [if_pos hstop, if_pos hstop]
    · have hlt := lt_of_not_atLimit hlimit hstop
      rw [if_neg hstop, if_neg hstop]
      congr 1
      funext v
      exact ih hlt (by omega) (by omega) v

end

/-! ### No run is left without an answer -/

theorem isEnding_ne_exhausted : Outcome.IsEnding fun r => r ≠ .exhausted where
  done _ := nofun
  failed _ := nofun
  exhausted h := absurd rfl h
  during _ _ := nofun

/-- The action ends with a value or a failure. -/
def answers : Congruence where
  rel x _ := ∀ s, (x s).1 ≠ .exhausted
  result _ _ := by simp [Action.pure_apply]
  fail _ _ _ := by simp [Action.fail]
  bind hx hf := isEnding_ne_exhausted.bind hx hf
  recover _ hx := isEnding_ne_exhausted.recover hx _
  during task hx := isEnding_ne_exhausted.within hx task
  env _ := by simp [Action.env]
  store _ := by simp [Action.store]
  lookup _ _ := by simp [Action.lookup]
  bindName _ _ _ := by simp [Action.bindName]
  setStore _ _ := by simp [Action.setStore]
  print t s := by
    unfold Action.print
    split <;> simp
  readLine prompt s := by
    unfold Action.readLine
    split <;> simp
  inScope enter keep hx s := hx { s with env := enter s.env }
  enclosed hsetup hx := isEnding_ne_exhausted.enclosed hsetup hx

theorem answers_runFrom {settings : Settings} (hlimit : 0 < settings.loopLimit)
    {self : Text → Action Value} (hself : ∀ t, answers.rel (self t) (self t)) (loop : Loop)
    {fuel n : Nat} (hn : n ≤ settings.loopLimit) (hfuel : settings.loopLimit < n + fuel)
    (last : Value) :
    answers.rel (loop.runFrom settings self fuel n last)
      (loop.runFrom settings self fuel n last) := by
  induction fuel generalizing n last with
  | zero => omega
  | succ fuel ih =>
    have hblock : ∀ t, loop.block = some t →
        answers.rel (runBlock settings self t) (runBlock settings self t) := fun _ _ =>
      Congruence.runBlockIn hself (.refl settings) _ _ fun _ _ _ => nofun
    refine Congruence.runFrom_succ hself hblock (fun _ _ _ => answers.fail _ rfl)
      fun hstop => ⟨hstop, fun v => ?_⟩
    exact ih (lt_of_not_atLimit hlimit hstop) (by omega) v

theorem rounds_eq {settings : Settings} (hlimit : 0 < settings.loopLimit) :
    settings.rounds = settings.loopLimit + 1 := if_pos hlimit

theorem answers_relates {settings : Settings} (hlimit : 0 < settings.loopLimit) :
    answers.Relates settings settings where
  toAlike := .refl settings
  unloadable _ _ := nofun
  loop hself loop := by
    rw [Loop.run_eq, rounds_eq hlimit]
    exact answers_runFrom hlimit (fun t => hself t) loop (Nat.zero_le _) (by omega) .null

theorem run_ne_exhausted {settings : Settings} (hlimit : 0 < settings.loopLimit) (depth : Nat)
    (command : Text) (s : State) : (run settings depth command s).1 ≠ .exhausted :=
  (answers_relates hlimit).run 0 (fun _ => answers.fail _ rfl) depth command s

theorem runScript_ne_exhausted {settings : Settings} (hlimit : 0 < settings.loopLimit)
    (text : Text) (s : State) : (runScript settings text s).1 ≠ .exhausted := by
  cases hparse : Command.parse settings.ignore text with
  | error e => simp [runScript, hparse, Action.fail]
  | ok commands =>
    have hcommands : answers.rel (runCommands (runCommand settings) commands)
        (runCommands (runCommand settings) commands) :=
      Congruence.runCommands (run_ne_exhausted hlimit settings.maxDepth) commands
    have hended := hcommands s
    simp only [runScript, hparse]
    generalize runCommands (runCommand settings) commands s = ended at hended
    obtain ⟨v | f | -, s₁⟩ := ended
    · exact hended
    · simp [Action.andThen, report, Action.result]
    · exact hended

/-! ### Levels counted up -/

/-- Evaluation with the levels counted from the top, as far as `fuel` levels are followed. -/
def follow (settings : Settings) : (fuel depth : Nat) → Text → Action Value
  | 0, _, _ => .giveUp
  | fuel + 1, depth, command =>
    if settings.maxDepth ≤ depth then .fail (.tooDeep settings.maxDepth)
    else evaluate settings (follow settings fuel (depth + 1)) command

/-- Following more levels than are left is to evaluate with the levels that are left. -/
theorem follow_eq_run {settings : Settings} {fuel depth : Nat}
    (hfuel : settings.maxDepth - depth < fuel) :
    follow settings fuel depth = run settings (settings.maxDepth - depth) := by
  induction fuel generalizing depth with
  | zero => omega
  | succ fuel ih =>
    funext command
    rw [follow]
    by_cases hdeep : settings.maxDepth ≤ depth
    · rw [if_pos hdeep, Nat.sub_eq_zero_of_le hdeep]
      rfl
    · have hleft : settings.maxDepth - depth = settings.maxDepth - (depth + 1) + 1 := by omega
      rw [if_neg hdeep, ih (by omega), hleft, run_succ]

/-- With a limit on loops every evaluation ends. Followed through enough levels, a command ends with
a value or a failure, always the same one, and so does a script; and a loop does the same however
far beyond its limit it is followed. -/
theorem evaluation_ends (settings : Settings) (hlimit : 1 ≤ settings.loopLimit) :
    (∃ n, ∀ fuel, n ≤ fuel → ∀ depth command s,
      (follow settings fuel depth command s).1 ≠ .exhausted ∧
      follow settings fuel depth command s =
        run settings (settings.maxDepth - depth) command s) ∧
    (∀ text s, (runScript settings text s).1 ≠ .exhausted) ∧
    ∀ self loop fuel, settings.loopLimit < fuel →
      Loop.runFrom settings self loop fuel 0 .null = Loop.run settings self loop := by
  refine ⟨⟨settings.maxDepth + 1, fun fuel hfuel depth command s => ?_⟩,
    runScript_ne_exhausted hlimit, fun self loop fuel hfuel => ?_⟩
  · have hrun : follow settings fuel depth = run settings (settings.maxDepth - depth) :=
      follow_eq_run (by omega)
    rw [hrun]
    exact ⟨run_ne_exhausted hlimit _ command s, rfl⟩
  · rw [Loop.run_eq, rounds_eq hlimit]
    exact runFrom_eq_of_limit_lt hlimit self loop (Nat.zero_le _) (by omega) (by omega) .null

/-- Two variables that stand for each other, and a function that calls itself. -/
def cyclicState : State where
  env := ((Env.empty.set ['x'] (.text ['y'])).set ['y'] (.text ['x'])).set ['f']
    (.callable (some ⟨['f'], [], "f()".toList⟩))

theorem evaluation_ends_cyclic :
    let settings : Settings := { maxDepth := 4, loopLimit := 2 }
    1 ≤ settings.loopLimit ∧
    (∃ n, ∀ fuel, n ≤ fuel → (follow settings fuel 0 ['x'] cyclicState).1 ≠ .exhausted) ∧
    (runScript settings "while(1)\x7bf()\x7d".toList cyclicState).1 ≠ .exhausted := by
  intro settings
  have hlimit : 1 ≤ settings.loopLimit := by decide
  obtain ⟨⟨n, hn⟩, hscript, -⟩ := evaluation_ends settings hlimit
  exact ⟨hlimit, ⟨n, fun fuel hfuel => (hn fuel hfuel 0 ['x'] cyclicState).1⟩, hscript _ _⟩

end Scriptlet.Script
