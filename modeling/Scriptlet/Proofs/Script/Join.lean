import Scriptlet.Proofs.Command.Join
import Scriptlet.Proofs.Script.Branch

/-! Running scripts one after another. Two scripts on lines of their own make a script whose
commands are those of the first and then those of the second, so running it is to run the first and,
if that ends without a failure, to run the second in the state that is there by then. -/

namespace Scriptlet.Script

open Command

variable {self : Text → Action Value}

theorem runCommandsFrom_append (last : Value) (xs ys : List Text) (s : State) :
    runCommandsFrom self last (xs ++ ys) s = (do
      let v ← runCommandsFrom self last xs
      runCommandsFrom self v ys) s := by
  induction xs generalizing last s with
  | nil => rfl
  | cons x xs ih =>
    simp only [List.cons_append, runCommandsFrom, Action.bind_apply]
    rcases self x s with ⟨v | f | -, s'⟩
    · simp only [ih, Action.bind_apply]
    · rfl
    · rfl

/-- The value of some commands is that of the last one there is. -/
theorem runCommands_append (xs ys : List Text) (s : State) :
    runCommands self (xs ++ ys) s = (do
      let v ← runCommands self xs
      if ys.isEmpty then pure v else runCommands self ys) s := by
  rw [runCommands, runCommandsFrom_append]
  cases ys <;> rfl

section

variable {settings : Settings} {a b : Text} {as bs : List Text} {s : State}

/-- Where the first script does not fail, the two scripts together are the one after the other. -/
theorem runScript_append_newline (hnewline : '\n' ∉ settings.ignore)
    (ha : parse settings.ignore a = .ok as) (hb : parse settings.ignore b = .ok bs)
    (hs : ∀ f, (runCommands (runCommand settings) as s).1 ≠ .failed f) :
    runScript settings (a ++ '\n' :: b) s = (do
      let v ← runScript settings a
      let w ← runScript settings b
      return if bs.isEmpty then v else w) s := by
  rw [runScript_ok (parse_append_newline hnewline ha hb), runScript_ok ha, runScript_ok hb]
  simp only [reported, Action.bind_apply, runCommands_append]
  rcases hfirst : runCommands (runCommand settings) as s with ⟨v | f | -, s'⟩
  · cases bs with
    | nil => rfl
    | cons c bs =>
      simp only [List.isEmpty_cons, Bool.false_eq_true, if_false]
      rcases runCommands (runCommand settings) (c :: bs) s' with ⟨w | f | -, s''⟩ <;> rfl
  · exact absurd (congrArg Prod.fst hfirst) (hs f)
  · rfl

end

/-- Scripts compose. After a script that can be cut, on a line of its own, another one is cut as it
is by itself, with its lines counted on. If both can be loaded, the commands of both are those of
the first and then those of the second, and running them ends as running one after the other does,
unless the first fails. -/
theorem scripts_compose (settings : Settings) (hnewline : '\n' ∉ settings.ignore) {a : Text}
    {xs : List Text} (ha : split settings.ignore a = .ok xs) (b : Text) :
    (∀ ys, split settings.ignore b = .ok ys →
      split settings.ignore (a ++ '\n' :: b) = .ok (xs ++ ys)) ∧
    (∀ part line, split settings.ignore b = .error ⟨part, line⟩ →
      split settings.ignore (a ++ '\n' :: b) = .error ⟨part, line + 1 + a.count '\n'⟩) ∧
    ∀ as bs, parse settings.ignore a = .ok as → parse settings.ignore b = .ok bs →
      parse settings.ignore (a ++ '\n' :: b) = .ok (as ++ bs) ∧
      ∀ s, (∀ f, (runCommands (runCommand settings) as s).1 ≠ .failed f) →
        runScript settings (a ++ '\n' :: b) s = (do
          let v ← runScript settings a
          let w ← runScript settings b
          return if bs.isEmpty then v else w) s := by
  refine ⟨fun ys hb => ?_, fun part line hb => ?_, fun as bs ha hb => ⟨?_, fun s hs => ?_⟩⟩
  · rw [split_append_newline hnewline ha, hb]
    rfl
  · rw [split_append_newline hnewline ha, hb, Nat.add_assoc, Nat.add_comm 1]
    rfl
  · exact parse_append_newline hnewline ha hb
  · exact runScript_append_newline hnewline ha hb hs

/-- A script that ends in a comment, and one that leaves a string open at its end. -/
def commentedScript : Text := "x = 1\nif(x)\x7bx = 2\x7d # half".toList

def unclosedScript : Text := "y = 3\nz = \"".toList

theorem scripts_compose_sample :
    '\n' ∉ defaultIgnore ∧
    split defaultIgnore commentedScript = .ok ["x=1".toList, "if(x)\x7bx = 2\x7d".toList] ∧
    split defaultIgnore (commentedScript ++ '\n' :: unclosedScript) = .error ⟨.string, 2 + 1 + 1⟩ ∧
    (runScript {} (commentedScript ++ '\n' :: "print(x)".toList) {}).2.console.output =
      "2\n".toList := by
  have hnewline : '\n' ∉ ({} : Settings).ignore := by decide
  have hsplit : split defaultIgnore commentedScript =
      .ok ["x=1".toList, "if(x)\x7bx = 2\x7d".toList] := by
    decide +kernel
  have hopen : split defaultIgnore unclosedScript = .error ⟨.string, 2⟩ := by decide +kernel
  have hfirst : parse defaultIgnore commentedScript =
      .ok ["x=1".toList, "if(x)\x7bx = 2\x7d".toList] := by
    decide +kernel
  have hsecond : parse defaultIgnore "print(x)".toList = .ok ["print(x)".toList] := by
    decide +kernel
  have hdone : ∀ f, (runCommands (runCommand {})
      ["x=1".toList, "if(x)\x7bx = 2\x7d".toList] {}).1 ≠ .failed f := by
    have hvalue : (runCommands (runCommand {})
        ["x=1".toList, "if(x)\x7bx = 2\x7d".toList] {}).1 = .done .null := by
      decide +kernel
    rw [hvalue]
    exact nofun
  have hincomplete := (scripts_compose {} hnewline hsplit unclosedScript).2.1 .string 2 hopen
  have hrun := ((scripts_compose {} hnewline hsplit "print(x)".toList).2.2 _ _ hfirst hsecond).2 {}
    hdone
  refine ⟨hnewline, hsplit, hincomplete, ?_⟩
  rw [hrun]
  decide +kernel

end Scriptlet.Script
