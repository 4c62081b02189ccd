import Scriptlet.Script.Run
import Scriptlet.Proofs.Command.Form

/-! One level of evaluation, form by form. The form of a command decides what is evaluated next; a
command without a form of its own is a variable if it is bound and a statement if not. -/

namespace Scriptlet.Script

open Command (Form)

/-- A sequence of actions that ends with a value has a value in between. -/
theorem Action.bind_eq_done {α β : Type} {x : Action α} {f : α → Action β} {s s' : State} {b : β} :
    (x >>= f) s = (.done b, s') ↔ ∃ a s₁, x s = (.done a, s₁) ∧ f a s₁ = (.done b, s') := by
  rw [Action.bind_apply]
  rcases x s with ⟨a | e | -, s₁⟩ <;> simp

variable {settings : Settings} {self : Text → Action Value} {t : Text} {s : State}

theorem run_succ (settings : Settings) (depth : Nat) (t : Text) :
    run settings (depth + 1) t = evaluate settings (run settings depth) t := rfl

theorem evaluate_number {x : Float} (h : Number.ofText? t = some x) (s : State) :
    evaluate settings self t s = (.done (.number x), s) := by
  simp [evaluate, Form.ofText, h, Action.pure_apply]

theorem evaluate_string {u : Text} (hnumber : Number.ofText? t = none)
    (hliteral : Command.literal? t = some u) (s : State) :
    evaluate settings self t s = (.done (.text u), s) := by
  simp [evaluate, Form.ofText, hnumber, hliteral, Action.pure_apply]

theorem evaluate_equation {e : Command.Equation} (h : Form.ofText t = .equation e) :
    evaluate settings self t = runEquation self e := by
  rw [evaluate, h]

theorem evaluate_bound {v : Value} (hform : Form.ofText t = .other)
    (hbound : s.env.lookup t = some v) : evaluate settings self t s = resolve self t v s := by
  rw [evaluate, hform]
  simp only [Action.bind_apply, Action.lookup, hbound]

theorem evaluate_unbound (hform : Form.ofText t = .other) (hunbound : s.env.lookup t = none) :
    evaluate settings self t s = runStatement settings self t s := by
  rw [evaluate, hform]
  simp only [Action.bind_apply, Action.lookup, hunbound]

/-- An equation is worth a number, if anything. -/
theorem runEquation_done {e : Command.Equation} {v : Value} {s' : State}
    (h : runEquation self e s = (.done v, s')) : ∃ x, v = .number x := by
  simp only [runEquation, Action.bind_eq_done] at h
  obtain ⟨_, _, _, _, _, _, a, _, _, b, _, _, hv⟩ := h
  cases hv
  exact ⟨_, rfl⟩

/-- A failure on either side is the failure of the equation, the left one first. -/
theorem runEquation_failed {e : Command.Equation} {s' : State} {f : Failure}
    (h : self e.left s = (.failed f, s') ∨
      ∃ v s₁, self e.left s = (.done v, s₁) ∧ self e.right s₁ = (.failed f, s')) :
    runEquation self e s = (.failed f, s') := by
  rcases h with hl | ⟨v, s₁, hl, hr⟩
  · simp [runEquation, Action.bind_apply, hl]
  · simp [runEquation, Action.bind_apply, hl, hr]

/-- The numeral of a finite number needs one level to give the number back. -/
theorem run_toText {x : Float} (h : Number.isFinite x) (depth : Nat) (s : State) :
    run settings (depth + 1) (Number.toText x) s = (.done (.number x), s) :=
  evaluate_number (Number.ofText?_toText h) s

end Scriptlet.Script
