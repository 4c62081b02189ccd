import Scriptlet.Script.Scope

/-! Loops. A round evaluates the condition and, if that holds, runs the block and then the step. The
value of a loop is the value of its last block. -/

namespace Scriptlet.Script

structure Loop where
  condition : Text
  block : Option Text
  step : Option Text

namespace Loop

/-- The block and the step of one round; `last` is the value of the block before. -/
def round (settings : Settings) (self : Text → Action Value) (loop : Loop) (last : Value) :
    Action Value := do
  let v ← match loop.block with
    | some block => runBlock settings self block
    | none => pure last
  match loop.step with
  | some step => do
    let _ ← self step
    return v
  | none => return v

/-- Goes on after `n` rounds. The limit is looked at only when the condition asks for one more. -/
def runFrom (settings : Settings) (self : Text → Action Value) (loop : Loop) :
    (fuel n : Nat) → (last : Value) → Action Value
  | 0, _, _ => .giveUp
  | fuel + 1, n, last => do
    let c ← self loop.condition
    if !c.truthy then return last
    if 0 < settings.loopLimit && settings.loopLimit ≤ n then
      .fail (.tooLong settings.loopLimit)
    else do
      let v ← round settings self loop last
      runFrom settings self loop fuel (n + 1) v

/-- A loop with a limit needs fuel for as many rounds as the limit allows, and one for the last look
at its condition. -/
def run (settings : Settings) (self : Text → Action Value) (loop : Loop) : Action Value :=
  let fuel := if 0 < settings.loopLimit then settings.loopLimit + 1 else settings.fuel
  runFrom settings self loop fuel 0 .null

end Loop

end Scriptlet.Script
