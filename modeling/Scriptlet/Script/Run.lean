import Scriptlet.Script.Builtin

/-! Evaluation. A command is evaluated by its form, and evaluating it evaluates further texts: the
operands of an equation, the text a variable holds, the arguments of a call. Each of these is one
level deeper, so evaluation is one step, `evaluate`, repeated for as many levels as are allowed. -/

namespace Scriptlet.Script

/-- Evaluates both sides, then wants both to be numbers. -/
def runEquation (self : Text → Action Value) (e : Command.Equation) : Action Value := do
  let left ← self e.left
  let right ← self e.right
  let a ← Builtin.expectNumber e.op.symbol left
  let b ← Builtin.expectNumber e.op.symbol right
  return .number (e.op.apply a b)

/-- Reads a variable: its value is evaluated again, so that a text can hold an expression. A text
that is no command stands for itself. -/
def resolve (self : Text → Action Value) (name : Text) : Value → Action Value
  | .number x => if Number.isFinite x then self (Value.source (.number x)) else pure (.number x)
  | .text t =>
    if t = [] || t = name then pure (.text t)
    else (self t).recover fun f => if f.isPlainText then some (.text t) else none
  | v => pure v

/-- Evaluates arguments from left to right. -/
def evaluateAll (self : Text → Action Value) : List Text → Action (List Value)
  | [] => pure []
  | t :: ts => do
    let v ← self t
    let vs ← evaluateAll self ts
    return v :: vs

/-- Calls a builtin, or else a function that the name is bound to. -/
def runCall (settings : Settings) (self : Text → Action Value) (call : Command.Call) :
    Action Value := do
  match if settings.builtins then Builtin.ofName? call.name else none with
  | some builtin =>
    let args ← if builtin.takesTexts then pure [] else evaluateAll self call.arguments
    builtin.run settings self call args
  | none =>
    let args ← evaluateAll self call.arguments
    match ← Action.lookup call.name with
    | some (.callable f) =>
      if settings.functions then
        match f with
        | some f => invoke settings self f args
        | none => pure .null
      else .fail (.undefined call.name)
    | _ => .fail (.undefined call.name)

def runStatement (settings : Settings) (self : Text → Action Value) (command : Text) :
    Action Value :=
  match Command.Statement.ofText command with
  | .group inner => self inner
  | .assignment name value => do
    let v ← self value
    Action.bindName name v
    return v
  | .call call => runCall settings self call
  | .word => .fail (.undefined command)
  | .malformed fault => .fail (.malformed fault command)

/-- One level of evaluation; `self` evaluates the texts one level deeper. -/
def evaluate (settings : Settings) (self : Text → Action Value) (command : Text) : Action Value :=
  match Command.Form.ofText command with
  | .number x => pure (.number x)
  | .string t => pure (.text t)
  | .equation e => runEquation self e
  | .other => do
    match ← Action.lookup command with
    | some v => resolve self command v
    | none => runStatement settings self command

/-- Evaluates a command with so many levels left. -/
def run (settings : Settings) : (depth : Nat) → Text → Action Value
  | 0, _ => .fail (.tooDeep settings.maxDepth)
  | depth + 1, command => evaluate settings (run settings depth) command

/-- Evaluates a command from the top. -/
def runCommand (settings : Settings) : Text → Action Value := run settings settings.maxDepth

/-- Tells the user that a script ended with a failure. -/
def report (f : Failure) : Action Unit := fun s =>
  (.done (), { s with console := (s.console.report f.report).report "Script terminated.".toList })

/-- Runs a script. One that cannot be loaded fails and runs nothing; a failure while it runs is
reported and leaves null. -/
def runScript (settings : Settings) (text : Text) : Action Value :=
  match Command.parse settings.ignore text with
  | .error e => .fail (.load e)
  | .ok commands => fun s =>
    match runCommands (runCommand settings) commands s with
    | (.failed f, s) => ((report f).andThen fun _ => .result .null) s
    | r => r

end Scriptlet.Script
