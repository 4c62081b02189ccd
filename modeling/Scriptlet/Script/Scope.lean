import Scriptlet.Script.Action

/-! Blocks and functions. A block runs on a copy of the environment around it and its value is what
it leaves in `return`. A function runs its body as a block in which its parameters are bound, and
neither they nor `return` reach the caller.

Everything here takes the evaluation of a single command as `self`. -/

namespace Scriptlet.Script

/-- The name a block leaves its value in. -/
def returnName : Text := "return".toList

/-- Runs commands in order; the value is that of the last one, or `last` if there is none. -/
def runCommandsFrom (self : Text → Action Value) (last : Value) : List Text → Action Value
  | [] => pure last
  | command :: commands => do
    let v ← self command
    runCommandsFrom self v commands

def runCommands (self : Text → Action Value) (commands : List Text) : Action Value :=
  runCommandsFrom self .null commands

/-- Runs a block in a scope that `enter` prepares and that leaves the names in `keep` alone. A block
that cannot be loaded does nothing. -/
def runBlockIn (settings : Settings) (self : Text → Action Value) (enter : Env → Env)
    (keep : List Text) (block : Text) : Action Value :=
  match Command.parse settings.ignore block with
  | .error e => .fail (.load e)
  | .ok commands => .inScope enter keep do
    let _ ← runCommands self commands
    return (← Action.env).get returnName

def runBlock (settings : Settings) (self : Text → Action Value) (block : Text) : Action Value :=
  runBlockIn settings self id [] block

/-- Binds parameters to arguments by position; missing arguments are null, further ones are not
used. -/
def bindParams : List Text → List Value → Env → Env
  | [], _, env => env
  | p :: ps, args, env => bindParams ps args.tail (env.set p (args.headD .null))

/-- Calls a function. `return` starts as null, so that a block within the body can set it. -/
def invoke (settings : Settings) (self : Text → Action Value) (f : Function) (args : List Value) :
    Action Value :=
  runBlockIn settings self (fun env => bindParams f.params args (env.set returnName .null))
    (returnName :: f.params) f.body

end Scriptlet.Script
