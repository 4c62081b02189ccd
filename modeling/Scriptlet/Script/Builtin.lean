import Scriptlet.Script.Loop

/-! The builtins. Most get the values of their arguments; the two loops get the texts, because they
evaluate them again and again. -/

namespace Scriptlet.Script

inductive Builtin
  | print | define | input | str | num | len | cat
  | branch | not | count | loop
  | persist | load | forget | stored | history
  deriving DecidableEq, Repr

namespace Builtin

def name : Builtin → Text
  | print => "print".toList
  | define => "def".toList
  | input => "input".toList
  | str => "str".toList
  | num => "num".toList
  | len => "len".toList
  | cat => "cat".toList
  | branch => "if".toList
  | not => "!".toList
  | count => "for".toList
  | loop => "while".toList
  | persist => "persist".toList
  | load => "load".toList
  | forget => "forget".toList
  | stored => "stored".toList
  | history => "history".toList

def all : List Builtin :=
  [print, define, input, str, num, len, cat, branch, not, count, loop, persist, load, forget,
    stored, history]

def ofName? (name : Text) : Option Builtin := all.find? (·.name == name)

/-- Whether the arguments are handed over as texts. -/
def takesTexts : Builtin → Bool
  | count | loop => true
  | _ => false

/-! ### Values and text -/

def displayAll (args : List Value) : Text := args.flatMap Value.display

def firstArg (args : List Value) : Value := args.headD .null

/-- An argument that is a nonempty text. -/
def expectName (operation : Text) (want : Want) : Value → Action Text
  | .text (c :: t) => pure (c :: t)
  | v => .fail (.mismatch operation want v)

def runPrint (args : List Value) : Action Value := do
  Action.print (displayAll args ++ ['\n'])
  return .null

/-- The names are the function's own and those of its parameters. -/
def expectNames : List Value → Action (List Text)
  | [] => pure []
  | v :: vs => do
    let t ← expectName (name define) .name v
    let ts ← expectNames vs
    return t :: ts

def runDefine (block : Option Text) (args : List Value) : Action Value := do
  match ← expectNames args with
  | [] => .fail (.malformed .definitionWithoutName "def()".toList)
  | f :: params =>
    let v := Value.callable (some ⟨f, params, block.getD []⟩)
    Action.bindName f v
    return v

def runInput (args : List Value) : Action Value := do
  match ← Action.readLine (firstArg args).display with
  | none => return .null
  | some line => return .text (line.trimEnd Text.isLineEnd)

def expectNumber (operation : Text) (v : Value) : Action Float :=
  match v.toNumber? with
  | some x => pure x
  | none => .fail (.mismatch operation .number v)

def runNum (args : List Value) : Action Value := do
  return .number (← expectNumber (name num) (firstArg args))

def runLen (args : List Value) : Action Value :=
  pure (.number (Float.ofNat (firstArg args).display.length))

/-! ### Control flow -/

def runBranch (settings : Settings) (self : Text → Action Value) (block : Option Text)
    (args : List Value) : Action Value :=
  match block with
  | some block => if (firstArg args).truthy then runBlock settings self block else pure .null
  | none => pure .null

/-- A counting loop keeps its variable in a scope of its own. -/
def runCount (settings : Settings) (self : Text → Action Value) (call : Command.Call) :
    Action Value :=
  match call.arguments with
  | [counter, start, condition, step] =>
    .enclosed
      (do
        let v ← self counter
        let name ← expectName (name count) .variableName v
        let first ← self start
        Action.bindName name first)
      (Loop.run settings self ⟨condition, call.block, some step⟩)
  | _ => .fail (.malformed .countArguments call.header)

def runWhile (settings : Settings) (self : Text → Action Value) (call : Command.Call) :
    Action Value :=
  match call.arguments with
  | [condition] => Loop.run settings self ⟨condition, call.block, none⟩
  | _ => .fail (.malformed .whileArguments call.header)

/-! ### The store -/

/-- How a failure within a builtin names its task. -/
def task (b : Builtin) (binding : Text) : Text := b.name ++ ' ' :: binding

def runPersist (args : List Value) : Action Value := do
  let binding ← expectName (name persist) .name (firstArg args)
  match ← Action.store with
  | none => return .null
  | some store =>
    match ← Action.lookup binding with
    | none => .fail (.undefined binding)
    | some v =>
      if (match v with | .text t => t.contains '"' | _ => false) then
        .fail (.mismatch (name persist) .textWithoutQuotes v)
      else do
        let store ← (Action.ofStore (store.put binding v.source)).during (task persist binding)
        Action.setStore store
        return .null

/-- Evaluates the stored text of a binding and binds its value. -/
def runLoad (self : Text → Action Value) (args : List Value) : Action Value := do
  let binding ← expectName (name load) .name (firstArg args)
  match ← Action.store with
  | none => return .null
  | some store =>
    match ← (Action.ofStore (store.get? binding)).during (task load binding) with
    | none | some [] => return .null
    | some text => do
      let v ← (self text).during (task load binding)
      Action.bindName binding v
      return v

def runForget (args : List Value) : Action Value := do
  let binding ← expectName (name forget) .name (firstArg args)
  match ← Action.store with
  | none => return .null
  | some store => do
    let store ← (Action.ofStore (store.delete binding)).during (task forget binding)
    Action.setStore store
    return .null

def runStored : Action Value := do
  match ← Action.store with
  | none => return .text []
  | some store => do
    let names ← (Action.ofStore store.names).during (name stored)
    return .text (Text.lines names)

/-- A limit is cut toward zero; beyond the range of the machine's integers there is none. -/
def historyLimit (x : Float) : Int :=
  let n := Number.wholePart (Number.word x)
  if x.isNaN || !Number.isFinite x || Number.isNegative x || Nat.pow 2 63 ≤ n then 0 else n

def runHistory (args : List Value) : Action Value := do
  let binding ← expectName (name history) .name (firstArg args)
  match (← Action.store).bind Store.history? with
  | none => return .null
  | some versions => do
    let limit ← match args with
      | _ :: v :: _ => historyLimit <$> expectNumber (name history) v
      | _ => pure 0
    match ← (Action.ofStore (versions binding limit)).during (task history binding) with
    | [] => return .null
    | found => return .text (Text.lines (found.map (·.text)))

/-! ### Calls -/

/-- Runs a builtin. The values are those of the arguments, unless it takes their texts. -/
def run (settings : Settings) (self : Text → Action Value) (call : Command.Call)
    (args : List Value) : Builtin → Action Value
  | print => runPrint args
  | define => runDefine call.block args
  | input => runInput args
  | str => pure (.text (firstArg args).display)
  | num => runNum args
  | len => runLen args
  | cat => pure (.text (displayAll args))
  | branch => runBranch settings self call.block args
  | not => pure (.ofBool !(firstArg args).truthy)
  | count => runCount settings self call
  | loop => runWhile settings self call
  | persist => runPersist args
  | load => runLoad self args
  | forget => runForget args
  | stored => runStored
  | history => runHistory args

end Builtin

end Scriptlet.Script
