import Scriptlet.Session.Basic

/-! The prompt. Lines are gathered until they are no longer incomplete, then they are run and their
value is shown. A line that starts with a colon is an order to the prompt itself. -/

namespace Scriptlet.Prompt

open Script (Action Settings State)

/-! ### Gathering lines -/

def mainPrompt : Text := "ascript> ".toList

/-- The prompt for a further line of an incomplete text. -/
def morePrompt : Text := "...      ".toList

/-- Whether a text ends inside a block or a string. -/
def isIncomplete (ignore t : Text) : Bool := Command.parse ignore t matches .error (.incomplete _)

/-- A further line of a text. -/
def addLine (pending line : Text) : Text :=
  if pending.isEmpty then line else pending ++ '\n' :: line

/-- Reads lines until the text is complete. At the end of the input the text so far is handed over
as it is, and without one there is nothing more. A prompt that is aborted drops the text so far. -/
def gather (incomplete : Text → Bool) : (fuel : Nat) → (pending : Text) → Console →
    Option Text × Console
  | 0, _, c => (none, c)
  | fuel + 1, pending, c =>
    match c.read (if pending.isEmpty then mainPrompt else morePrompt) with
    | (some (.ok line), c) =>
      let t := addLine pending line
      if incomplete t then gather incomplete fuel t c else (some t, c)
    | (some (.error .endOfInput), c) => (if pending.isEmpty then none else some pending, c)
    | (some (.error .aborted), c) => (some [], c)
    | (some (.error .failed), c) => (none, c)
    | (none, c) => (none, c)

/-- The next text to run. Every line read makes the rest of the input smaller, so its size bounds
how many are needed. -/
def next (incomplete : Text → Bool) (c : Console) : Option Text × Console :=
  gather incomplete (c.reader.size + 1) [] c

def readText (settings : Settings) : Action (Option Text) := fun s =>
  match next (isIncomplete settings.ignore) s.console with
  | (t, console) => (.done t, { s with console })

/-! ### Orders -/

inductive Order
  | quit
  | help
  | names
  | load (path : Option Text)
  | unknown
  deriving DecidableEq

def Order.ofText (t : Text) : Order :=
  match t.words with
  | [] => .unknown
  | word :: rest =>
    match String.ofList word with
    | ":quit" | ":exit" => .quit
    | ":help" => .help
    | ":names" => .names
    | ":load" => .load rest.head?
    | _ => .unknown

def helpText : Text :=
  ("Commands:\n" ++
   "  :help          show this help\n" ++
   "  :names         list bound names\n" ++
   "  :load <file>   run a file in this session\n" ++
   "  :quit          exit (Ctrl+D also works)\n").toList

def say (t : Text) : Action Unit := .onConsole fun c => c.writeLine t

/-- Shows the value of a script unless it is empty, or why the script could not be run. -/
def showValue (x : Action Text) : Action Unit := do
  match ← x.attempt with
  | .error f => say ("Error: ".toList ++ f.message)
  | .ok t => if t.isEmpty then pure () else say t

def obey (settings : Settings) (d : Disk) : Order → Action Unit
  | .quit => pure ()
  | .help => .onConsole fun c => c.write helpText
  | .names => do
    let env ← Action.env
    .onConsole fun c => env.names.foldl Console.writeLine c
  | .load none => say "usage: :load <file>".toList
  | .load (some path) => showValue (Session.evaluateFile settings d path)
  | .unknown => say "unknown command. Type :help for help.".toList

/-! ### The loop -/

/-- Serves the prompt for so many texts, and gives those that were run. -/
def serve (settings : Settings) (d : Disk) : (fuel : Nat) → Action (List Text)
  | 0 => pure []
  | fuel + 1 => do
    match ← readText settings with
    | none =>
      say []
      return []
    | some t =>
      if t.trim.isEmpty then serve settings d fuel
      else if t.trim.head? == some ':' then
        match Order.ofText t.trim with
        | .quit => return []
        | order =>
          obey settings d order
          serve settings d fuel
      else
        showValue (Session.evaluate settings t)
        return t :: (← serve settings d fuel)

/-- Serves the prompt to the end of the input. -/
def loop (settings : Settings) (d : Disk) : Action (List Text) := fun s =>
  serve settings d (s.console.reader.size + 1) s

/-- A whole conversation: the startup function from the store, a greeting, and the prompt on the
lines of `input`. -/
def converse (settings : Settings) (d : Disk) (input : Text) : Action Unit := do
  let _ ← (Session.evaluate settings ("load(".toList ++ Session.startupName.quote ++ [')'])).attempt
  match ← (Session.runStartup settings).attempt with
  | .error f =>
    .onConsole fun c =>
      c.report ("Error in ".toList ++ Session.startupName ++ ": ".toList ++ f.message)
  | .ok _ => pure ()
  say "ascript REPL (Ctrl+D to exit, :help for commands)".toList
  .onConsole fun c => { c with reader := .dialogue input }
  let _ ← loop settings d

end Scriptlet.Prompt
