import Scriptlet.CommandLine.Flag
import Scriptlet.Config.File
import Scriptlet.Prompt

/-! The program: from arguments, standard input and the disk to an exit code, what is printed, and
the disk afterwards. -/

namespace Scriptlet.CommandLine

open Script (Action Settings)

/-- What the arguments ask for. Flags that were not given leave the configuration alone. -/
structure Request where
  config : Text := []
  evaluate : Text := []
  file : Text := []
  initConfig : Text := []
  db : Option Text := none
  memory : Option Bool := none
  maxDepth : Option Int := none
  loopLimit : Option Int := none
  noPrelude : Option Bool := none
  verbose : Option Bool := none

namespace Request

/-- Takes a flag into account. A later flag replaces an earlier one of the same name. -/
def add (r : Request) : Flag × Config.Entry → Request
  | (.config, .text t) => { r with config := t }
  | (.evaluate, .text t) => { r with evaluate := t }
  | (.file, .text t) => { r with file := t }
  | (.initConfig, .text t) => { r with initConfig := t }
  | (.db, .text t) => { r with db := some t }
  | (.memory, .bool b) => { r with memory := some b }
  | (.maxDepth, .int n) => { r with maxDepth := some n }
  | (.loopLimit, .int n) => { r with loopLimit := some n }
  | (.noPrelude, .bool b) => { r with noPrelude := some b }
  | (.verbose, .bool b) => { r with verbose := some b }
  | _ => r

def ofArguments (arguments : List Text) : Except Fault Request :=
  (flags arguments).map fun given => given.foldl add {}

/-- The configuration with what the flags say instead. A database asked for is used, unless memory
is asked for too. -/
def override (r : Request) (c : Config) : Config :=
  let c :=
    match r.db with
    | some db => { c with db, memory := false }
    | none => c
  { c with
    memory := r.memory.getD c.memory
    maxDepth := r.maxDepth.getD c.maxDepth
    loopLimit := r.loopLimit.getD c.loopLimit
    noPrelude := r.noPrelude.getD c.noPrelude
    verbose := r.verbose.getD c.verbose }

end Request

/-! ### Running -/

/-- Standard input: the text to be read, and whether a person is expected to type it. -/
structure Input where
  text : Text := []
  isTerminal : Bool := false

structure Result where
  code : Nat
  output : Text := []
  errors : Text := []
  disk : Disk

def Result.error (disk : Disk) (message : Text) : Result :=
  { code := 1, errors := "Error: ".toList ++ message ++ ['\n'], disk }

def errorText (f : Failure) : Text := "Error: ".toList ++ f.message

/-- The rest of the input as a script, and then the startup function, whose value counts if there is
one. -/
def runInput (settings : Settings) : Action Text := do
  let value ← Session.evaluate settings (← Action.readRest)
  let startup ← Session.runStartup settings
  return if startup.isEmpty then value else startup

/-- What is left to do once the file and the text on the command line are done. -/
def runMain (r : Request) (settings : Settings) (d : Disk) (input : Input) : Action Text :=
  if !r.file.isEmpty then Session.runStartup settings
  else if !r.evaluate.isEmpty then pure []
  else if input.isTerminal then do
    Prompt.converse settings d input.text
    return []
  else runInput settings

/-- Runs the file, the text on the command line, and the rest, and gives the last value or what went
wrong. -/
def work (r : Request) (settings : Settings) (d : Disk) (input : Input) :
    Action (Except Text Text) := do
  let loaded ←
    if r.file.isEmpty then pure (.ok [])
    else (Session.evaluateFile settings d r.file).attempt
  match loaded with
  | .error f => return .error ("Error loading file: ".toList ++ f.message)
  | .ok _ =>
    let value ←
      if r.evaluate.isEmpty then pure (.ok [])
      else (Session.evaluate settings r.evaluate).attempt
    match value with
    | .error f => return .error (errorText f)
    | .ok value =>
      if value.isEmpty then pure () else Prompt.say value
      return (← (runMain r settings d input).attempt).mapError errorText

/-- The exit code; the last value is printed unless it is empty. -/
def finish : Except Text Text → Action Nat
  | .error message => do
    .onConsole fun c => c.report message
    return 1
  | .ok value => do
    if value.isEmpty then pure () else Prompt.say value
    return 0

def execute (r : Request) (c : Config) (input : Input) (d : Disk) : Result :=
  let options := Session.Options.ofConfig c
  let (store, d) := Session.storeOf c d
  let program : Action Nat := do
    Session.start options
    finish (← work r options.settings d input)
  let (outcome, s) := program { store, console := { reader := .stream input.text } }
  { code := match outcome with
      | .done code => code
      | _ => 1
    output := s.console.output
    errors := s.console.reported
    disk := if c.memory then d else Store.saveAt d c.db s.store }

def run (arguments : List Text) (input : Input) (d : Disk) : Result :=
  match Request.ofArguments arguments with
  | .error fault => { code := 2, errors := fault.report, disk := d }
  | .ok r =>
    if !r.initConfig.isEmpty then
      match Config.write d r.initConfig (some .default) with
      | .error fault => .error d fault.message
      | .ok d => { code := 0, disk := d }
    else
      match Config.loadOrDefault d r.config with
      | .error fault => .error d fault.message
      | .ok c => execute r (r.override c) input d

end Scriptlet.CommandLine
