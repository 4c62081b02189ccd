import Scriptlet.Config.Basic
import Scriptlet.Number.Integer
import Scriptlet.Text.Quoted

/-! The flags of the command line. A flag starts with one dash or two; its value follows after an
equals sign or as the next argument. A switch needs no value and takes one only after an equals
sign. -/

namespace Scriptlet.CommandLine

inductive Flag
  | config | db | debug | evaluate | file | initConfig | loopLimit | maxDepth | memory | noPrelude
  | verbose
  deriving DecidableEq

namespace Flag

/-- The flags in the order of their names. -/
def all : List Flag :=
  [config, db, debug, evaluate, file, initConfig, loopLimit, maxDepth, memory, noPrelude, verbose]

def name : Flag → Text
  | config => "config".toList
  | db => "db".toList
  | debug => "debug".toList
  | evaluate => "e".toList
  | file => "f".toList
  | initConfig => "init-config".toList
  | loopLimit => "loop-limit".toList
  | maxDepth => "max-depth".toList
  | memory => "memory".toList
  | noPrelude => "no-prelude".toList
  | verbose => "v".toList

def help : Flag → Text
  | config => "YAML config file (default ascript.yaml if present)".toList
  | db => "SQLite database path (default ascript.db)".toList
  | debug => "Debug logging".toList
  | evaluate => "Evaluate ascript string".toList
  | file => "Execute ascript file".toList
  | initConfig => "Write the default config to this path and exit".toList
  | loopLimit => "Maximum loop iterations (0 = unlimited)".toList
  | maxDepth => "Maximum evaluation depth".toList
  | memory => "Use an in-memory store instead of SQLite".toList
  | noPrelude => "Disable the prelude".toList
  | verbose => "Verbose logging".toList

inductive Kind
  | text | count | switch
  deriving DecidableEq

def kind : Flag → Kind
  | config | db | evaluate | file | initConfig => .text
  | loopLimit | maxDepth => .count
  | debug | memory | noPrelude | verbose => .switch

def ofName? (t : Text) : Option Flag := all.find? (·.name == t)

/-- How the usage describes a flag. The help starts on a line of its own unless the flag is short.
-/
def description (f : Flag) : Text :=
  let head := ' ' :: ' ' :: '-' :: f.name ++
    match f.kind with
    | .text => " string".toList
    | .count => " int".toList
    | .switch => []
  head ++ (if head.length ≤ 4 then ['\t'] else "\n    \t".toList) ++ f.help ++ ['\n']

def usage : Text := "Usage of ascript:\n".toList ++ all.flatMap description

end Flag

/-- Why arguments cannot be used. -/
inductive Fault
  | help
  | badSyntax (argument : Text)
  | undefined (name : Text)
  | needsValue (flag : Flag)
  | badSwitch (flag : Flag) (value : Text)
  | badCount (flag : Flag) (value : Text) (cause : Number.Integer.Fault)

def Fault.message : Fault → Text
  | help => []
  | badSyntax argument => "bad flag syntax: ".toList ++ argument
  | undefined name => "flag provided but not defined: -".toList ++ name
  | needsValue flag => "flag needs an argument: -".toList ++ flag.name
  | badSwitch flag value =>
    "invalid boolean value ".toList ++ value.quoted ++ " for -".toList ++ flag.name
      ++ ": parse error".toList
  | badCount flag value cause =>
    "invalid value ".toList ++ value.quoted ++ " for flag -".toList ++ flag.name ++ ": ".toList ++
      match cause with
      | .malformed => "parse error".toList
      | .outOfRange => "value out of range".toList

/-- What is told about bad arguments: the fault, unless help was asked for, and the usage. -/
def Fault.report (fault : Fault) : Text :=
  match fault with
  | .help => Flag.usage
  | _ => fault.message ++ '\n' :: Flag.usage

/-! ### Values -/

def switch? (t : Text) : Option Bool :=
  match String.ofList t with
  | "1" | "t" | "T" | "true" | "TRUE" | "True" => some true
  | "0" | "f" | "F" | "false" | "FALSE" | "False" => some false
  | _ => none

def readValue (f : Flag) (t : Text) : Except Fault Config.Entry :=
  match f.kind with
  | .text => .ok (.text t)
  | .count => ((Number.Integer.ofText t).map .int).mapError (.badCount f t)
  | .switch =>
    match switch? t with
    | some b => .ok (.bool b)
    | none => .error (.badSwitch f t)

/-! ### Arguments -/

/-- What one argument is. -/
inductive Argument
  | flag (name : Text) (value : Option Text)
  /-- Two dashes alone, or an argument that is no flag: the flags are over. -/
  | other
  | bad
  deriving DecidableEq

/-- A name and the value after the first equals sign that does not come first. -/
def splitValue : Text → Text × Option Text
  | [] => ([], none)
  | c :: t =>
    match Text.splitFirst (· == '=') t with
    | some (name, _, value) => (c :: name, some value)
    | none => (c :: t, none)

def Argument.ofText (t : Text) : Argument :=
  let named (body : Text) : Argument :=
    match body with
    | [] | '-' :: _ | '=' :: _ => .bad
    | body => .flag (splitValue body).1 (splitValue body).2
  match t with
  | ['-'] | ['-', '-'] => .other
  | '-' :: '-' :: body => named body
  | '-' :: body => named body
  | _ => .other

/-- The flags that were given, with their values, the first one first; `waiting` is a flag whose
value is the next argument. -/
def flagsFrom : (waiting : Option Flag) → List Text → Except Fault (List (Flag × Config.Entry))
  | none, [] => .ok []
  | some f, [] => .error (.needsValue f)
  | some f, t :: rest => do
    let e ← readValue f t
    return (f, e) :: (← flagsFrom none rest)
  | none, argument :: rest =>
    match Argument.ofText argument with
    | .other => .ok []
    | .bad => .error (.badSyntax argument)
    | .flag name value =>
      match Flag.ofName? name, value with
      | none, _ => .error (if name = ['h'] || name = "help".toList then .help else .undefined name)
      | some f, some t => do
        let e ← readValue f t
        return (f, e) :: (← flagsFrom none rest)
      | some f, none =>
        if f.kind = .switch then do return (f, .bool true) :: (← flagsFrom none rest)
        else flagsFrom (some f) rest

def flags (arguments : List Text) : Except Fault (List (Flag × Config.Entry)) :=
  flagsFrom none arguments

end Scriptlet.CommandLine
