import Scriptlet.Command.Split
import Scriptlet.Text.Basic

/-! The configuration of a session. -/

namespace Scriptlet

structure Config where
  /-- The database file; empty for none. -/
  db : Text := []
  /-- Whether bindings are kept in memory only. -/
  memory : Bool := false
  maxDepth : Int := 0
  loopLimit : Int := 0
  noPrelude : Bool := false
  verbose : Bool := false
  /-- The file with the history of the prompt; empty for the usual one. -/
  history : Text := []
  /-- Characters that are dropped from scripts; empty for the usual ones. -/
  ignore : Text := []
  deriving DecidableEq

namespace Config

/-- The configuration where no file gives one. -/
def default : Config :=
  { db := "ascript.db".toList, maxDepth := 1000, ignore := Command.defaultIgnore }

/-- The configuration file that is read when it is there. -/
def defaultFile : Text := "ascript.yaml".toList

inductive Field
  | db | memory | maxDepth | loopLimit | noPrelude | verbose | history | ignore
  deriving DecidableEq, Repr

/-- The fields in the order in which they are written. -/
def Field.all : List Field :=
  [db, memory, maxDepth, loopLimit, noPrelude, verbose, history, ignore]

def Field.name : Field → Text
  | db => "db".toList
  | memory => "memory".toList
  | maxDepth => "max_depth".toList
  | loopLimit => "loop_limit".toList
  | noPrelude => "no_prelude".toList
  | verbose => "verbose".toList
  | history => "history".toList
  | ignore => "ignore".toList

def Field.ofName? (name : Text) : Option Field := Field.all.find? (·.name == name)

/-- The value of a field. -/
inductive Entry
  | text (t : Text)
  | bool (b : Bool)
  | int (n : Int)
  deriving DecidableEq

def get (c : Config) : Field → Entry
  | .db => .text c.db
  | .memory => .bool c.memory
  | .maxDepth => .int c.maxDepth
  | .loopLimit => .int c.loopLimit
  | .noPrelude => .bool c.noPrelude
  | .verbose => .bool c.verbose
  | .history => .text c.history
  | .ignore => .text c.ignore

/-- Sets a field; an entry of another type than the field's changes nothing. -/
def set (c : Config) : Field → Entry → Config
  | .db, .text t => { c with db := t }
  | .memory, .bool b => { c with memory := b }
  | .maxDepth, .int n => { c with maxDepth := n }
  | .loopLimit, .int n => { c with loopLimit := n }
  | .noPrelude, .bool b => { c with noPrelude := b }
  | .verbose, .bool b => { c with verbose := b }
  | .history, .text t => { c with history := t }
  | .ignore, .text t => { c with ignore := t }
  | _, _ => c

end Config

end Scriptlet
