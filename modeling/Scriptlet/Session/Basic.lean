import Scriptlet.Config.Basic
import Scriptlet.Script.Run
import Scriptlet.Session.Prelude
import Scriptlet.Store.File

/-! A session runs scripts one after another on one environment. It begins with a prelude, which a
text in the store can replace. -/

namespace Scriptlet.Session

open Script (Action Settings)

/-- How a session is set up. Empty texts and limits below one stand for the defaults. -/
structure Options where
  maxDepth : Int := 0
  loopLimit : Int := 0
  ignore : Text := []
  prelude : Text := []
  noPrelude : Bool := false

namespace Options

def ofConfig (c : Config) : Options :=
  { maxDepth := c.maxDepth, loopLimit := c.loopLimit, ignore := c.ignore, noPrelude := c.noPrelude }

def settings (o : Options) : Settings :=
  ({ ignore := if o.ignore.isEmpty then Command.defaultIgnore else o.ignore } : Settings).withLimits
    o.maxDepth o.loopLimit

end Options

/-- The store that a configuration asks for. Without a database that can be opened there is none. -/
def storeOf (c : Config) (d : Disk) : Option Store × Disk :=
  if c.memory then (some (.memory .empty), d)
  else if c.db.isEmpty then (none, d)
  else
    match Store.openAt d c.db with
    | .ok (connection, d) => (some (.database connection), d)
    | .error _ => (none, d)

/-! ### Running scripts -/

/-- Runs a script and shows its value. -/
def evaluate (settings : Settings) (t : Text) : Action Text := do
  return (← Script.runScript settings t).display

def evaluateFile (settings : Settings) (d : Disk) (path : Text) : Action Text :=
  match d.read path with
  | .ok t => evaluate settings t
  | .error cause => .fail (.unreadable path cause)

/-! ### Beginning -/

def preludeName : Text := "__prelude__".toList

/-- The prelude in the store, if there is a quoted text of that name. -/
def storedPrelude (store : Option Store) : Option Text := do
  let text ← ((← store).get? preludeName).toOption.join
  text.unquote?

def preludeOf (o : Options) (store : Option Store) : Option Text :=
  if o.noPrelude then none
  else
    match storedPrelude store with
    | some t => some t
    | none => some (if o.prelude.isEmpty then prelude else o.prelude)

/-- Runs the prelude. One that cannot be loaded is passed over. -/
def start (o : Options) : Action Unit := do
  match preludeOf o (← Action.store) with
  | some t =>
    let _ ← (Script.runScript o.settings t).attempt
  | none => pure ()

/-! ### Startup -/

/-- The function that is called once a session is ready. -/
def startupName : Text := "__startup__".toList

def runStartup (settings : Settings) : Action Text := do
  match ← Action.lookup startupName with
  | some (.callable _) => evaluate settings (startupName ++ ['(', ')'])
  | _ => pure []

end Scriptlet.Session
