import Scriptlet.Config.Format
import Scriptlet.Disk.Basic

/-! Reading and writing configuration files. Messages about reading name the absolute path, messages
about writing the path as it was given. -/

namespace Scriptlet.Config

inductive LoadFault
  | emptyPath
  | unreadable (path : Text) (cause : Disk.Fault)
  | invalid (path : Text) (cause : Fault)

def LoadFault.message : LoadFault → Text
  | emptyPath => "config: empty path".toList
  | unreadable path .directory =>
    "config: parse ".toList ++ path ++ ": yaml: input error: ".toList
      ++ Disk.Fault.directory.readMessage path
  | unreadable path cause => cause.readMessage path
  | invalid path cause => cause.message path

def load (d : Disk) (path : Text) : Except LoadFault Config :=
  if path.isEmpty then .error .emptyPath
  else
    let path := Path.absolute d.dir path
    match d.read path with
    | .error cause => .error (.unreadable path cause)
    | .ok t => (ofText t).mapError (.invalid path)

/-- Reads the file with this path, or the default one if the path is empty. Without that file the
defaults hold. -/
def loadOrDefault (d : Disk) (path : Text) : Except LoadFault Config :=
  if !path.isEmpty then load d path
  else if d.read defaultFile matches .error .missing then .ok default
  else load d defaultFile

inductive WriteFault
  | nothing
  | unwritable (path : Text) (cause : Disk.Fault)

def WriteFault.message : WriteFault → Text
  | nothing => "config: nil config".toList
  | unwritable path cause =>
    "config: write ".toList ++ path ++ ": ".toList ++ cause.writeMessage path

def write (d : Disk) (path : Text) : Option Config → Except WriteFault Disk
  | none => .error .nothing
  | some c => (d.write path c.render).mapError (.unwritable path)

/-! ### The history of the prompt -/

def historyName : Text := ".ascript_history".toList

/-- The file with the history: the configured one, else one in the home directory. -/
def historyPath (configured home : Text) : Text :=
  if !configured.isEmpty then configured
  else if home.isEmpty then historyName
  else Path.join home historyName

end Scriptlet.Config
