import Scriptlet.Disk.Path

/-! The files that a run sees. Each file has its place, the list of names that leads to it from the
root. A directory is there when it leads to a file or to the working directory. -/

namespace Scriptlet

namespace Disk

/-- Why a path cannot be used. -/
inductive Fault
  | missing
  /-- A name inside the path is a file. -/
  | notDirectory
  | directory
  | tooLong
  /-- The path holds a character that no path can hold. -/
  | malformed
  deriving DecidableEq

def Fault.reason : Fault → Text
  | missing => "no such file or directory".toList
  | notDirectory => "not a directory".toList
  | directory => "is a directory".toList
  | tooLong => "file name too long".toList
  | malformed => "invalid argument".toList

/-- A directory can be opened for reading, but then not read. -/
def Fault.readMessage (path : Text) (fault : Fault) : Text :=
  (if fault = .directory then "read ".toList else "open ".toList) ++ path ++ ": ".toList
    ++ fault.reason

def Fault.writeMessage (path : Text) (fault : Fault) : Text :=
  "open ".toList ++ path ++ ": ".toList ++ fault.reason

abbrev Place := List Text

end Disk

structure Disk where
  /-- The path of the working directory. -/
  dir : Text
  files : List (Disk.Place × Text) := []

namespace Disk

def placeOf (path : Text) : Place := (Path.names path).filter (!·.isEmpty)

def content? (d : Disk) (p : Place) : Option Text := d.files.lookup p

def isDirectory (d : Disk) (p : Place) : Bool :=
  p.isPrefixOf (placeOf d.dir) || d.files.any fun (q, _) => p.isPrefixOf q && p != q

/-- How many bytes a name may have. -/
def nameLimit : Nat := 255

/-- How many bytes are too many for a path. -/
def pathLimit : Nat := 4096

/-- Follows names from a place. Every place that is left must be a directory. -/
def follow (d : Disk) : Place → List Text → Except Fault Place
  | p, [] => .ok p
  | p, name :: rest =>
    if !d.isDirectory p then .error (if (d.content? p).isSome then .notDirectory else .missing)
    else if name = [] || name = ['.'] then d.follow p rest
    else if name = ['.', '.'] then d.follow p.dropLast rest
    else if nameLimit < name.byteLength then .error .tooLong
    else d.follow (p ++ [name]) rest

def locate (d : Disk) (path : Text) : Except Fault Place :=
  if path.contains '\x00' then .error .malformed
  else if path.isEmpty then .error .missing
  else if pathLimit ≤ path.byteLength then .error .tooLong
  else d.follow (if Path.isRooted path then [] else placeOf d.dir) (Path.names path)

def read (d : Disk) (path : Text) : Except Fault Text := do
  let p ← d.locate path
  if d.isDirectory p then throw .directory
  match d.content? p with
  | some t => return t
  | none => throw .missing

/-- The disk with a file at a place, whatever was there before. -/
def put (d : Disk) (p : Place) (t : Text) : Disk :=
  if (d.content? p).isSome then
    { d with files := d.files.map fun (q, u) => if q = p then (q, t) else (q, u) }
  else { d with files := d.files ++ [(p, t)] }

/-- Writes a file. Its directory must be there; a slash at the end asks for a directory. -/
def write (d : Disk) (path t : Text) : Except Fault Disk := do
  let p ← d.locate (path.trimEnd (· == '/'))
  if d.isDirectory p || path.getLast? == some '/' then throw .directory
  return d.put p t

end Disk

end Scriptlet
