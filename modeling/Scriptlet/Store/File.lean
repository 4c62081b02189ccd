import Scriptlet.Disk.Basic
import Scriptlet.Store.Address
import Scriptlet.Store.Basic
import Scriptlet.Store.Image

/-! Databases on the disk. Opening a database makes its file; its directory must be there already.
-/

namespace Scriptlet.Store

/-- Whether a database is on this host. -/
def isHere (path : Text) : Bool := (Address.ofText? path).isSome

/-- The name of a database's file. -/
def fileName (path : Text) : Text := ((Address.ofText? path).map (·.name)).getD []

/-- Whether a database is kept in a file. -/
def hasFile (path : Text) : Bool := (Address.ofText? path).any (·.isKept)

/-- The place of a database file. -/
def placeOn (d : Disk) (path : Text) : Disk.Place :=
  Disk.placeOf (Path.absolute d.dir (fileName path))

/-- Whether a file can be at a place: its directory is there, and no name is too long. -/
def isReachable (d : Disk) (p : Disk.Place) : Bool :=
  !d.isDirectory p && d.isDirectory p.dropLast && p.all (·.byteLength ≤ Disk.nameLimit)

def openAt (d : Disk) (path : Text) : Except OpenFault (Connection × Disk) :=
  if !isHere path then .error .unreachable
  else if !hasFile path then (Database.prepare {}).map fun db => ({ db }, d)
  else
    let p := placeOn d path
    if !isReachable d p then .error .unreachable
    else
      match Database.ofText? ((d.content? p).getD []) with
      | none => .error .notDatabase
      | some db => db.prepare.map fun db => ({ db }, d.put p db.toText)

/-- The disk with what a store holds in the file of its database. -/
def saveAt (d : Disk) (path : Text) : Option Store → Disk
  | some (.database c) => if hasFile path then d.put (placeOn d path) c.db.toText else d
  | _ => d

end Scriptlet.Store
