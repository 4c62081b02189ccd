import Scriptlet.Store.Fault
import Scriptlet.Store.Memory

/-! A store of named texts in two tables: one row for each bound name, and one row for each version
of each name. A database may lack both tables, and it records which layout of tables it was made
for. -/

namespace Scriptlet.Store

structure BindingRow where
  name : Text
  text : Text
  deriving DecidableEq

structure VersionRow where
  name : Text
  number : Nat
  text : Text
  deriving DecidableEq

structure Tables where
  bindings : List BindingRow := []
  versions : List VersionRow := []

namespace Tables

def get? (t : Tables) (name : Text) : Option Text :=
  (t.bindings.find? (·.name == name)).map (·.text)

/-- Changes the row of a name, or adds one. -/
def upsert (t : Tables) (name text : Text) : List BindingRow :=
  if t.bindings.any (·.name == name) then
    t.bindings.map fun row => if row.name == name then ⟨name, text⟩ else row
  else t.bindings ++ [⟨name, text⟩]

/-- The largest version number of a name, zero if it has none. -/
def lastVersion (t : Tables) (name : Text) : Nat :=
  ((t.versions.filter (·.name == name)).map (·.number)).foldl max 0

def put (t : Tables) (name text : Text) : Tables :=
  if t.get? name = some text then t
  else
    { bindings := t.upsert name text
      versions := t.versions ++ [⟨name, t.lastVersion name + 1, text⟩] }

def delete (t : Tables) (name : Text) : Tables :=
  { bindings := t.bindings.filter (·.name != name)
    versions := t.versions.filter (·.name != name) }

def names (t : Tables) : List Text :=
  (t.bindings.map (·.name)).mergeSort fun a b => (compare a b).isLE

/-- The versions of a name, the largest number first. -/
def history (t : Tables) (name : Text) (limit : Int) : List Version :=
  let rows := (t.versions.filter (·.name == name)).mergeSort fun a b => decide (b.number ≤ a.number)
  upTo limit (rows.map fun row => ⟨row.number, row.text⟩)

end Tables

/-- A database as it lies on disk. The version is empty until the tables are made. -/
structure Database where
  schemaVersion : Text := []
  tables : Option Tables := none

namespace Database

/-- The layout of tables that is understood. -/
def schema : Text := ['1']

/-- Opens a database, making its tables if it is new. -/
def prepare (db : Database) : Except OpenFault Database :=
  if db.schemaVersion.isEmpty then .ok ⟨schema, some (db.tables.getD {})⟩
  else if db.schemaVersion = schema then .ok db
  else .error (.schema db.schemaVersion)

end Database

/-- An open or closed connection to a database. -/
structure Connection where
  db : Database
  isOpen : Bool := true

namespace Connection

def bindings : Text := "bindings".toList

def versions : Text := "binding_versions".toList

/-- The tables, for an operation that asks for `table` first. -/
def tables (c : Connection) (table : Text) : Except Fault Tables :=
  if !c.isOpen then .error .closed
  else
    match c.db.tables with
    | some t => .ok t
    | none => .error (.noTable table)

def withTables (c : Connection) (t : Tables) : Connection := { c with db.tables := some t }

def get? (c : Connection) (name : Text) : Except Fault (Option Text) := do
  return (← c.tables bindings).get? name

def put (c : Connection) (name text : Text) : Except Fault Connection := do
  return c.withTables ((← c.tables bindings).put name text)

def delete (c : Connection) (name : Text) : Except Fault Connection := do
  return c.withTables ((← c.tables bindings).delete name)

def names (c : Connection) : Except Fault (List Text) := do
  return (← c.tables bindings).names

def history (c : Connection) (name : Text) (limit : Int) : Except Fault (List Version) := do
  return (← c.tables versions).history name limit

/-- The schema version is the only entry about the database itself. -/
def metadata (c : Connection) (key : Text) : Except Fault Text :=
  if !c.isOpen then .error .closed
  else .ok (if key = "schema_version".toList then c.db.schemaVersion else [])

def close (c : Connection) : Connection := { c with isOpen := false }

end Connection

end Scriptlet.Store
