import Scriptlet.Text.Basic

/-! What can go wrong in a store of bindings. -/

namespace Scriptlet.Store

inductive Fault
  | closed
  | noTable (name : Text)
  /-- The store refuses every operation. -/
  | broken
  deriving DecidableEq

def Fault.message : Fault → Text
  | closed => "sql: database is closed".toList
  | noTable name => "SQL logic error: no such table: ".toList ++ name ++ " (1)".toList
  | broken => "store is broken".toList

/-- Why a database cannot be opened. -/
inductive OpenFault
  | unreachable
  | notDatabase
  | schema (version : Text)
  deriving DecidableEq

def OpenFault.message : OpenFault → Text
  | unreachable =>
    "store: create metadata: unable to open database file: out of memory (14)".toList
  | notDatabase => "store: create metadata: file is not a database (26)".toList
  | schema version =>
    "store: unsupported schema version: ".toList ++ version ++ " (expected 1)".toList

end Scriptlet.Store
