import Scriptlet.Store.Database

/-! The store a session works with. -/

namespace Scriptlet

inductive Store
  | memory (m : Store.Memory)
  | database (c : Store.Connection)
  /-- A store in memory that tells nothing of its versions. -/
  | plain (m : Store.Memory)
  /-- A store that fails on everything. -/
  | broken

namespace Store

def get? : Store → Text → Except Fault (Option Text)
  | memory m, name | plain m, name => .ok (m.get? name)
  | database c, name => c.get? name
  | broken, _ => .error .broken

def put : Store → Text → Text → Except Fault Store
  | memory m, name, text => .ok (memory (m.put name text))
  | plain m, name, text => .ok (plain (m.put name text))
  | database c, name, text => (c.put name text).map database
  | broken, _, _ => .error .broken

def delete : Store → Text → Except Fault Store
  | memory m, name => .ok (memory (m.delete name))
  | plain m, name => .ok (plain (m.delete name))
  | database c, name => (c.delete name).map database
  | broken, _ => .error .broken

def names : Store → Except Fault (List Text)
  | memory m | plain m => .ok m.names
  | database c => c.names
  | broken => .error .broken

/-- The versions of a name, the newest first; none if the store keeps no history. -/
def history? : Store → Option (Text → Int → Except Fault (List Version))
  | memory m => some fun name limit => .ok (m.history name limit)
  | database c => some c.history
  | plain _ => none
  | broken => some fun _ _ => .error .broken

def close : Store → Except Fault Store
  | database c => .ok (database c.close)
  | broken => .error .broken
  | s => .ok s

end Store

end Scriptlet
