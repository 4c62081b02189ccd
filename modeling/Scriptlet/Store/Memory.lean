import Std.Data.ExtTreeMap
import Scriptlet.Text.Basic

/-! A store of named texts in memory. Every change of a text is kept as a version; storing the text
that is already there changes nothing, and deleting a name forgets its versions too. -/

namespace Scriptlet.Store

/-- One stored text with its number, counted from one. -/
structure Version where
  number : Nat
  text : Text
  deriving DecidableEq

/-- The first `limit` entries, or all of them for a limit below one. -/
def upTo {α : Type} (limit : Int) (entries : List α) : List α :=
  if limit < 1 then entries else entries.take limit.toNat

structure Memory where
  current : Std.ExtTreeMap Text Text := ∅
  /-- The versions of each name, the oldest first. -/
  versions : Std.ExtTreeMap Text (List Version) := ∅

namespace Memory

def empty : Memory := {}

def get? (m : Memory) (name : Text) : Option Text := m.current[name]?

def versionsOf (m : Memory) (name : Text) : List Version := m.versions[name]?.getD []

def put (m : Memory) (name text : Text) : Memory :=
  if m.get? name = some text then m
  else
    let old := m.versionsOf name
    { current := m.current.insert name text
      versions := m.versions.insert name (old ++ [⟨old.length + 1, text⟩]) }

def delete (m : Memory) (name : Text) : Memory :=
  { current := m.current.erase name, versions := m.versions.erase name }

def names (m : Memory) : List Text := m.current.keys

/-- The versions of a name, the newest first. -/
def history (m : Memory) (name : Text) (limit : Int) : List Version :=
  upTo limit (m.versionsOf name).reverse

end Memory

end Scriptlet.Store
