import Scriptlet.Number.Decimal
import Scriptlet.Store.Database

/-! The text of a database file: texts one after another, each with its length before it. An empty
file is a new database. -/

namespace Scriptlet.Store

/-- A text with its length before it. -/
def packed (t : Text) : Text := Text.ofNat t.length ++ ':' :: t ++ ['\n']

/-- Takes packed texts apart; `fuel` bounds their number. -/
def unpack : (fuel : Nat) → Text → Option (List Text)
  | _, [] => some []
  | 0, _ => none
  | fuel + 1, t => do
    let (count, _, rest) ← t.splitFirst (· == ':')
    if count.isEmpty || !count.all Char.isDigit then none
    let n := Number.Decimal.digitsValue 0 count
    match rest.drop n with
    | '\n' :: more => return rest.take n :: (← unpack fuel more)
    | _ => none

namespace Database

/-- The text that every database file starts with. -/
def mark : Text := "database".toList

def rows (t : Tables) : List Text :=
  Text.ofNat t.bindings.length :: t.bindings.flatMap (fun row => [row.name, row.text])
    ++ t.versions.flatMap fun row => [row.name, Text.ofNat row.number, row.text]

def toText (db : Database) : Text :=
  (mark :: db.schemaVersion :: (db.tables.map rows).getD []).flatMap packed

def bindingRows : Nat → List Text → Option (List BindingRow × List Text)
  | 0, ts => some ([], ts)
  | n + 1, name :: text :: ts =>
    (bindingRows n ts).map fun (rows, rest) => (⟨name, text⟩ :: rows, rest)
  | _ + 1, _ => none

def versionRows : List Text → Option (List VersionRow)
  | [] => some []
  | name :: number :: text :: ts =>
    (versionRows ts).map (⟨name, Number.Decimal.digitsValue 0 number, text⟩ :: ·)
  | _ => none

def tablesOf? : List Text → Option (Option Tables)
  | [] => some none
  | count :: ts => do
    let (bindings, rest) ← bindingRows (Number.Decimal.digitsValue 0 count) ts
    let versions ← versionRows rest
    return some { bindings, versions }

def ofText? (t : Text) : Option Database :=
  if t.isEmpty then some {}
  else
    match unpack t.length t with
    | some (start :: schemaVersion :: ts) =>
      if start = mark then (tablesOf? ts).map fun tables => { schemaVersion, tables } else none
    | _ => none

end Database

end Scriptlet.Store
