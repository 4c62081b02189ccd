import Scriptlet.Yaml.Property

/-! Directives, lines before a document that begin with a percent sign: the version of the format,
and what a handle of tags stands for. -/

namespace Scriptlet.Yaml

inductive Directive
  | version (major minor : Nat)
  | tag (handle stem : Text)

namespace Directive

def fault (start : Nat) (cur : Cursor) (problem : String) : Fault :=
  { problem := problem.toList, context := start, line := cur.line }

/-- Reads one or two digits of a version. -/
def readNumber (start : Nat) (cur : Cursor) : Except Fault (Nat × Cursor) := do
  let digits := cur.rest.takeWhile Char.isDigit
  let next ← cur.skipWhile Char.isDigit
  if 2 < digits.length then throw (fault start cur "found extremely long version number")
  if digits.isEmpty then throw (fault start cur "did not find expected version number")
  return (digits.foldl (fun n c => 10 * n + (c.toNat - '0'.toNat)) 0, next)

def readVersion (start : Nat) (cur : Cursor) : Except Fault (Directive × Cursor) := do
  let (major, cur) ← readNumber start (← cur.skipWhile isSpace)
  if cur.rest.head? ≠ some '.' then
    throw (fault start cur "did not find expected digit or '.' character")
  let (minor, cur) ← readNumber start cur.skip
  return (version major minor, cur)

def readTag (start : Nat) (cur : Cursor) : Except Fault (Directive × Cursor) := do
  let (handle, cur) ← readHandle start true (← cur.skipWhile isSpace)
  let cur ← cur.ensure 1
  if !cur.rest.head?.any isSpace then throw (fault start cur "did not find expected whitespace")
  let (stem, cur) ← readTagText start [] (← cur.skipWhile isSpace)
  let cur ← cur.ensure 1
  if !atWordEnd cur.rest then
    throw (fault start cur "did not find expected whitespace or line break")
  return (tag handle stem, cur)

/-- The directive at the cursor, with the rest of its line. -/
def read (cur : Cursor) : Except Fault (Directive × Cursor) := do
  let start := cur.line
  let (name, cur) ← readName cur.skip
  if name.isEmpty then throw (fault start cur "could not find expected directive name")
  if !atWordEnd cur.rest then
    throw (fault start cur "found unexpected non-alphabetical character")
  let (directive, cur) ←
    if name = "YAML".toList then readVersion start cur
    else if name = "TAG".toList then readTag start cur
    else throw (fault start cur "found unknown directive name")
  let cur ← cur.skipWhile isSpace
  let cur ← if cur.rest.head? == some '#' then cur.toLineEnd else pure cur
  if !atLineEnd cur.rest then
    throw (fault start cur "did not find expected comment or line break")
  if cur.rest.isEmpty then return (directive, cur)
  let (_, cur) ← cur.takeBreak
  return (directive, cur)

end Directive

end Scriptlet.Yaml
