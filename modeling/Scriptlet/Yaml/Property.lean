import Scriptlet.Yaml.Word

/-! Properties of a node: an anchor, by which an alias elsewhere names the node, and a tag, which
says what the node is. A tag is written with a handle that stands for a longer text, or in full
between angle brackets. -/

namespace Scriptlet.Yaml

/-- Characters of the names of anchors, handles and directives. -/
def isNameChar (c : Char) : Bool := c.isAlphanum || c == '_' || c == '-'

/-- Reads a name, which may be empty. -/
def readName (cur : Cursor) : Except Fault (Text × Cursor) := do
  return (cur.rest.takeWhile isNameChar, ← cur.skipWhile isNameChar)

/-- The name of the anchor or alias whose mark the cursor is at. -/
def readAnchor (cur : Cursor) : Except Fault (Text × Cursor) := do
  let start := cur.line
  let (name, cur) ← readName cur.skip
  let ends := [':', '?', ',', ']', '\x7d', '%', '@', '\x60']
  if name.isEmpty || !(atWordEnd cur.rest || cur.rest.head?.any ends.contains) then
    throw { problem := "did not find expected alphabetic or numeric character".toList,
            context := start, line := cur.line }
  return (name, cur)

/-! ### Tags -/

structure Tag where
  handle : Text
  suffix : Text

/-- Reads the handle of a tag. Without an exclamation mark at its end it is only the beginning of a
tag, which a directive does not allow. -/
def readHandle (start : Nat) (inDirective : Bool) (cur : Cursor) :
    Except Fault (Text × Cursor) := do
  let fault : Fault :=
    { problem := "did not find expected '!'".toList, context := start, line := cur.line }
  let cur ← cur.ensure 1
  if cur.rest.head? ≠ some '!' then throw fault
  let (name, cur) ← readName cur.skip
  if cur.rest.head? == some '!' then return ('!' :: name ++ ['!'], cur.skip)
  if inDirective && !name.isEmpty then throw fault
  return ('!' :: name, cur)

/-- Characters of a tag apart from those of names and from escapes. -/
def isTagMark (c : Char) : Bool :=
  [';', '/', '?', ':', '@', '&', '=', '+', '$', ',', '.', '!', '~', '*', '\'', '(', ')', '[',
   ']'].contains c

/-- The byte that a percent sign and two hexadecimal digits stand for. -/
def octet? : Text → Option Nat
  | '%' :: t => hexNumber? 2 t
  | _ => none

/-- How many bytes the character with this first byte has. -/
def octetWidth? (octet : Nat) : Option Nat :=
  if octet < 0x80 then some 1
  else if 0xc0 ≤ octet && octet < 0xe0 then some 2
  else if 0xe0 ≤ octet && octet < 0xf0 then some 3
  else if 0xf0 ≤ octet && octet < 0xf8 then some 4
  else none

/-- The character with these bytes, or a mark for each byte if there is none. -/
def ofOctets : List Nat → Text
  | [] => []
  | first :: more =>
    let lead := if more.isEmpty then first else first % Nat.pow 2 (6 - more.length)
    let n := more.foldl (fun n octet => 64 * n + octet % 64) lead
    if h : n.isValidChar then
      let c := Char.ofNatAux n h
      if c.utf8Size = more.length + 1 then [c] else List.replicate (more.length + 1) '\ufffd'
    else List.replicate (more.length + 1) '\ufffd'

/-- Reads `n` further bytes of an escaped character. -/
def readOctets (start : Nat) : (n : Nat) → Cursor → Except Fault (List Nat × Cursor)
  | 0, cur => .ok ([], cur)
  | n + 1, cur => do
    let cur ← cur.ensure 3
    let fault (problem : String) : Fault :=
      { problem := problem.toList, context := start, line := cur.line }
    match octet? cur.rest with
    | none => throw (fault "did not find URI escaped octet")
    | some octet =>
      if octet / 64 ≠ 2 then throw (fault "found an incorrect trailing UTF-8 octet")
      let (octets, cur) ← readOctets start n (cur.skipMany 3)
      return (octet :: octets, cur)

/-- Reads a character that is written as escaped bytes. -/
def readTagEscape (start : Nat) (cur : Cursor) : Except Fault (Text × Cursor) := do
  let cur ← cur.ensure 3
  let fault (problem : String) : Fault :=
    { problem := problem.toList, context := start, line := cur.line }
  match octet? cur.rest with
  | none => throw (fault "did not find URI escaped octet")
  | some octet =>
    match octetWidth? octet with
    | none => throw (fault "found an incorrect leading UTF-8 octet")
    | some width =>
      let (octets, cur) ← readOctets start (width - 1) (cur.skipMany 3)
      return (ofOctets (octet :: octets), cur)

/-- Reads on in a tag after `read`. -/
def tagTextFrom (start : Nat) : (fuel : Nat) → (read : Text) → Cursor → Except Fault (Text × Cursor)
  | 0, read, cur => .ok (read, cur)
  | fuel + 1, read, cur => do
    let cur ← cur.ensure 1
    match cur.rest with
    | '%' :: _ =>
      let (t, cur) ← readTagEscape start cur
      tagTextFrom start fuel (read ++ t) cur
    | c :: _ =>
      if isNameChar c || isTagMark c then tagTextFrom start fuel (read ++ [c]) cur.skip
      else return (read, cur)
    | [] => return (read, cur)

/-- Reads the text of a tag that may already have begun as a handle, whose exclamation mark does not
belong to it. -/
def readTagText (start : Nat) (begun : Text) (cur : Cursor) : Except Fault (Text × Cursor) := do
  let (t, next) ← tagTextFrom start (cur.left + 1) (begun.drop 1) cur
  if begun.isEmpty && next.index = cur.index then
    throw { problem := "did not find expected tag URI".toList, context := start, line := cur.line }
  return (t, next)

/-- A tag without what must follow it. -/
def readTagParts (start : Nat) (cur : Cursor) : Except Fault (Tag × Cursor) := do
  let cur ← cur.ensure 2
  match cur.rest with
  | _ :: '<' :: _ =>
    let (suffix, cur) ← readTagText start [] (cur.skipMany 2)
    if cur.rest.head? ≠ some '>' then
      throw { problem := "did not find the expected '>'".toList, context := start,
              line := cur.line }
    return (⟨[], suffix⟩, cur.skip)
  | _ =>
    let (handle, cur) ← readHandle start false cur
    if 1 < handle.length && handle.getLast? == some '!' then
      let (suffix, cur) ← readTagText start [] cur
      return (⟨handle, suffix⟩, cur)
    let (suffix, cur) ← readTagText start handle cur
    if suffix.isEmpty then return (⟨[], ['!']⟩, cur) else return (⟨['!'], suffix⟩, cur)

/-- The tag at the cursor. -/
def readTag (cur : Cursor) : Except Fault (Tag × Cursor) := do
  let start := cur.line
  let (tag, cur) ← readTagParts start cur
  let cur ← cur.ensure 1
  if !atWordEnd cur.rest then
    throw { problem := "did not find expected whitespace or line break".toList, context := start,
            line := cur.line }
  return (tag, cur)

end Scriptlet.Yaml
