import Scriptlet.Text.Basic

/-! A place in a YAML text. Lines and columns count from zero. A line break is a newline, a carriage
return, both together, or one of three separators of Unicode; the first four read as a newline.

A text is taken in piece by piece, and a character that cannot stand in it is found with its piece,
not before. -/

namespace Scriptlet.Yaml

/-- Why a text cannot be read. A fault found while cutting the text into tokens counts its lines
from one; a fault in the order of tokens counts them from zero. Line zero is never told. -/
structure Fault where
  problem : Text
  /-- The line on which the construct at fault began. -/
  context : Nat := 0
  line : Nat := 0
  inToken : Bool := true

def Fault.message (f : Fault) : Text :=
  let line := if f.context ≠ 0 then f.context else f.line
  let place :=
    if line = 0 then []
    else "line ".toList ++ Text.ofNat (if f.inToken then line + 1 else line) ++ ": ".toList
  "yaml: ".toList ++ place ++ f.problem

/-! ### Characters -/

def isSpace (c : Char) : Bool := c == ' ' || c == '\t'

def isBreak (c : Char) : Bool :=
  c == '\n' || c == '\r' || c == '\u0085' || c == '\u2028' || c == '\u2029'

/-- Whether a word ends here: at a space, a line break or the end of the text. -/
def atWordEnd : Text → Bool
  | [] => true
  | c :: _ => isSpace c || isBreak c

/-- Whether a line ends here. -/
def atLineEnd (t : Text) : Bool := t.head?.all isBreak

/-- Characters that cannot begin a plain scalar, whatever follows them. -/
def indicators : List Char :=
  [',', '[', ']', '\x7b', '\x7d', '#', '&', '*', '!', '|', '>', '\'', '"', '%', '@', '\x60']

/-- Characters that may stand in a YAML text. -/
def isAllowed (c : Char) : Bool :=
  let n := c.toNat
  n == 0x9 || n == 0xa || n == 0xd || (0x20 ≤ n && n ≤ 0x7e) || n == 0x85
    || (0xa0 ≤ n && n ≤ 0xfffd) || 0x10000 ≤ n

def byteOrderMark : Char := '\ufeff'

/-! ### Places -/

/-- The longest beginning of a text that fits into `room` bytes. -/
def piece : (room : Nat) → Text → Text
  | _, [] => []
  | room, c :: t => if c.utf8Size ≤ room then c :: piece (room - c.utf8Size) t else []

/-- How many bytes a piece holds. -/
def pieceSize : Nat := 512

structure Cursor where
  rest : Text
  /-- How many characters the rest has. -/
  left : Nat
  /-- How many characters of the rest were taken in; the end of the text counts like one. -/
  loaded : Nat := 0
  /-- The text from the place at which the last piece was asked for. -/
  window : Text := []
  index : Nat := 0
  line : Nat := 0
  column : Nat := 0
  /-- Whether only spaces stand between the last line break and this place. -/
  fresh : Bool := false
  /-- What was found wrong while looking ahead for a comment. -/
  late : Option Fault := none

namespace Cursor

/-- Takes in one piece of at most `room` bytes, or the end of the text. -/
def load (room : Nat) (cur : Cursor) : Except Fault Cursor :=
  match piece room (cur.rest.drop cur.loaded) with
  | [] => .ok { cur with loaded := cur.loaded + 1 }
  | ahead =>
    if ahead.all isAllowed then .ok { cur with loaded := cur.loaded + ahead.length }
    else .error { problem := "control characters are not allowed".toList }

/-- Takes in pieces until `n` characters are there or the text ends. -/
def loadUpTo (n : Nat) : (fuel : Nat) → Cursor → Except Fault Cursor
  | 0, cur => .ok cur
  | fuel + 1, cur => do
    if n ≤ cur.loaded then return cur
    let atEnd := cur.left ≤ cur.loaded
    let cur ← cur.load pieceSize
    if atEnd then return cur else loadUpTo n fuel cur

/-- Sees to it that the next `n` characters are taken in. -/
def ensure (cur : Cursor) (n : Nat) : Except Fault Cursor :=
  if n ≤ cur.loaded then .ok cur else loadUpTo n n { cur with window := cur.rest }

/-- The start of a text. A byte order mark there belongs to the first piece and is passed over. -/
def start (t : Text) : Except Fault Cursor :=
  if t.head? == some byteOrderMark then
    load (pieceSize - byteOrderMark.utf8Size)
      { rest := t.tail, left := t.tail.length, window := t.tail }
  else load pieceSize { rest := t, left := t.length, window := t }

/-- Skips one character of a line. -/
def skip (cur : Cursor) : Cursor :=
  { cur with
    rest := cur.rest.tail
    left := cur.left - 1
    loaded := cur.loaded - 1
    index := cur.index + 1
    column := cur.column + 1
    fresh := cur.fresh && cur.rest.head?.any isSpace }

/-- Skips `n` characters of a line. -/
def skipMany : (n : Nat) → Cursor → Cursor
  | 0, cur => cur
  | n + 1, cur => skipMany n cur.skip

/-- The place after a line break of `n` characters. -/
def nextLine (cur : Cursor) (n : Nat) : Cursor :=
  { cur with
    rest := cur.rest.drop n
    left := cur.left - n
    loaded := cur.loaded - n
    index := cur.index + n
    line := cur.line + 1
    column := 0
    fresh := true }

/-- Passes the line break at the cursor, if there is one, and tells how it reads. -/
def takeBreak (cur : Cursor) : Except Fault (Text × Cursor) := do
  let cur ← cur.ensure 2
  match cur.rest with
  | '\r' :: '\n' :: _ => return (['\n'], cur.nextLine 2)
  | c :: _ =>
    if c == '\u2028' || c == '\u2029' then return ([c], cur.nextLine 1)
    else if isBreak c then return (['\n'], cur.nextLine 1)
    else return ([], cur)
  | [] => return ([], cur)

/-- Skips characters as long as `p` holds of them. -/
def skipWhile (p : Char → Bool) (cur : Cursor) : Except Fault Cursor :=
  let rec go : (fuel : Nat) → Cursor → Except Fault Cursor
    | 0, cur => .ok cur
    | fuel + 1, cur => do
      let cur ← cur.ensure 1
      if cur.rest.head?.any p then go fuel cur.skip else return cur
  go (cur.left + 1) cur

/-- Whether three dashes or three points stand alone at the start of a line. -/
def atMarker (cur : Cursor) (c : Char) : Bool :=
  cur.column == 0 &&
    match cur.rest with
    | a :: b :: d :: t => a == c && b == c && d == c && atWordEnd t
    | _ => false

def atDocumentMarker (cur : Cursor) : Bool := cur.atMarker '-' || cur.atMarker '.'

/-- Whether the part of the text that is at hand begins with a byte order mark. At the start of a
line it is passed over, and with it whatever character stands there. -/
def atByteOrderMark (cur : Cursor) : Bool :=
  cur.column == 0 && cur.window.head? == some byteOrderMark

/-! ### Comments -/

/-- How far one looks ahead for a comment. -/
def commentReach : Nat := 512

/-- Looks `n` characters ahead and tells whether they can be taken in. What is wrong with them is
kept for later, and what stands before it is at hand. -/
def glance (cur : Cursor) (n : Nat) : Bool × Cursor :=
  match cur.ensure n with
  | .ok cur => (true, cur)
  | .error f =>
    let good := (cur.rest.drop cur.loaded).takeWhile isAllowed
    (false, { cur with window := cur.rest, loaded := cur.loaded + good.length, late := some f })

/-- How many characters stand before a comment, if there are only spaces, or with `lines` also line
breaks, before it. `ahead` is the rest without its first `n` characters. -/
def commentAhead (lines : Bool) :
    (fuel : Nat) → (n : Nat) → (ahead : Text) → Cursor → Option Nat × Cursor
  | 0, _, _, cur => (none, cur)
  | fuel + 1, n, ahead, cur =>
    match cur.glance (n + 1), ahead with
    | (true, cur), c :: ahead =>
      if isSpace c || (lines && Text.isLineEnd c) then commentAhead lines fuel (n + 1) ahead cur
      else if c == '#' then (some n, cur)
      else if lines && isBreak c && 0 < fuel then (none, (cur.glance (n + 2)).2)
      else (none, cur)
    | (_, cur), _ => (none, cur)

/-- Passes `n` spaces and line breaks. -/
def passBlanks : (n : Nat) → Cursor → Except Fault Cursor
  | 0, cur => .ok cur
  | n + 1, cur => do
    let cur ← cur.ensure 1
    if atLineEnd cur.rest then
      let (_, next) ← cur.takeBreak
      -- A carriage return and a newline together are two of the characters.
      if next.index = cur.index + 2 then
        match n with
        | m + 1 => passBlanks m next
        | 0 => return next
      else passBlanks n next
    else passBlanks n cur.skip

/-- Skips to the end of the line. -/
def toLineEnd (cur : Cursor) : Except Fault Cursor := cur.skipWhile fun c => !isBreak c

/-- Passes the comment at the cursor and those on the lines after it. -/
def passComments : (fuel : Nat) → Cursor → Except Fault Cursor
  | 0, cur => .ok cur
  | fuel + 1, cur => do
    let cur ← cur.toLineEnd
    let (found, cur) := commentAhead true (commentReach - 1) 1 (cur.rest.drop 1) cur
    match found with
    | some n => passComments fuel (← passBlanks n cur)
    | none => return cur

/-- Passes a comment that follows on the same line. -/
def passLineComment (cur : Cursor) : Except Fault Cursor := do
  if cur.fresh then return cur
  let (found, cur) := commentAhead false commentReach 0 cur.rest cur
  match found with
  | some n => toLineEnd (skipMany n cur)
  | none => return cur

end Cursor

/-! ### Gaps -/

/-- Spaces and line breaks between two words. -/
structure Gap where
  /-- The spaces before the first line break. -/
  spaces : Text := []
  breaks : Text := []

namespace Gap

/-- What a gap reads as: a single line break is a space, of several the first is dropped. -/
def folded (g : Gap) : Text :=
  match g.breaks with
  | [] => g.spaces
  | ['\n'] => [' ']
  | '\n' :: more => more
  | all => all

/-- Continues a gap in a scalar that began on line `start`. After a line break, a tab before column
`indent` is a fault. -/
def readFrom (start : Nat) (indent : Int) :
    (fuel : Nat) → Gap → Cursor → Except Fault (Gap × Cursor)
  | 0, g, cur => .ok (g, cur)
  | fuel + 1, g, cur => do
    match cur.rest with
    | [] => return (g, cur)
    | c :: _ =>
      if isSpace c then
        if !g.breaks.isEmpty && (cur.column : Int) < indent && c == '\t' then
          throw { problem := "found a tab character that violates indentation".toList,
                  context := start, line := cur.line }
        let g := if g.breaks.isEmpty then { g with spaces := g.spaces ++ [c] } else g
        readFrom start indent fuel g (← cur.skip.ensure 1)
      else if isBreak c then
        let (b, cur) ← cur.takeBreak
        readFrom start indent fuel { g with breaks := g.breaks ++ b } (← cur.ensure 1)
      else return (g, cur)

def read (start : Nat) (indent : Int) (cur : Cursor) : Except Fault (Gap × Cursor) :=
  readFrom start indent (cur.left + 1) {} cur

end Gap

end Scriptlet.Yaml
