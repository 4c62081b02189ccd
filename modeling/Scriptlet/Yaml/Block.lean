import Scriptlet.Yaml.Word

/-! Block scalars: the lines below a bar, or below an angle bracket, that are indented by more than
their surroundings. Below a bar the lines stay apart, below a bracket they are folded. -/

namespace Scriptlet.Yaml

/-- What becomes of the line breaks at the end of a block scalar. -/
inductive Chomp
  | strip | clip | keep
  deriving DecidableEq

/-- The head of a block scalar; `increment` zero leaves the indentation to its first line. -/
structure BlockHead where
  chomp : Chomp
  increment : Nat

def readChomp (cur : Cursor) : Option (Chomp × Cursor) :=
  match cur.rest with
  | '+' :: _ => some (.keep, cur.skip)
  | '-' :: _ => some (.strip, cur.skip)
  | _ => none

def readIncrement (start : Nat) (cur : Cursor) : Except Fault (Nat × Cursor) :=
  match cur.rest with
  | '0' :: _ =>
    .error { problem := "found an indentation indicator equal to 0".toList, context := start,
             line := cur.line }
  | c :: _ => if c.isDigit then .ok (c.toNat - '0'.toNat, cur.skip) else .ok (0, cur)
  | [] => .ok (0, cur)

/-- Reads the two marks in either order. -/
def readMarks (start : Nat) (cur : Cursor) : Except Fault (BlockHead × Cursor) := do
  let cur ← cur.ensure 1
  match readChomp cur with
  | some (chomp, cur) =>
    let (increment, cur) ← readIncrement start (← cur.ensure 1)
    return (⟨chomp, increment⟩, cur)
  | none =>
    let (increment, cur) ← readIncrement start cur
    if increment = 0 then return (⟨.clip, 0⟩, cur)
    let cur ← cur.ensure 1
    match readChomp cur with
    | some (chomp, cur) => return (⟨chomp, increment⟩, cur)
    | none => return (⟨.clip, increment⟩, cur)

/-- Reads the head with the rest of its line, which may hold a comment. -/
def readHead (start : Nat) (cur : Cursor) : Except Fault (BlockHead × Cursor) := do
  let (head, cur) ← readMarks start cur
  let cur ← cur.skipWhile isSpace
  let cur ← if cur.rest.head? == some '#' then cur.toLineEnd else pure cur
  if !atLineEnd cur.rest then
    throw { problem := "did not find expected comment or line break".toList, context := start,
            line := cur.line }
  if cur.rest.isEmpty then return (head, cur)
  let (_, cur) ← cur.takeBreak
  return (head, cur)

/-- What lies between two lines of text: the widest indentation met and the breaks of empty lines.
-/
structure Blanks where
  width : Nat := 0
  breaks : Text := []

/-- Skips spaces that stand before column `indent`, or all of them if that is zero. -/
def skipIndent (indent : Nat) : (fuel : Nat) → Cursor → Except Fault Cursor
  | 0, cur => .ok cur
  | fuel + 1, cur => do
    let cur ← cur.ensure 1
    if (indent = 0 || cur.column < indent) && cur.rest.head? == some ' ' then
      skipIndent indent fuel cur.skip
    else return cur

/-- Skips indentation and empty lines. -/
def readBlanks (start indent : Nat) :
    (fuel : Nat) → Blanks → Cursor → Except Fault (Blanks × Cursor)
  | 0, b, cur => .ok (b, cur)
  | fuel + 1, b, cur => do
    let cur ← skipIndent indent (cur.left + 1) cur
    let b := { b with width := max b.width cur.column }
    if (indent = 0 || cur.column < indent) && cur.rest.head? == some '\t' then
      throw { problem := "found a tab character where an indentation space is expected".toList,
              context := start, line := cur.line }
    if cur.rest.head?.any isBreak then
      let (c, cur) ← cur.takeBreak
      readBlanks start indent fuel { b with breaks := b.breaks ++ c } cur
    else return (b, cur)

/-- The text of a block scalar so far, and the breaks that follow its last line. -/
structure BlockText where
  /-- What was read, its last character first. -/
  read : Text := []
  /-- The break that ends the last line. -/
  lineEnd : Text := []
  /-- The breaks of the empty lines after it. -/
  breaks : Text := []
  /-- Whether the last line begins with a space. -/
  spaced : Bool := false

namespace BlockText

/-- Adds a line. When folding, a single break between two lines that do not begin with a space
becomes a space, and of several the first is dropped. -/
def add (b : BlockText) (literal : Bool) (line : Text) : BlockText :=
  let spaced := line.head?.any isSpace
  let joint :=
    if !literal && !b.spaced && !spaced && b.lineEnd == ['\n'] then
      if b.breaks.isEmpty then [' '] else []
    else b.lineEnd
  { read := line.reverse ++ b.breaks.reverse ++ joint.reverse ++ b.read, spaced }

def finish (b : BlockText) : Chomp → Text
  | .strip => b.read.reverse
  | .clip => b.read.reverse ++ b.lineEnd
  | .keep => b.read.reverse ++ b.lineEnd ++ b.breaks

end BlockText

/-- Reads the lines that stand at `indent`. -/
def readBlock (start : Nat) (literal : Bool) (indent : Nat) :
    (fuel : Nat) → BlockText → Cursor → Except Fault (BlockText × Cursor)
  | 0, b, cur => .ok (b, cur)
  | fuel + 1, b, cur => do
    if cur.column = indent && !cur.rest.isEmpty then
      let b := b.add literal (cur.rest.takeWhile fun c => !isBreak c)
      let (lineEnd, cur) ← (← cur.toLineEnd).takeBreak
      let (blanks, cur) ← readBlanks start indent (cur.left + 1) {} cur
      readBlock start literal indent fuel { b with lineEnd, breaks := blanks.breaks } cur
    else return (b, cur)

/-- The block scalar at the cursor, in a block that is indented by `outer`. -/
def block (literal : Bool) (outer : Int) (cur : Cursor) : Except Fault (Text × Cursor) := do
  let start := cur.line
  let (head, cur) ← readHead start cur.skip
  let given := if head.increment = 0 then 0 else (max outer 0).toNat + head.increment
  let (blanks, cur) ← readBlanks start given (cur.left + 1) {} cur
  let indent := if given = 0 then max (max blanks.width (outer + 1).toNat) 1 else given
  let before : BlockText := { breaks := blanks.breaks }
  let (b, cur) ← readBlock start literal indent (cur.left + 1) before (← cur.ensure 1)
  return (b.finish head.chomp, cur)

end Scriptlet.Yaml
