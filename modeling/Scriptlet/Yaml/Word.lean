import Scriptlet.Yaml.Cursor

/-! Scalars as they stand in the text: plain ones, which end at an indicator or where a line is
indented too little, and quoted ones, in double quotes with escapes. Lines of one scalar are folded
together. -/

namespace Scriptlet.Yaml

/-! ### Quoted scalars -/

/-- The character of a short escape. -/
def shortEscape? : Char → Option Char
  | '0' => some '\x00'
  | 'a' => some '\x07'
  | 'b' => some '\x08'
  | 't' | '\t' => some '\t'
  | 'n' => some '\n'
  | 'v' => some '\x0b'
  | 'f' => some '\x0c'
  | 'r' => some '\r'
  | 'e' => some '\x1b'
  | ' ' => some ' '
  | '"' => some '"'
  | '\'' => some '\''
  | '\\' => some '\\'
  | 'N' => some '\u0085'
  | '_' => some '\u00a0'
  | 'L' => some '\u2028'
  | 'P' => some '\u2029'
  | _ => none

/-- How many hexadecimal digits follow the letter of a long escape. -/
def escapeWidth? : Char → Option Nat
  | 'x' => some 2
  | 'u' => some 4
  | 'U' => some 8
  | _ => none

def hexValue? (c : Char) : Option Nat :=
  if '0' ≤ c && c ≤ '9' then some (c.toNat - '0'.toNat)
  else if 'a' ≤ c && c ≤ 'f' then some (c.toNat - 'a'.toNat + 10)
  else if 'A' ≤ c && c ≤ 'F' then some (c.toNat - 'A'.toNat + 10)
  else none

/-- The number that exactly `width` hexadecimal digits spell. -/
def hexNumber? (width : Nat) (t : Text) : Option Nat :=
  let digits := t.take width
  if digits.length = width then
    digits.foldlM (fun n c => (hexValue? c).map fun d => 16 * n + d) 0
  else none

/-- The character an escape stands for, and the place after it. The cursor is at the backslash. -/
def escape (start : Nat) (cur : Cursor) : Except Fault (Char × Cursor) := do
  let fault (problem : String) : Fault :=
    { problem := problem.toList, context := start, line := cur.line }
  match cur.rest with
  | _ :: c :: t =>
    match shortEscape? c, escapeWidth? c with
    | some d, _ => return (d, cur.skipMany 2)
    | none, some width =>
      let cur ← (cur.skipMany 2).ensure width
      match hexNumber? width t with
      | none => throw (fault "did not find expected hexdecimal number")
      | some n =>
        if h : n.isValidChar then return (Char.ofNatAux n h, cur.skipMany width)
        else throw (fault "found invalid Unicode character escape code")
    | none, none => throw (fault "found unknown escape character")
  | _ => throw (fault "found unknown escape character")

/-- Reads on in a quoted scalar up to a space, a line break, the end quote or the end of the text.
`read` is what was read, its last character first. The answer also tells whether the run ended with
a backslash at the end of its line, after which the next line begins. -/
def quotedRun (start : Nat) (quote : Char) :
    (fuel : Nat) → (read : Text) → Cursor → Except Fault (Text × Bool × Cursor)
  | 0, read, cur => .ok (read, false, cur)
  | fuel + 1, read, cur => do
    match cur.rest with
    | [] => return (read, false, cur)
    | c :: t =>
      if isSpace c || isBreak c then return (read, false, cur)
      else if c == quote then
        if quote == '\'' && t.head? == some '\'' then
          quotedRun start quote fuel ('\'' :: read) (← (cur.skipMany 2).ensure 2)
        else return (read, false, cur)
      else if c == '\\' && quote == '"' then
        if t.head?.any isBreak then
          let (_, cur) ← (← cur.ensure 3).skip.takeBreak
          return (read, true, cur)
        else
          let (d, cur) ← escape start cur
          quotedRun start quote fuel (d :: read) (← cur.ensure 2)
      else quotedRun start quote fuel (c :: read) (← cur.skip.ensure 2)

/-- Reads on in a quoted scalar that began on line `start`. -/
def quotedFrom (start : Nat) (quote : Char) :
    (fuel : Nat) → (read : Text) → Cursor → Except Fault (Text × Cursor)
  | 0, _, cur =>
    .error { problem := "found unexpected end of stream".toList, context := start,
             line := cur.line }
  | fuel + 1, read, cur => do
    let cur ← cur.ensure 4
    if cur.atDocumentMarker then
      throw { problem := "found unexpected document indicator".toList, context := start,
              line := cur.line }
    if cur.rest.isEmpty then
      throw { problem := "found unexpected end of stream".toList, context := start,
              line := cur.line }
    let (read, escapedBreak, cur) ← quotedRun start quote (cur.left + 1) read cur
    let cur ← cur.ensure 1
    if cur.rest.head? == some quote then return (read.reverse, cur.skip)
    let (gap, cur) ← Gap.read start 0 cur
    let joint := if escapedBreak then gap.breaks else gap.folded
    quotedFrom start quote fuel (joint.reverse ++ read) cur

/-- The contents of a quoted scalar. The cursor is at its first quote. -/
def quoted (quote : Char) (cur : Cursor) : Except Fault (Text × Cursor) :=
  quotedFrom cur.line quote (cur.left + 1) [] cur.skip

/-! ### Plain scalars -/

/-- Whether a plain scalar ends before this text. -/
def endsPlain (inFlow : Bool) : Text → Bool
  | [] => true
  | c :: t =>
    isSpace c || isBreak c || (c == ':' && atWordEnd t) ||
      (inFlow && [',', '?', '[', ']', '\x7b', '\x7d'].contains c)

/-- Reads the characters up to the next space, line break or end of the scalar, the last one first.
-/
def plainRun (inFlow : Bool) :
    (fuel : Nat) → (read : Text) → Cursor → Except Fault (Text × Cursor)
  | 0, read, cur => .ok (read, cur)
  | fuel + 1, read, cur => do
    match cur.rest with
    | [] => return (read, cur)
    | c :: t =>
      if endsPlain inFlow (c :: t) then return (read, cur)
      else plainRun inFlow fuel (c :: read) (← cur.skip.ensure 2)

/-- A plain scalar, where it ends, and whether a line break follows it there. -/
structure Plain where
  text : Text
  cursor : Cursor
  newline : Bool

/-- Reads on in a plain scalar; `gap` separates what was read, last character first, from the next
word. -/
def plainFrom (start : Nat) (inFlow : Bool) (indent : Int) :
    (fuel : Nat) → (read : Text) → Gap → Cursor → Except Fault Plain
  | 0, read, gap, cur => .ok ⟨read.reverse, cur, !gap.breaks.isEmpty⟩
  | fuel + 1, read, gap, cur => do
    let cur ← cur.ensure 4
    if cur.atDocumentMarker || cur.rest.head? == some '#' then
      return ⟨read.reverse, cur, !gap.breaks.isEmpty⟩
    let (run, cur) ← plainRun inFlow (cur.left + 1) [] cur
    if run.isEmpty then return ⟨read.reverse, cur, !gap.breaks.isEmpty⟩
    let read := run ++ gap.folded.reverse ++ read
    if !cur.rest.head?.any (fun c => isSpace c || isBreak c) then
      return ⟨read.reverse, cur, false⟩
    let (gap, cur) ← Gap.read start indent (← cur.ensure 1)
    if !inFlow && (cur.column : Int) < indent then
      return ⟨read.reverse, cur, !gap.breaks.isEmpty⟩
    plainFrom start inFlow indent fuel read gap cur

/-- The plain scalar at the cursor; in a block, its lines begin at column `indent` or after it. -/
def plain (inFlow : Bool) (indent : Int) (cur : Cursor) : Except Fault Plain :=
  plainFrom cur.line inFlow indent (cur.left + 1) [] {} cur

end Scriptlet.Yaml
