import Scriptlet.Yaml.Block
import Scriptlet.Yaml.Directive

/-! Tokens of a YAML text. The indentation of blocks becomes tokens of its own, and a key that is
recognised only by the colon after it gets its token inserted in front.

Tokens are scanned as they are needed, two more than were asked for, and on to the point where it is
known whether the first of them begins a key. What is wrong further on in a text does not show. -/

namespace Scriptlet.Yaml

inductive Token.Kind
  | directive (d : Directive)
  | streamStart | documentStart | documentEnd | streamEnd
  | sequenceStart | mappingStart | blockEnd
  | flowSequenceStart | flowSequenceEnd | flowMappingStart | flowMappingEnd
  | blockEntry | flowEntry | key | value
  | reference (name : Text)
  | anchor (name : Text)
  | tag (t : Tag)
  | scalar (text : Text) (quoted : Bool)

structure Token where
  kind : Token.Kind
  line : Nat

/-- A place where a key may have begun: the number of its token, and whether it has to be a key. -/
structure Candidate where
  possible : Bool := false
  required : Bool := false
  number : Nat := 0
  index : Nat := 0
  line : Nat := 0
  column : Nat := 0

structure Scanner where
  cursor : Cursor
  /-- The column of the innermost block, below zero outside of all blocks. -/
  indent : Int := -1
  /-- The columns of the blocks around it. -/
  indents : List Int := []
  candidate : Candidate := {}
  /-- The candidates outside of each open flow collection, the innermost first. -/
  outer : List Candidate := []
  /-- How many flow collections are open. -/
  depth : Nat := 0
  keyAllowed : Bool := true
  /-- Tokens that are taken for the beginning of a key, each with its depth in flow collections. -/
  marked : List (Nat × Nat) := []
  /-- Tokens that were scanned and not yet taken. -/
  queue : List Token := []
  /-- How many tokens were taken. -/
  taken : Nat := 0

namespace Scanner

def inFlow (s : Scanner) : Bool := 0 < s.depth

/-- The number of the token that is scanned next. -/
def nextNumber (s : Scanner) : Nat := s.taken + s.queue.length

def add (s : Scanner) (kind : Token.Kind) : Scanner :=
  { s with queue := s.queue ++ [⟨kind, s.cursor.line⟩] }

/-- Puts a token before the one with this number, or last if that was already taken. -/
def insert (s : Scanner) (number : Nat) (t : Token) : Scanner :=
  if number < s.taken then { s with queue := s.queue ++ [t] }
  else { s with queue := s.queue.insertIdx (number - s.taken) t }

/-- Skips the indicator that a token was made of. -/
def skip (s : Scanner) : Scanner := { s with cursor := s.cursor.skip }

def fault (s : Scanner) (problem : String) (context : Nat) : Fault :=
  { problem := problem.toList, context, line := s.cursor.line }

/-- How deep blocks, or flow collections, may lie in each other. -/
def depthLimit : Nat := 10000

/-! ### Blocks -/

/-- Opens a block at a column, unless one is open there; its token is put at `number`. -/
def openBlock (s : Scanner) (column number line : Nat) (kind : Token.Kind) :
    Except Fault Scanner := do
  if s.inFlow || (column : Int) ≤ s.indent then return s
  if depthLimit ≤ s.indents.length then
    throw (s.fault "exceeded max depth of 10000" s.candidate.line)
  return { s with indent := column, indents := s.indent :: s.indents }.insert number ⟨kind, line⟩

/-- Closes the blocks that are indented by more than `column`. -/
def closeBlocks (s : Scanner) (column : Int) : Scanner :=
  if s.inFlow then s
  else
    let rec go (s : Scanner) : List Int → Scanner
      | [] => s
      | outer :: indents =>
        if column < s.indent then go { s.add .blockEnd with indent := outer, indents } indents
        else s
    go s s.indents

/-! ### Candidates -/

/-- Forgets that a token may begin a key. -/
def unmark (s : Scanner) (number : Nat) : Scanner :=
  { s with marked := s.marked.filter (·.1 != number) }

/-- Drops the candidate; a required one should have been a key. -/
def dropCandidate (s : Scanner) : Except Fault Scanner := do
  let c := s.candidate
  if !c.possible then return s
  if c.required then throw (s.fault "could not find expected ':'" c.line)
  return { s with candidate := { c with possible := false } }.unmark c.number

/-- Remembers that a key may begin here. -/
def saveCandidate (s : Scanner) : Except Fault Scanner := do
  if !s.keyAllowed then return s
  let number := s.nextNumber
  let cur := s.cursor
  let candidate : Candidate :=
    { possible := true, required := !s.inFlow && s.indent == cur.column, number,
      index := cur.index, line := cur.line, column := cur.column }
  let s ← s.dropCandidate
  return { s with candidate, marked := (number, s.depth) :: s.marked }

/-- How many characters a key may have. -/
def keyLimit : Nat := 1024

/-- Whether a candidate can still become a key: it is on the current line and not too far away. -/
def isOpen (s : Scanner) (c : Candidate) : Except Fault Bool := do
  if !c.possible then return false
  if c.line < s.cursor.line || c.index + keyLimit < s.cursor.index then
    if c.required then throw (s.fault "could not find expected ':'" c.line)
    return false
  return true

/-- Whether the first token may still turn out to begin a key. -/
def firstIsOpen (s : Scanner) : Except Fault Bool :=
  match s.marked.lookup s.taken with
  | none => .ok false
  | some depth =>
    match (s.candidate :: s.outer)[s.depth - depth]? with
    | none => .ok false
    | some c => s.isOpen c

/-! ### The kinds of token -/

/-- Skips spaces, comments and line breaks. Tabs separate tokens only where no key can begin. -/
def toNextToken : (fuel : Nat) → Scanner → Except Fault Scanner
  | 0, s => .ok s
  | fuel + 1, s => do
    let cur ← s.cursor.ensure 1
    let cur := if cur.atByteOrderMark then cur.skip else cur
    let tabs := s.inFlow || !s.keyAllowed
    let cur ← cur.skipWhile fun c => c == ' ' || (tabs && c == '\t')
    let cur ← if cur.rest.head? == some '#' then cur.passComments (cur.left + 1) else pure cur
    if cur.rest.head?.any isBreak then
      let (_, cursor) ← cur.takeBreak
      toNextToken fuel { s with cursor, keyAllowed := s.keyAllowed || !s.inFlow }
    else return { s with cursor := cur }

def streamEnd (s : Scanner) : Except Fault Scanner := do
  let cur := s.cursor
  let cursor := if cur.column = 0 then cur else { cur with line := cur.line + 1, column := 0 }
  let s ← (({ s with cursor }).closeBlocks (-1)).dropCandidate
  return { s.add .streamEnd with keyAllowed := false }

def directive (s : Scanner) : Except Fault Scanner := do
  let s ← (s.closeBlocks (-1)).dropCandidate
  let (d, cursor) ← Directive.read s.cursor
  return { s.add (.directive d) with cursor, keyAllowed := false }

def documentMarker (s : Scanner) (kind : Token.Kind) : Except Fault Scanner := do
  let s ← (s.closeBlocks (-1)).dropCandidate
  return { s.add kind with cursor := s.cursor.skipMany 3, keyAllowed := false }

def flowStart (s : Scanner) (kind : Token.Kind) : Except Fault Scanner := do
  let s ← s.saveCandidate
  let cur := s.cursor
  if depthLimit ≤ s.depth then throw (s.fault "exceeded max depth of 10000" cur.line)
  -- Until a key may begin inside, the level stands under the number of its own first token.
  let candidate : Candidate :=
    { number := s.nextNumber, index := cur.index, line := cur.line, column := cur.column }
  return { (s.add kind).skip with
    candidate
    outer := s.candidate :: s.outer
    depth := s.depth + 1
    keyAllowed := true }

def flowEnd (s : Scanner) (kind : Token.Kind) : Except Fault Scanner := do
  let s ← s.dropCandidate
  let s :=
    match s.outer with
    | candidate :: outer =>
      { s.unmark s.candidate.number with candidate, outer, depth := s.depth - 1 }
    | [] => s
  return { (s.add kind).skip with keyAllowed := false }

def flowEntry (s : Scanner) : Except Fault Scanner := do
  let s ← s.dropCandidate
  return { (s.add .flowEntry).skip with keyAllowed := true }

def blockEntry (s : Scanner) : Except Fault Scanner := do
  let cur := s.cursor
  if !s.inFlow && !s.keyAllowed then
    throw (s.fault "block sequence entries are not allowed in this context" cur.line)
  let s ← s.openBlock cur.column s.nextNumber cur.line .sequenceStart
  let s ← s.dropCandidate
  return { (s.add .blockEntry).skip with keyAllowed := true }

def explicitKey (s : Scanner) : Except Fault Scanner := do
  let cur := s.cursor
  if !s.inFlow && !s.keyAllowed then
    throw (s.fault "mapping keys are not allowed in this context" cur.line)
  let s ← s.openBlock cur.column s.nextNumber cur.line .mappingStart
  let s ← s.dropCandidate
  return { (s.add .key).skip with keyAllowed := !s.inFlow }

/-- A colon makes a key of the candidate before it. -/
def value (s : Scanner) : Except Fault Scanner := do
  let c := s.candidate
  if ← s.isOpen c then
    let s ← (s.insert c.number ⟨.key, c.line⟩).openBlock c.column c.number c.line .mappingStart
    let s := { s with candidate := { c with possible := false } }.unmark c.number
    return { (s.add .value).skip with keyAllowed := false }
  else
    let cur := s.cursor
    if !s.inFlow && !s.keyAllowed then
      throw (s.fault "mapping values are not allowed in this context" cur.line)
    let s := { s with candidate := { c with possible := false } }
    let s ← s.openBlock cur.column s.nextNumber cur.line .mappingStart
    return { (s.add .value).skip with keyAllowed := !s.inFlow }

def anchor (s : Scanner) (kind : Text → Token.Kind) : Except Fault Scanner := do
  let s ← s.saveCandidate
  let (name, cursor) ← readAnchor s.cursor
  return { s.add (kind name) with cursor, keyAllowed := false }

def tag (s : Scanner) : Except Fault Scanner := do
  let s ← s.saveCandidate
  let (t, cursor) ← readTag s.cursor
  return { s.add (.tag t) with cursor, keyAllowed := false }

def quotedScalar (s : Scanner) (quote : Char) : Except Fault Scanner := do
  let s ← s.saveCandidate
  let (text, cursor) ← quoted quote s.cursor
  return { s.add (.scalar text true) with cursor, keyAllowed := false }

def blockScalar (s : Scanner) (literal : Bool) : Except Fault Scanner := do
  let s ← s.dropCandidate
  let (text, cursor) ← block literal s.indent s.cursor
  return { s.add (.scalar text true) with cursor, keyAllowed := true }

def plainScalar (s : Scanner) : Except Fault Scanner := do
  let s ← s.saveCandidate
  let p ← plain s.inFlow (s.indent + 1) s.cursor
  return { s.add (.scalar p.text false) with cursor := p.cursor, keyAllowed := p.newline }

/-- Whether a plain scalar can begin with this text. -/
def startsPlain (inFlow : Bool) : Text → Bool
  | [] => false
  | c :: t =>
    if c == '-' then !(t.head?.any isSpace)
    else if c == '?' || c == ':' then !inFlow && !atWordEnd t
    else !(isSpace c || isBreak c) && !indicators.contains c

/-- Reads a token other than the marks of documents, which the cursor is at. -/
def content (s : Scanner) (c : Char) (t : Text) : Except Fault Scanner :=
  if c == '[' then s.flowStart .flowSequenceStart
  else if c == '\x7b' then s.flowStart .flowMappingStart
  else if c == ']' then s.flowEnd .flowSequenceEnd
  else if c == '\x7d' then s.flowEnd .flowMappingEnd
  else if c == ',' then s.flowEntry
  else if c == '-' && atWordEnd t then s.blockEntry
  else if c == '?' && (s.inFlow || atWordEnd t) then s.explicitKey
  else if c == ':' && (s.inFlow || atWordEnd t) then s.value
  else if c == '*' then s.anchor .reference
  else if c == '&' then s.anchor .anchor
  else if c == '!' then s.tag
  else if (c == '|' || c == '>') && !s.inFlow then s.blockScalar (c == '|')
  else if c == '\'' || c == '"' then s.quotedScalar c
  else if startsPlain s.inFlow (c :: t) then s.plainScalar
  else .error (s.fault "found character that cannot start any token" s.cursor.line)

/-- Passes a comment after the token that was just read. After the dash of an entry it counts as a
comment on what follows. -/
def afterToken (s : Scanner) : Except Fault Scanner := do
  match s.queue.getLast? with
  | some ⟨.blockEntry, _⟩ => return s
  | _ => return { s with cursor := ← s.cursor.passLineComment }

/-- Scans one token, and the tokens that its place implies. -/
def step (s : Scanner) : Except Fault Scanner := do
  let s ← toNextToken (s.cursor.left + 1) s
  let s := s.closeBlocks s.cursor.column
  let s := { s with cursor := ← s.cursor.ensure 4 }
  match s.cursor.rest with
  | [] => s.streamEnd
  | c :: t =>
    if s.cursor.column == 0 && c == '%' then s.directive
    else if s.cursor.atMarker '-' then s.documentMarker .documentStart
    else if s.cursor.atMarker '.' then s.documentMarker .documentEnd
    else (← s.content c t).afterToken

/-- How many tokens are kept ready. -/
def ready : Nat := 3

/-- Scans until it is certain what the first token is. -/
def fillFrom : (fuel : Nat) → Scanner → Except Fault Scanner
  | 0, s => .ok s
  | fuel + 1, s => do
    if s.queue.length < ready || (← s.firstIsOpen) then fillFrom fuel (← s.step) else return s

def fill (s : Scanner) : Except Fault Scanner := fillFrom (s.cursor.left + ready + 1) s

/-- Takes the first token away. Marks of tokens that were taken, the oldest, are of no more use. -/
def take (s : Scanner) : Scanner :=
  { s with
    queue := s.queue.tail
    taken := s.taken + 1
    marked := s.marked.takeWhile fun (number, _) => s.taken < number }

def start (t : Text) : Except Fault Scanner := do
  let cursor ← Cursor.start t
  return { cursor, queue := [⟨.streamStart, 0⟩] }

end Scanner

end Scriptlet.Yaml
