import Scriptlet.Yaml.Scalar
import Scriptlet.Yaml.Token

/-! YAML documents as trees. Only the first document of a text is read. A node can be given an
anchor, and a reference, an alias, stands for the node with its anchor that was met last. -/

namespace Scriptlet.Yaml

/-- Lines count from one. A reference has a number of its own and the number of the node that it
names. -/
inductive Node
  | scalar (line : Nat) (tag : Text) (text : Text)
  | sequence (line : Nat) (tag : Text) (items : List Node)
  | mapping (line : Nat) (tag : Text) (entries : List (Node × Node))
  | reference (line : Nat) (name : Text) (number target : Nat)

structure Document where
  root : Node
  /-- The nodes with anchors, by their numbers. -/
  anchored : List (Nat × Node)

namespace Node

def line : Node → Nat
  | scalar line .. | sequence line .. | mapping line .. | reference line .. => line

/-- A tag in its short form. -/
def shortTag (tag : Text) : Text :=
  match Text.after? "tag:yaml.org,2002:".toList tag with
  | some t => '!' :: '!' :: t
  | none => tag

/-- The tag of a node, given what is written; a lone exclamation mark says nothing. -/
def tagOr (written default : Text) : Text :=
  if written.isEmpty || written = ['!'] then default else shortTag written

def scalarTag (quoted : Bool) (text : Text) : Text :=
  if quoted then Scalar.text.tag
  else if text = ['<', '<'] then Scalar.mergeTag
  else (Scalar.ofPlain text).tag

/-- A scalar that is not there. -/
def absent (line : Nat) : Node := scalar (line + 1) Scalar.null.tag []

/-! ### Reading tokens -/

/-- What is known while a document is read. -/
structure Assembly where
  scanner : Scanner
  /-- What the handles of tags stand for. -/
  handles : List (Text × Text) := []
  /-- The numbers of the nodes that the anchors name, the latest first. -/
  anchors : List (Text × Nat) := []
  anchored : List (Nat × Node) := []

abbrev Reader := StateT Assembly (Except Fault)

def peek : Reader Token := do
  let a ← get
  let scanner ← a.scanner.fill
  set { a with scanner }
  return scanner.queue.head?.getD ⟨.streamEnd, scanner.cursor.line⟩

def take : Reader Unit := modify fun a => { a with scanner := a.scanner.take }

/-- The fault of the next token, which is not what the construct that began on line `context` needs.
-/
def unexpected {α : Type} (problem : String) (context : Nat) : Reader α := do
  let t ← peek
  throw { problem := problem.toList, context, line := t.line, inToken := false }

/-- An item of the tree is complete. What was found wrong while looking ahead for a comment is told
only now, so it gives way to a fault of the item. -/
def complete {α : Type} (a : α) : Reader α := do
  match (← get).scanner.cursor.late with
  | some f => throw f
  | none => return a

/-! ### Properties -/

/-- The properties of a node, and the line on which the node with them begins. -/
structure Properties where
  line : Nat
  anchor : Option Text := none
  tag : Option (Tag × Nat) := none

def Properties.isEmpty (p : Properties) : Bool := p.anchor.isNone && p.tag.isNone

def readAnchorOr (p : Properties) : Reader Properties := do
  match (← peek).kind with
  | .anchor name => take; return { p with anchor := some name }
  | _ => return p

def readTagOr (p : Properties) : Reader Properties := do
  let t ← peek
  match t.kind with
  | .tag tag => take; return { p with tag := some (tag, t.line) }
  | _ => return p

/-- Reads an anchor and a tag in either order. -/
def readProperties : Reader Properties := do
  let t ← peek
  let p : Properties := { line := t.line }
  match t.kind with
  | .anchor _ => readTagOr (← readAnchorOr p)
  | .tag _ => readAnchorOr (← readTagOr p)
  | _ => return p

/-- The tag of a node in full, empty if it has none. -/
def Properties.fullTag (p : Properties) : Reader Text := do
  match p.tag with
  | none => return []
  | some (⟨[], suffix⟩, _) => return suffix
  | some (⟨handle, suffix⟩, line) =>
    match (← get).handles.lookup handle with
    | some stem => return stem ++ suffix
    | none =>
      throw { problem := "found undefined tag handle".toList, context := p.line, line,
              inToken := false }

/-- Lets the anchor of a node name it, and tells the number of the node. -/
def Properties.bind (p : Properties) : Reader Nat := do
  let a ← get
  let number := a.scanner.taken
  if let some name := p.anchor then set { a with anchors := (name, number) :: a.anchors }
  return number

/-- Keeps a node that has an anchor. -/
def Properties.keep (p : Properties) (number : Nat) (node : Node) : Reader Node := do
  if p.anchor.isSome then modify fun a => { a with anchored := (number, node) :: a.anchored }
  return node

/-! ### Reading nodes -/

/-- Whether a token ends a key or a value in a block. -/
def endsBlockItem (t : Token) : Bool := t.kind matches .key | .value | .blockEnd

/-- Whether a token ends a value in a flow mapping. -/
def endsFlowValue (t : Token) : Bool := t.kind matches .flowEntry | .flowMappingEnd

/-- Whether a token ends a value in a flow sequence. -/
def endsFlowItem (t : Token) : Bool := t.kind matches .flowEntry | .flowSequenceEnd

mutual

/-- Reads a node. In a block mapping a sequence may stand without further indentation. -/
def read : (fuel : Nat) → (block indentless : Bool) → Reader Node
  | 0, _, _ => unexpected "did not find expected node content" 0
  | fuel + 1, block, indentless => do
    let t ← peek
    if let .reference name := t.kind then
      let a ← get
      take
      complete ()
      match a.anchors.lookup name with
      | none =>
        throw { problem := "unknown anchor '".toList ++ name ++ "' referenced".toList }
      | some target => return .reference (t.line + 1) name a.scanner.taken target
    let p ← readProperties
    let tag ← p.fullTag
    let number ← p.bind
    let t ← peek
    let line := p.line + 1
    let missing : Reader Node :=
      if p.isEmpty then unexpected "did not find expected node content" p.line
      else complete (.scalar line (tagOr tag (scalarTag false [])) [])
    let node ←
      match t.kind with
      | .scalar text quoted =>
        take
        complete (.scalar line (tagOr tag (scalarTag quoted text)) text)
      | .flowSequenceStart =>
        take
        complete ()
        pure (.sequence line (tagOr tag "!!seq".toList) (← readFlowItems fuel t.line true))
      | .flowMappingStart =>
        take
        complete ()
        pure (.mapping line (tagOr tag "!!map".toList) (← readFlowEntries fuel t.line true))
      | .blockEntry =>
        if indentless then
          complete ()
          pure (.sequence line (tagOr tag "!!seq".toList) (← readIndentless fuel))
        else missing
      | .sequenceStart =>
        if block then
          take
          complete ()
          pure (.sequence line (tagOr tag "!!seq".toList) (← readBlockItems fuel t.line))
        else missing
      | .mappingStart =>
        if block then
          take
          complete ()
          pure (.mapping line (tagOr tag "!!map".toList) (← readBlockEntries fuel t.line))
        else missing
      | _ => missing
    p.keep number node

/-- Reads the items of a block sequence that began on line `start`. -/
def readBlockItems : (fuel : Nat) → (start : Nat) → Reader (List Node)
  | 0, start => unexpected "did not find expected '-' indicator" start
  | fuel + 1, start => do
    let t ← peek
    match t.kind with
    | .blockEnd => take; complete []
    | .blockEntry =>
      take
      let item ←
        match (← peek).kind with
        | .blockEntry | .blockEnd => complete (absent t.line)
        | _ => read fuel true false
      return item :: (← readBlockItems fuel start)
    | _ => unexpected "did not find expected '-' indicator" start

def readIndentless : (fuel : Nat) → Reader (List Node)
  | 0 => return []
  | fuel + 1 => do
    let t ← peek
    match t.kind with
    | .blockEntry =>
      take
      let next ← peek
      let item ←
        match next.kind with
        | .blockEntry => complete (absent t.line)
        | _ => if endsBlockItem next then complete (absent t.line) else read fuel true false
      return item :: (← readIndentless fuel)
    | _ => complete []

/-- Reads the entries of a block mapping that began on line `start`. -/
def readBlockEntries : (fuel : Nat) → (start : Nat) → Reader (List (Node × Node))
  | 0, start => unexpected "did not find expected key" start
  | fuel + 1, start => do
    let t ← peek
    match t.kind with
    | .blockEnd => take; complete []
    | .key =>
      take
      let key ← if endsBlockItem (← peek) then complete (absent t.line) else read fuel true true
      let t ← peek
      let value ←
        match t.kind with
        | .value =>
          take
          if endsBlockItem (← peek) then complete (absent t.line) else read fuel true true
        | _ => complete (absent t.line)
      return (key, value) :: (← readBlockEntries fuel start)
    | _ => unexpected "did not find expected key" start

/-- Reads on in a flow sequence; `first` tells that no item was read yet. -/
def readFlowItems : (fuel : Nat) → (start : Nat) → (first : Bool) → Reader (List Node)
  | 0, start, _ => unexpected "did not find expected ',' or ']'" start
  | fuel + 1, start, first => do
    let t ← peek
    if t.kind matches .flowSequenceEnd then
      take
      return ← complete []
    if !first then
      if t.kind matches .flowEntry then take
      else unexpected "did not find expected ',' or ']'" start
    let t ← peek
    match t.kind with
    | .flowSequenceEnd => take; complete []
    | .key =>
      take
      complete ()
      let entry ← readFlowPair fuel
      let _ ← peek
      complete ()
      return .mapping (t.line + 1) "!!map".toList [entry] :: (← readFlowItems fuel start false)
    | _ =>
      let item ← read fuel false false
      return item :: (← readFlowItems fuel start false)

/-- Reads the single entry of a mapping that is an item of a flow sequence. Where its key is
missing, the token that shows it is passed over. -/
def readFlowPair : (fuel : Nat) → Reader (Node × Node)
  | 0 => unexpected "did not find expected node content" 0
  | fuel + 1 => do
    let t ← peek
    let key ←
      if t.kind matches .value || endsFlowItem t then
        take
        complete (absent t.line)
      else read fuel false false
    let t ← peek
    if t.kind matches .value then
      take
      let next ← peek
      let value ← if endsFlowItem next then complete (absent t.line) else read fuel false false
      return (key, value)
    else complete (key, absent t.line)

/-- Reads on in a flow mapping; `first` tells that no entry was read yet. -/
def readFlowEntries : (fuel : Nat) → (start : Nat) → (first : Bool) → Reader (List (Node × Node))
  | 0, start, _ => unexpected "did not find expected ',' or '\x7d'" start
  | fuel + 1, start, first => do
    let t ← peek
    if t.kind matches .flowMappingEnd then
      take
      return ← complete []
    if !first then
      if t.kind matches .flowEntry then take
      else unexpected "did not find expected ',' or '\x7d'" start
    let t ← peek
    match t.kind with
    | .flowMappingEnd => take; complete []
    | .key =>
      take
      let next ← peek
      let key ←
        if next.kind matches .value || endsFlowValue next then complete (absent next.line)
        else read fuel false false
      let value ← readFlowValue fuel
      return (key, value) :: (← readFlowEntries fuel start false)
    | _ =>
      let key ← read fuel false false
      let value ← complete (absent (← peek).line)
      return (key, value) :: (← readFlowEntries fuel start false)

/-- Reads the value of an entry of a flow mapping. -/
def readFlowValue : (fuel : Nat) → Reader Node
  | 0 => unexpected "did not find expected node content" 0
  | fuel + 1 => do
    let t ← peek
    if t.kind matches .value then
      take
      let next ← peek
      if endsFlowValue next then complete (absent next.line) else read fuel false false
    else complete (absent t.line)

end

/-! ### Documents -/

/-- What the handles of tags stand for unless a directive says otherwise. -/
def usualHandles : List (Text × Text) :=
  [(['!'], ['!']), (['!', '!'], "tag:yaml.org,2002:".toList)]

/-- Reads the directives before a document; `versioned` tells that one gave the version. -/
def readDirectives : (fuel : Nat) → (versioned : Bool) → Reader Unit
  | 0, _ => return
  | fuel + 1, versioned => do
    let t ← peek
    match t.kind with
    | .directive (.version major minor) =>
      if versioned then unexpected "found duplicate %YAML directive" 0
      if major ≠ 1 || minor ≠ 1 then unexpected "found incompatible YAML document" 0
      take
      readDirectives fuel true
    | .directive (.tag handle stem) =>
      if ((← get).handles.lookup handle).isSome then
        unexpected "found duplicate %TAG directive" 0
      modify fun a => { a with handles := a.handles ++ [(handle, stem)] }
      take
      readDirectives fuel versioned
    | _ => modify fun a => { a with handles := a.handles ++ usualHandles }

/-- Reads a document up to the first token after it. -/
def readRoot (fuel : Nat) : Reader (Option Node) := do
  let _ ← peek
  take
  complete ()
  match (← peek).kind with
  | .streamEnd => return none
  | .directive _ | .documentStart =>
    readDirectives fuel false
    if !(← peek).kind matches .documentStart then
      unexpected "did not find expected <document start>" 0
    take
    complete ()
    let t ← peek
    let root ←
      match t.kind with
      | .directive _ | .documentStart | .documentEnd | .streamEnd => complete (absent t.line)
      | _ => read fuel true false
    let _ ← peek
    complete (some root)
  | _ =>
    readDirectives fuel false
    complete ()
    let root ← read fuel true false
    let _ ← peek
    complete (some root)

end Node

/-- The first document of a text, if there is one. -/
def Document.ofText? (t : Text) : Except Fault (Option Document) := do
  let (root, a) ← (Node.readRoot (8 * t.length + 64)).run { scanner := ← Scanner.start t }
  return root.map fun root => ⟨root, a.anchored⟩

end Scriptlet.Yaml
