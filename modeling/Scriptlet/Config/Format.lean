import Scriptlet.Config.Basic
import Scriptlet.Yaml.Binary
import Scriptlet.Yaml.Node
import Scriptlet.Yaml.Printer

/-! Configuration files. A file is one YAML mapping, into which others can be merged. Fields that
are not in it keep their defaults; entries of the wrong type, keys that are no field and keys that
occur twice are all told at once. Writing leaves out the fields that are empty, false or zero. -/

namespace Scriptlet.Config

/-! ### Writing -/

def Entry.isZero : Entry → Bool
  | text t => t.isEmpty
  | bool b => !b
  | int n => n == 0

def Entry.render : Entry → Text
  | text t => Yaml.render t
  | bool b => if b then "true".toList else "false".toList
  | int n => Text.ofInt n

/-- The fields that are written, with their values. -/
def entries (c : Config) : List (Field × Entry) :=
  (Field.all.map fun f => (f, c.get f)).filter fun (_, e) => !e.isZero

def render (c : Config) : Text :=
  if c.entries.isEmpty then ['\x7b', '\x7d', '\n']
  else c.entries.flatMap fun (f, e) => Yaml.renderEntry f.name e.render

/-! ### Reading -/

/-- One thing wrong in a file, on a line counted from one. -/
inductive Mistake
  | wrongType (line : Nat) (tag value target : Text)
  | unknownField (line : Nat) (name : Text)
  | repeatedField (line : Nat) (name : Text)
  | repeatedKey (line : Nat) (name : Text) (first : Nat)

/-- The first seven bytes of a text. A character that does not fit leaves a mark for each of its
bytes that do. -/
def firstBytes : (n : Nat) → Text → Text
  | 0, _ => []
  | _, [] => []
  | n + 1, c :: t =>
    if c.utf8Size ≤ n + 1 then c :: firstBytes (n + 1 - c.utf8Size) t
    else List.replicate (n + 1) '\ufffd'

/-- A value as a message shows it, cut if it is long. -/
def excerpt (t : Text) : Text :=
  let t := if 10 < t.byteLength then firstBytes 7 t ++ ['.', '.', '.'] else t
  ' ' :: '\x60' :: t ++ ['\x60']

/-- Whether a tag is one of a sequence or a mapping, which have no value to show. -/
def isCollectionTag (tag : Text) : Bool := tag = "!!seq".toList || tag = "!!map".toList

def Mistake.message : Mistake → Text
  | wrongType line tag value target =>
    "line ".toList ++ Text.ofNat line ++ ": cannot unmarshal ".toList ++ tag
      ++ (if isCollectionTag tag then value else excerpt value) ++ " into ".toList ++ target
  | unknownField line name =>
    "line ".toList ++ Text.ofNat line ++ ": field ".toList ++ name
      ++ " not found in type ascript.Config".toList
  | repeatedField line name =>
    "line ".toList ++ Text.ofNat line ++ ": field ".toList ++ name
      ++ " already set in type ascript.Config".toList
  | repeatedKey line name first =>
    "line ".toList ++ Text.ofNat line ++ ": mapping key ".toList ++ name.quoted
      ++ " already defined at line ".toList ++ Text.ofNat first

/-- Why a file is no configuration. -/
inductive Fault
  /-- The file holds no document. -/
  | empty
  | notYaml (cause : Yaml.Fault)
  /-- A scalar is not what its tag says. -/
  | misnamed (actual value tag : Text)
  | notBinary
  /-- What is to be merged is no mapping. -/
  | unmergeable
  /-- A mapping is merged into itself. -/
  | endless (anchor : Text)
  /-- Nearly all that is read is read by way of aliases. -/
  | excessive
  /-- A mapping with something to merge has a collection for a key. -/
  | collectionKey (type : Text)
  | mistakes (all : List Mistake)
  | negativeLimit

/-! ### Keys -/

/-- Whether two keys are the same. Collections have no text and count as the same within a kind. -/
def sameKey : Yaml.Node → Yaml.Node → Bool
  | .scalar _ _ a, .scalar _ _ b => a == b
  | .reference _ a .., .reference _ b .. => a == b
  | .sequence .., .sequence .. => true
  | .mapping .., .mapping .. => true
  | _, _ => false

def keyText : Yaml.Node → Text
  | .scalar _ _ t => t
  | .reference _ name .. => name
  | _ => []

/-- The keys that repeat an earlier one. -/
def repeatedKeys : List (Yaml.Node × Yaml.Node) → List Mistake
  | [] => []
  | (key, _) :: rest =>
    (rest.filter fun (other, _) => sameKey key other).map
      (fun (other, _) => .repeatedKey other.line (keyText other) key.line) ++ repeatedKeys rest

/-- Whether the value of a key is to be merged. -/
def isMergeKey : Yaml.Node → Bool
  | .scalar _ tag text => text == ['<', '<'] && tag == Yaml.Scalar.mergeTag
  | _ => false

/-! ### Values -/

/-- What a node holds: its value, nothing, or the wrong thing. -/
inductive Reading (α : Type)
  | found (a : α)
  | absent
  | wrong (mistakes : List Mistake)

def Reading.map {α β : Type} (f : α → β) : Reading α → Reading β
  | found a => .found (f a)
  | absent => .absent
  | wrong ms => .wrong ms

/-- The node that a node stands for. -/
def resolve (doc : Yaml.Document) : Yaml.Node → Yaml.Node
  | .reference line name number target =>
    (doc.anchored.lookup target).getD (.reference line name number target)
  | node => node

/-- What a scalar is, and its text. -/
def scalarOf (tag text : Text) : Except Fault (Yaml.Scalar × Text) :=
  if tag = Yaml.Scalar.binaryTag then
    match Yaml.Binary.decode? text with
    | some t => .ok (.text, t)
    | none => .error .notBinary
  else
    match Yaml.Scalar.ofTagged tag text with
    | .ok scalar => .ok (scalar, text)
    | .error actual => .error (.misnamed actual.tag text tag)

/-- Reads a scalar as `read` does. -/
def readScalar {α : Type} (target : String) (read : Text → Yaml.Scalar → Option α)
    (doc : Yaml.Document) (node : Yaml.Node) : Except Fault (Reading α) := do
  match resolve doc node with
  | .scalar line tag text =>
    match ← scalarOf tag text with
    | (.null, _) => return .absent
    | (scalar, t) =>
      match read t scalar with
      | some a => return .found a
      | none => return .wrong [.wrongType line tag text target.toList]
  | .sequence line tag _ => return .wrong [.wrongType line tag [] target.toList]
  | .mapping line tag entries =>
    match repeatedKeys entries with
    | [] => return .wrong [.wrongType line tag [] target.toList]
    | ms => return .wrong ms
  | .reference .. => return .absent

def readText : Yaml.Document → Yaml.Node → Except Fault (Reading Text) :=
  readScalar "string" fun t _ => some t

def readBool : Yaml.Document → Yaml.Node → Except Fault (Reading Bool) :=
  readScalar "bool" fun t s => s.toBool? t

def readInt : Yaml.Document → Yaml.Node → Except Fault (Reading Int) :=
  readScalar "int" fun _ s => s.toInt?

/-- Reads an entry of the same type as another one. -/
def readLike (doc : Yaml.Document) (e : Entry) (node : Yaml.Node) :
    Except Fault (Reading Entry) := do
  match e with
  | .text _ => return (← readText doc node).map .text
  | .bool _ => return (← readBool doc node).map .bool
  | .int _ => return (← readInt doc node).map .int

/-- Reads the entry of a field by the type of the field. -/
def readEntry (doc : Yaml.Document) (f : Field) (node : Yaml.Node) : Except Fault (Reading Entry) :=
  readLike doc (default.get f) node

/-! ### Mappings -/

structure Draft where
  config : Config := default
  mistakes : List Mistake := []
  /-- How many nodes were read. A node is counted each time that it is read. -/
  nodes : Nat := 0
  /-- How many of them were read by way of an alias. -/
  aliased : Nat := 0

namespace Draft

def add (d : Draft) (ms : List Mistake) : Draft := { d with mistakes := d.mistakes ++ ms }

/-- Whether too many nodes were read by way of aliases. Of up to 400000 nodes 99 in a hundred may
be; the share falls to ten in a hundred for 4000000 nodes and more. -/
def isExcessive (d : Draft) : Bool :=
  let beyond := min (d.nodes - 400000) 3600000
  100 < d.aliased && 1000 < d.nodes
    && d.nodes * (99 * 3600000 - 89 * beyond) < d.aliased * 100 * 3600000

/-- Counts a node. -/
def count (d : Draft) (viaAlias : Bool) : Except Fault Draft :=
  let d := { d with nodes := d.nodes + 1, aliased := d.aliased + if viaAlias then 1 else 0 }
  if d.isExcessive then .error .excessive else .ok d

/-- Counts a node, and the node that it stands for. -/
def visit (d : Draft) (viaAlias : Bool) (node : Yaml.Node) : Except Fault Draft := do
  let d ← d.count viaAlias
  match node with
  | .reference .. => d.count true
  | _ => return d

end Draft

/-- A mapping as it is read. -/
structure Progress where
  draft : Draft
  /-- Whether the mapping is read by way of an alias. -/
  viaAlias : Bool
  /-- The fields that the mapping has given. -/
  given : List Field := []
  /-- The names that are already settled, if the mapping is being merged. -/
  settled : Option (List Text)
  /-- What is to be merged into the mapping at its end. -/
  merge : Option Yaml.Node := none

/-- Reads one entry. A name that is settled is passed over. -/
def readPair (doc : Yaml.Document) (p : Progress) (pair : Yaml.Node × Yaml.Node) :
    Except Fault Progress := do
  let (key, value) := pair
  if isMergeKey key then return { p with merge := some value }
  let p := { p with draft := ← p.draft.visit p.viaAlias key }
  match ← readText doc key with
  | .absent => return p
  | .wrong ms => return { p with draft := p.draft.add ms }
  | .found name =>
    if p.settled.any (·.contains name) then return p
    let p := { p with settled := p.settled.map (name :: ·) }
    match Field.ofName? name with
    | none => return { p with draft := p.draft.add [.unknownField key.line name] }
    | some f =>
      if p.given.contains f then
        return { p with draft := p.draft.add [.repeatedField key.line name] }
      let p := { p with given := f :: p.given, draft := ← p.draft.visit p.viaAlias value }
      match ← readEntry doc f value with
      | .found e => return { p with draft.config := p.draft.config.set f e }
      | .absent => return p
      | .wrong ms => return { p with draft := p.draft.add ms }

/-- The names that the keys of a mapping settle for what is merged into it. -/
def settledNames (doc : Yaml.Document) (viaAlias : Bool) :
    List (Yaml.Node × Yaml.Node) → Draft → Except Fault (List Text × Draft)
  | [], d => .ok ([], d)
  | (key, _) :: rest, d => do
    let d ← d.visit viaAlias key
    match resolve doc key with
    | .scalar _ tag text =>
      let (scalar, t) ← scalarOf tag text
      let (names, d) ← settledNames doc viaAlias rest d
      return (if scalar = .text then t :: names else names, d)
    | .sequence .. => throw (.collectionKey "[]interface {}".toList)
    | .mapping _ _ entries =>
      match repeatedKeys entries with
      | [] =>
        let isText : Yaml.Node → Bool
          | .scalar _ tag _ => tag = Yaml.Scalar.text.tag || tag = Yaml.Scalar.mergeTag
          | _ => false
        let key := if entries.all fun (k, _) => isText (resolve doc k) then "string" else
          "interface {}"
        throw (.collectionKey ("map[".toList ++ key.toList ++ "]interface {}".toList))
      | ms => settledNames doc viaAlias rest (d.add ms)
    | .reference .. => settledNames doc viaAlias rest d

mutual

/-- Reads a mapping into a draft. `visited` are the aliases on the way to it. -/
def readMapping (doc : Yaml.Document) :
    (fuel : Nat) → (visited : List Nat) → (settled : Option (List Text)) →
      List (Yaml.Node × Yaml.Node) → Draft → Except Fault (Draft × Option (List Text))
  | 0, _, settled, _, d => .ok (d, settled)
  | fuel + 1, visited, settled, entries, d => do
    match repeatedKeys entries with
    | m :: ms => return (d.add (m :: ms), settled)
    | [] =>
      let viaAlias := !visited.isEmpty
      let p ← entries.foldlM (readPair doc) { draft := d, viaAlias, settled }
      match p.merge with
      | none => return (p.draft, p.settled)
      | some node =>
        let (names, d) ←
          match p.settled with
          | some names => pure (names, p.draft)
          | none => settledNames doc viaAlias entries p.draft
        let (d, names) ← mergeNode doc fuel visited names node d
        return (d, settled.map fun _ => names)

/-- Merges a mapping, or several of which the first counts most. -/
def mergeNode (doc : Yaml.Document) :
    (fuel : Nat) → (visited : List Nat) → (settled : List Text) → Yaml.Node → Draft →
      Except Fault (Draft × List Text)
  | 0, _, settled, _, d => .ok (d, settled)
  | fuel + 1, visited, settled, .sequence _ _ items, d =>
    items.foldlM (fun (d, settled) item => mergeItem doc fuel visited settled item d) (d, settled)
  | fuel + 1, visited, settled, node, d => mergeItem doc fuel visited settled node d

def mergeItem (doc : Yaml.Document) :
    (fuel : Nat) → (visited : List Nat) → (settled : List Text) → Yaml.Node → Draft →
      Except Fault (Draft × List Text)
  | 0, _, settled, _, d => .ok (d, settled)
  | fuel + 1, visited, settled, node, d => do
    match resolve doc node with
    | .mapping _ _ entries =>
      let d ← d.count (!visited.isEmpty)
      let (visited, d) ←
        match node with
        | .reference _ name number _ =>
          if visited.contains number then throw (.endless name)
          pure (number :: visited, ← d.count true)
        | _ => pure (visited, d)
      let (d, names) ← readMapping doc fuel visited (some settled) entries d
      return (d, names.getD settled)
    | _ => throw .unmergeable

end

def ofDocument (fuel : Nat) (doc : Yaml.Document) : Except Fault Draft := do
  match doc.root with
  | .mapping _ _ entries =>
    -- The document and its root count as nodes.
    return (← readMapping doc fuel [] none entries { nodes := 2 }).1
  | .scalar line tag text =>
    match ← scalarOf tag text with
    | (.null, _) => return {}
    | _ => return { mistakes := [.wrongType line tag text "ascript.Config".toList] }
  | .sequence line tag _ =>
    return { mistakes := [.wrongType line tag [] "ascript.Config".toList] }
  | .reference .. => return {}

def ofText (t : Text) : Except Fault Config :=
  match Yaml.Document.ofText? t with
  | .error e => .error (.notYaml e)
  | .ok none => .error .empty
  | .ok (some doc) => do
    let d ← ofDocument ((t.length + 2) * (t.length + 2)) doc
    if !d.mistakes.isEmpty then throw (.mistakes d.mistakes)
    if d.config.maxDepth < 0 || d.config.loopLimit < 0 then throw .negativeLimit
    return d.config

/-- The text of a fault in the file with this path. -/
def Fault.message (path : Text) (f : Fault) : Text :=
  let parsing (problem : Text) : Text := "config: parse ".toList ++ path ++ ": ".toList ++ problem
  match f with
  | empty => parsing "EOF".toList
  | notYaml cause => parsing cause.message
  | misnamed actual value tag =>
    parsing ("yaml: cannot decode ".toList ++ actual ++ " `".toList ++ value
      ++ "` as a ".toList ++ tag)
  | notBinary => parsing "yaml: !!binary value contains invalid base64 data".toList
  | unmergeable =>
    parsing "yaml: map merge requires map or sequence of maps as the value".toList
  | endless anchor =>
    parsing ("yaml: anchor '".toList ++ anchor ++ "' value contains itself".toList)
  | excessive => parsing "yaml: document contains excessive aliasing".toList
  | collectionKey type => "runtime error: hash of unhashable type ".toList ++ type
  | mistakes all =>
    parsing "yaml: unmarshal errors:".toList ++ all.flatMap fun m => "\n  ".toList ++ m.message
  | negativeLimit =>
    "config: ".toList ++ path ++ ": max_depth and loop_limit must not be negative".toList

end Scriptlet.Config
