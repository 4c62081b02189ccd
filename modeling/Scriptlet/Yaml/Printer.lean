import Scriptlet.Text.Quoted
import Scriptlet.Yaml.Scalar

/-! Writing scalars. A text is written plain if it reads back as that text, in single quotes if only
its first or last characters or a mark inside stand against that, and in double quotes if it would
mean something else or holds characters that must be escaped. A text of several lines is written
line by line where it can be. -/

namespace Scriptlet.Yaml

/-- A number in base sixty, which older versions of the format know. -/
def isBase60 (t : Text) : Bool :=
  let (_, t) := Number.Decimal.sign t
  let whole := t.takeWhile fun c => c.isDigit || c == '_'
  let rec parts : (fuel : Nat) → Text → Bool
    | 0, _ => false
    | fuel + 1, t =>
      match t with
      | [] => true
      | '.' :: t => t.all fun c => c.isDigit || c == '_'
      | ':' :: t =>
        let digits := t.takeWhile Char.isDigit
        match digits with
        | [_] => parts fuel (t.drop 1)
        | [a, _] => a ≤ '5' && parts fuel (t.drop 2)
        | _ => false
      | _ => false
  match whole with
  | c :: _ =>
    c.isDigit && (t.drop whole.length).head? == some ':' && parts t.length (t.drop whole.length)
  | [] => false

/-- Whether a plain scalar with this text reads back as text everywhere. -/
def staysText (t : Text) : Bool :=
  Scalar.ofPlain t == .text && !isBase60 t && !Scalar.isOneOf t Scalar.yesWords
    && !Scalar.isOneOf t Scalar.noWords

/-- Characters that are written as they are; others are escaped. -/
def isPrintable (c : Char) : Bool :=
  let n := c.toNat
  n == 0xa || (0x20 ≤ n && n ≤ 0x7e) || (0xa0 ≤ n && n ≤ 0xfffd && n != 0xfeff)

/-- A mark that ends or changes a plain scalar in a block: `first` tells whether nothing stands
before the character, `spaced` whether a space does. -/
def hasMark : (first spaced : Bool) → Text → Bool
  | _, _, [] => false
  | first, spaced, c :: t =>
    let follows := t.isEmpty || t.head?.any isSpace
    let here :=
      if first then
        indicators.contains c || (['?', ':', '-'].contains c && follows)
      else (c == ':' && follows) || (c == '#' && spaced)
    here || hasMark false (isSpace c || isBreak c) t

/-- Whether a line break and a space follow each other, in the given order. -/
def hasAdjacent (p q : Char → Bool) : Text → Bool
  | a :: b :: t => (p a && q b) || hasAdjacent p q (b :: t)
  | _ => false

inductive Style
  | plain | single | double | literal
  deriving DecidableEq, Repr

/-- The style in which a text is written as the value of a block mapping. -/
def styleOf (t : Text) : Style :=
  let isBlankSpace (c : Char) : Bool := c == ' '
  let edge (p : Char → Bool) : Bool := t.head?.any p || t.getLast?.any p
  let special := t.any fun c => c != '\t' && !isPrintable c
  let tabs := t.contains '\t'
  let breakSpace := hasAdjacent isBreak isBlankSpace t
  let spaceBreak := hasAdjacent isBlankSpace isBreak t
  let marked :=
    hasMark true true t || ['-', '-', '-'].isPrefixOf t || ['.', '.', '.'].isPrefixOf t
  let plainAllowed :=
    !edge isBlankSpace && !edge isBreak && !breakSpace && !spaceBreak && !tabs && !special
      && !t.any isBreak && !marked
  let singleAllowed := !breakSpace && !spaceBreak && !tabs && !special
  let literalAllowed := !t.getLast?.any isBlankSpace && !spaceBreak && !special
  if t.contains '\n' then if literalAllowed then .literal else .double
  else if !staysText t then .double
  else if plainAllowed then .plain
  else if singleAllowed then .single
  else .double

/-- A character between double quotes; `always` asks for an escape even where none is needed. -/
def escaped (always : Bool) (c : Char) : Text :=
  match c.toNat with
  | 0x0 => ['\\', '0']
  | 0x7 => ['\\', 'a']
  | 0x8 => ['\\', 'b']
  | 0x9 => ['\\', 't']
  | 0xa => ['\\', 'n']
  | 0xb => ['\\', 'v']
  | 0xc => ['\\', 'f']
  | 0xd => ['\\', 'r']
  | 0x1b => ['\\', 'e']
  | 0x22 => ['\\', '"']
  | 0x5c => ['\\', '\\']
  | 0x85 => ['\\', 'N']
  | 0x2028 => ['\\', 'L']
  | 0x2029 => ['\\', 'P']
  | n =>
    let code (width : Nat) : Text := (Text.hexCode width c).map Char.toUpper
    if !always && isPrintable c then [c]
    else if n = 0xa0 then ['\\', '_']
    else if n ≤ 0xff then '\\' :: 'x' :: code 2
    else if n ≤ 0xffff then '\\' :: 'u' :: code 4
    else '\\' :: 'U' :: code 8

/-- A text in double quotes. After a byte order mark at its start every character is escaped. -/
def doubleQuoted (t : Text) : Text :=
  '"' :: t.flatMap (escaped (t.head? == some byteOrderMark)) ++ ['"']

/-- Lines one after another, each but the first at the indentation of a value; `fresh` tells that a
line begins here. -/
def indented (write : Char → Text) : (fresh : Bool) → Text → Text
  | _, [] => []
  | fresh, c :: t =>
    if isBreak c then c :: indented write true t
    else (if fresh then [' ', ' '] else []) ++ write c ++ indented write false t

/-- A mark for how the text ends: without a line break, with one, or with several. -/
def chompMark (t : Text) : Text :=
  match t.reverse with
  | [] => ['-']
  | c :: rest =>
    if !isBreak c then ['-'] else if rest.head?.all isBreak then ['+'] else []

/-- A text line by line under its key. -/
def literal (t : Text) : Text :=
  let mark := if t.head?.any fun c => c == ' ' || isBreak c then ['2'] else []
  let start := if t.head?.any isBreak then [] else ['\n']
  '|' :: mark ++ chompMark t ++ start ++ indented (fun c => [c]) true t

/-- A text as the value of a block mapping. -/
def render (t : Text) : Text :=
  match styleOf t with
  | .plain => t
  | .single =>
    '\'' :: indented (fun c => if c == '\'' then ['\'', '\''] else [c]) false t ++ ['\'']
  | .double => doubleQuoted t
  | .literal => literal t

/-- A key and its value on lines of their own. -/
def renderEntry (key value : Text) : Text :=
  let line := key ++ [':', ' '] ++ value
  if line.getLast?.any isBreak then line else line ++ ['\n']

end Scriptlet.Yaml
