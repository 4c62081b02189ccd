import Scriptlet.Text.Basic

/-! Matching brackets. The parenthesis that closes an open one is looked for outside string
literals; the brace that closes an open one is the first that balances it, whatever stands between,
because a block is kept as raw text. -/

namespace Scriptlet.Command

/-- Puts a character in front of the first part. -/
def keep {α : Type} (c : Char) : Option (Text × α) → Option (Text × α) :=
  Option.map fun (inside, rest) => (c :: inside, rest)

/-- Reads on to the parenthesis that closes the current one, while `depth` further ones are open:
the text before it and the text after it. -/
def closeParen : (depth : Nat) → (inString : Bool) → Text → Option (Text × Text)
  | _, _, [] => none
  | depth, inString, c :: t =>
    if c = '"' then keep c (closeParen depth (!inString) t)
    else if inString then keep c (closeParen depth inString t)
    else if c = '(' then keep c (closeParen (depth + 1) inString t)
    else if c = ')' then
      match depth with
      | 0 => some ([], t)
      | depth + 1 => keep c (closeParen depth inString t)
    else keep c (closeParen depth inString t)

/-- Reads on to the brace that closes the current one, while `depth` further ones are open. -/
def closeBrace : (depth : Nat) → Text → Option (Text × Text)
  | _, [] => none
  | depth, c :: t =>
    if c = '\x7b' then keep c (closeBrace (depth + 1) t)
    else if c = '\x7d' then
      match depth with
      | 0 => some ([], t)
      | depth + 1 => keep c (closeBrace depth t)
    else keep c (closeBrace depth t)

/-- The inside of the parentheses a text begins with, and the rest. -/
def parenthesized? : Text → Option (Text × Text)
  | '(' :: t => closeParen 0 false t
  | _ => none

/-- The inside of the braces a text begins with, and the rest. -/
def braced? : Text → Option (Text × Text)
  | '\x7b' :: t => closeBrace 0 t
  | _ => none

/-- The byte offset of the parenthesis that closes the one at `start`. -/
def closingOffset (t : Text) (start : Nat) : Option Nat := do
  let (inside, _) ← parenthesized? (← t.dropBytes start)
  return start + 1 + inside.byteLength

/-- The block that opens at byte `start`, and the offset just past it. -/
def blockAt (t : Text) (start : Nat) : Option (Text × Nat) := do
  let (body, _) ← braced? (← t.dropBytes start)
  return (body, start + body.byteLength + 2)

/-- The index of the parenthesis that closes the one at index `start`, and -1 if there is none. -/
def closingIndex (t : Text) : (start : Int) → Int
  | .ofNat start => ((closingOffset t start).map Int.ofNat).getD (-1)
  | .negSucc _ => -1

/-- The block that opens at index `start` with the index just past it, and whether there is one. If
not, the text is empty and the index stays where it was. -/
def blockFrom (t : Text) : (start : Int) → Text × Int × Bool
  | .ofNat start =>
    ((blockAt t start).map fun (body, stop) => (body, .ofNat stop, true)).getD
      ([], .ofNat start, false)
  | .negSucc n => ([], .negSucc n, false)

end Scriptlet.Command
