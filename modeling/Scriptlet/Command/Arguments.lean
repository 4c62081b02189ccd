import Scriptlet.Text.Basic

/-! Argument lists. A comma ends an argument unless it stands in a string literal or inside further
parentheses or braces. The list ends at the bracket that closes it, or with the text. -/

namespace Scriptlet.Command

def isOpening (c : Char) : Bool := c == '(' || c == '\x7b'

def isClosing (c : Char) : Bool := c == ')' || c == '\x7d'

/-- Puts a character in front of the current argument. -/
def extend (c : Char) : Text × List Text → Text × List Text :=
  fun (arg, others) => (c :: arg, others)

/-- The rest of the current argument and the arguments after it, while `depth` brackets are open. -/
def cutArguments : (depth : Nat) → (inString : Bool) → Text → Text × List Text
  | _, _, [] => ([], [])
  | depth, inString, c :: t =>
    if c = '"' then extend c (cutArguments depth (!inString) t)
    else if inString then extend c (cutArguments depth inString t)
    else if isOpening c then extend c (cutArguments (depth + 1) inString t)
    else if isClosing c then
      match depth with
      | 0 => ([], [])
      | depth + 1 => extend c (cutArguments depth inString t)
    else if c = ',' && depth == 0 then
      let (arg, others) := cutArguments depth inString t
      ([], arg :: others)
    else extend c (cutArguments depth inString t)

/-- The arguments in a text that follows an open parenthesis. An empty one at the end does not
count, so `()` has none. -/
def argumentsIn (t : Text) : List Text :=
  let (arg, others) := cutArguments 0 false t
  let all := arg :: others
  if all.getLast? = some [] then all.dropLast else all

/-- The arguments after the first parenthesis of a text. -/
def arguments (t : Text) : List Text :=
  match t.splitFirst (· == '(') with
  | some (_, _, rest) => argumentsIn rest
  | none => []

end Scriptlet.Command
