import Scriptlet.Value
import Scriptlet.Command.Arguments
import Scriptlet.Command.Bracket
import Scriptlet.Command.Split

/-! Keyword forms and the calls they stand for. A definition quotes its name and parameters, a
counting loop quotes its variable, and an `else` becomes an `if` on the negated condition of the
`if` right before it. -/

namespace Scriptlet.Command

/-- How a command begins, with what follows its opening. -/
inductive Opening
  | define (rest : Text)
  | count (rest : Text)
  | branch (rest : Text)
  | otherwise (rest : Text)
  | plain
  deriving DecidableEq

/-- The nonempty text after `start`. -/
def opens? (start t : Text) : Option Text :=
  match Text.after? start t with
  | some (c :: rest) => some (c :: rest)
  | _ => none

def opening (t : Text) : Opening :=
  match opens? ['d', 'e', 'f', '~'] t with
  | some rest => .define rest
  | none =>
    match opens? ['f', 'o', 'r', '('] t with
    | some rest => .count rest
    | none =>
      match opens? ['i', 'f', '('] t with
      | some rest => .branch rest
      | none =>
        match opens? ['e', 'l', 's', 'e', '\x7b'] t with
        | some rest => .otherwise rest
        | none => .plain

/-- The definition `name(p,q){...}` as a call with quoted names. -/
def defineCall (rest : Text) : Text :=
  match rest.splitFirst isOpening with
  | none => Function.header rest []
  | some (name, '(', t) =>
    Function.header name (argumentsIn t) ++ ((closeParen 0 false t).map (·.2)).getD []
  | some (name, c, t) => Function.header name [] ++ c :: t

/-- The loop header `v=start,...` with its variable quoted. A header that begins with a quote or
assigns nothing stays as it is. -/
def countCall (rest : Text) : Text :=
  let unchanged := ['f', 'o', 'r', '('] ++ rest
  match argumentsIn rest with
  | [] => unchanged
  | ('"' :: _) :: _ => unchanged
  | decl :: _ =>
    match decl.splitFirst (· == '=') with
    | none => unchanged
    | some (counter, _, start) =>
      ['f', 'o', 'r', '('] ++ counter.quote ++ ',' :: start ++ rest.drop decl.length

/-- The condition of an `if`, in parentheses. -/
def condition (rest : Text) : Text := '(' :: List.intercalate [','] (argumentsIn rest) ++ [')']

/-- The `if` that an `else` block stands for. -/
def otherwiseCall (condition rest : Text) : Text :=
  ['i', 'f', '(', '!'] ++ condition ++ [')', '\x7b'] ++ rest

/-- An `else` that does not follow an `if`, with its position among the commands. -/
structure MisplacedElse where
  index : Nat
  command : Text
  deriving DecidableEq

/-- Expands the commands from position `index` on; `latest` is the condition of the command before,
if that is an `if`. -/
def expandFrom (index : Nat) (latest : Option Text) : List Text → Except MisplacedElse (List Text)
  | [] => .ok []
  | command :: commands =>
    match opening command, latest with
    | .define rest, _ => (expandFrom (index + 1) none commands).map (defineCall rest :: ·)
    | .count rest, _ => (expandFrom (index + 1) none commands).map (countCall rest :: ·)
    | .branch rest, _ =>
      (expandFrom (index + 1) (some (condition rest)) commands).map (command :: ·)
    | .otherwise _, none => .error ⟨index, command⟩
    | .otherwise rest, some latest =>
      (expandFrom (index + 1) none commands).map (otherwiseCall latest rest :: ·)
    | .plain, _ => (expandFrom (index + 1) none commands).map (command :: ·)

def expand (commands : List Text) : Except MisplacedElse (List Text) := expandFrom 0 none commands

/-- Why a script cannot be loaded. -/
inductive LoadError
  | incomplete (cause : Incomplete)
  | misplacedElse (cause : MisplacedElse)
  deriving DecidableEq

/-- The commands of a script, with its keyword forms expanded. -/
def parse (ignore t : Text) : Except LoadError (List Text) :=
  match split ignore t with
  | .error e => .error (.incomplete e)
  | .ok commands => (expand commands).mapError .misplacedElse

end Scriptlet.Command
