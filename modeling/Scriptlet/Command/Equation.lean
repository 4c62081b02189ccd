import Scriptlet.Operator

/-! Equations: a command is a chain of operands with operators between them, read at bracket depth
zero outside string literals, and splits at the operator that binds loosest. Of equally loose ones
that is the last, for powers the first. -/

namespace Scriptlet.Command

/-- Operands with operators between them. -/
structure Chain where
  first : Text
  rest : List (Operator × Text)

namespace Chain

def push (c : Char) (chain : Chain) : Chain := { chain with first := c :: chain.first }

/-- A new first operand, still empty, before the operator. -/
def before (op : Operator) (chain : Chain) : Chain := ⟨[], (op, chain.first) :: chain.rest⟩

def operands (chain : Chain) : List Text := chain.first :: chain.rest.map (·.2)

/-- Operands and operators in turn. -/
def items (chain : Chain) : List Text :=
  chain.first :: chain.rest.flatMap fun (op, operand) => [op.symbol, operand]

end Chain

/-- The depth after a character; every bracket counts, also one in a string. -/
def nest (depth : Int) : Char → Int
  | '(' | '\x7b' => depth + 1
  | ')' | '\x7d' => depth - 1
  | _ => depth

/-- Cuts a text at its operators. An operator of two characters wins over its first character. -/
def scan : (depth : Int) → (inString : Bool) → Text → Chain
  | _, _, [] => ⟨[], []⟩
  | depth, inString, c :: t =>
    let depth := nest depth c
    let inString := inString != (c == '"')
    if 0 < depth || inString then (scan depth inString t).push c
    else
      match t with
      | [] =>
        match Operator.ofChar? c with
        | some op => Chain.before op ⟨[], []⟩
        | none => ⟨[c], []⟩
      | c' :: t' =>
        match Operator.ofPair? c c' with
        | some op => (scan depth inString t').before op
        | none =>
          match Operator.ofChar? c with
          | some op => (scan depth inString (c' :: t')).before op
          | none => (scan depth inString (c' :: t')).push c

/-- The chain of a command, unless one of its operands is empty. -/
def chain? (t : Text) : Option Chain :=
  let chain := scan 0 false t
  if chain.operands.any List.isEmpty then none else some chain

/-- Two operand texts and the operator between them. -/
structure Equation where
  left : Text
  op : Operator
  right : Text
  deriving DecidableEq

namespace Equation

def text (e : Equation) : Text := e.left ++ e.op.symbol ++ e.right

/-- The split of a chain at its loosest operator. -/
def loosest : Text → List (Operator × Text) → Option Equation
  | _, [] => none
  | first, (op, second) :: rest =>
    match loosest second rest with
    | none => some ⟨first, op, second⟩
    | some e =>
      if e.op.binding < op.binding || (e.op.binding == op.binding && !e.op.groupsRight) then
        some { e with left := first ++ op.symbol ++ e.left }
      else some ⟨first, op, e.text⟩

def ofText? (t : Text) : Option Equation := do
  let chain ← chain? t
  loosest chain.first chain.rest

end Equation

end Scriptlet.Command
