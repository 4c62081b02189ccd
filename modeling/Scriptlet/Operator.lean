import Scriptlet.Text.Basic
import Scriptlet.Number.Power

/-! The twelve binary operators. Comparisons bind loosest, then sums, then products, then powers;
chains group from the left except for powers. A comparison yields one or zero. -/

namespace Scriptlet

inductive Operator
  | equal | unequal | greaterEqual | lessEqual | greater | less
  | power | times | divide | remainder | plus | minus
  deriving DecidableEq, Repr

namespace Operator

def symbol : Operator → Text
  | equal => ['=', '=']
  | unequal => ['!', '=']
  | greaterEqual => ['>', '=']
  | lessEqual => ['<', '=']
  | greater => ['>']
  | less => ['<']
  | power => ['^']
  | times => ['*']
  | divide => ['/']
  | remainder => ['%']
  | plus => ['+']
  | minus => ['-']

/-- The operator of two characters, such as `>=`. -/
def ofPair? : Char → Char → Option Operator
  | '=', '=' => some equal
  | '!', '=' => some unequal
  | '>', '=' => some greaterEqual
  | '<', '=' => some lessEqual
  | _, _ => none

/-- The operator of one character. -/
def ofChar? : Char → Option Operator
  | '>' => some greater
  | '<' => some less
  | '^' => some power
  | '*' => some times
  | '/' => some divide
  | '%' => some remainder
  | '+' => some plus
  | '-' => some minus
  | _ => none

def ofSymbol? : Text → Option Operator
  | [a, b] => ofPair? a b
  | [c] => ofChar? c
  | _ => none

@[simp] theorem ofSymbol?_symbol (op : Operator) : ofSymbol? op.symbol = some op := by
  cases op <;> rfl

/-- What an operator yields: a truth value or any number. -/
inductive Kind
  | numeric | boolean
  deriving DecidableEq, Repr

def Kind.name : Kind → Text
  | numeric => "NUMERIC".toList
  | boolean => "BOOLEAN".toList

def kind : Operator → Kind
  | equal | unequal | greaterEqual | lessEqual | greater | less => .boolean
  | _ => .numeric

/-- The level of an operator in the table of operators. -/
def precedence : Operator → Nat
  | plus | minus => 0
  | times | divide | remainder => 1
  | power => 2
  | _ => 3

/-- How tightly an operator holds its operands, the loosest first. -/
def binding (op : Operator) : Nat :=
  match op.kind with
  | .boolean => 0
  | .numeric => op.precedence + 1

/-- A chain of powers groups from the right. -/
def groupsRight : Operator → Bool
  | power => true
  | _ => false

/-- One for true and zero for false. -/
def truth (b : Bool) : Float := if b then 1 else 0

def apply : Operator → Float → Float → Float
  | equal, a, b => truth (a == b)
  | unequal, a, b => truth (a != b)
  | greaterEqual, a, b => truth (a ≥ b)
  | lessEqual, a, b => truth (a ≤ b)
  | greater, a, b => truth (a > b)
  | less, a, b => truth (a < b)
  | power, a, b => Number.power a b
  | times, a, b => a * b
  | divide, a, b => a / b
  | remainder, a, b => Number.remainder a b
  | plus, a, b => a + b
  | minus, a, b => a - b

end Operator

end Scriptlet
