import Scriptlet.Text.Blank
import Scriptlet.Number.Shortest
import Scriptlet.Operator

/-! The values of the language: nothing, numbers, texts and functions. Truth values are numbers. A
value has a display form, which `print` shows, and a source form, which evaluates to it again. -/

namespace Scriptlet

/-- A function that a script has defined. The body is the text between the braces. -/
structure Function where
  name : Text
  params : List Text
  body : Text
  deriving DecidableEq

namespace Text

/-- A string literal. The language has no escapes, so the text stands as it is. -/
def quote (t : Text) : Text := '"' :: t ++ ['"']

/-- The contents of a text that begins with a quote and ends with another one. -/
def unquote? : Text → Option Text
  | '"' :: t => if t.getLast? = some '"' then some t.dropLast else none
  | _ => none

end Text

/-- The call of `def` that names a function and its parameters, without its block. -/
def Function.header (name : Text) (params : List Text) : Text :=
  ['d', 'e', 'f', '('] ++ name.quote ++ params.flatMap (fun p => ',' :: p.quote) ++ [')']

/-- The call of `def` that makes a function again. -/
def Function.source (f : Function) : Text :=
  Function.header f.name f.params ++ '\x7b' :: f.body ++ ['\x7d']

inductive Value
  | null
  | number (x : Float)
  | text (t : Text)
  /-- A callable without a function does nothing when it is called. -/
  | callable (f : Option Function)
  deriving DecidableEq

namespace Value

instance : Inhabited Value := ⟨null⟩

inductive Kind
  | null | number | text | callable
  deriving DecidableEq, Repr

def kind : Value → Kind
  | null => .null
  | number _ => .number
  | text _ => .text
  | callable _ => .callable

def Kind.name : Kind → Text
  | .null => "null".toList
  | .number => "number".toList
  | .text => "text".toList
  | .callable => "callable".toList

def display : Value → Text
  | null => []
  | number x => Number.toText x
  | text t => t
  | callable none => "<def>".toList
  | callable (some f) => "<def ".toList ++ f.name ++ ['>']

/-- The source form. Null has none. -/
def source : Value → Text
  | null => []
  | number x => Number.toText x
  | text t => t.quote
  | callable none => []
  | callable (some f) => f.source

def isNull : Value → Bool
  | null => true
  | _ => false

/-- Nonzero numbers, nonempty texts and all callables count as true. -/
def truthy : Value → Bool
  | null => false
  | number x => x != 0
  | text t => !t.isEmpty
  | callable _ => true

def ofBool (b : Bool) : Value := number (Operator.truth b)

/-- Numbers count as themselves and texts as the numeral they hold. -/
def toNumber? : Value → Option Float
  | number x => some x
  | text t => Number.ofText? (Text.trim t)
  | _ => none

end Value

end Scriptlet
