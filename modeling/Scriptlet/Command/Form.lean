import Scriptlet.Text.Letter
import Scriptlet.Text.Quoted
import Scriptlet.Value
import Scriptlet.Command.Arguments
import Scriptlet.Command.Bracket
import Scriptlet.Command.Equation

/-! The form of a command. Some commands can be told by their text alone: numerals, string literals
and equations. Any other may be a bound name, and is read as a statement only if it is not bound:
a group in parentheses, an assignment, a call, or a bare word. -/

namespace Scriptlet.Command

/-- What can be wrong with the text of a statement. -/
inductive Fault
  | assignmentWithoutName
  | unclosedParenthesis
  | unclosedBlock
  | afterCall (rest : Text)
  | definitionWithoutName
  | countArguments
  | whileArguments
  deriving DecidableEq

def Fault.message : Fault → Text
  | assignmentWithoutName => "assignment without a name".toList
  | unclosedParenthesis => "unclosed parenthesis".toList
  | unclosedBlock => "unclosed block".toList
  | afterCall rest => "unexpected ".toList ++ rest.quoted ++ " after call".toList
  | definitionWithoutName => "def without a name".toList
  | countArguments => "for needs a variable, a start, a condition and a step".toList
  | whileArguments => "while needs one condition".toList

/-- What a command is by its text alone. -/
inductive Form
  | number (x : Float)
  | string (t : Text)
  | equation (e : Equation)
  | other
  deriving DecidableEq

/-- The contents of a command that is one string literal. -/
def literal? (t : Text) : Option Text := if t.count '"' = 2 then t.unquote? else none

/-- A name and a single `=`. Such a command is an assignment, whatever operators follow. -/
def isAssignment (t : Text) : Bool :=
  !(t.takeWhile Text.isNameChar).isEmpty &&
    match t.dropWhile Text.isNameChar with
    | '=' :: '=' :: _ => false
    | '=' :: _ => true
    | _ => false

def Form.ofText (t : Text) : Form :=
  match Number.ofText? t with
  | some x => .number x
  | none =>
    match literal? t with
    | some s => .string s
    | none =>
      if isAssignment t then .other
      else
        match Equation.ofText? t with
        | some e => .equation e
        | none => .other

/-- A call with the texts of its arguments and the block after it. -/
structure Call where
  name : Text
  arguments : List Text
  block : Option Text
  deriving DecidableEq

/-- The call without its block. -/
def Call.header (call : Call) : Text :=
  call.name ++ '(' :: List.intercalate [','] call.arguments ++ [')']

inductive Statement
  | group (inner : Text)
  | assignment (name value : Text)
  | call (call : Call)
  | word
  | malformed (fault : Fault)
  deriving DecidableEq

/-- Reads a call from its name and the text after the open parenthesis. -/
def Statement.ofCall (name t : Text) : Statement :=
  match closeParen 0 false t with
  | none => .malformed .unclosedParenthesis
  | some (_, []) => .call ⟨name, argumentsIn t, none⟩
  | some (_, '\x7b' :: rest) =>
    match closeBrace 0 rest with
    | none => .malformed .unclosedBlock
    | some (body, []) => .call ⟨name, argumentsIn t, some body⟩
    | some (_, rest) => .malformed (.afterCall rest)
  | some (_, rest) => .malformed (.afterCall rest)

def Statement.ofText (t : Text) : Statement :=
  match parenthesized? t with
  | some (inner, []) => .group inner
  | _ =>
    match t.splitFirst fun c => c == '=' || c == '(' with
    | none => .word
    | some (name, '=', value) =>
      if name.isEmpty then .malformed .assignmentWithoutName else .assignment name value
    | some (name, _, rest) => .ofCall name rest

end Scriptlet.Command
