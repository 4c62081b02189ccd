import Scriptlet.Value
import Scriptlet.Command.Form
import Scriptlet.Command.Sugar
import Scriptlet.Store.Fault
import Scriptlet.Console
import Scriptlet.Disk.Basic

/-! Failures of a script, and how they are told. -/

namespace Scriptlet

/-- What an operation accepts. -/
inductive Want
  | number | name | variableName | textWithoutQuotes
  deriving DecidableEq

def Want.message : Want → Text
  | number => "a number".toList
  | name => "a name".toList
  | variableName => "a variable name".toList
  | textWithoutQuotes => "text without quotes".toList

def Command.Part.name : Part → Text
  | block => "block".toList
  | string => "string".toList

def Command.LoadError.message : LoadError → Text
  | incomplete ⟨part, line⟩ =>
    "unterminated ".toList ++ part.name ++ " starting at line ".toList ++ Text.ofNat line
  | misplacedElse ⟨index, command⟩ =>
    "else must follow if (command ".toList ++ Text.ofNat (index + 1) ++ ": ".toList
      ++ command.quoted ++ [')']

inductive Failure
  | load (cause : Command.LoadError)
  | undefined (name : Text)
  | mismatch (operation : Text) (want : Want) (got : Value)
  | tooDeep (limit : Nat)
  | malformed (fault : Command.Fault) (command : Text)
  | tooLong (limit : Nat)
  | read (cause : Console.ReadFault)
  | write
  | store (cause : Store.Fault)
  | unreadable (path : Text) (cause : Disk.Fault)
  /-- A failure within a larger task, such as loading a binding. -/
  | during (task : Text) (cause : Failure)
  deriving DecidableEq

namespace Failure

def message : Failure → Text
  | load cause => cause.message
  | undefined name => name.quoted ++ " is undefined".toList
  | mismatch operation want got =>
    operation ++ " expects ".toList ++ want.message ++ ", got ".toList ++
      if got.isNull then "nothing".toList
      else got.kind.name ++ ' ' :: got.display.quoted
  | tooDeep limit => "recursion deeper than ".toList ++ Text.ofNat limit
  | malformed fault command => fault.message ++ " in ".toList ++ command.quoted
  | tooLong limit => "loop ran more than ".toList ++ Text.ofNat limit ++ " iterations".toList
  | read cause => cause.message
  | write => "output is closed".toList
  | store cause => cause.message
  | unreadable path cause => cause.readMessage path
  | during task cause => task ++ ": ".toList ++ cause.message

/-- The failure itself, without the tasks it happened in. -/
def root : Failure → Failure
  | during _ cause => cause.root
  | failure => failure

/-- A failure that shows that a text is no command but plain text. -/
def isPlainText (f : Failure) : Bool :=
  match f.root with
  | undefined _ | malformed _ _ => true
  | _ => false

/-- The sentence that is reported to the user. -/
def report (f : Failure) : Text :=
  match f.root with
  | undefined name => (undefined name).message ++ ['.']
  | _ => f.message

end Failure

end Scriptlet
