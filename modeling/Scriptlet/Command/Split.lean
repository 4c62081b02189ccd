import Scriptlet.Text.Basic

/-! A script is cut into commands one character at a time. A newline ends a command, `#` starts a
comment, and spaces are dropped; string literals and blocks are kept as they are, and the end of a
block ends its command. Characters to be ignored are dropped everywhere. -/

namespace Scriptlet.Command

/-- What can be left open at the end of a script. -/
inductive Part
  | block | string
  deriving DecidableEq, Repr

/-- The part left open, and the line on which it was opened. -/
structure Incomplete where
  part : Part
  line : Nat
  deriving DecidableEq, Repr

/-- Where in the script the next character stands. A block knows how many braces are open inside
its own. -/
inductive Mode
  | code
  | comment
  | string (openLine : Nat)
  | block (openLine depth : Nat)
  deriving DecidableEq, Repr

structure Cutter where
  /-- The current line, counted from one. -/
  line : Nat := 1
  mode : Mode := .code
  /-- The command being read, its latest character first. -/
  pending : Text := []
  /-- The finished commands, the latest first. -/
  commands : List Text := []
  deriving DecidableEq

namespace Cutter

def push (s : Cutter) (c : Char) : Cutter := { s with pending := c :: s.pending }

/-- Ends the pending command unless it is empty. -/
def flush (s : Cutter) : Cutter :=
  if s.pending.isEmpty then s
  else { s with pending := [], commands := s.pending.reverse :: s.commands }

/-- Outside strings, blocks and comments. The space after a bare `def` leaves a mark, which tells
the keyword from a name that begins with it. -/
def stepCode (s : Cutter) (c : Char) : Cutter :=
  match c with
  | '"' => { s.push c with mode := .string s.line }
  | '#' => { s.flush with mode := .comment }
  | ' ' => if s.pending = ['f', 'e', 'd'] then s.push '~' else s
  | '\x7b' => { s.push c with mode := .block s.line 0 }
  | '\n' => s.flush
  | c => s.push c

def stepBlock (s : Cutter) (openLine depth : Nat) (c : Char) : Cutter :=
  let s := s.push c
  match c, depth with
  | '\x7b', _ => { s with mode := .block openLine (depth + 1) }
  | '\x7d', 0 => { s.flush with mode := .code }
  | '\x7d', depth + 1 => { s with mode := .block openLine depth }
  | _, _ => s

def stepString (s : Cutter) (c : Char) : Cutter :=
  if c = '"' then { s.push c with mode := .code } else s.push c

def step (ignore : Text) (s : Cutter) (c : Char) : Cutter :=
  let s := if c = '\n' then { s with line := s.line + 1 } else s
  match s.mode with
  | .comment => if c = '\n' then { s with mode := .code } else s
  | .code => if ignore.contains c then s else s.stepCode c
  | .string _ => if ignore.contains c then s else s.stepString c
  | .block openLine depth => if ignore.contains c then s else s.stepBlock openLine depth c

def run (ignore : Text) (s : Cutter) (t : Text) : Cutter := t.foldl (step ignore) s

theorem run_append (ignore : Text) (s : Cutter) (t u : Text) :
    s.run ignore (t ++ u) = (s.run ignore t).run ignore u := List.foldl_append

/-- The commands in order, unless a string or a block is still open. -/
def finish (s : Cutter) : Except Incomplete (List Text) :=
  match s.mode with
  | .block openLine _ => .error ⟨.block, openLine⟩
  | .string openLine => .error ⟨.string, openLine⟩
  | _ => .ok s.flush.commands.reverse

end Cutter

/-- Characters that are ignored unless a session says otherwise. -/
def defaultIgnore : Text := ['\t', '\r']

def split (ignore t : Text) : Except Incomplete (List Text) := (Cutter.run ignore {} t).finish

end Scriptlet.Command
