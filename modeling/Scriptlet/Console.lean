import Scriptlet.Text.Basic

/-! The console of a session: what scripts print, what is reported about them, and the lines they
read. A line comes from a prepared list or from a stream of characters. -/

namespace Scriptlet

namespace Console

/-- Why no line could be read. -/
inductive ReadFault
  | endOfInput
  | aborted
  | failed
  deriving DecidableEq

def ReadFault.message : ReadFault → Text
  | endOfInput => "EOF".toList
  | aborted => "prompt aborted".toList
  | failed => "read failed".toList

/-- Where lines come from. -/
inductive Reader
  | absent
  /-- Each reading takes the next entry; after the last one the input is at its end. The prompts
  are noted and not shown. -/
  | entries (rest : List (Except ReadFault Text))
  /-- A line of the stream counts only with its newline. A prompt is shown unless it is empty. -/
  | stream (rest : Text)
  /-- The last line of the stream counts also without a newline. Prompts are shown. -/
  | dialogue (rest : Text)

/-- Where `print` goes. -/
inductive Writer
  | absent | working | closed
  deriving DecidableEq

end Console

structure Console where
  writer : Console.Writer := .working
  reader : Console.Reader := .absent
  /-- Whether anything is told about failed scripts. -/
  reporting : Bool := true
  output : Text := []
  reported : Text := []
  prompts : List Text := []

namespace Console

def write (c : Console) (t : Text) : Console := { c with output := c.output ++ t }

def writeLine (c : Console) (t : Text) : Console := c.write (t ++ ['\n'])

/-- Reports one line. -/
def report (c : Console) (t : Text) : Console :=
  if c.reporting then { c with reported := c.reported ++ t ++ ['\n'] } else c

/-- The console with nothing shown, reported or asked yet. -/
def cleared (c : Console) : Console := { c with output := [], reported := [], prompts := [] }

/-- The next line of a stream with its newline, and the rest. -/
def nextLine (t : Text) : Option (Text × Text) :=
  (t.splitFirst (· == '\n')).map fun (line, c, rest) => (line ++ [c], rest)

/-- Reads a line after a prompt. A console without a reader gives none. -/
def read (c : Console) (prompt : Text) : Option (Except ReadFault Text) × Console :=
  match c.reader with
  | .absent => (none, c)
  | .entries rest =>
    let c := { c with prompts := c.prompts ++ [prompt] }
    match rest with
    | [] => (some (.error .endOfInput), c)
    | entry :: rest => (some entry, { c with reader := .entries rest })
  | .stream t =>
    let c := c.write prompt
    match nextLine t with
    | some (line, rest) => (some (.ok line), { c with reader := .stream rest })
    | none => (some (.error .endOfInput), { c with reader := .stream [] })
  | .dialogue t =>
    let c := c.write prompt
    match nextLine t with
    | some (line, rest) =>
      (some (.ok (line.trimEnd Text.isLineEnd)), { c with reader := .dialogue rest })
    | none =>
      if t.isEmpty then (some (.error .endOfInput), c)
      else (some (.ok (t.trimEnd Text.isLineEnd)), { c with reader := .dialogue [] })

/-- Everything still to be read from a stream. -/
def readAll (c : Console) : Text × Console :=
  match c.reader with
  | .stream t => (t, { c with reader := .stream [] })
  | .dialogue t => (t, { c with reader := .dialogue [] })
  | _ => ([], c)

/-- How many readings the reader can still answer with a line. -/
def Reader.size : Reader → Nat
  | absent => 0
  | entries rest => rest.length
  | stream t | dialogue t => t.length

end Console

end Scriptlet
