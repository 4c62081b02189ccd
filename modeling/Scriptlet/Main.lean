import Scriptlet.CommandLine.Run
import Scriptlet.Text.Bytes

/-! The program on a real terminal and a real disk. It reads the files of the working directory and
those that arguments name, runs, and writes back the files that changed. -/

namespace Scriptlet.Main

/-- The text of a file, whatever its bytes; none for a directory or a file that is not there. -/
def readText? (path : String) : IO (Option Text) := do
  try
    return some (Text.ofBytes (← IO.FS.readBinFile path).data.toList)
  catch _ => return none

def addFile (d : Disk) (path : String) : IO Disk := do
  match ← readText? path with
  | some t => return d.put (Disk.placeOf (Path.absolute d.dir path.toList)) t
  | none => return d

def readDisk (args : List String) : IO Disk := do
  let dir ← IO.currentDir
  let names := (← dir.readDir).toList.map (·.fileName)
  (names ++ args).foldlM addFile { dir := dir.toString.toList }

def writeDisk (before after : Disk) : IO Unit :=
  after.files.forM fun (p, t) => do
    if before.content? p != some t then
      IO.FS.writeFile (String.ofList (p.flatMap ('/' :: ·))) (String.ofList t)

partial def readRest (stdin : IO.FS.Stream) (before : ByteArray) : IO ByteArray := do
  let more ← stdin.read 4096
  if more.isEmpty then return before else readRest stdin (before ++ more)

/-- Whether a terminal would be asked for lines. -/
def asksTerminal (args : List Text) : Bool :=
  match CommandLine.Request.ofArguments args with
  | .ok r => r.initConfig.isEmpty && r.file.isEmpty && r.evaluate.isEmpty
  | .error _ => false

end Scriptlet.Main

open Scriptlet Scriptlet.Main in
def main (args : List String) : IO UInt32 := do
  let arguments := args.map String.toList
  let stdin ← IO.getStdin
  let isTerminal ← stdin.isTty
  let input ← if isTerminal && !asksTerminal arguments then pure .empty else readRest stdin .empty
  let disk ← readDisk args
  let text := Text.ofBytes input.data.toList
  let result := CommandLine.run arguments { text, isTerminal } disk
  (← IO.getStdout).putStr (String.ofList result.output)
  (← IO.getStderr).putStr (String.ofList result.errors)
  writeDisk disk result.disk
  return UInt32.ofNat result.code
