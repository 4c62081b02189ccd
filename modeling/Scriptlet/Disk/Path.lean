import Scriptlet.Text.Basic

/-! Paths: names of directories and files with slashes between them. A path is cleaned without
looking at the disk: a single point and an empty name go away, and two points take away the name
before them. -/

namespace Scriptlet.Path

/-- The names between the slashes, empty ones included. -/
def names (path : Text) : List Text := path.splitOn '/'

def isRooted (path : Text) : Bool := path.head? == some '/'

/-- Adds a name to the names passed so far, the last one first. Two points above the root stay at
the root, and above the start of a relative path they are kept. -/
def enter (rooted : Bool) (passed : List Text) (name : Text) : List Text :=
  if name = [] || name = ['.'] then passed
  else if name = ['.', '.'] then
    match passed with
    | [] => if rooted then [] else [name]
    | last :: rest => if last = ['.', '.'] then name :: passed else rest
  else name :: passed

/-- The shortest path that means the same. -/
def clean (path : Text) : Text :=
  let rooted := isRooted path
  let body := List.intercalate ['/'] ((names path).foldl (enter rooted) []).reverse
  if rooted then '/' :: body else if body.isEmpty then ['.'] else body

/-- The path of a file in a directory. -/
def join (dir path : Text) : Text := clean (dir ++ '/' :: path)

/-- A path that does not depend on the working directory. -/
def absolute (dir path : Text) : Text := if isRooted path then clean path else join dir path

end Scriptlet.Path
