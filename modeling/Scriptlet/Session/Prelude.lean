import Scriptlet.Text.Basic

/-! The script that every session starts with. -/

namespace Scriptlet.Session

def prelude : Text :=
  ("# Standard prelude, loaded into every runtime unless disabled.\n" ++
   "\n" ++
   "def max(a, b) \x7b\n" ++
   "\tif(a > b)\x7breturn = a\x7d\n" ++
   "\telse\x7breturn = b\x7d\n" ++
   "\x7d\n" ++
   "\n" ++
   "def min(a, b) \x7b\n" ++
   "\tif(a < b)\x7breturn = a\x7d\n" ++
   "\telse\x7breturn = b\x7d\n" ++
   "\x7d\n" ++
   "\n" ++
   "def abs(x) \x7b\n" ++
   "\tif(x < 0)\x7breturn = 0 - x\x7d\n" ++
   "\telse\x7breturn = x\x7d\n" ++
   "\x7d\n").toList

end Scriptlet.Session
