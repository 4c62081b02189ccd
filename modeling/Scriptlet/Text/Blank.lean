import Scriptlet.Text.Basic

/-! Blank characters: the Unicode property `White_Space`. Trimming and cutting into words go by it.
-/

namespace Scriptlet.Text

def blankRanges : List (Nat × Nat) :=
  [(0x9, 0xd), (0x20, 0x20), (0x85, 0x85), (0xa0, 0xa0), (0x1680, 0x1680), (0x2000, 0x200a),
   (0x2028, 0x2029), (0x202f, 0x202f), (0x205f, 0x205f), (0x3000, 0x3000)]

def isBlank (c : Char) : Bool := inRanges blankRanges c.toNat

/-- The text without blanks at either end. -/
def trim (t : Text) : Text := trimEnd isBlank (t.dropWhile isBlank)

/-- The maximal runs of characters that are not blank. -/
def words (t : Text) : List Text :=
  (t.splitBy fun a b => isBlank a == isBlank b).filter fun run => !run.all isBlank

end Scriptlet.Text
