import Scriptlet.Text.Visible

/-! Text as messages show it: between double quotes, on one line, with every character that is not
visible written by its code. -/

namespace Scriptlet.Text

/-- The code of `c` in `width` lower-case hexadecimal digits. -/
def hexCode (width : Nat) (c : Char) : Text := (Nat.toDigits 16 c.toNat).leftpad width '0'

/-- How one character stands between the quotes: short forms where there is one, else the character
itself if visible, else its code in two, four or eight digits. -/
def quotedChar (c : Char) : Text :=
  if c == '"' || c == '\\' then ['\\', c]
  else if isVisible c then [c]
  else match c.toNat with
    | 7 => ['\\', 'a']
    | 8 => ['\\', 'b']
    | 9 => ['\\', 't']
    | 10 => ['\\', 'n']
    | 11 => ['\\', 'v']
    | 12 => ['\\', 'f']
    | 13 => ['\\', 'r']
    | n =>
      if n < 0x20 || n == 0x7f then '\\' :: 'x' :: hexCode 2 c
      else if n < 0x10000 then '\\' :: 'u' :: hexCode 4 c
      else '\\' :: 'U' :: hexCode 8 c

def quoted (t : Text) : Text := '"' :: t.flatMap quotedChar ++ ['"']

end Scriptlet.Text
