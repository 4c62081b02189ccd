import Scriptlet.Text.Bytes
import Scriptlet.Yaml.Property

/-! Bytes written in base 64: four characters for three bytes, with equals signs in place of what
the last four do not need. Line breaks do not count. -/

namespace Scriptlet.Yaml.Binary

/-- The number of a character of the alphabet. -/
def digit? (c : Char) : Option Nat :=
  if 'A' ≤ c && c ≤ 'Z' then some (c.toNat - 'A'.toNat)
  else if 'a' ≤ c && c ≤ 'z' then some (c.toNat - 'a'.toNat + 26)
  else if '0' ≤ c && c ≤ '9' then some (c.toNat - '0'.toNat + 52)
  else if c == '+' then some 62
  else if c == '/' then some 63
  else none

/-- The bytes of a text without line breaks. -/
def bytes? : Text → Option (List Nat)
  | [] => some []
  | [a, b, '=', '='] => do
    let n := 64 * (← digit? a) + (← digit? b)
    return [n / 16]
  | [a, b, c, '='] => do
    let n := 4096 * (← digit? a) + 64 * (← digit? b) + (← digit? c)
    return [n / 1024, n / 4 % 256]
  | a :: b :: c :: d :: t => do
    let n := 262144 * (← digit? a) + 4096 * (← digit? b) + 64 * (← digit? c) + (← digit? d)
    return n / 65536 :: n / 256 % 256 :: n % 256 :: (← bytes? t)
  | _ => none

/-- The text whose bytes are written. -/
def decode? (t : Text) : Option Text :=
  (bytes? (t.filter fun c => !Text.isLineEnd c)).map fun bs =>
    Text.ofBytes (bs.map UInt8.ofNat)

end Scriptlet.Yaml.Binary
