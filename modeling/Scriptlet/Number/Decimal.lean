import Scriptlet.Text.Basic
import Scriptlet.Number.Word

/-! Decimal numerals: an optional sign, digits with at most one point among them, and an optional
exponent. A numeral denotes the closest binary64 number; one whose magnitude rounds to infinity
denotes none. -/

namespace Scriptlet.Number

/-- The number `digits * 10 ^ exponent` under a sign. -/
structure Decimal where
  negative : Bool
  digits : Nat
  exponent : Int

namespace Decimal

/-- An optional sign in front of a text, and the rest. -/
def sign : Text → Bool × Text
  | '-' :: t => (true, t)
  | '+' :: t => (false, t)
  | t => (false, t)

/-- The number that a row of digits spells, continuing `n`. -/
def digitsValue (n : Nat) (t : Text) : Nat := t.foldl (fun n c => 10 * n + (c.toNat - '0'.toNat)) n

/-- The digits after the point, if there is a point, and the rest. -/
def fraction : Text → Text × Text
  | '.' :: t => (t.takeWhile Char.isDigit, t.dropWhile Char.isDigit)
  | t => ([], t)

/-- What may follow the digits: nothing, or an exponent with at least one digit. -/
def exponentValue : Text → Option Int
  | [] => some 0
  | c :: t =>
    if c == 'e' || c == 'E' then
      let (negative, ds) := sign t
      if ds.isEmpty || !ds.all Char.isDigit then none
      else some (if negative then -(digitsValue 0 ds : Int) else digitsValue 0 ds)
    else none

def ofText? (t : Text) : Option Decimal := do
  let (negative, t) := sign t
  let whole := t.takeWhile Char.isDigit
  let (part, rest) := fraction (t.dropWhile Char.isDigit)
  if whole.isEmpty && part.isEmpty then none
  let e ← exponentValue rest
  return ⟨negative, digitsValue 0 (whole ++ part), e - part.length⟩

/-- The magnitude lies between `10 ^ (place - 1)` and `10 ^ place`. -/
def place (d : Decimal) : Int := (Nat.toDigits 10 d.digits).length + d.exponent

/-- The word of the closest magnitude. Far outside the range of the format the answer is known
without computing the power of ten. -/
def word (d : Decimal) : Nat :=
  if d.digits = 0 || d.place < -400 then 0
  else if 400 < d.place then infinity
  else nearest (.scaled d.digits 10 d.exponent)

def toFloat? (d : Decimal) : Option Float :=
  if d.word < infinity then some (ofWord d.negative d.word) else none

end Decimal

/-- The number that a numeral denotes. -/
def ofText? (t : Text) : Option Float := (Decimal.ofText? t).bind Decimal.toFloat?

end Scriptlet.Number
