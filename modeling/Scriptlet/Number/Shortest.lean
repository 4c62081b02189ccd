import Scriptlet.Number.Decimal

/-! Numbers as text. The digits are the fewest that read back as the same number and, among equally
few, the closest to it; a tie goes to the even digit. Small and large magnitudes are written with an
exponent, the others positionally. -/

namespace Scriptlet.Number

/-- The number of digits before the decimal point of a nonzero fraction; zero or less for a
fraction below one, where it counts the zeros after the point. -/
def Ratio.place (r : Ratio) : Int :=
  if r.den ≤ r.num then (Nat.toDigits 10 (r.num / r.den)).length
  else 1 - (Nat.toDigits 10 ((r.den - 1) / r.num)).length

/-- The fraction counted in units of `10 ^ e`. -/
def Ratio.inUnits (r : Ratio) (e : Int) : Ratio :=
  ⟨r.num * Nat.pow 10 (-e).toNat, r.den * Nat.pow 10 e.toNat⟩

/-- The multiple of `10 ^ e` closest to the magnitude of `w` that reads back as `w`, among the
neighbours of that magnitude. -/
def onGrid (w : Nat) (e : Int) : Option Decimal :=
  let r := (magnitude w).inUnits e
  let below : Decimal := ⟨false, r.num / r.den, e⟩
  let above : Decimal := ⟨false, r.num / r.den + 1, e⟩
  match below.word == w, above.word == w with
  | true, true => if roundDiv r.num r.den = below.digits then some below else some above
  | true, false => some below
  | false, true => some above
  | false, false => none

/-- The magnitude of `w` with all its digits. -/
def exact (w : Nat) : Decimal :=
  if 0 ≤ scale w then ⟨false, significand w * Nat.pow 2 (scale w).toNat, 0⟩
  else ⟨false, significand w * Nat.pow 5 (-scale w).toNat, scale w⟩

/-- The decimal with the fewest digits that reads back as `w`; seventeen are always enough. -/
def shortest (w : Nat) : Decimal :=
  let place := (magnitude w).place
  ((List.range 17).findSome? fun (n : Nat) => onGrid w (place - (n + 1))).getD (exact w)

/-! ### Layout -/

/-- The digits without zeros at the end. -/
def Decimal.significant (d : Decimal) : Text :=
  Text.trimEnd (· == '0') (Nat.toDigits 10 d.digits)

/-- Exponents are signed and have two digits at least. -/
def exponentText (e : Int) : Text :=
  'e' :: (if e < 0 then '-' else '+') :: (Nat.toDigits 10 e.natAbs).leftpad 2 '0'

/-- One digit, the others after a point, and the exponent. -/
def scientific (digits : Text) (e : Int) : Text :=
  match digits with
  | [] => []
  | [d] => d :: exponentText e
  | d :: rest => d :: '.' :: rest ++ exponentText e

/-- The point stands after `place` digits. -/
def positional (digits : Text) (place : Int) : Text :=
  if place ≤ 0 then '0' :: '.' :: List.replicate (-place).toNat '0' ++ digits
  else if digits.length ≤ place.toNat then
    digits ++ List.replicate (place.toNat - digits.length) '0'
  else digits.take place.toNat ++ '.' :: digits.drop place.toNat

/-- Magnitudes from `10 ^ -4` up to `10 ^ 6` are positional. -/
def Decimal.layout (d : Decimal) : Text :=
  let e := d.place - 1
  if e < -4 || 6 ≤ e then scientific d.significant e else positional d.significant d.place

/-- The text of a number, which reads back as that number when it is finite. -/
def toText (x : Float) : Text :=
  let body :=
    if word x = 0 then ['0']
    else (shortest (word x)).layout
  if x.isNaN then "NaN".toList
  else if !isFinite x then (if isNegative x then "-Inf".toList else "+Inf".toList)
  else if isNegative x then '-' :: body
  else body

end Scriptlet.Number
