import Scriptlet.Number.Word

/-! The remainder of a division that is cut toward zero. It is exact: both operands are multiples of
one power of two, and so is the remainder. -/

namespace Scriptlet.Number

def nan : Float := 0.0 / 0.0

/-- The remainder of two finite magnitudes, counted in the smaller of the two scales. -/
def remainderWord (a b : Nat) : Nat :=
  let e := min (scale a) (scale b)
  let n := significand a * Nat.pow 2 (scale a - e).toNat
  let d := significand b * Nat.pow 2 (scale b - e).toNat
  nearest (.scaled (n % d) 2 e)

/-- The remainder has the sign of the dividend. An infinite divisor leaves the dividend. -/
def remainder (x y : Float) : Float :=
  if x.isNaN || y.isNaN || !isFinite x || word y = 0 then nan
  else if !isFinite y then x
  else ofWord (isNegative x) (remainderWord (word x) (word y))

end Scriptlet.Number
