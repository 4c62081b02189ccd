/-! The binary64 format. The magnitude of a number is a word below `2 ^ 63`; read as `52` fraction
bits under an exponent, a finite word stands for `significand * 2 ^ scale`, and words are ordered as
the magnitudes they stand for. `nearest` goes the other way: it takes a fraction to the word of the
closest magnitude, a tie to the even significand. -/

namespace Scriptlet.Number

/-- The word of the first magnitude that is not finite. -/
def infinity : Nat := 2047 * Nat.pow 2 52

def word (x : Float) : Nat := x.toBits.toNat % Nat.pow 2 63

def isNegative (x : Float) : Bool := Nat.pow 2 63 ≤ x.toBits.toNat

def isFinite (x : Float) : Bool := word x < infinity

/-- A sign and a magnitude; words above `infinity` are cut to it. -/
def ofWord (negative : Bool) (w : Nat) : Float :=
  Float.ofBits (UInt64.ofNat ((if negative then Nat.pow 2 63 else 0) + min w infinity))

def significand (w : Nat) : Nat :=
  if w < Nat.pow 2 52 then w else w % Nat.pow 2 52 + Nat.pow 2 52

def scale (w : Nat) : Int :=
  if w < Nat.pow 2 52 then -1074 else (w / Nat.pow 2 52 : Nat) - 1075

/-- The quotient rounded to the nearest integer, a half to the even one. -/
def roundDiv (n d : Nat) : Nat :=
  if 2 * (n % d) < d then n / d
  else if d < 2 * (n % d) then n / d + 1
  else n / d + n / d % 2

/-- A fraction of natural numbers. -/
structure Ratio where
  num : Nat
  den : Nat

/-- The fraction `n * b ^ e`. -/
def Ratio.scaled (n b : Nat) (e : Int) : Ratio := ⟨n * Nat.pow b e.toNat, Nat.pow b (-e).toNat⟩

/-- The magnitude a finite word stands for. -/
def magnitude (w : Nat) : Ratio := .scaled (significand w) 2 (scale w)

/-- The exponent of the largest power of two that is at most `r`, for `r` not zero. -/
def Ratio.log2 (r : Ratio) : Int :=
  let e : Int := r.num.log2 - r.den.log2
  if r.num * Nat.pow 2 (-e).toNat < r.den * Nat.pow 2 e.toNat then e - 1 else e

/-- The word of the magnitude closest to `r`, which is `infinity` or more when `r` is too large. -/
def nearest (r : Ratio) : Nat :=
  if r.num = 0 then 0
  else
    let e := max (r.log2 - 52) (-1074)
    (e + 1074).toNat * Nat.pow 2 52 +
      roundDiv (r.num * Nat.pow 2 (-e).toNat) (r.den * Nat.pow 2 e.toNat)

end Scriptlet.Number
