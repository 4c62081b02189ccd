import Scriptlet.Number.Remainder

/-! Powers. An integer exponent is worked off bit by bit on a fraction between one half and one,
whose power of two is kept apart; the special values follow the usual table for powers of zeros,
infinities and numbers that are not. -/

namespace Scriptlet.Number

/-- A finite nonzero number as a fraction between one half and one and a power of two. -/
def split (x : Float) : Float × Int :=
  let w := word x
  let bits := (significand w).log2 + 1
  (ofWord (isNegative x) (nearest ⟨significand w, Nat.pow 2 bits⟩), scale w + bits)

/-- The number `x * 2 ^ e`, rounded once. -/
def shift (x : Float) (e : Int) : Float :=
  if x.isNaN || !isFinite x || word x = 0 then x
  else ofWord (isNegative x) (nearest (.scaled (significand (word x)) 2 (scale (word x) + e)))

/-- The part of a finite magnitude before the binary point. -/
def wholePart (w : Nat) : Nat :=
  if 0 ≤ scale w then significand w * Nat.pow 2 (scale w).toNat
  else significand w / Nat.pow 2 (-scale w).toNat

/-- The part of a finite magnitude after the binary point. -/
def fractionPart (w : Nat) : Float :=
  if 0 ≤ scale w then 0
  else
    let unit := Nat.pow 2 (-scale w).toNat
    ofWord false (nearest ⟨significand w % unit, unit⟩)

def isWhole (w : Nat) : Bool := 0 ≤ scale w || significand w % Nat.pow 2 (-scale w).toNat == 0

/-- An odd integer; magnitudes from `2 ^ 53` on are even. -/
def isOdd (x : Float) : Bool := isFinite x && isWhole (word x) && wholePart (word x) % 2 == 1

/-- Multiplies `acc * 2 ^ accExp` by the power `n` of `base * 2 ^ baseExp`. Once the power of two of
the base is out of range the result is decided and the rest of the exponent is skipped. -/
def powerLoop : (fuel n : Nat) → (base : Float) → (baseExp : Int) → (acc : Float) →
    (accExp : Int) → Float × Int
  | 0, _, _, _, acc, accExp => (acc, accExp)
  | fuel + 1, n, base, baseExp, acc, accExp =>
    if n = 0 then (acc, accExp)
    else if baseExp < -4096 || 4096 < baseExp then (acc, accExp + baseExp)
    else
      let (acc, accExp) := if n % 2 = 1 then (acc * base, accExp + baseExp) else (acc, accExp)
      let square := base * base
      if square < 0.5 then powerLoop fuel (n / 2) (square + square) (2 * baseExp - 1) acc accExp
      else powerLoop fuel (n / 2) square (2 * baseExp) acc accExp

/-- The power of a finite nonzero base to a finite exponent. -/
def finitePower (x y : Float) : Float :=
  let whole := wholePart (word y)
  let part := fractionPart (word y)
  if part != 0 && x < 0 then nan
  else if Nat.pow 2 63 ≤ whole then
    if x == -1 then 1 else if (x.abs < 1) == (y > 0) then 0 else 1 / 0
  else
    let (whole, part) := if part > 0.5 then (whole + 1, part - 1) else (whole, part)
    let start := if part != 0 then Float.exp (part * Float.log x) else 1
    let (base, baseExp) := split x
    let (acc, accExp) := powerLoop 64 whole base baseExp start 0
    if y < 0 then shift (1 / acc) (-accExp) else shift acc accExp

/-- A power of zero or of an infinity, for an exponent that is not zero. -/
def extremePower (x y : Float) : Float :=
  let small := (word x = 0) == (y > 0)
  let negative := isNegative x && isOdd y
  if small then ofWord negative 0 else ofWord negative infinity

def power (x y : Float) : Float :=
  if y == 0 || x == 1 then 1
  else if y == 1 then x
  else if x.isNaN || y.isNaN then nan
  else if word x = 0 then extremePower x y
  else if !isFinite y then
    if x == -1 then 1 else if (x.abs < 1) == (y > 0) then 0 else 1 / 0
  else if !isFinite x then extremePower x y
  else if y == 0.5 then x.sqrt
  else if y == -0.5 then 1 / x.sqrt
  else finitePower x y

end Scriptlet.Number
