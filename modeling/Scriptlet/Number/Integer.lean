import Scriptlet.Number.Decimal

/-! Integers of 64 bits as people write them: with a sign, in a base that the first characters tell,
and with underscores between the digits. -/

namespace Scriptlet.Number.Integer

inductive Fault
  | malformed
  | outOfRange
  deriving DecidableEq

/-- The value of a digit; letters count on from ten. -/
def digit? (c : Char) : Option Nat :=
  if c.isDigit then some (c.toNat - '0'.toNat)
  else if c.isAlpha then some (c.toLower.toNat - 'a'.toNat + 10)
  else none

/-- The base that the mark after a leading zero stands for. -/
def markedBase? (mark : Char) : Option Nat :=
  match mark.toLower with
  | 'b' => some 2
  | 'o' => some 8
  | 'x' => some 16
  | _ => none

/-- The base of a numeral, whether a mark tells it, and the digits. A leading zero without a mark
means octal. -/
def base : Text → Nat × Bool × Text
  | '0' :: mark :: c :: t =>
    match markedBase? mark with
    | some b => (b, true, c :: t)
    | none => (8, false, mark :: c :: t)
  | '0' :: t => (8, false, t)
  | t => (10, false, t)

/-- Reads digits after `n`, passing over underscores. The first digit that makes the number too
large for 64 bits ends the reading. -/
def digits (b : Nat) : (n : Nat) → Text → Except Fault Nat
  | n, [] => .ok n
  | n, c :: t =>
    if c == '_' then digits b n t
    else
      match digit? c with
      | none => .error .malformed
      | some d =>
        if b ≤ d then .error .malformed
        else if Nat.pow 2 64 ≤ b * n + d then .error .outOfRange
        else digits b (b * n + d) t

/-- Whether each underscore stands between digits; `inside` tells that a digit, or the mark of the
base, stands before. -/
def underscoresFit : (inside : Bool) → Text → Bool
  | inside, [] => inside
  | inside, c :: t => if c == '_' then inside && underscoresFit false t else underscoresFit true t

/-- An integer without a sign. -/
def natural (t : Text) : Except Fault Nat := do
  let (b, marked, ds) := base t
  if t.isEmpty then throw .malformed
  let n ← digits b 0 ds
  if ds.contains '_' && !underscoresFit marked (if marked then ds else t) then throw .malformed
  return n

/-- Puts a sign before a magnitude that has to fit into 64 bits with it. -/
def signed (negative : Bool) (n : Nat) : Except Fault Int :=
  if negative then if n ≤ Nat.pow 2 63 then .ok (-n) else .error .outOfRange
  else if n < Nat.pow 2 63 then .ok n
  else .error .outOfRange

def ofText (t : Text) : Except Fault Int := do
  let (negative, t) := Decimal.sign t
  signed negative (← natural t)

/-- A sign and digits of base `b` without a mark and without underscores. -/
def ofDigits (b : Nat) (t : Text) : Except Fault Int := do
  let (negative, t) := Decimal.sign t
  if t.isEmpty || t.contains '_' then throw .malformed
  signed negative (← digits b 0 t)

end Scriptlet.Number.Integer
