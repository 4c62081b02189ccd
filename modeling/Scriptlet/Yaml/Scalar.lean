import Scriptlet.Number.Integer
import Scriptlet.Number.Power
import Scriptlet.Yaml.Word

/-! What a scalar means. A plain scalar can be nothing, a truth value, an integer, a number or a
date; everything else, and whatever is quoted, is text. A tag can say what a scalar is meant to be.
-/

namespace Scriptlet.Yaml

inductive Scalar
  | null
  | bool (b : Bool)
  | int (n : Int)
  | float (x : Float)
  | timestamp
  | text
  deriving DecidableEq

namespace Scalar

/-- The tag by which messages name a kind of scalar. -/
def tag : Scalar → Text
  | null => "!!null".toList
  | bool _ => "!!bool".toList
  | int _ => "!!int".toList
  | float _ => "!!float".toList
  | timestamp => "!!timestamp".toList
  | text => "!!str".toList

/-! ### Numbers -/

/-- The number that one or more decimal digits spell. -/
def natOf? (t : Text) : Option Nat :=
  if t.isEmpty || !t.all Char.isDigit then none else some (Number.Decimal.digitsValue 0 t)

/-- An integer of 64 bits with a sign, or without a sign up to twice that range. -/
def int? (t : Text) : Option Int :=
  match Number.Integer.ofText t with
  | .ok n => some n
  | .error _ => (Number.Integer.natural t).toOption.map Int.ofNat

/-- A binary or octal integer whose sign stands after the mark of its base. -/
def lateSignInt? : Text → Option Int
  | '0' :: 'b' :: t => (Number.Integer.ofDigits 2 t).toOption
  | '0' :: 'o' :: t => (Number.Integer.ofDigits 8 t).toOption
  | _ => none

/-- Digits with a point before, among or after them, and perhaps an exponent. -/
def isNumeral (t : Text) : Bool :=
  let (_, t) := Number.Decimal.sign t
  let whole := t.takeWhile Char.isDigit
  match t.dropWhile Char.isDigit with
  | '.' :: rest => !whole.isEmpty || rest.head?.any Char.isDigit
  | _ => !whole.isEmpty

/-- A number that begins with a digit or a sign; underscores in it do not count. -/
def number? (t : Text) : Option Scalar :=
  let digits := t.filter (· != '_')
  match int? digits with
  | some n => some (int n)
  | none =>
    match if isNumeral digits then Number.ofText? digits else none with
    | some x => some (float x)
    | none => (lateSignInt? digits).map int

/-- Whether each underscore stands between two digits; `inside` tells that a digit stands before.
-/
def underscoresFit : (inside : Bool) → Text → Bool
  | _, [] => true
  | inside, '_' :: t => inside && t.head?.any Char.isDigit && underscoresFit false t
  | _, c :: t => underscoresFit c.isDigit t

/-- A number that begins with a point; underscores in it stand between digits. -/
def pointNumber? (t : Text) : Option Scalar :=
  if underscoresFit false t then (Number.ofText? (t.filter (· != '_'))).map float else none

/-! ### Dates -/

/-- One or two digits that spell a number from `low` to `high`, and the rest. -/
def shortNumber? (low high : Nat) (t : Text) : Option (Nat × Text) := do
  let digits := (t.take 2).takeWhile Char.isDigit
  let n ← natOf? digits
  if low ≤ n && n ≤ high then return (n, t.drop digits.length) else none

def daysIn (year month : Nat) : Nat :=
  if month == 2 then
    if year % 4 == 0 && (year % 100 != 0 || year % 400 == 0) then 29 else 28
  else if month == 4 || month == 6 || month == 9 || month == 11 then 30
  else 31

def expect? (c : Char) : Text → Option Text
  | d :: t => if c == d then some t else none
  | [] => none

/-- A fraction of a second, if there is one, is dropped. -/
def dropFraction : Text → Text
  | mark :: c :: t =>
    if (mark == '.' || mark == ',') && c.isDigit then t.dropWhile Char.isDigit else mark :: c :: t
  | t => t

/-- A time of day, and the rest. -/
def timeOfDay? (t : Text) : Option Text := do
  let (_, t) ← shortNumber? 0 23 t
  let (_, t) ← shortNumber? 0 59 (← expect? ':' t)
  let (_, t) ← shortNumber? 0 59 (← expect? ':' t)
  return dropFraction t

def isZone : Text → Bool
  | ['Z'] => true
  | s :: a :: b :: ':' :: [c, d] =>
    (s == '+' || s == '-') && [a, b, c, d].all Char.isDigit
      && (natOf? [a, b]).any (· ≤ 24) && (natOf? [c, d]).any (· ≤ 60)
  | _ => false

/-- What may follow a date: nothing, a time after spaces, or a time with its zone. -/
def isTime : Text → Bool
  | [] => true
  | ' ' :: t => (timeOfDay? (t.dropWhile (· == ' '))).any List.isEmpty
  | c :: t => (c == 'T' || c == 't') && (timeOfDay? t).any isZone

/-- A date with a year of four digits, and perhaps a time. -/
def isTimestamp (t : Text) : Bool :=
  let found : Option Bool := do
    let year ← if (t.take 4).all Char.isDigit && t.length > 4 then natOf? (t.take 4) else none
    let (month, t) ← shortNumber? 1 12 (← expect? '-' (t.drop 4))
    let (_, t) ← shortNumber? 1 (daysIn year month) (← expect? '-' t)
    return isTime t
  found.getD false

/-! ### Plain scalars -/

def nullWords : List String := ["", "~", "null", "Null", "NULL"]

def trueWords : List String := ["true", "True", "TRUE"]

def falseWords : List String := ["false", "False", "FALSE"]

def infinityWords : List String := [".inf", ".Inf", ".INF", "+.inf", "+.Inf", "+.INF"]

def negativeInfinityWords : List String := ["-.inf", "-.Inf", "-.INF"]

def nanWords : List String := [".nan", ".NaN", ".NAN"]

/-- Words that older versions of the format take for true, here only where a truth value is wanted.
-/
def yesWords : List String := ["y", "Y", "yes", "Yes", "YES", "on", "On", "ON"]

def noWords : List String := ["n", "N", "no", "No", "NO", "off", "Off", "OFF"]

def isOneOf (t : Text) (words : List String) : Bool := words.contains (String.ofList t)

/-- What a plain scalar is; `dates` tells whether it can be a date. -/
def ofPlainWith (dates : Bool) (t : Text) : Scalar :=
  if isOneOf t nullWords then null
  else if isOneOf t trueWords then bool true
  else if isOneOf t falseWords then bool false
  else if isOneOf t infinityWords then float (1 / 0)
  else if isOneOf t negativeInfinityWords then float (-1 / 0)
  else if isOneOf t nanWords then float Number.nan
  else
    match t with
    | '.' :: _ => (pointNumber? t).getD text
    | c :: _ =>
      if c.isDigit || c == '+' || c == '-' then
        if dates && isTimestamp t then timestamp else (number? t).getD text
      else text
    | [] => null

def ofPlain : Text → Scalar := ofPlainWith true

/-! ### Tags -/

/-- The tag of the key that merges another mapping into its own. -/
def mergeTag : Text := "!!merge".toList

/-- The tag of bytes that are written in base 64. -/
def binaryTag : Text := "!!binary".toList

/-- Tags that a scalar must agree with. -/
def strictTags : List Text :=
  [null.tag, (bool true).tag, (int 0).tag, (float 0).tag, timestamp.tag]

/-- The closest number to an integer. -/
def floatOf (n : Int) : Float :=
  Number.ofWord (n < 0) (Number.Decimal.word ⟨n < 0, n.natAbs, 0⟩)

/-- What a scalar with a tag is. Under a tag of its own it is text. If it does not agree with its
tag, the error is what it is instead; a signed integer will do for a number. -/
def ofTagged (tag t : Text) : Except Scalar Scalar :=
  if !strictTags.contains tag then .ok text
  else
    let plain := ofPlainWith (tag == timestamp.tag) t
    match plain with
    | int n =>
      if plain.tag = tag then .ok plain
      else if tag = (float 0).tag && n < (Nat.pow 2 63 : Nat) then .ok (float (floatOf n))
      else .error plain
    | _ => if plain.tag = tag then .ok plain else .error plain

/-! ### Where a type is wanted -/

/-- The truth value of a scalar with this text. -/
def toBool? (t : Text) : Scalar → Option Bool
  | bool b => some b
  | text => if isOneOf t yesWords then some true else if isOneOf t noWords then some false else none
  | _ => none

/-- The integer of a scalar; a number is cut toward zero. Below the range of 64 bits it becomes the
least integer, above it there is none. -/
def toInt? : Scalar → Option Int
  | int n => if n < (Nat.pow 2 63 : Nat) then some n else none
  | float x =>
    if x.isNaN || (!Number.isFinite x && !Number.isNegative x) then none
    else if !Number.isFinite x then some (-(Nat.pow 2 63 : Nat))
    else
      let n := Number.wholePart (Number.word x)
      if Number.isNegative x then some (-(min n (Nat.pow 2 63) : Nat))
      else if n < Nat.pow 2 63 then some n
      else if n = Nat.pow 2 63 then some (-(Nat.pow 2 63 : Nat))
      else none
  | _ => none

end Scalar

end Scriptlet.Yaml
