import Scriptlet.Number.Integer
import Scriptlet.Text.Bytes

/-! How a database is named: by a path, or by an address, which begins with `file:`. Options may
follow after a question mark. An address may name this host, ends before a number sign, and can
write a byte as a percent sign and two hexadecimal digits. A database without a file is lost when it
is closed: it has no name or the name `:memory:`, or an option asks for it. No other option has an
effect here. -/

namespace Scriptlet.Store

/-- The name of a database that has no file. -/
def unnamed : Text := ":memory:".toList

structure Address where
  name : Text
  /-- Whether an option keeps the database in memory. -/
  inMemory : Bool := false
  deriving DecidableEq

namespace Address

def hexDigit? (c : Char) : Option Nat := (Number.Integer.digit? c).filter (· < 16)

/-- The bytes of a part of an address. -/
def octets : Text → List UInt8
  | [] => []
  | '%' :: a :: b :: t =>
    match hexDigit? a, hexDigit? b with
    | some x, some y => UInt8.ofNat (16 * x + y) :: octets t
    | _, _ => Text.bytes ['%'] ++ octets (a :: b :: t)
  | c :: t => Text.bytes [c] ++ octets t

/-- What a part of an address stands for. A zero byte ends the part. -/
def decoded (t : Text) : Text := Text.ofBytes ((octets t).takeWhile (· != 0))

/-- The two sides of the first character `c`; without one, all is on the left. -/
def cutAt (c : Char) (t : Text) : Text × Text :=
  (t.takeWhile (· != c), (t.dropWhile (· != c)).drop 1)

/-- The names and values of options. -/
def options (query : Text) : List (Text × Text) :=
  (query.splitOn '&').map fun t => (decoded (cutAt '=' t).1, decoded (cutAt '=' t).2)

/-- The last value that is given for an option. -/
def value? (name : String) (query : Text) : Option Text :=
  (options query).reverse.lookup name.toList

/-- Whether the driver of files in memory is asked for. -/
def asksMemoryDriver (query : Text) : Bool := value? "vfs" query == some "memdb".toList

/-- What follows the name of the host; none if it is another host. -/
def pastHost? : Text → Option Text
  | '/' :: '/' :: t =>
    let host := t.takeWhile (· != '/')
    if host.isEmpty || host == "localhost".toList then some (t.dropWhile (· != '/')) else none
  | t => some t

/-- The address that a text is; none if it is on another host. A zero character ends it. In a path a
question mark at the very beginning is part of the name. -/
def ofText? (t : Text) : Option Address :=
  let untilZero := t.takeWhile (· != '\x00')
  match Text.after? "file:".toList untilZero with
  | some rest => (pastHost? rest).map fun here =>
    let (name, query) := cutAt '?' (cutAt '#' here).1
    { name := decoded name
      inMemory := value? "mode" query == some "memory".toList || asksMemoryDriver query }
  | none =>
    if t.head? = some '?' then some { name := untilZero }
    else
      let (name, query) := cutAt '?' t
      some { name := name.takeWhile (· != '\x00'), inMemory := asksMemoryDriver query }

/-- Whether the database is kept in a file. -/
def isKept (a : Address) : Bool := !a.inMemory && a.name != unnamed && !a.name.isEmpty

end Address

end Scriptlet.Store
