import Scriptlet.Command.Sugar
import Scriptlet.Proofs.Text.Bytes

/-! Scripts as rows of bytes. A script is decoded before it is cut, so its commands are forms of
texts whatever its bytes are, and reading a script is reading the text that it decodes to. A byte
that is part of no character does not come through. -/

namespace Scriptlet.Command

/-- The commands of a script of bytes. -/
def splitBytes (ignore : Text) (s : List UInt8) : Except Incomplete (List (List UInt8)) :=
  (split ignore (Text.ofBytes s)).map (·.map Text.bytes)

/-- The commands of a script of bytes, with its keyword forms expanded. -/
def parseBytes (ignore : Text) (s : List UInt8) : Except LoadError (List (List UInt8)) :=
  match splitBytes ignore s with
  | .error e => .error (.incomplete e)
  | .ok commands =>
    ((expand (commands.map Text.ofBytes)).mapError .misplacedElse).map (·.map Text.bytes)

theorem map_ofBytes_map_bytes (ts : List Text) : (ts.map Text.bytes).map Text.ofBytes = ts := by
  rw [List.map_map]
  exact List.map_id'' Text.ofBytes_bytes ts

/-- What a script of bytes is cut into are forms of texts. -/
theorem isForm_of_mem_splitBytes {ignore : Text} {s command : List UInt8}
    {commands : List (List UInt8)} (h : splitBytes ignore s = .ok commands)
    (hmem : command ∈ commands) : Text.IsForm command := by
  rw [splitBytes] at h
  cases hsplit : split ignore (Text.ofBytes s) with
  | error e =>
    rw [hsplit] at h
    cases h
  | ok texts =>
    rw [hsplit] at h
    cases h
    obtain ⟨t, -, rfl⟩ := List.mem_map.1 hmem
    exact Text.isForm_bytes t

theorem parseBytes_eq (ignore : Text) (s : List UInt8) :
    parseBytes ignore s = (parse ignore (Text.ofBytes s)).map (·.map Text.bytes) := by
  rw [parseBytes, parse, splitBytes]
  cases split ignore (Text.ofBytes s) with
  | error e => rfl
  | ok commands =>
    dsimp only [Except.map]
    rw [map_ofBytes_map_bytes]

/-! ### Blocks -/

/-- A head and a block with a body of bytes. -/
def blockBytes (head : Text) (body : List UInt8) : List UInt8 :=
  Text.bytes (head ++ ['\x7b']) ++ body ++ Text.bytes ['\x7d']

theorem blockBytes_bytes (head body : Text) :
    blockBytes head (Text.bytes body) = Text.bytes (head ++ '\x7b' :: (body ++ ['\x7d'])) := by
  simp [blockBytes]

theorem blockBytes_inj {head : Text} {body body' : List UInt8} :
    blockBytes head body = blockBytes head body' ↔ body = body' := by
  simp [blockBytes]

/-- The braces stand for themselves, whatever bytes are between them. -/
theorem ofBytes_blockBytes (head : Text) (body : List UInt8) :
    Text.ofBytes (blockBytes head body) = head ++ '\x7b' :: (Text.ofBytes body ++ ['\x7d']) := by
  have hclose : Text.bytes ['\x7d'] = [0x7d] := by decide
  have hbody : Text.ofBytes (body ++ [0x7d]) = Text.ofBytes body ++ Text.ofBytes [0x7d] :=
    Text.ofBytes_append (by decide) body []
  have hlast : Text.ofBytes [0x7d] = ['\x7d'] := by
    rw [← hclose, Text.ofBytes_bytes]
  rw [blockBytes, List.append_assoc, Text.ofBytes_bytes_append, hclose, hbody, hlast,
    List.append_assoc]
  rfl

end Scriptlet.Command
