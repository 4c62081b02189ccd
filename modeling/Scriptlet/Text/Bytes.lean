import Scriptlet.Text.Basic

/-! Texts as rows of bytes. A text has its UTF-8 form, but not every row of bytes is the form of a
text. What is read from outside is decoded: a byte that is part of no character is read as the
replacement character, so that everything after the reading is a text. -/

namespace Scriptlet.Text

/-- The UTF-8 form of a text. -/
def bytes (t : Text) : List UInt8 := t.flatMap String.utf8EncodeChar

/-- What stands for a byte that is part of no character. -/
def replacement : Char := '\ufffd'

/-- The character that a row of bytes begins with. -/
def firstChar? (bs : List UInt8) : Option Char := (bs.take 4).toByteArray.utf8DecodeChar? 0

/-- Decodes a row of bytes, the first `skip` of which belong to a character already read. -/
def decodeFrom : (skip : Nat) → List UInt8 → Text
  | _, [] => []
  | skip + 1, _ :: bs => decodeFrom skip bs
  | 0, b :: bs =>
    match firstChar? (b :: bs) with
    | some c => c :: decodeFrom (c.utf8Size - 1) bs
    | none => replacement :: decodeFrom 0 bs

def ofBytes (bs : List UInt8) : Text := decodeFrom 0 bs

/-- The row of bytes is the UTF-8 form of a text. -/
def IsForm (bs : List UInt8) : Prop := bytes (ofBytes bs) = bs

instance (bs : List UInt8) : Decidable (IsForm bs) :=
  inferInstanceAs (Decidable (bytes (ofBytes bs) = bs))

end Scriptlet.Text
