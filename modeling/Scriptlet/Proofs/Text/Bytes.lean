import Mathlib.Data.List.Basic
import Scriptlet.Text.Bytes

/-! Decoding undoes encoding, and a row of bytes has the bytes of its decoding exactly if it is
valid UTF-8. Only the first byte of a character can be below 128, so a row can be cut before such a
byte, and the parts decode on their own. -/

namespace Scriptlet.Text

@[simp] theorem bytes_nil : bytes [] = [] := rfl

@[simp] theorem bytes_cons (c : Char) (t : Text) :
    bytes (c :: t) = String.utf8EncodeChar c ++ bytes t := rfl

@[simp] theorem bytes_append (s t : Text) : bytes (s ++ t) = bytes s ++ bytes t :=
  List.flatMap_append

theorem bytes_flatten (ts : List Text) : (ts.map bytes).flatten = bytes ts.flatten := by
  induction ts with
  | nil => rfl
  | cons t ts ih => rw [List.map_cons, List.flatten_cons, List.flatten_cons, bytes_append, ih]

theorem bytes_eq_nil_iff {t : Text} : bytes t = [] ↔ t = [] := by
  cases t with
  | nil => simp
  | cons c t => simp [String.utf8EncodeChar_ne_nil]

/-! ### The first character -/

theorem firstChar?_encode_append (c : Char) (bs : List UInt8) :
    firstChar? (String.utf8EncodeChar c ++ bs) = some c := by
  have hlength : (String.utf8EncodeChar c).length ≤ 4 := by
    rw [String.length_utf8EncodeChar]
    exact c.utf8Size_le_four
  rw [firstChar?, List.take_append, List.take_of_length_le hlength, List.toByteArray_append]
  exact ByteArray.utf8DecodeChar?_utf8EncodeChar_append

theorem exists_of_firstChar? {bs : List UInt8} {c : Char} (h : firstChar? bs = some c) :
    ∃ rest, bs = String.utf8EncodeChar c ++ rest := by
  have hdecoded := ByteArray.eq_of_utf8DecodeChar?_eq_some h
  have hlist := congrArg (fun b : ByteArray => b.data.toList) hdecoded
  simp only [List.data_toByteArray, ByteArray.data_append, Array.toList_append] at hlist
  generalize Array.toList _ = more at hlist
  refine ⟨more ++ bs.drop 4, ?_⟩
  rw [← List.append_assoc, ← hlist, List.take_append_drop]

/-- After the first byte of a character come no bytes below 128. -/
theorem le_of_mem_tail_encode {c : Char} {b : UInt8} (h : b ∈ (String.utf8EncodeChar c).tail) :
    128 ≤ b.toNat := by
  unfold String.utf8EncodeChar at h
  dsimp only at h
  split_ifs at h
  all_goals
    simp only [List.tail_cons, List.mem_cons, List.not_mem_nil, or_false] at h
  all_goals
    rcases h with rfl | rfl | rfl
    all_goals
      rw [UInt8.toNat_ofNat']
      omega

/-- A row of bytes can be cut before a byte below 128. -/
theorem firstChar?_append {bs : List UInt8} (hne : bs ≠ []) {a : UInt8} (ha : a.toNat < 128)
    (rest : List UInt8) : firstChar? (bs ++ a :: rest) = firstChar? bs := by
  refine Option.ext fun c => ⟨fun h => ?_, fun h => ?_⟩
  · obtain ⟨rest', hrest⟩ := exists_of_firstChar? h
    rcases List.append_eq_append_iff.1 hrest with ⟨more, hform, hmore⟩ | ⟨more, rfl, -⟩
    · obtain ⟨b, bs', rfl⟩ := List.exists_cons_of_ne_nil hne
      cases more with
      | nil =>
        have hfirst := firstChar?_encode_append c []
        rwa [hform, List.append_nil, List.append_nil] at hfirst
      | cons d more =>
        obtain ⟨rfl, -⟩ := List.cons.inj hmore
        have hmem : a ∈ (String.utf8EncodeChar c).tail := by simp [hform]
        have := le_of_mem_tail_encode hmem
        omega
    · exact firstChar?_encode_append c more
  · obtain ⟨rest', rfl⟩ := exists_of_firstChar? h
    rw [List.append_assoc]
    exact firstChar?_encode_append c _

/-! ### Decoding -/

theorem decodeFrom_eq (skip : Nat) (bs : List UInt8) :
    decodeFrom skip bs = ofBytes (bs.drop skip) := by
  induction bs generalizing skip with
  | nil => cases skip <;> rfl
  | cons b bs ih =>
    cases skip with
    | zero => rfl
    | succ skip => exact ih skip

theorem ofBytes_encode_append (c : Char) (bs : List UInt8) :
    ofBytes (String.utf8EncodeChar c ++ bs) = c :: ofBytes bs := by
  have hfirst := firstChar?_encode_append c bs
  have hlength := String.length_utf8EncodeChar c
  cases hform : String.utf8EncodeChar c with
  | nil => exact absurd hform String.utf8EncodeChar_ne_nil
  | cons b form =>
    rw [hform, List.length_cons] at hlength
    rw [hform, List.cons_append] at hfirst
    have hskip : c.utf8Size - 1 = form.length := by omega
    rw [List.cons_append, ofBytes, decodeFrom, hfirst]
    dsimp only
    rw [decodeFrom_eq, hskip, List.drop_left]

theorem ofBytes_cons_of_none {b : UInt8} {bs : List UInt8} (h : firstChar? (b :: bs) = none) :
    ofBytes (b :: bs) = replacement :: ofBytes bs := by
  rw [ofBytes, decodeFrom, h]
  rfl

/-- What begins with the form of a text decodes to that text and the decoding of the rest. -/
theorem ofBytes_bytes_append (t : Text) (bs : List UInt8) :
    ofBytes (bytes t ++ bs) = t ++ ofBytes bs := by
  induction t with
  | nil => rfl
  | cons c t ih => rw [bytes_cons, List.append_assoc, ofBytes_encode_append, ih, List.cons_append]

@[simp] theorem ofBytes_bytes (t : Text) : ofBytes (bytes t) = t := by
  simpa [ofBytes, decodeFrom] using ofBytes_bytes_append t []

theorem isForm_bytes (t : Text) : IsForm (bytes t) := by
  rw [IsForm, ofBytes_bytes]

theorem isForm_iff_exists {bs : List UInt8} : IsForm bs ↔ ∃ t, bs = bytes t := by
  constructor
  · intro h
    exact ⟨ofBytes bs, h.symm⟩
  · rintro ⟨t, rfl⟩
    exact isForm_bytes t

/-- The forms of texts are the rows of bytes that are valid UTF-8. -/
theorem isForm_iff_isValidUTF8 {bs : List UInt8} : IsForm bs ↔ bs.toByteArray.IsValidUTF8 := by
  rw [isForm_iff_exists]
  constructor
  · rintro ⟨t, rfl⟩
    exact ⟨t, rfl⟩
  · rintro ⟨t, ht⟩
    refine ⟨t, ?_⟩
    have hlist := congrArg (fun b : ByteArray => b.data.toList) ht
    simpa [List.utf8Encode, List.data_toByteArray, bytes] using hlist

/-- The parts before and after a byte below 128 decode on their own. -/
theorem ofBytes_append {a : UInt8} (ha : a.toNat < 128) (bs rest : List UInt8) :
    ofBytes (bs ++ a :: rest) = ofBytes bs ++ ofBytes (a :: rest) := by
  induction hn : bs.length using Nat.strongRecOn generalizing bs with
  | ind n ih =>
    cases bs with
    | nil => rfl
    | cons b bs =>
      have hcut := firstChar?_append (List.cons_ne_nil b bs) ha rest
      cases hfirst : firstChar? (b :: bs) with
      | none =>
        rw [hfirst, List.cons_append] at hcut
        rw [List.cons_append, ofBytes_cons_of_none hcut, ofBytes_cons_of_none hfirst,
          ih bs.length (by simp [← hn]) bs rfl, List.cons_append]
      | some c =>
        obtain ⟨more, hmore⟩ := exists_of_firstChar? hfirst
        have hlt : more.length < n := by
          have hpos := List.length_pos_iff.2 (String.utf8EncodeChar_ne_nil (c := c))
          rw [← hn, hmore, List.length_append]
          omega
        rw [hmore, List.append_assoc, ofBytes_encode_append, ofBytes_encode_append,
          ih more.length hlt more rfl, List.cons_append]

end Scriptlet.Text
