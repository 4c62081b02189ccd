import Scriptlet.Store.Image

/-! A database is read back from the text of its file as it was written. A text has its length
before it, so it may hold any character; the number of the rows of the first table stands before
them, and what follows them are the rows of the second. -/

namespace Scriptlet.Store

open Number.Decimal (digitsValue)

theorem digitsValue_ofNat (n : Nat) : digitsValue 0 (Text.ofNat n) = n :=
  Nat.ofDigitChars_ten_toDigits

theorem isDigit_of_mem_ofNat {n : Nat} {c : Char} (h : c ∈ Text.ofNat n) : c.isDigit = true :=
  Nat.isDigit_of_mem_toDigits (by decide) (by decide) h

theorem ofNat_ne_nil (n : Nat) : Text.ofNat n ≠ [] := Nat.toDigits_ne_nil

/-! ### Packed texts -/

theorem unpack_packed (fuel : Nat) (t rest : Text) :
    unpack (fuel + 1) (packed t ++ rest) = (unpack fuel rest).map (t :: ·) := by
  have hsplit : (packed t ++ rest).splitFirst (· == ':') =
      some (Text.ofNat t.length, ':', t ++ '\n' :: rest) := by
    have hdigit : ∀ c ∈ Text.ofNat t.length, (c == ':') = false := by
      intro c hc
      have := isDigit_of_mem_ofNat hc
      cases h : c == ':' with
      | false => rfl
      | true => simp_all
    simpa [packed] using Text.splitFirst_append hdigit (c := ':') rfl (t ++ '\n' :: rest)
  have hne : packed t ++ rest ≠ [] := by simp [packed]
  obtain ⟨a, u, hu⟩ := List.exists_cons_of_ne_nil hne
  rw [hu] at hsplit ⊢
  have hcount :
      ((Text.ofNat t.length).isEmpty || !(Text.ofNat t.length).all Char.isDigit) = false := by
    have hall : (Text.ofNat t.length).all Char.isDigit = true :=
      List.all_eq_true.2 fun _ => isDigit_of_mem_ofNat
    simp [hall, ofNat_ne_nil]
  simp only [unpack, hsplit, Option.bind_eq_bind, Option.bind_some, hcount, digitsValue_ofNat,
    List.drop_left, List.take_left]
  cases unpack fuel rest <;> rfl

theorem unpack_flatMap {fuel : Nat} {ts : List Text} (h : ts.length ≤ fuel) :
    unpack fuel (ts.flatMap packed) = some ts := by
  induction ts generalizing fuel with
  | nil => cases fuel <;> rfl
  | cons t ts ih =>
    obtain ⟨fuel, rfl⟩ : ∃ k, fuel = k + 1 := ⟨fuel - 1, by simp at h; omega⟩
    rw [List.flatMap_cons, unpack_packed, ih (by simpa using h)]
    rfl

theorem length_le_flatMap (ts : List Text) : ts.length ≤ (ts.flatMap packed).length := by
  induction ts with
  | nil => simp
  | cons t ts ih =>
    have hpos : 0 < (packed t).length := List.length_pos_of_mem (a := ':') (by simp [packed])
    rw [List.flatMap_cons, List.length_append, List.length_cons]
    omega

/-! ### Rows -/

namespace Database

theorem bindingRows_flatMap (rows : List BindingRow) (ts : List Text) :
    bindingRows rows.length (rows.flatMap (fun row => [row.name, row.text]) ++ ts) =
      some (rows, ts) := by
  induction rows with
  | nil => rfl
  | cons row rows ih => simp [bindingRows, ih]

theorem versionRows_flatMap (rows : List VersionRow) :
    versionRows (rows.flatMap fun row => [row.name, Text.ofNat row.number, row.text]) =
      some rows := by
  induction rows with
  | nil => rfl
  | cons row rows ih => simp [versionRows, ih, digitsValue_ofNat]

theorem tablesOf?_rows (t : Tables) : tablesOf? (rows t) = some (some t) := by
  simp [rows, tablesOf?, digitsValue_ofNat, bindingRows_flatMap, versionRows_flatMap]

/-- A database is read back as it was written. -/
theorem ofText?_toText (db : Database) : ofText? db.toText = some db := by
  have hunpack : unpack db.toText.length db.toText =
      some (mark :: db.schemaVersion :: (db.tables.map rows).getD []) :=
    unpack_flatMap (length_le_flatMap _)
  have hne : db.toText.isEmpty = false := by simp [toText, packed]
  have htables : tablesOf? ((db.tables.map rows).getD []) = some db.tables := by
    cases db.tables with
    | none => rfl
    | some t => exact tablesOf?_rows t
  rw [ofText?, hne, hunpack]
  simp [htables]

end Database

end Scriptlet.Store
