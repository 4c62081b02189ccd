/-! Text is a list of characters. Scripts, names and messages are all texts, so that every reader
of the language is a recursion on a list. Offsets into a text count bytes of its UTF-8 form. A text
holds characters only: bytes that are the UTF-8 form of no text are decoded where they are read
(`Text.ofBytes`), and never reach a script. -/

namespace Scriptlet

abbrev Text := List Char

namespace Text

/-- Length of the UTF-8 form in bytes. -/
def byteLength (t : Text) : Nat := t.foldr (fun c n => c.utf8Size + n) 0

@[simp] theorem byteLength_nil : byteLength [] = 0 := rfl

@[simp] theorem byteLength_cons (c : Char) (t : Text) :
    byteLength (c :: t) = c.utf8Size + byteLength t := rfl

@[simp] theorem byteLength_append (s t : Text) :
    byteLength (s ++ t) = byteLength s + byteLength t := by
  induction s with
  | nil => simp
  | cons c s ih => simp [ih, Nat.add_assoc]

/-- The text from byte `n` on, if a character starts there. -/
def dropBytes : Nat → Text → Option Text
  | 0, t => some t
  | _ + 1, [] => none
  | n + 1, c :: t => if c.utf8Size ≤ n + 1 then dropBytes (n + 1 - c.utf8Size) t else none

theorem dropBytes_append (t u : Text) : dropBytes (byteLength t) (t ++ u) = some u := by
  induction t with
  | nil => cases u <;> rfl
  | cons c t ih =>
    obtain ⟨n, hn⟩ := Nat.exists_eq_add_one.2 c.utf8Size_pos
    have hlength : byteLength (c :: t) = n + byteLength t + 1 := by
      rw [byteLength_cons, hn]
      omega
    have hrest : n + byteLength t + 1 - c.utf8Size = byteLength t := by omega
    rw [hlength, List.cons_append, dropBytes, if_pos (by omega), hrest, ih]

/-- What follows `start` in a text that begins with it. -/
def after? : (start : Text) → Text → Option Text
  | [], t => some t
  | _ :: _, [] => none
  | a :: s, c :: t => if a = c then after? s t else none

theorem after?_eq_some_iff {s t r : Text} : after? s t = some r ↔ t = s ++ r := by
  induction s generalizing t with
  | nil => simp [after?]
  | cons a s ih =>
    cases t with
    | nil => simp [after?]
    | cons c t => by_cases h : a = c <;> simp [after?, h, ih, eq_comm]

/-- The text up to the first character that satisfies `p`, that character, and what follows. -/
def splitFirst (p : Char → Bool) : Text → Option (Text × Char × Text)
  | [] => none
  | c :: t =>
    if p c then some ([], c, t)
    else (splitFirst p t).map fun (before, found, rest) => (c :: before, found, rest)

theorem splitFirst_eq_none {p : Char → Bool} {t : Text} (h : ∀ c ∈ t, p c = false) :
    splitFirst p t = none := by
  induction t with
  | nil => rfl
  | cons c t ih =>
    simp [splitFirst, h c List.mem_cons_self, ih fun a ha => h a (List.mem_cons_of_mem _ ha)]

theorem splitFirst_append {p : Char → Bool} {t : Text} (h : ∀ c ∈ t, p c = false) {c : Char}
    (hc : p c = true) (u : Text) : splitFirst p (t ++ c :: u) = some (t, c, u) := by
  induction t with
  | nil => simp [splitFirst, hc]
  | cons a t ih =>
    simp [splitFirst, h a List.mem_cons_self, ih fun a ha => h a (List.mem_cons_of_mem _ ha)]

/-- Drops the characters at the end that satisfy `p`. -/
def trimEnd (p : Char → Bool) (t : Text) : Text := (t.reverse.dropWhile p).reverse

/-- Line ends as they arrive from a terminal or a file. -/
def isLineEnd (c : Char) : Bool := c == '\n' || c == '\r'

/-- Lines joined by newlines, without a final one. -/
def lines (ts : List Text) : Text := List.intercalate ['\n'] ts

theorem of_mem_splitOn {sep c : Char} {t line : Text} (h : line ∈ t.splitOn sep) (hc : c ∈ line) :
    c ∈ t ∧ c ≠ sep := by
  rw [List.splitOn] at h
  induction t generalizing line with
  | nil =>
    obtain rfl : line = [] := by simpa using h
    cases hc
  | cons a t ih =>
    rw [List.splitOnP_cons_eq_if_modifyHead] at h
    split at h
    · obtain rfl | h := List.mem_cons.1 h
      · cases hc
      · exact (ih h hc).imp_left (List.mem_cons_of_mem a)
    · next ha =>
      obtain ⟨first, others, hsplit⟩ :=
        List.exists_cons_of_ne_nil (List.splitOnP_ne_nil (· == sep) t)
      rw [hsplit] at h ih
      obtain rfl | h := List.mem_cons.1 h
      · obtain rfl | hc := List.mem_cons.1 hc
        · exact ⟨List.mem_cons_self, by simpa using ha⟩
        · exact (ih List.mem_cons_self hc).imp_left (List.mem_cons_of_mem a)
      · exact (ih (List.mem_cons_of_mem first h) hc).imp_left (List.mem_cons_of_mem a)

theorem not_mem_of_mem_splitOn {sep : Char} {t line : Text} (h : line ∈ t.splitOn sep) :
    sep ∉ line :=
  fun hmem => (of_mem_splitOn h hmem).2 rfl

theorem mem_intercalate {sep : Text} {ts : List Text} {c : Char} (h : c ∈ sep.intercalate ts) :
    c ∈ sep ∨ ∃ t ∈ ts, c ∈ t := by
  induction ts with
  | nil => cases h
  | cons t ts ih =>
    cases ts with
    | nil =>
      rw [List.intercalate_singleton] at h
      exact .inr ⟨t, List.mem_cons_self, h⟩
    | cons t' ts =>
      rw [List.intercalate_cons_cons, List.append_assoc, List.mem_append, List.mem_append] at h
      rcases h with h | h | h
      · exact .inr ⟨t, List.mem_cons_self, h⟩
      · exact .inl h
      · exact (ih h).imp_right fun ⟨u, hu, hc⟩ => ⟨u, List.mem_cons_of_mem t hu, hc⟩

/-- Decimal digits of a natural number. -/
def ofNat (n : Nat) : Text := Nat.toDigits 10 n

def ofInt : Int → Text
  | .ofNat n => ofNat n
  | .negSucc n => '-' :: ofNat (n + 1)

/-- Membership in a list of disjoint ascending ranges. -/
def inRanges : List (Nat × Nat) → Nat → Bool
  | [], _ => false
  | (first, last) :: rest, n => if n < first then false else n ≤ last || inRanges rest n

end Text

end Scriptlet
