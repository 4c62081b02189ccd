import Mathlib.Data.List.Forall2
import Scriptlet.Proofs.Yaml.Token
import Scriptlet.Yaml.Node

/-! Entries of a block mapping, one after another, are read as they were written: the tree of such a
text is a mapping with a scalar for each key and a scalar for each value. If the value of one entry
cannot be read, then there is no tree. -/

namespace Scriptlet.Yaml.Node

open Scanner (IsReady Idle AtValue Pending AtEnd After IsKey)

variable {a : Assembly}

/-! ### Readers -/

theorem peek_apply : peek a = a.scanner.fill >>= fun scanner =>
    .ok (scanner.queue.head?.getD ⟨.streamEnd, scanner.cursor.line⟩, { a with scanner }) := by
  show ((a.scanner.fill >>= fun x => pure (x, a)) >>= fun r => _) = _
  rw [bind_assoc]
  rfl

theorem peek_of_fill {s : Scanner} {t : Token} {q : List Token} (hfill : a.scanner.fill = .ok s)
    (hqueue : s.queue = t :: q) : peek a = .ok (t, { a with scanner := s }) := by
  rw [peek_apply, hfill, ok_bind, hqueue]
  rfl

theorem peek_of_isReady {t : Token} {q : List Token} (h : a.scanner.IsReady)
    (hqueue : a.scanner.queue = t :: q) : peek a = .ok (t, a) :=
  peek_of_fill (Scanner.fillFrom_of_isReady h _) hqueue

theorem complete_apply {α : Type} (x : α) (h : a.scanner.cursor.late = none) :
    complete x a = .ok (x, a) := by
  have hget : (get : Reader Assembly) a = .ok (a, a) := rfl
  show ((get : Reader Assembly) a >>= fun r => _) = _
  simp only [hget, ok_bind, h]
  rfl

/-- A scalar without properties is read. -/
theorem read_scalar {text : Text} {quoted : Bool} {line : Nat} {q : List Token} {fuel : Nat}
    (h : a.scanner.IsReady) (hqueue : a.scanner.queue = ⟨.scalar text quoted, line⟩ :: q)
    (hlate : a.scanner.cursor.late = none) (block indentless : Bool) :
    Node.read (fuel + 1) block indentless a =
      .ok (.scalar (line + 1) (scalarTag quoted text) text,
        { a with scanner := a.scanner.take }) := by
  have hpeek := peek_of_isReady h hqueue
  have hproperties : readProperties a = .ok ({ line }, a) := by
    show (peek a >>= fun r => _) = _
    rw [hpeek, ok_bind]
    rfl
  rw [Node.read]
  show (peek a >>= fun r => _) = _
  rw [hpeek, ok_bind]
  show (readProperties a >>= fun r => _) = _
  rw [hproperties, ok_bind]
  show (peek a >>= fun r => _) = _
  rw [hpeek, ok_bind]
  have hcomplete (node : Node) : complete node { a with scanner := a.scanner.take } =
      .ok (node, { a with scanner := a.scanner.take }) := complete_apply node hlate
  show (complete (Node.scalar (line + 1) (tagOr [] (scalarTag quoted text)) text)
    { a with scanner := a.scanner.take } >>= fun r => _) = _
  rw [hcomplete, ok_bind]
  rfl

/-! ### Entries -/

/-- An entry of a mapping: its key, its value as it is written, and what is read for that. -/
structure Item where
  name : Text
  written : Text
  text : Text
  quoted : Bool

/-- The entry is seen to be one, whether its value can be read or not. -/
structure Item.IsShaped (i : Item) : Prop where
  key : IsKey i.name
  value : ∃ c t, i.written = c :: t ∧ isSpace c = false ∧ isBreak c = false ∧ c ≠ '#'

/-- The entry is written in a form that is read back. -/
structure Item.IsSound (i : Item) : Prop where
  key : IsKey i.name
  value : Value i.written i.text i.quoted

/-- The value of the entry is a block whose first line begins with a tab. -/
structure Item.IsRefused (i : Item) : Prop where
  key : IsKey i.name
  value : ∃ (chomp : Chomp) (rest : Text),
    i.written = '|' :: (chomp.mark ++ '\n' :: ' ' :: ' ' :: '\t' :: rest)

theorem Item.IsSound.isShaped {i : Item} (h : i.IsSound) : i.IsShaped :=
  ⟨h.key, h.value.exists_cons⟩

theorem Item.IsRefused.isShaped {i : Item} (h : i.IsRefused) : i.IsShaped := by
  obtain ⟨chomp, rest, heq⟩ := h.value
  exact ⟨h.key, '|', _, heq, rfl, rfl, by decide⟩

/-- The text of entries, one after another. -/
def Item.renderAll (items : List Item) : Text :=
  items.flatMap fun i => i.name ++ ':' :: ' ' :: (i.written ++ lineEnd i.written)

/-- An entry in the tree. -/
def Item.IsReadAs (i : Item) (entry : Node × Node) : Prop :=
  ∃ line line', entry = (.scalar line (scalarTag false i.name) i.name,
    .scalar line' (scalarTag i.quoted i.text) i.text)

theorem Item.endsGap_renderAll {items : List Item} (h : ∀ i ∈ items, i.IsShaped) :
    endsGap (renderAll items) = true ∧ (renderAll items).head? ≠ some '#' := by
  cases items with
  | nil => exact ⟨rfl, nofun⟩
  | cons i items =>
    obtain ⟨c, t, hname, hspace, hbreak, hne⟩ := (h i List.mem_cons_self).key.exists_cons
    have hcons : renderAll (i :: items) =
        c :: (t ++ ':' :: ' ' :: (i.written ++ lineEnd i.written) ++ renderAll items) := by
      simp [renderAll, hname]
    rw [hcons]
    exact ⟨by simp [endsGap, hspace, hbreak], by simpa using hne '#' (by decide)⟩

/-! ### The tokens of an entry -/

section Tokens

variable {s : Scanner} {i : Item} {items : List Item}

/-- The tokens of a key are at hand, and the scanner is at the value. -/
structure AtKey (s : Scanner) (i : Item) (items : List Item) : Prop where
  atValue : s.AtValue [-1] (i.written ++ (lineEnd i.written ++ Item.renderAll items))
  queue : ∃ line line' line'', s.queue =
    [⟨.key, line⟩, ⟨.scalar i.name false, line'⟩, ⟨.value, line''⟩]

/-- The mapping is at its end. -/
structure AtBlockEnd (s : Scanner) : Prop where
  atEnd : s.AtEnd
  queue : ∃ line line', s.queue = [⟨.blockEnd, line⟩, ⟨.streamEnd, line'⟩]

/-- The next entry is at hand, or the mapping is at its end. -/
def AtItems (s : Scanner) : List Item → Prop
  | [] => AtBlockEnd s
  | i :: items => AtKey s i items

/-- The value is scanned, and the mark of a key was taken. -/
structure InKey (s : Scanner) (i : Item) (items : List Item) : Prop where
  idle : s.Idle 0 [-1]
  after : After (Item.renderAll items) s.cursor s.keyAllowed
  queue : ∃ line line' line'', s.queue =
    [⟨.scalar i.name false, line⟩, ⟨.value, line'⟩, ⟨.scalar i.text i.quoted, line''⟩]

/-- What follows the value was scanned as far as needed, and the key was taken. -/
structure BeforeValue (s : Scanner) (i : Item) (items : List Item) : Prop where
  isReady : s.IsReady
  late : s.cursor.late = none
  queue : ∃ line line' q, s.queue = ⟨.value, line⟩ :: ⟨.scalar i.text i.quoted, line'⟩ :: q
  next : (s.AtEnd ∧ items = [] ∧ ∃ line line', s.queue.drop 2 =
      [⟨.blockEnd, line⟩, ⟨.streamEnd, line'⟩]) ∨
    ∃ i' items', items = i' :: items' ∧ s.candidate.number = s.taken + 2 ∧
      s.Pending 0 [-1] (i'.written ++ (lineEnd i'.written ++ Item.renderAll items')) ∧
        ∃ line, s.queue.drop 2 = [⟨.scalar i'.name false, line⟩]

/-- The value is the next token, and what follows it is the next entry. -/
structure InValue (s : Scanner) (i : Item) (items : List Item) : Prop where
  isReady : s.IsReady
  late : s.cursor.late = none
  queue : ∃ line q, s.queue = ⟨.scalar i.text i.quoted, line⟩ :: q
  next : AtItems s.take items

theorem late_of_after {rest : Text} {cur : Cursor} {keys : Bool} (h : After rest cur keys) :
    cur.late = none := by
  rcases h with ⟨-, _, _, h⟩ | ⟨-, _, _, _, h⟩ <;> exact h.late

theorem AtKey.isReady (h : AtKey s i items) : s.IsReady := by
  obtain ⟨_, _, _, hqueue⟩ := h.queue
  exact ⟨by simp [hqueue, Scanner.ready], h.atValue.idle.firstIsOpen⟩

theorem InKey.isReady (h : InKey s i items) : s.IsReady := by
  obtain ⟨_, _, _, hqueue⟩ := h.queue
  exact ⟨by simp [hqueue, Scanner.ready], h.idle.firstIsOpen⟩

theorem AtKey.fill (h : AtKey s i items) (hi : i.IsSound) (hitems : ∀ i ∈ items, i.IsShaped) :
    Yields s.take.fill (InKey · i items) := by
  obtain ⟨line, line', line'', hqueue⟩ := h.queue
  obtain ⟨hgap, hcomment⟩ := Item.endsGap_renderAll hitems
  obtain ⟨_, _, _, hcursor⟩ := h.atValue.take.cursor
  have htail : s.take.queue = [⟨.scalar i.name false, line'⟩, ⟨.value, line''⟩] := by
    simp [Scanner.take, hqueue]
  have hstep := Scanner.step_value hi.value h.atValue.take.idle h.atValue.take.keyAllowed hcursor
    hgap hcomment
  refine Scanner.fill_step (by simp [htail, Scanner.ready]) h.atValue.take.idle.firstIsOpen
    (hstep.mono ?_) fun s' => InKey.isReady
  rintro s' ⟨hidle, hafter, -, line, hqueue'⟩
  exact ⟨hidle, hafter, _, _, _, by rw [hqueue', htail]; rfl⟩

theorem AtKey.fill_fails (h : AtKey s i items) (hi : i.IsRefused) : Fails s.take.fill := by
  obtain ⟨line, line', line'', hqueue⟩ := h.queue
  obtain ⟨_, _, _, hcursor⟩ := h.atValue.take.cursor
  obtain ⟨chomp, rest, hwritten⟩ := hi.value
  have htail : s.take.queue = [⟨.scalar i.name false, line'⟩, ⟨.value, line''⟩] := by
    simp [Scanner.take, hqueue]
  rw [hwritten, List.cons_append, List.append_assoc] at hcursor
  exact Scanner.fill_fails (by simp [htail, Scanner.ready]) h.atValue.take.idle.firstIsOpen
    (Scanner.step_tab h.atValue.take.idle hcursor)

theorem InKey.fill (h : InKey s i items) (hitems : ∀ i ∈ items, i.IsShaped) :
    Yields s.take.fill (BeforeValue · i items) := by
  obtain ⟨line, line', line'', hqueue⟩ := h.queue
  have htail : s.take.queue = [⟨.value, line'⟩, ⟨.scalar i.text i.quoted, line''⟩] := by
    simp [Scanner.take, hqueue]
  have hafter : After (Item.renderAll items) s.take.cursor s.take.keyAllowed := h.after
  have hshort : s.take.queue.length < Scanner.ready := by simp [htail, Scanner.ready]
  refine Scanner.fill_step hshort h.idle.take.firstIsOpen ?_ fun s' => BeforeValue.isReady
  cases items with
  | nil =>
    refine (Scanner.step_end h.idle.take hafter).mono ?_
    rintro s' ⟨hend, -, _, _, hqueue'⟩
    rw [htail] at hqueue'
    obtain ⟨_, _, hcursor⟩ := hend.cursor
    exact ⟨⟨by simp [hqueue', Scanner.ready], hend.idle.firstIsOpen⟩, hcursor.late,
      ⟨_, _, _, hqueue'⟩, .inl ⟨hend, rfl, _, _, by rw [hqueue']; rfl⟩⟩
  | cons i' items =>
    have hafter : After (i'.name ++ ':' :: ' ' :: (i'.written ++ (lineEnd i'.written ++
        Item.renderAll items))) s.take.cursor s.take.keyAllowed := by
      simpa [Item.renderAll] using hafter
    have hkey := (hitems i' List.mem_cons_self).key
    refine (Scanner.step_key hkey h.idle.take (Int.le_refl 0) hafter).mono ?_
    rintro s' ⟨hpending, htaken, hnumber, _, hqueue'⟩
    rw [Scanner.nextNumber, htail] at hnumber
    rw [htail] at hqueue'
    have hnumber : s'.candidate.number = s'.taken + 2 := by rw [hnumber, htaken]; rfl
    obtain ⟨_, _, _, hcursor⟩ := hpending.cursor
    exact ⟨⟨by simp [hqueue', Scanner.ready], hpending.firstIsOpen (by omega)⟩, hcursor.late,
      ⟨_, _, _, hqueue'⟩, .inr ⟨i', items, rfl, hnumber, hpending, _, by rw [hqueue']; rfl⟩⟩

theorem Item.IsShaped.not_comment (h : i.IsShaped) (rest : Text) :
    ((i.written ++ rest).dropWhile isSpace).head? ≠ some '#' := by
  obtain ⟨c, t, hct, hspace, -, hhash⟩ := h.value
  rw [hct, List.cons_append, List.dropWhile_cons_of_neg (by simp [hspace])]
  simpa using hhash

theorem BeforeValue.fill (h : BeforeValue s i items) (hitems : ∀ i ∈ items, i.IsShaped) :
    Yields s.take.fill (InValue · i items) := by
  obtain ⟨line, line', q, hqueue⟩ := h.queue
  have htail : s.take.queue = ⟨.scalar i.text i.quoted, line'⟩ :: q := by
    simp [Scanner.take, hqueue]
  rcases h.next with ⟨hend, rfl, line₁, line₂, hq⟩ | ⟨i', items', rfl, hnumber, hpending, line₁, hq⟩
  · obtain rfl : q = [⟨.blockEnd, line₁⟩, ⟨.streamEnd, line₂⟩] := by simpa [hqueue] using hq
    have hready : s.take.IsReady := ⟨by simp [htail, Scanner.ready], hend.take.idle.firstIsOpen⟩
    refine ⟨_, Scanner.fillFrom_of_isReady hready _, hready, h.late, ⟨_, _, htail⟩, ?_⟩
    exact ⟨hend.take.take, _, _, by rw [Scanner.take, htail]; rfl⟩
  · obtain rfl : q = [⟨.scalar i'.name false, line₁⟩] := by simpa [hqueue] using hq
    have htaken : s.take.taken = s.taken + 1 := rfl
    have hpending := hpending.take (by omega)
    have hlt : s.take.taken < s.take.candidate.number := by
      rw [htaken]
      show s.taken + 1 < s.candidate.number
      omega
    have hplace : s.take.candidate.number - s.take.taken = 1 := by
      rw [htaken]
      show s.candidate.number - (s.taken + 1) = 1
      omega
    have hshaped := hitems i' List.mem_cons_self
    have hstep := Scanner.step_colon hpending (Nat.le_of_lt hlt) (hshaped.not_comment _)
    refine Scanner.fill_step (by simp [htail, Scanner.ready]) (hpending.firstIsOpen hlt)
      (hstep.mono ?_) fun s' => InValue.isReady
    rintro s' ⟨hvalue, -, line₂, line₃, hqueue'⟩
    rw [hplace, htail] at hqueue'
    have hqueue' : s'.queue = [⟨.scalar i.text i.quoted, line'⟩, ⟨.key, line₂⟩,
      ⟨.scalar i'.name false, line₁⟩, ⟨.value, line₃⟩] := hqueue'
    obtain ⟨_, _, _, hcursor⟩ := hvalue.cursor
    refine ⟨⟨by simp [hqueue', Scanner.ready], hvalue.idle.firstIsOpen⟩, hcursor.late,
      ⟨_, _, hqueue'⟩, ?_⟩
    exact ⟨hvalue.take, _, _, _, by rw [Scanner.take, hqueue']; rfl⟩

end Tokens

/-! ### Mappings -/

/-- An entry is read, and the next one is at hand. -/
theorem readBlockEntries_cons {i : Item} {items : List Item} {fuel start : Nat}
    (h : AtKey a.scanner i items) (hi : i.IsSound) (hitems : ∀ i ∈ items, i.IsShaped) :
    ∃ entry a', i.IsReadAs entry ∧ AtItems a'.scanner items ∧
      readBlockEntries (fuel + 2) start a =
        readBlockEntries (fuel + 1) start a' >>= fun r => .ok (entry :: r.1, r.2) := by
  obtain ⟨_, _, _, hqueue⟩ := h.queue
  have hpeek := peek_of_isReady h.isReady hqueue
  -- The scanner with the value, with what follows the value, and with the next key.
  obtain ⟨s₁, hfill₁, hkey⟩ := h.fill hi hitems
  obtain ⟨s₂, hfill₂, hbefore⟩ := hkey.fill hitems
  obtain ⟨s₃, hfill₃, hvalue⟩ := hbefore.fill hitems
  obtain ⟨line₁, _, _, hqueue₁⟩ := hkey.queue
  obtain ⟨_, _, _, hqueue₂⟩ := hbefore.queue
  obtain ⟨line₃, _, hqueue₃⟩ := hvalue.queue
  have hpeek₁ : peek { a with scanner := a.scanner.take } = .ok (_, { a with scanner := s₁ }) :=
    peek_of_fill hfill₁ hqueue₁
  have hread₁ : Node.read (fuel + 1) true true { a with scanner := s₁ } =
      .ok (_, { a with scanner := s₁.take }) :=
    read_scalar hkey.isReady hqueue₁ (late_of_after hkey.after) true true
  have hpeek₂ : peek { a with scanner := s₁.take } = .ok (_, { a with scanner := s₂ }) :=
    peek_of_fill hfill₂ hqueue₂
  have hpeek₃ : peek { a with scanner := s₂.take } = .ok (_, { a with scanner := s₃ }) :=
    peek_of_fill hfill₃ hqueue₃
  have hread₃ : Node.read (fuel + 1) true true { a with scanner := s₃ } =
      .ok (_, { a with scanner := s₃.take }) :=
    read_scalar hvalue.isReady hqueue₃ hvalue.late true true
  refine ⟨_, { a with scanner := s₃.take }, ⟨line₁ + 1, line₃ + 1, rfl⟩, hvalue.next, ?_⟩
  rw [readBlockEntries]
  show (peek a >>= fun r => _) = _
  rw [hpeek, ok_bind]
  show (peek { a with scanner := a.scanner.take } >>= fun r => _) = _
  rw [hpeek₁, ok_bind]
  show (Node.read (fuel + 1) true true { a with scanner := s₁ } >>= fun r => _) = _
  rw [hread₁, ok_bind]
  show (peek { a with scanner := s₁.take } >>= fun r => _) = _
  rw [hpeek₂, ok_bind]
  show (peek { a with scanner := s₂.take } >>= fun r => _) = _
  rw [hpeek₃, ok_bind]
  show (Node.read (fuel + 1) true true { a with scanner := s₃ } >>= fun r => _) = _
  rw [hread₃, ok_bind]
  rfl

/-- The value of an entry cannot be read. -/
theorem readBlockEntries_refused {i : Item} {items : List Item} {fuel start : Nat}
    (h : AtKey a.scanner i items) (hi : i.IsRefused) :
    Fails (readBlockEntries (fuel + 1) start a) := by
  obtain ⟨_, _, _, hqueue⟩ := h.queue
  have hpeek : Fails (peek { a with scanner := a.scanner.take }) := by
    rw [peek_apply]
    exact (h.fill_fails hi).bind
  rw [readBlockEntries]
  show Fails (peek a >>= fun r => _)
  rw [peek_of_isReady h.isReady hqueue, ok_bind]
  exact hpeek.bind

/-- The scanner is past the mapping. -/
structure AtStreamEnd (s : Scanner) : Prop where
  atEnd : s.AtEnd
  queue : ∃ line line', s.queue = [⟨.streamEnd, line⟩, ⟨.streamEnd, line'⟩]

/-- One more end of the text makes enough tokens. -/
theorem fill_atEnd {s : Scanner} {t t' : Token} (h : s.AtEnd) (hqueue : s.queue = [t, t']) :
    Yields s.fill fun s' => s'.AtEnd ∧ ∃ line, s'.queue = [t, t', ⟨.streamEnd, line⟩] := by
  refine Scanner.fill_step (by simp [hqueue, Scanner.ready]) h.idle.firstIsOpen
    ((Scanner.step_atEnd h).mono ?_) ?_
  · rintro s' ⟨hend, -, line, hqueue'⟩
    exact ⟨hend, line, by rw [hqueue', hqueue]; rfl⟩
  · rintro s' ⟨hend, line, hqueue'⟩
    exact ⟨by simp [hqueue', Scanner.ready], hend.idle.firstIsOpen⟩

theorem readBlockEntries_nil {fuel start : Nat} (h : AtBlockEnd a.scanner) :
    ∃ a', AtStreamEnd a'.scanner ∧ readBlockEntries (fuel + 1) start a = .ok ([], a') := by
  obtain ⟨_, _, hqueue⟩ := h.queue
  obtain ⟨s, hfill, hend, _, hqueue'⟩ := fill_atEnd h.atEnd hqueue
  obtain ⟨_, _, hcursor⟩ := hend.cursor
  have hpeek := peek_of_fill hfill hqueue'
  have hcomplete : complete ([] : List (Node × Node)) { a with scanner := s.take } =
      .ok ([], { a with scanner := s.take }) := complete_apply _ hcursor.late
  refine ⟨{ a with scanner := s.take }, ⟨hend.take, _, _, by rw [Scanner.take, hqueue']; rfl⟩, ?_⟩
  rw [readBlockEntries]
  show (peek a >>= fun r => _) = _
  rw [hpeek, ok_bind]
  exact hcomplete

/-- All entries are read in their order. -/
theorem readBlockEntries_items {items : List Item} {fuel start : Nat}
    (h : AtItems a.scanner items) (hitems : ∀ i ∈ items, i.IsSound) (hfuel : items.length < fuel) :
    Yields (readBlockEntries fuel start a) fun r =>
      List.Forall₂ Item.IsReadAs items r.1 ∧ AtStreamEnd r.2.scanner := by
  induction items generalizing a fuel with
  | nil =>
    obtain ⟨fuel, rfl⟩ := Nat.exists_eq_add_one_of_ne_zero (Nat.ne_zero_of_lt hfuel)
    obtain ⟨a', h', heq⟩ := readBlockEntries_nil h
    exact ⟨_, heq, .nil, h'⟩
  | cons i items ih =>
    obtain ⟨fuel, rfl⟩ : ∃ k, fuel = k + 2 := ⟨fuel - 2, by simp at hfuel; omega⟩
    have hitems' : ∀ i ∈ items, i.IsSound := fun j hj => hitems j (List.mem_cons_of_mem _ hj)
    obtain ⟨entry, a', hentry, h', heq⟩ :=
      readBlockEntries_cons h (hitems i List.mem_cons_self) fun j hj => (hitems' j hj).isShaped
    rw [heq]
    refine (ih h' hitems' (by simpa using hfuel)).bind ?_
    rintro ⟨entries, a''⟩ ⟨hentries, hend⟩
    exact ⟨_, rfl, .cons hentry hentries, hend⟩

/-- The entries up to one that cannot be read are read, and nothing comes of it. -/
theorem readBlockEntries_fails {items : List Item} {fuel start : Nat}
    (h : AtItems a.scanner items) (hitems : ∀ i ∈ items, i.IsSound ∨ i.IsRefused)
    (hrefused : ∃ i ∈ items, i.IsRefused) (hfuel : items.length < fuel) :
    Fails (readBlockEntries fuel start a) := by
  induction items generalizing a fuel with
  | nil =>
    obtain ⟨i, hi, -⟩ := hrefused
    cases hi
  | cons i items ih =>
    obtain ⟨fuel, rfl⟩ : ∃ k, fuel = k + 2 := ⟨fuel - 2, by simp at hfuel; omega⟩
    have hitems' : ∀ i ∈ items, i.IsSound ∨ i.IsRefused :=
      fun j hj => hitems j (List.mem_cons_of_mem _ hj)
    by_cases hi : i.IsRefused
    · exact readBlockEntries_refused h hi
    · have hsound : i.IsSound := (hitems i List.mem_cons_self).resolve_right hi
      obtain ⟨entry, a', -, h', heq⟩ := readBlockEntries_cons h hsound fun j hj =>
        (hitems' j hj).elim Item.IsSound.isShaped Item.IsRefused.isShaped
      have hrefused' : ∃ j ∈ items, j.IsRefused := by
        obtain ⟨j, hj, hbad⟩ := hrefused
        rcases List.mem_cons.1 hj with rfl | hj
        · exact absurd hbad hi
        · exact ⟨j, hj, hbad⟩
      rw [heq]
      exact (ih h' hitems' hrefused' (by simpa using hfuel)).bind

/-- A mapping is read as its entries are. -/
theorem read_mapping {line fuel : Nat} {q : List Token} (h : a.scanner.IsReady)
    (hqueue : a.scanner.queue = ⟨.mappingStart, line⟩ :: q) (hlate : a.scanner.cursor.late = none) :
    Node.read (fuel + 1) true false a =
      readBlockEntries fuel line { a with scanner := a.scanner.take } >>= fun r =>
        .ok (.mapping (line + 1) (tagOr [] "!!map".toList) r.1, r.2) := by
  have hpeek := peek_of_isReady h hqueue
  have hproperties : readProperties a = .ok ({ line }, a) := by
    show (peek a >>= fun r => _) = _
    rw [hpeek, ok_bind]
    rfl
  have hcomplete : complete () { a with scanner := a.scanner.take } =
      .ok ((), { a with scanner := a.scanner.take }) := complete_apply _ hlate
  rw [Node.read]
  show (peek a >>= fun r => _) = _
  rw [hpeek, ok_bind]
  show (readProperties a >>= fun r => _) = _
  rw [hproperties, ok_bind]
  show (peek a >>= fun r => _) = _
  rw [hpeek, ok_bind]
  show (complete () { a with scanner := a.scanner.take } >>= fun r => _) = _
  rw [hcomplete, ok_bind]
  rfl

/-! ### The document -/

/-- The scanner at the start of a text. -/
structure AtStart (s : Scanner) (rest : Text) : Prop where
  idle : s.Idle (-1) []
  after : After rest s.cursor s.keyAllowed
  queue : s.queue = [⟨.streamStart, 0⟩]

/-- The tokens of the first key are at hand, with those before it. -/
structure AtFirst (s : Scanner) (i : Item) (items : List Item) : Prop where
  atValue : s.AtValue [-1] (i.written ++ (lineEnd i.written ++ Item.renderAll items))
  queue : ∃ line line₁ line₂ line₃, s.queue = [⟨.streamStart, 0⟩, ⟨.mappingStart, line⟩,
    ⟨.key, line₁⟩, ⟨.scalar i.name false, line₂⟩, ⟨.value, line₃⟩]

theorem start_of_clean {t : Text} (h : ∀ c ∈ t, isClean c = true) :
    Yields (Scanner.start t) fun s => AtStart s t := by
  have hallowed : ∀ c ∈ t, isAllowed c = true := fun c hc => by
    have hc := h c hc
    simp only [isClean, Bool.and_eq_true] at hc
    exact hc.1
  have hhead : t.head? ≠ some byteOrderMark := fun heq => by
    have hc := h _ (List.mem_of_head? heq)
    simp [isClean] at hc
  let cur : Cursor := { rest := t, left := t.length, window := t }
  obtain ⟨n, hload⟩ := cur.load_of_all hallowed pieceSize
  have hstart : Cursor.start t = .ok { cur with loaded := n } := by
    rw [Cursor.start, if_neg (by simpa using hhead)]
    exact hload
  rw [Scanner.start, hstart, ok_bind]
  exact ⟨_, rfl, ⟨rfl, rfl, rfl, rfl, rfl⟩,
    .inl ⟨rfl, 0, 0, rfl, rfl, rfl, rfl, rfl, h, hhead, rfl⟩, rfl⟩

/-- The first key is scanned up to its colon, which opens the mapping before it. -/
theorem AtStart.fill {s : Scanner} {i : Item} {items : List Item}
    (h : AtStart s (Item.renderAll (i :: items))) (hi : i.IsShaped) :
    Yields s.fill fun s' => AtFirst s' i items := by
  have hafter : After (i.name ++ ':' :: ' ' ::
      (i.written ++ (lineEnd i.written ++ Item.renderAll items))) s.cursor s.keyAllowed := by
    simpa [Item.renderAll] using h.after
  refine Scanner.fillFrom_step (by simp [h.queue, Scanner.ready]) h.idle.firstIsOpen
    (Scanner.step_key hi.key h.idle (by decide) hafter) ?_
  rintro s₁ ⟨hpending, htaken, hnumber, line, hqueue⟩
  have hnumber : s₁.candidate.number = s₁.taken + 1 := by
    rw [hnumber, htaken, Scanner.nextNumber, h.queue]
    rfl
  rw [h.queue] at hqueue
  refine Scanner.fillFrom_step (by simp [hqueue, Scanner.ready])
    (hpending.firstIsOpen (by omega))
    (Scanner.step_colon_first hpending (by omega) (hi.not_comment _)) ?_
  rintro s₂ ⟨hvalue, -, line₁, line₂, line₃, hqueue₂⟩
  rw [hqueue, hnumber, Nat.add_sub_cancel_left] at hqueue₂
  have hqueue₂ : s₂.queue = [⟨.streamStart, 0⟩, ⟨.mappingStart, line₂⟩, ⟨.key, line₁⟩,
      ⟨.scalar i.name false, line⟩, ⟨.value, line₃⟩] := hqueue₂
  have hready : s₂.IsReady := ⟨by simp [hqueue₂, Scanner.ready], hvalue.idle.firstIsOpen⟩
  exact ⟨s₂, Scanner.fillFrom_of_isReady hready _, hvalue, _, _, _, _, hqueue₂⟩

/-- Before a mapping there are no directives, and the usual handles are set. -/
theorem readDirectives_mapping {line fuel : Nat} {q : List Token} (h : a.scanner.IsReady)
    (hqueue : a.scanner.queue = ⟨.mappingStart, line⟩ :: q) :
    readDirectives (fuel + 1) false a =
      .ok ((), { a with handles := a.handles ++ usualHandles }) := by
  rw [readDirectives]
  show (peek a >>= fun r => _) = _
  rw [peek_of_isReady h hqueue, ok_bind]
  rfl

/-- The root is the mapping of the entries, after which the text must end as well. -/
theorem readRoot_eq {i : Item} {items : List Item} {fuel : Nat}
    (h : AtStart a.scanner (Item.renderAll (i :: items))) (hi : i.IsShaped) :
    ∃ a' line tag, AtItems a'.scanner (i :: items) ∧ readRoot (fuel + 1) a =
      readBlockEntries fuel line a' >>= fun r => peek r.2 >>= fun p =>
        complete (some (.mapping (line + 1) tag r.1)) p.2 := by
  obtain ⟨s, hfill, hfirst⟩ := h.fill hi
  obtain ⟨line, line₁, line₂, line₃, hqueue⟩ := hfirst.queue
  obtain ⟨_, _, _, hcursor⟩ := hfirst.atValue.cursor
  have hlate := hcursor.late
  have hqueue₁ : s.take.queue = [⟨.mappingStart, line⟩, ⟨.key, line₁⟩,
      ⟨.scalar i.name false, line₂⟩, ⟨.value, line₃⟩] := by
    rw [Scanner.take, hqueue]
    rfl
  have hready : s.take.IsReady :=
    ⟨by simp [hqueue₁, Scanner.ready], hfirst.atValue.take.idle.firstIsOpen⟩
  -- the assembly after the mark of the stream, and after the directives that are not there
  let a₁ : Assembly := { a with scanner := s.take }
  let a₂ : Assembly := { a₁ with handles := a.handles ++ usualHandles }
  have hcomplete₁ : complete () a₁ = .ok ((), a₁) := complete_apply _ hlate
  have hcomplete₂ : complete () a₂ = .ok ((), a₂) := complete_apply _ hlate
  have hdirectives : readDirectives (fuel + 1) false a₁ = .ok ((), a₂) :=
    readDirectives_mapping hready hqueue₁
  refine ⟨{ a₂ with scanner := s.take.take }, line, tagOr [] "!!map".toList,
    ⟨hfirst.atValue.take.take, line₁, line₂, line₃, by rw [Scanner.take, hqueue₁]; rfl⟩, ?_⟩
  rw [readRoot]
  show (peek a >>= fun r => _) = _
  rw [peek_of_fill hfill hqueue, ok_bind]
  show (complete () a₁ >>= fun r => _) = _
  rw [hcomplete₁, ok_bind]
  show (peek a₁ >>= fun r => _) = _
  rw [peek_of_isReady (a := a₁) hready hqueue₁, ok_bind]
  show (readDirectives (fuel + 1) false a₁ >>= fun r => _) = _
  rw [hdirectives, ok_bind]
  show (complete () a₂ >>= fun r => _) = _
  rw [hcomplete₂, ok_bind]
  show (Node.read (fuel + 1) true false a₂ >>= fun r => _) = _
  rw [read_mapping (a := a₂) hready hqueue₁ hlate, bind_assoc]
  rfl

/-- After the mapping the text ends. -/
theorem complete_atStreamEnd {root : Option Node} (h : AtStreamEnd a.scanner) :
    Yields (peek a >>= fun p => complete root p.2) fun r => r.1 = root := by
  obtain ⟨_, _, hqueue⟩ := h.queue
  obtain ⟨s, hfill, hend, _, hqueue'⟩ := fill_atEnd h.atEnd hqueue
  obtain ⟨_, _, hcursor⟩ := hend.cursor
  have hcomplete : complete root { a with scanner := s } = .ok (root, { a with scanner := s }) :=
    complete_apply _ hcursor.late
  rw [peek_of_fill hfill hqueue', ok_bind, hcomplete]
  exact ⟨_, rfl, rfl⟩

theorem Item.length_le_renderAll (items : List Item) :
    items.length ≤ (Item.renderAll items).length := by
  induction items with
  | nil => exact Nat.le_refl 0
  | cons i items ih =>
    simp only [renderAll, List.flatMap_cons, List.length_append, List.length_cons] at ih ⊢
    omega

section Document

variable {items : List Item}

theorem ofText?_apply (hne : items ≠ []) (hitems : ∀ i ∈ items, i.IsShaped)
    (hclean : ∀ c ∈ Item.renderAll items, isClean c = true) :
    ∃ a fuel line tag, AtItems a.scanner items ∧ items.length < fuel ∧
      Document.ofText? (Item.renderAll items) =
        readBlockEntries fuel line a >>= fun r => peek r.2 >>= fun p =>
          complete (some (.mapping (line + 1) tag r.1)) p.2 >>= fun q =>
            .ok (q.1.map fun root => ⟨root, q.2.anchored⟩) := by
  obtain ⟨i, items, rfl⟩ := List.exists_cons_of_ne_nil hne
  obtain ⟨s, hstart, hs⟩ := start_of_clean hclean
  have hlength := Item.length_le_renderAll (i :: items)
  obtain ⟨a, line, tag, ha, hroot⟩ :=
    readRoot_eq (a := { scanner := s }) hs (hitems i List.mem_cons_self)
  refine ⟨a, 8 * (Item.renderAll (i :: items)).length + 63, line, tag, ha, by omega, ?_⟩
  rw [Document.ofText?, hstart, ok_bind]
  show (readRoot _ _ >>= fun r => _) = _
  rw [hroot]
  simp only [bind_assoc]
  rfl

/-- What is written entry by entry is read back entry by entry. -/
theorem ofText?_renderAll (hne : items ≠ []) (hitems : ∀ i ∈ items, i.IsSound)
    (hclean : ∀ c ∈ Item.renderAll items, isClean c = true) :
    ∃ document line tag entries,
      Document.ofText? (Item.renderAll items) = .ok (some document) ∧
        document.root = .mapping line tag entries ∧
          List.Forall₂ Item.IsReadAs items entries := by
  obtain ⟨a, fuel, line, tag, ha, hfuel, heq⟩ :=
    ofText?_apply hne (fun i hi => (hitems i hi).isShaped) hclean
  obtain ⟨⟨entries, a'⟩, hread, hentries, hend⟩ := readBlockEntries_items ha hitems hfuel
  obtain ⟨⟨root, a''⟩, hcomplete, rfl⟩ := complete_atStreamEnd hend
  refine ⟨⟨.mapping (line + 1) tag entries, a''.anchored⟩, _, tag, entries, ?_, rfl, hentries⟩
  rw [heq, hread, ok_bind, ← bind_assoc, hcomplete, ok_bind]
  rfl

/-- If one of the entries cannot be read, then the text cannot. -/
theorem ofText?_fails (hitems : ∀ i ∈ items, i.IsSound ∨ i.IsRefused)
    (hrefused : ∃ i ∈ items, i.IsRefused)
    (hclean : ∀ c ∈ Item.renderAll items, isClean c = true) :
    Fails (Document.ofText? (Item.renderAll items)) := by
  have hne : items ≠ [] := by
    obtain ⟨i, hi, -⟩ := hrefused
    exact List.ne_nil_of_mem hi
  obtain ⟨a, fuel, line, tag, ha, hfuel, heq⟩ := ofText?_apply hne
    (fun i hi => (hitems i hi).elim Item.IsSound.isShaped Item.IsRefused.isShaped) hclean
  rw [heq]
  exact (readBlockEntries_fails ha hitems hrefused hfuel).bind

end Document

end Scriptlet.Yaml.Node
