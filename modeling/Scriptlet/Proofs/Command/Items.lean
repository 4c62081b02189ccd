import Scriptlet.Proofs.Command.Bytes
import Scriptlet.Proofs.Command.Grammar

/-! The items of a command. A command is cut into operands and symbols in turn, and written one
after the other the items are the command again, also where its brackets and quotes do not match.
So the split of a command can be found from the items alone: a pass from the left looks up every
second item in the table of operators and keeps the place to split at. No symbol it meets is
unknown, and it ends at the operator that the recursion over the chain chooses. A command of bytes
is decoded first, so its items make it up only if it is the form of a text. -/

namespace Scriptlet

namespace Command

/-! ### Operands and symbols in turn -/

namespace Chain

theorem items_cons (first second : Text) (op : Operator) (rest : List (Operator × Text)) :
    (⟨first, (op, second) :: rest⟩ : Chain).items =
      first :: op.symbol :: (⟨second, rest⟩ : Chain).items := rfl

theorem length_items (chain : Chain) : chain.items.length = 2 * chain.rest.length + 1 := by
  obtain ⟨first, rest⟩ := chain
  induction rest generalizing first with
  | nil => rfl
  | cons item rest ih =>
    rw [items_cons, List.length_cons, List.length_cons, ih item.2, List.length_cons]
    rfl

theorem flatten_items (chain : Chain) : chain.items.flatten = chain.text := by
  obtain ⟨first, rest⟩ := chain
  induction rest generalizing first with
  | nil => rfl
  | cons item rest ih =>
    rw [items_cons, List.flatten_cons, List.flatten_cons, ih]
    simp [text]

/-- At the odd places stand the symbols of the operators, in their order. -/
theorem getElem?_items (chain : Chain) (i : Nat) :
    chain.items[2 * i + 1]? = chain.rest[i]?.map (·.1.symbol) := by
  obtain ⟨first, rest⟩ := chain
  induction rest generalizing first i with
  | nil => simp [items]
  | cons item rest ih =>
    rw [items_cons]
    cases i with
    | zero => rfl
    | succ i => exact ih i item.2

theorem ne_nil_of_mem_items {chain : Chain} (h : ∀ t ∈ chain.operands, t ≠ []) :
    ∀ item ∈ chain.items, item ≠ [] := by
  obtain ⟨first, rest⟩ := chain
  induction rest generalizing first with
  | nil => exact h
  | cons item rest ih =>
    obtain ⟨hfirst, hrest⟩ := List.forall_mem_cons.1 h
    rw [items_cons, List.forall_mem_cons, List.forall_mem_cons]
    refine ⟨hfirst, ?_, ih item.2 hrest⟩
    cases item.1 <;> exact List.cons_ne_nil _ _

theorem text_ne_nil {chain : Chain} (h : ∀ t ∈ chain.operands, t ≠ []) : chain.text ≠ [] :=
  List.append_ne_nil_of_left_ne_nil (h chain.first List.mem_cons_self) _

end Chain

/-! ### One pass over the items -/

namespace Equation

/-- The place to split at after one more operator and operand, when `before` is all that stands in
front of the operator. -/
def next (before : Text) (best : Option Equation) (op : Operator) (operand : Text) : Equation :=
  match best with
  | none => ⟨before, op, operand⟩
  | some e =>
    if op.binding < e.op.binding || (op.binding == e.op.binding && !op.groupsRight) then
      ⟨before, op, operand⟩
    else { e with right := e.right ++ op.symbol ++ operand }

/-- Goes on over symbols and operands in turn. A symbol that is not in the table ends the pass. -/
def chooseFrom (before : Text) (best : Option Equation) : List Text → Except Text (Option Equation)
  | symbol :: operand :: items =>
    match Operator.ofSymbol? symbol with
    | some op => chooseFrom (before ++ symbol ++ operand) (some (next before best op operand)) items
    | none => .error symbol
  | _ => .ok best

/-- Splits a command of which only the items are known, or tells an unknown symbol. -/
def ofItems : List Text → Except Text (Option Equation)
  | [] => .ok none
  | first :: items => chooseFrom first none items

example : ofItems [['a'], ['='], ['b']] = .error ['='] := rfl

/-- One step of the pass: an operator more at the end of a chain. -/
theorem loosest_concat (chain : Chain) (op : Operator) (operand : Text) :
    loosest chain.first (chain.rest ++ [(op, operand)]) =
      some (next chain.text (loosest chain.first chain.rest) op operand) := by
  have htake (h : ∀ other ∈ chain.rest.map (·.1), Looser op other false) :
      loosest chain.first (chain.rest ++ [(op, operand)]) = some ⟨chain.text, op, operand⟩ := by
    have hjoin := loosest_join (b := ⟨operand, []⟩) h (by simp)
    simpa [Chain.join, Chain.text] using hjoin
  cases hsplit : loosest chain.first chain.rest with
  | none => exact htake (by simp [loosest_eq_none hsplit])
  | some e =>
    obtain ⟨a, b, hchain, hleft, hright, ha, hb⟩ := exists_join_of_loosest hsplit
    obtain rfl : chain = a.join e.op b := hchain
    rw [next]
    split
    · next hlooser =>
      apply htake
      intro other hother
      exact (looser_iff.1 hlooser).of_binding_le (binding_le_of_join ha hb other hother)
    · next hlooser =>
      have hend : ∀ other ∈ (b.join op ⟨operand, []⟩).rest.map (·.1), Looser e.op other true := by
        intro other hother
        simp only [Chain.join, List.map_append, List.mem_append] at hother
        rcases hother with hother | hother
        · exact hb other hother
        · obtain rfl : other = op := by simpa using hother
          exact looser_of_not_looser (hlooser ∘ looser_iff.2)
      have hjoin := loosest_join ha hend
      rw [Chain.text_join, ← hleft, ← hright] at hjoin
      simpa [Chain.join, Chain.text] using hjoin

/-- The pass keeps, along the items, the split of what it has gone over. -/
theorem chooseFrom_items (chain : Chain) (last : Text) (rest : List (Operator × Text)) :
    chooseFrom chain.text (loosest chain.first chain.rest) (⟨last, rest⟩ : Chain).items.tail =
      .ok (loosest chain.first (chain.rest ++ rest)) := by
  induction rest generalizing chain last with
  | nil => simp [chooseFrom, Chain.items]
  | cons item rest ih =>
    obtain ⟨op, operand⟩ := item
    let longer : Chain := chain.join op ⟨operand, []⟩
    have htext : longer.text = chain.text ++ op.symbol ++ operand := by
      simp [longer, Chain.text, Chain.join]
    have hsplit : loosest longer.first longer.rest =
        some (next chain.text (loosest chain.first chain.rest) op operand) :=
      loosest_concat chain op operand
    have hrest : longer.rest ++ rest = chain.rest ++ (op, operand) :: rest := by
      simp [longer, Chain.join]
    calc
      chooseFrom chain.text (loosest chain.first chain.rest)
          (⟨last, (op, operand) :: rest⟩ : Chain).items.tail
        = chooseFrom longer.text (loosest longer.first longer.rest)
            (⟨operand, rest⟩ : Chain).items.tail := by
          rw [htext, hsplit, Chain.items_cons, List.tail_cons, Chain.items, chooseFrom,
            Operator.ofSymbol?_symbol]
          rfl
      _ = .ok (loosest chain.first (chain.rest ++ (op, operand) :: rest)) := by
          rw [ih, hrest]
          rfl

theorem ofItems_items (chain : Chain) :
    ofItems chain.items = .ok (loosest chain.first chain.rest) := by
  have hchoose := chooseFrom_items ⟨chain.first, []⟩ chain.first chain.rest
  have htext : (⟨chain.first, []⟩ : Chain).text = chain.first := List.append_nil _
  rw [htext] at hchoose
  exact hchoose

theorem isSome_loosest_iff {first : Text} {rest : List (Operator × Text)} :
    (loosest first rest).isSome ↔ rest ≠ [] := by
  constructor
  · rintro h rfl
    cases h
  · intro h
    rw [Option.isSome_iff_ne_none]
    exact fun hnone => h (loosest_eq_none hnone)

end Equation

/-! ### What the items and the split keep -/

theorem items_of_chain? {t : Text} {chain : Chain} (h : chain? t = some chain) :
    (∀ item ∈ chain.items, item ≠ []) ∧ chain.items.length % 2 = 1 ∧ chain.items.flatten = t ∧
      Equation.ofItems chain.items = .ok (Equation.ofText? t) := by
  obtain ⟨hscan, hne⟩ := chain?_eq_some_iff.1 h
  refine ⟨Chain.ne_nil_of_mem_items hne, ?_, ?_, ?_⟩
  · rw [Chain.length_items]
    omega
  · rw [Chain.flatten_items, ← hscan, text_scan]
  · rw [Equation.ofText?_eq_of_chain? h, Equation.ofItems_items]

theorem Chain.exists_symbol_of_odd {chain : Chain} {i : Nat} {item : Text}
    (hitem : chain.items[i]? = some item) (hodd : i % 2 = 1) :
    ∃ op : Operator, item = op.symbol := by
  obtain ⟨k, rfl⟩ : ∃ k, i = 2 * k + 1 := ⟨i / 2, by omega⟩
  rw [Chain.getElem?_items] at hitem
  obtain ⟨⟨op, operand⟩, -, hsymbol⟩ := Option.map_eq_some_iff.1 hitem
  exact ⟨op, hsymbol.symm⟩

theorem isSome_ofText?_iff {t : Text} :
    (Equation.ofText? t).isSome ↔ ∃ chain, chain? t = some chain ∧ 3 ≤ chain.items.length := by
  cases hchain : chain? t with
  | none => simp [Equation.ofText?, hchain]
  | some chain =>
    have hlength : 3 ≤ chain.items.length ↔ chain.rest ≠ [] := by
      rw [Chain.length_items, ← List.length_pos_iff]
      omega
    rw [Equation.ofText?_eq_of_chain? hchain, Equation.isSome_loosest_iff, ← hlength]
    simp

theorem sides_ne_nil_of_ofText? {t : Text} {e : Equation} (h : Equation.ofText? t = some e) :
    e.left ≠ [] ∧ e.right ≠ [] := by
  obtain ⟨chain, hchain, hsplit⟩ := Option.bind_eq_some_iff.1 h
  obtain ⟨-, hne⟩ := chain?_eq_some_iff.1 hchain
  obtain ⟨a, b, hjoin, hleft, hright, -, -⟩ := Equation.exists_join_of_loosest hsplit
  obtain rfl : chain = a.join e.op b := hjoin
  rw [Chain.operands_join] at hne
  constructor
  · rw [hleft]
    exact Chain.text_ne_nil fun u hu => hne u (List.mem_append_left _ hu)
  · rw [hright]
    exact Chain.text_ne_nil fun u hu => hne u (List.mem_append_right _ hu)

/-! ### Commands as rows of bytes -/

/-- The items of a command of bytes. -/
def itemsOfBytes? (s : List UInt8) : Option (List (List UInt8)) :=
  (chain? (Text.ofBytes s)).map fun chain => chain.items.map Text.bytes

/-- The split of a command of bytes: the operator and what stands on its two sides. -/
def splitOfBytes? (s : List UInt8) : Option (List UInt8 × Operator × List UInt8) :=
  (Equation.ofText? (Text.ofBytes s)).map fun e => (Text.bytes e.left, e.op, Text.bytes e.right)

/-- A command of bytes is cut and split as the text that it decodes to. Its items are nonempty, odd
in number, and those at odd places are in the table of operators; the split that a pass over them
finds, with every symbol looked up, is that of the command. There is a split exactly if there are
three items or more, and its two sides are nonempty. Items and split alike make up the form of the
decoded text, and so the command itself exactly if it is the form of a text. -/
theorem items_lossless (s : List UInt8) :
    (∀ items, itemsOfBytes? s = some items →
      (∀ item ∈ items, item ≠ []) ∧ items.length % 2 = 1 ∧
      items.flatten = Text.bytes (Text.ofBytes s) ∧ (items.flatten = s ↔ Text.IsForm s) ∧
      (∀ i item, items[i]? = some item → i % 2 = 1 →
        ∃ op, Operator.ofSymbol? (Text.ofBytes item) = some op ∧ item = Text.bytes op.symbol) ∧
      Equation.ofItems (items.map Text.ofBytes) = .ok (Equation.ofText? (Text.ofBytes s))) ∧
    ((splitOfBytes? s).isSome ↔ ∃ items, itemsOfBytes? s = some items ∧ 3 ≤ items.length) ∧
    ∀ left op right, splitOfBytes? s = some (left, op, right) →
      left ++ Text.bytes op.symbol ++ right = Text.bytes (Text.ofBytes s) ∧
      (left ++ Text.bytes op.symbol ++ right = s ↔ Text.IsForm s) ∧ left ≠ [] ∧ right ≠ [] := by
  refine ⟨fun items hitems => ?_, ?_, fun left op right hsplit => ?_⟩
  · obtain ⟨chain, hchain, rfl⟩ := Option.map_eq_some_iff.1 hitems
    obtain ⟨hne, hodd, hflatten, hpass⟩ := items_of_chain? hchain
    have hbytes : (chain.items.map Text.bytes).flatten = Text.bytes (Text.ofBytes s) := by
      rw [Text.bytes_flatten, hflatten]
    refine ⟨?_, by rwa [List.length_map], hbytes, by rw [hbytes, Text.IsForm], ?_, ?_⟩
    · exact List.forall_mem_map.2 fun item hitem => mt Text.bytes_eq_nil_iff.1 (hne item hitem)
    · intro i item hitem hi
      rw [List.getElem?_map] at hitem
      obtain ⟨t, ht, rfl⟩ := Option.map_eq_some_iff.1 hitem
      obtain ⟨op, rfl⟩ := Chain.exists_symbol_of_odd ht hi
      exact ⟨op, by rw [Text.ofBytes_bytes, Operator.ofSymbol?_symbol], rfl⟩
    · rw [map_ofBytes_map_bytes, hpass]
  · rw [splitOfBytes?, Option.isSome_map, isSome_ofText?_iff, itemsOfBytes?]
    simp
  · obtain ⟨e, he, hparts⟩ := Option.map_eq_some_iff.1 hsplit
    obtain ⟨rfl, rfl, rfl⟩ : Text.bytes e.left = left ∧ e.op = op ∧ Text.bytes e.right = right := by
      simpa using hparts
    obtain ⟨hleft, hright⟩ := sides_ne_nil_of_ofText? he
    have hbytes : Text.bytes e.left ++ Text.bytes e.op.symbol ++ Text.bytes e.right =
        Text.bytes (Text.ofBytes s) := by
      rw [← Text.bytes_append, ← Text.bytes_append]
      exact congrArg Text.bytes (Equation.text_of_ofText? he)
    exact ⟨hbytes, by rw [hbytes, Text.IsForm], mt Text.bytes_eq_nil_iff.1 hleft,
      mt Text.bytes_eq_nil_iff.1 hright⟩

/-- The command `)-"+"^é>=a"{`: a bracket too many, one too few and a string that stays open. -/
def unmatchedCommand : List UInt8 :=
  Text.bytes [')', '-', '"', '+', '"', '^', 'é', '>', '=', 'a', '"', '\x7b']

def unmatchedItems : List Text :=
  [[')'], ['-'], ['"', '+', '"'], ['^'], ['é'], ['>', '='], ['a', '"', '\x7b']]

theorem items_lossless_unmatched :
    itemsOfBytes? unmatchedCommand = some (unmatchedItems.map Text.bytes) ∧
      Equation.ofItems unmatchedItems =
        .ok (some ⟨[')', '-', '"', '+', '"', '^', 'é'], .greaterEqual, ['a', '"', '\x7b']⟩) ∧
      (unmatchedItems.map Text.bytes).flatten = unmatchedCommand ∧
      (splitOfBytes? unmatchedCommand).isSome := by
  have hitems : itemsOfBytes? unmatchedCommand = some (unmatchedItems.map Text.bytes) := by
    decide +kernel
  have hform : Text.IsForm unmatchedCommand := Text.isForm_bytes _
  obtain ⟨hall, hsplits, -⟩ := items_lossless unmatchedCommand
  obtain ⟨-, -, -, hflatten, -, hpass⟩ := hall _ hitems
  have hsplit : Equation.ofText? (Text.ofBytes unmatchedCommand) =
      some ⟨[')', '-', '"', '+', '"', '^', 'é'], .greaterEqual, ['a', '"', '\x7b']⟩ := by
    decide +kernel
  rw [map_ofBytes_map_bytes, hsplit] at hpass
  exact ⟨hitems, hpass, hflatten.2 hform, hsplits.2 ⟨_, hitems, by decide⟩⟩

/-- The command `+1` after a byte that is part of no character: its items do not make it up, and
neither does its split. -/
theorem items_stray_byte :
    ∃ items left right, itemsOfBytes? [0xff, 0x2b, 0x31] = some items ∧
      items.flatten ≠ [0xff, 0x2b, 0x31] ∧
      splitOfBytes? [0xff, 0x2b, 0x31] = some (left, .plus, right) ∧
      left ++ Text.bytes Operator.plus.symbol ++ right ≠ [0xff, 0x2b, 0x31] := by
  refine ⟨[[0xef, 0xbf, 0xbd], [0x2b], [0x31]], [0xef, 0xbf, 0xbd], [0x31], ?_⟩
  decide +kernel

end Command

end Scriptlet
