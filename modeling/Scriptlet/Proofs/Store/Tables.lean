import Scriptlet.Store.Basic

/-! The two stores seen through the text and the versions of each name. Every change of a store is a
change of the text and of the versions of one name, and leaves the other names alone. -/

namespace Scriptlet.Store

/-! ### The store in memory -/

namespace Memory

theorem get?_put (m : Memory) (name text other : Text) :
    (m.put name text).get? other = if name = other then some text else m.get? other := by
  rw [put]
  split
  · next h => split <;> simp_all
  · simp [get?, Std.ExtTreeMap.getElem?_insert]

theorem versionsOf_put (m : Memory) (name text other : Text) :
    (m.put name text).versionsOf other =
      if name = other ∧ m.get? name ≠ some text then
        m.versionsOf name ++ [⟨(m.versionsOf name).length + 1, text⟩]
      else m.versionsOf other := by
  rw [put]
  split
  · next h => simp [h]
  · next h =>
    by_cases hname : name = other
    · subst hname
      simp [versionsOf, h]
    · simp [versionsOf, hname, Std.ExtTreeMap.getElem?_insert]

theorem get?_delete (m : Memory) (name other : Text) :
    (m.delete name).get? other = if name = other then none else m.get? other := by
  simp [delete, get?, Std.ExtTreeMap.getElem?_erase]

theorem versionsOf_delete (m : Memory) (name other : Text) :
    (m.delete name).versionsOf other = if name = other then [] else m.versionsOf other := by
  by_cases h : name = other <;> simp [delete, versionsOf, h, Std.ExtTreeMap.getElem?_erase]

/-- The versions of every name are numbered from one without a gap. -/
def Numbered (m : Memory) : Prop :=
  ∀ name, (m.versionsOf name).map (·.number) = List.range' 1 (m.versionsOf name).length

theorem numbered_empty : Numbered .empty := fun _ => by simp [versionsOf, empty]

theorem Numbered.put {m : Memory} (h : m.Numbered) (name text : Text) :
    (m.put name text).Numbered := by
  intro other
  rw [versionsOf_put]
  split
  · rw [List.map_append, h name, List.length_append, List.length_singleton, List.range'_concat]
    simp [Nat.add_comm]
  · exact h other

theorem Numbered.delete {m : Memory} (h : m.Numbered) (name : Text) :
    (m.delete name).Numbered := by
  intro other
  rw [versionsOf_delete]
  split
  · rfl
  · exact h other

end Memory

/-! ### Tables -/

namespace Tables

/-- The versions of a name in the order of their rows. -/
def versionsOf (t : Tables) (name : Text) : List Version :=
  (t.versions.filter (·.name == name)).map fun row => ⟨row.number, row.text⟩

theorem get?_upsert (t : Tables) (name text other : Text) :
    ((t.upsert name text).find? (·.name == other)).map (·.text) =
      if name = other then some text else t.get? other := by
  rw [upsert]
  split
  · next hany =>
    have hkey : ∀ row : BindingRow,
        ((if row.name == name then ⟨name, text⟩ else row : BindingRow).name == other) =
          (row.name == other) := by
      intro row
      split <;> simp_all
    simp only [List.find?_map, Function.comp_def, hkey]
    split
    · next h =>
      subst h
      obtain ⟨row, hrow⟩ :=
        Option.isSome_iff_exists.1 (List.find?_isSome.2 (List.any_eq_true.1 hany))
      have hname : row.name = name := by simpa using List.find?_some hrow
      simp [hrow, hname]
    · next h =>
      rw [get?]
      cases hrow : t.bindings.find? (·.name == other) with
      | none => rfl
      | some row =>
        have hname : row.name = other := by simpa using List.find?_some hrow
        simp [hname, Ne.symm h]
  · next hany =>
    rw [List.find?_append]
    split
    · next h =>
      subst h
      have hnone : t.bindings.find? (·.name == name) = none := by simpa using hany
      simp [hnone]
    · next h => simp [get?, h]

theorem get?_put (t : Tables) (name text other : Text) :
    (t.put name text).get? other = if name = other then some text else t.get? other := by
  rw [put]
  split
  · next h => split <;> simp_all
  · exact t.get?_upsert name text other

theorem versionsOf_put (t : Tables) (name text other : Text) :
    (t.put name text).versionsOf other =
      if name = other ∧ t.get? name ≠ some text then
        t.versionsOf name ++ [⟨t.lastVersion name + 1, text⟩]
      else t.versionsOf other := by
  rw [put]
  split
  · next h => simp [h]
  · next h =>
    by_cases hname : name = other
    · subst hname
      simp [versionsOf, List.filter_append, h]
    · simp [versionsOf, List.filter_append, hname]

theorem get?_delete (t : Tables) (name other : Text) :
    (t.delete name).get? other = if name = other then none else t.get? other := by
  simp only [get?, delete, List.find?_filter]
  split
  · next h =>
    subst h
    simp
  · next h =>
    congr 2
    funext row
    simp
    grind

theorem versionsOf_delete (t : Tables) (name other : Text) :
    (t.delete name).versionsOf other = if name = other then [] else t.versionsOf other := by
  simp only [versionsOf, delete, List.filter_filter]
  split
  · next h => simp [h]
  · next h =>
    congr 1
    apply List.filter_congr
    intro row _
    simp
    grind

end Tables

/-! ### Any store -/

/-- Tables that can be changed can be asked afterwards. -/
theorem Connection.tables_withTables {c : Connection} {table : Text} {t : Tables}
    (h : c.tables table = .ok t) (t' : Tables) (other : Text) :
    (c.withTables t').tables other = .ok t' := by
  obtain ⟨db, isOpen⟩ := c
  cases isOpen
  · cases h
  · rfl

/-- A text that was stored is there. -/
theorem get?_of_put {store store' : Store} {name text : Text}
    (h : store.put name text = .ok store') : store'.get? name = .ok (some text) := by
  cases store with
  | memory m =>
    cases h
    simp [Store.get?, Memory.get?_put]
  | plain m =>
    cases h
    simp [Store.get?, Memory.get?_put]
  | database c =>
    cases htables : c.tables Connection.bindings with
    | error e => simp [Store.put, Connection.put, htables, bind, Except.bind, Except.map] at h
    | ok t =>
      obtain rfl : .database (c.withTables (t.put name text)) = store' := by
        simpa [Store.put, Connection.put, htables, bind, Except.bind, Except.map, pure, Except.pure]
          using h
      simp [Store.get?, Connection.get?, Connection.tables_withTables htables, Tables.get?_put,
        bind, Except.bind, pure, Except.pure]
  | broken => cases h

end Scriptlet.Store
