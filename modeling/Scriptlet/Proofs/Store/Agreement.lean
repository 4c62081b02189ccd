import Mathlib.Data.List.Nodup
import Scriptlet.Proofs.Store.Tables

/-! The store in memory and the tables tell the same of every name. They agree on the text and on
the versions of each name, no name has two rows, and the versions of a name are numbered from one
without a gap, so the largest number is their count. Every change keeps the agreement, and stores
that agree list the same names and the same history. -/

namespace Scriptlet.Store

/-- A store in memory and tables that hold the same. -/
structure Agrees (m : Memory) (t : Tables) : Prop where
  get?_eq : ∀ name, t.get? name = m.get? name
  versionsOf_eq : ∀ name, t.versionsOf name = m.versionsOf name
  nodup : (t.bindings.map (·.name)).Nodup
  numbered : ∀ name, (m.versionsOf name).map (·.number) =
    List.range' 1 (m.versionsOf name).length

theorem agrees_empty : Agrees .empty {} where
  get?_eq _ := by simp [Tables.get?, Memory.get?, Memory.empty]
  versionsOf_eq _ := by simp [Tables.versionsOf, Memory.versionsOf, Memory.empty]
  nodup := List.nodup_nil
  numbered := Memory.numbered_empty

namespace Tables

theorem map_name_upsert (t : Tables) (name text : Text) :
    (t.upsert name text).map (·.name) =
      if t.bindings.any (·.name == name) then t.bindings.map (·.name)
      else t.bindings.map (·.name) ++ [name] := by
  rw [upsert]
  split
  · rw [List.map_map]
    apply List.map_congr_left
    intro row _
    simp only [Function.comp_apply]
    split <;> simp_all
  · simp

theorem nodup_upsert {t : Tables} (h : (t.bindings.map (·.name)).Nodup) (name text : Text) :
    ((t.upsert name text).map (·.name)).Nodup := by
  rw [map_name_upsert]
  split
  · exact h
  · next hany =>
    have hnew : ∀ row ∈ t.bindings, row.name ≠ name := by simpa using hany
    simpa [List.nodup_append, h] using hnew

theorem foldl_max_range' (k n : Nat) : (List.range' (k + 1) n).foldl max k = k + n := by
  induction n generalizing k with
  | zero => rfl
  | succ n ih =>
    rw [List.range'_succ, List.foldl_cons, Nat.max_eq_right (Nat.le_succ k), ih]
    omega

/-- Rows that ascend are turned round by a sort that puts the largest number first. -/
theorem mergeSort_eq_reverse {rows : List VersionRow} {k n : Nat}
    (h : rows.map (·.number) = List.range' k n) :
    rows.mergeSort (fun a b => decide (b.number ≤ a.number)) = rows.reverse := by
  have hnodup : (rows.map (·.number)).Nodup := h ▸ List.nodup_range'
  have hascending : rows.Pairwise fun a b => a.number < b.number := by
    rw [← List.pairwise_map (f := VersionRow.number) (R := (· < ·)), h]
    exact List.pairwise_lt_range'
  have hsorted : (rows.mergeSort fun a b => decide (b.number ≤ a.number)).Pairwise
      fun a b => decide (b.number ≤ a.number) = true :=
    List.pairwise_mergeSort (fun a b c => by simp; omega) (fun a b => by simp; omega) rows
  have hreverse : rows.reverse.Pairwise fun a b => decide (b.number ≤ a.number) = true := by
    rw [List.pairwise_reverse]
    exact hascending.imp fun hlt => decide_eq_true (Nat.le_of_lt hlt)
  refine List.Perm.eq_of_pairwise (fun a b ha hb hab hba => ?_) hsorted hreverse
    ((List.mergeSort_perm rows _).trans rows.reverse_perm.symm)
  refine List.inj_on_of_nodup_map hnodup (List.mem_mergeSort.1 ha) (List.mem_reverse.1 hb) ?_
  exact Nat.le_antisymm (of_decide_eq_true hba) (of_decide_eq_true hab)

end Tables

namespace Agrees

variable {m : Memory} {t : Tables}

theorem lastVersion_eq (h : Agrees m t) (name : Text) :
    t.lastVersion name = (m.versionsOf name).length := by
  have hnumbers : (t.versions.filter (·.name == name)).map (·.number) =
      (t.versionsOf name).map (·.number) := by
    simp [Tables.versionsOf]
  rw [Tables.lastVersion, hnumbers, h.versionsOf_eq, h.numbered, Tables.foldl_max_range' 0]
  omega

/-! ### Changes -/

theorem put (h : Agrees m t) (name text : Text) : Agrees (m.put name text) (t.put name text) where
  get?_eq other := by rw [Tables.get?_put, Memory.get?_put, h.get?_eq]
  versionsOf_eq other := by
    rw [Tables.versionsOf_put, Memory.versionsOf_put, h.get?_eq, h.lastVersion_eq, h.versionsOf_eq,
      h.versionsOf_eq]
  nodup := by
    rw [Tables.put]
    split
    · exact h.nodup
    · exact Tables.nodup_upsert h.nodup name text
  numbered := Memory.Numbered.put h.numbered name text

theorem delete (h : Agrees m t) (name : Text) : Agrees (m.delete name) (t.delete name) where
  get?_eq other := by rw [Tables.get?_delete, Memory.get?_delete, h.get?_eq]
  versionsOf_eq other := by
    rw [Tables.versionsOf_delete, Memory.versionsOf_delete, h.versionsOf_eq]
  nodup := h.nodup.sublist (List.filter_sublist.map _)
  numbered := Memory.Numbered.delete h.numbered name

/-! ### Answers -/

theorem mem_map_name_iff (h : Agrees m t) (name : Text) :
    name ∈ t.bindings.map (·.name) ↔ name ∈ m.names := by
  have hrow : name ∈ t.bindings.map (·.name) ↔ (t.get? name).isSome := by
    simp [Tables.get?]
  rw [hrow, h.get?_eq, Memory.names, Std.ExtTreeMap.mem_keys, Memory.get?,
    Std.ExtTreeMap.mem_iff_isSome_getElem?]

theorem names_eq (h : Agrees m t) : t.names = m.names := by
  have hperm : t.names.Perm m.names := by
    refine (List.mergeSort_perm _ _).trans ?_
    exact (List.perm_ext_iff_of_nodup h.nodup Std.ExtTreeMap.nodup_keys).2 h.mem_map_name_iff
  have hsorted : t.names.Pairwise fun a b => (compare a b).isLE = true := by
    refine List.pairwise_mergeSort (fun _ _ _ => Std.TransCmp.isLE_trans) (fun a b => ?_) _
    rw [← Std.OrientedCmp.isGE_eq_isLE]
    cases compare b a <;> rfl
  have hkeys : m.names.Pairwise fun a b => (compare a b).isLE = true :=
    Std.ExtTreeMap.ordered_keys.imp Ordering.isLE_of_eq_lt
  refine List.Perm.eq_of_pairwise (fun a b _ _ hab hba => ?_) hsorted hkeys hperm
  exact Std.LawfulEqCmp.eq_of_compare (Std.OrientedCmp.isLE_antisymm hab hba)

theorem history_eq (h : Agrees m t) (name : Text) (limit : Int) :
    t.history name limit = m.history name limit := by
  have hnumbers : ((t.versions.filter (·.name == name)).map (·.number)) =
      List.range' 1 (m.versionsOf name).length := by
    rw [← h.numbered, ← h.versionsOf_eq]
    simp [Tables.versionsOf]
  have hversions := h.versionsOf_eq name
  rw [Tables.versionsOf] at hversions
  rw [Tables.history, Memory.history, Tables.mergeSort_eq_reverse hnumbers, List.map_reverse,
    hversions]

end Agrees

end Scriptlet.Store
