import Mathlib.Data.List.TakeWhile
import Scriptlet.Proofs.Store.Image
import Scriptlet.Store.File

/-! Closing a database and opening it again. A path that is no address and has no options is the
name of a file, unless it is empty or `:memory:`. A file that was written holds what was written to
it, and writing a file that can be there leaves every directory there, so a database that lies in a
file is opened again with the tables it was closed with. -/

namespace Scriptlet

namespace Disk

theorem lookup_replace {files : List (Place × Text)} {p : Place}
    (h : (files.lookup p).isSome = true) (t : Text) :
    (files.map fun (q, u) => if q = p then (q, t) else (q, u)).lookup p = some t := by
  induction files with
  | nil => cases h
  | cons file files ih =>
    obtain ⟨q, u⟩ := file
    by_cases hq : q = p
    · simp [hq]
    · have hne : (p == q) = false := by simpa using Ne.symm hq
      rw [List.lookup_cons, hne] at h
      simpa [hq, List.lookup_cons, hne] using ih h

theorem content?_put (d : Disk) (p : Place) (t : Text) : (d.put p t).content? p = some t := by
  rw [put]
  split
  · next h => exact lookup_replace h t
  · next h =>
    have hnone : d.files.lookup p = none := Option.not_isSome_iff_eq_none.1 h
    simp [content?, List.lookup_append, hnone]

theorem map_fst_put (d : Disk) (p : Place) (t : Text) :
    (d.put p t).files.map Prod.fst =
      if (d.content? p).isSome then d.files.map Prod.fst else d.files.map Prod.fst ++ [p] := by
  rw [put]
  split
  · rw [List.map_map]
    apply List.map_congr_left
    rintro ⟨q, u⟩ -
    simp only [Function.comp_apply]
    split <;> rfl
  · simp

@[simp] theorem dir_put (d : Disk) (p : Place) (t : Text) : (d.put p t).dir = d.dir := by
  rw [put]
  split <;> rfl

theorem isDirectory_eq (d : Disk) (q : Place) :
    d.isDirectory q = (q.isPrefixOf (placeOf d.dir) ||
      (d.files.map Prod.fst).any fun r => q.isPrefixOf r && q != r) := by
  rw [isDirectory, List.any_map]
  rfl

theorem isDirectory_put (d : Disk) (p q : Place) (t : Text) :
    (d.put p t).isDirectory q = (d.isDirectory q ||
      !(d.content? p).isSome && (q.isPrefixOf p && q != p)) := by
  rw [isDirectory_eq, isDirectory_eq, map_fst_put, dir_put]
  split
  · next h => simp [h]
  · next h => simp [h, Bool.or_assoc]

end Disk

namespace Store

/-! ### Databases in files -/

theorem isHere_of_hasFile {path : Text} (h : hasFile path = true) : isHere path = true := by
  rw [hasFile, Option.any_eq_true] at h
  obtain ⟨a, ha, -⟩ := h
  simp [isHere, ha]

example : Address.ofText? "file:/tmp/a%20b.db?cache=shared#c".toList =
    some { name := "/tmp/a b.db".toList } := by
  decide +kernel

theorem placeOn_put (d : Disk) (path : Text) (p : Disk.Place) (t : Text) :
    placeOn (d.put p t) path = placeOn d path := by
  rw [placeOn, Disk.dir_put, placeOn]

/-- A file that can be at a place can still be there after it was written. -/
theorem isReachable_put {d : Disk} {p : Disk.Place} (h : isReachable d p = true) (t : Text) :
    isReachable (d.put p t) p = true := by
  simp [isReachable, Disk.isDirectory_put] at h ⊢
  exact ⟨⟨h.1.1, .inl h.1.2⟩, h.2⟩

theorem Database.schemaVersion_of_prepare {db db' : Database} (h : db.prepare = .ok db') :
    db'.schemaVersion = Database.schema := by
  rw [prepare] at h
  split at h
  · cases h
    rfl
  · split at h
    · next hschema =>
      cases h
      exact hschema
    · cases h

theorem Database.prepare_of_schema {db : Database} (h : db.schemaVersion = Database.schema) :
    db.prepare = .ok db := by
  simp [prepare, h, schema]

/-- A connection that can be used, to a database that can be opened again. -/
structure Usable (path : Text) (d : Disk) (c : Connection) : Prop where
  isOpen : c.isOpen = true
  schemaVersion : c.db.schemaVersion = Database.schema
  reachable : hasFile path = true → isReachable d (placeOn d path) = true

/-- Opening a database gives a connection that can be used. -/
theorem usable_of_openAt {d d' : Disk} {path : Text} {c : Connection}
    (h : openAt d path = .ok (c, d')) : Usable path d' c := by
  rw [openAt] at h
  split at h
  · cases h
  split at h
  · next hno =>
    cases hprepare : Database.prepare {} with
    | error e => rw [hprepare] at h; cases h
    | ok db =>
      rw [hprepare] at h
      cases h
      exact ⟨rfl, Database.schemaVersion_of_prepare hprepare, fun hfile => by simp [hfile] at hno⟩
  · next hfile =>
    simp only at h
    split at h
    · cases h
    · next hreach =>
      split at h
      · cases h
      · next db _ =>
        cases hprepare : db.prepare with
        | error e => rw [hprepare] at h; cases h
        | ok db =>
          rw [hprepare] at h
          cases h
          refine ⟨rfl, Database.schemaVersion_of_prepare hprepare, fun _ => ?_⟩
          rw [placeOn_put]
          exact isReachable_put (by simpa using hreach) _

/-- A database that was left in its file is opened again as it was closed. -/
theorem openAt_saveAt {d : Disk} {path : Text} {c : Connection} (hfile : hasFile path = true)
    (h : Usable path d c) :
    ∃ d', openAt (saveAt d path (some (.database c.close))) path = .ok ({ db := c.db }, d') := by
  have hreach := h.reachable hfile
  refine ⟨(d.put (placeOn d path) c.db.toText).put (placeOn d path) c.db.toText, ?_⟩
  have hsaved : saveAt d path (some (.database c.close)) =
      d.put (placeOn d path) c.db.toText := by
    simp [saveAt, hfile, Connection.close]
  rw [hsaved, openAt]
  simp only [isHere_of_hasFile hfile, hfile, Bool.not_true, placeOn_put, isReachable_put hreach,
    Disk.content?_put, Option.getD_some, Database.ofText?_toText,
    Database.prepare_of_schema h.schemaVersion]
  rfl

end Store

end Scriptlet
