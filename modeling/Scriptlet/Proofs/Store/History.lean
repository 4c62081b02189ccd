import Mathlib.Data.List.Chain
import Scriptlet.Proofs.Store.Exchange

/-! The history of a name, in every state that a store can come to. A store in memory and a database
change the text of a name and its versions apart from each other; still they stay in step through
every run of requests: the newest version holds the text, versions are numbered without a gap, and
none repeats the one before it. A database holds what a store in memory holds after the same
requests, so what every change in memory keeps up holds of both. -/

namespace Scriptlet.Store

/-! ### One change -/

namespace Memory

/-- The versions of every name are in step with its text. -/
structure Recorded (m : Memory) : Prop where
  newest : ∀ name, m.get? name = (m.versionsOf name).getLast?.map (·.text)
  numbered : m.Numbered
  changing : ∀ name, (m.versionsOf name).IsChain fun v w => v.text ≠ w.text

theorem recorded_empty : Recorded .empty where
  newest _ := by simp [get?, versionsOf, empty]
  numbered := numbered_empty
  changing _ := by simp [versionsOf, empty]

theorem Recorded.put {m : Memory} (h : m.Recorded) (name text : Text) :
    (m.put name text).Recorded where
  newest other := by
    rw [get?_put, versionsOf_put]
    by_cases hname : name = other
    · subst hname
      by_cases hsame : m.get? name = some text
      · simp [hsame, ← h.newest]
      · simp [hsame]
    · simp [hname, h.newest]
  numbered := h.numbered.put name text
  changing other := by
    rw [versionsOf_put]
    split
    · next hnew =>
      -- The text before is that of the last version, and the new one differs from it.
      refine (h.changing name).append (List.isChain_singleton _) fun v hv w hw => ?_
      obtain rfl : _ = w := by simpa using hw
      intro htext
      have hlast := h.newest name
      rw [hv] at hlast
      exact hnew.2 (hlast.trans (congrArg some htext))
    · exact h.changing other

theorem Recorded.delete {m : Memory} (h : m.Recorded) (name : Text) :
    (m.delete name).Recorded where
  newest other := by
    rw [get?_delete, versionsOf_delete]
    split
    · rfl
    · exact h.newest other
  numbered := h.numbered.delete name
  changing other := by
    rw [versionsOf_delete]
    split
    · exact List.isChain_nil
    · exact h.changing other

theorem Recorded.perform {m m' : Memory} (h : m.Recorded) {r : Request} {a : Answer}
    (hr : (Store.memory m).perform r = .ok (a, .memory m')) : m'.Recorded := by
  cases r with
  | get name | names | history name limit =>
    cases hr
    exact h
  | put name text =>
    cases hr
    exact h.put name text
  | delete name =>
    cases hr
    exact h.delete name

end Memory

/-! ### A run of requests -/

/-- The store after one request after another. -/
def performAll (requests : List Request) (s : Store) : Except Fault Store :=
  requests.foldlM (fun s r => (s.perform r).map (·.2)) s

/-- A store with a history that holds nothing yet: a new one in memory, or a database that was empty
when it was opened. -/
inductive IsNew : Store → Prop
  | memory : IsNew (.memory .empty)
  | database {d d' : Disk} {path : Text} {c : Connection} (hopen : openAt d path = .ok (c, d'))
    (hempty : c.db.tables = some {}) : IsNew (.database c)

/-- A store that holds what a store in memory holds, itself or a database in use. -/
inductive Mirrors (m : Memory) : Store → Prop
  | memory : Mirrors m (.memory m)
  | database {path : Text} {d : Disk} {s : Store} (h : Linked path m ⟨d, s⟩) : Mirrors m s

theorem IsNew.mirrors {s : Store} (h : s.IsNew) : Mirrors .empty s := by
  cases h with
  | memory => exact .memory
  | database hopen hempty =>
    exact .database ⟨_, {}, rfl, usable_of_openAt hopen, hempty, agrees_empty⟩

namespace Mirrors

variable {m : Memory} {s : Store}

/-- A store in memory never fails. -/
theorem exists_perform_memory (m : Memory) (r : Request) :
    ∃ a m', (Store.memory m).perform r = .ok (a, .memory m') := by
  cases r <;> exact ⟨_, _, rfl⟩

theorem perform (h : Mirrors m s) (hm : m.Recorded) (r : Request) :
    ∃ a m' s', s.perform r = .ok (a, s') ∧ Mirrors m' s' ∧ m'.Recorded := by
  cases h with
  | memory =>
    obtain ⟨a, m', hmemory⟩ := exists_perform_memory m r
    exact ⟨a, m', _, hmemory, .memory, hm.perform hmemory⟩
  | database h =>
    obtain ⟨a, m', s', hs, hmemory, -, hlinked⟩ := h.perform r
    exact ⟨a, m', s', hs, .database hlinked, hm.perform hmemory⟩

theorem performAll (h : Mirrors m s) (hm : m.Recorded) (requests : List Request) :
    ∃ m' s', s.performAll requests = .ok s' ∧ Mirrors m' s' ∧ m'.Recorded := by
  induction requests generalizing m s with
  | nil => exact ⟨m, s, rfl, h, hm⟩
  | cons r requests ih =>
    obtain ⟨a, m₁, s₁, hr, h₁, hm₁⟩ := h.perform hm r
    obtain ⟨m', s', hrest, h', hm'⟩ := ih h₁ hm₁
    refine ⟨m', s', ?_, h', hm'⟩
    rw [Store.performAll, List.foldlM_cons, hr]
    exact hrest

theorem get?_eq (h : Mirrors m s) (name : Text) : s.get? name = .ok (m.get? name) := by
  cases h with
  | memory => rfl
  | database h =>
    obtain ⟨c, t, rfl, husable, ht, hagrees⟩ := h
    rw [Store.get?, Connection.get?, husable.tables_eq ht, ← hagrees.get?_eq]
    rfl

theorem history?_eq (h : Mirrors m s) : ∃ history, s.history? = some history ∧
    ∀ name limit, history name limit = .ok (m.history name limit) := by
  cases h with
  | memory => exact ⟨_, rfl, fun _ _ => rfl⟩
  | database h =>
    obtain ⟨c, t, rfl, husable, ht, hagrees⟩ := h
    refine ⟨c.history, rfl, fun name limit => ?_⟩
    rw [Connection.history, husable.tables_eq ht, ← hagrees.history_eq]
    rfl

end Mirrors

/-! ### What a store tells of a name -/

/-- A text with the versions it has been through, the newest first. -/
structure Documented (text : Option Text) (versions : List Version) : Prop where
  bound_iff : text.isSome ↔ versions ≠ []
  numbered : versions.map (·.number) = (List.range' 1 versions.length).reverse
  newest : versions.head?.map (·.text) = text
  changing : versions.IsChain fun v w => v.text ≠ w.text

theorem Memory.Recorded.documented {m : Memory} (h : m.Recorded) (name : Text) :
    Documented (m.get? name) (m.versionsOf name).reverse where
  bound_iff := by
    rw [h.newest]
    simp
  numbered := by rw [List.map_reverse, h.numbered, List.length_reverse]
  newest := by rw [List.head?_reverse, h.newest]
  changing := List.isChain_reverse.2 ((h.changing name).imp fun _ _ => Ne.symm)

theorem upTo_eq {α : Type} (limit : Int) (entries : List α) :
    upTo limit entries =
      if limit < 1 then entries else entries.take (min limit.toNat entries.length) := by
  unfold upTo
  split
  · rfl
  · rw [← List.take_take, List.take_length]

/-- Every store that was new and has gone through any requests has a history that is in step with
its texts. For every name there are versions that are numbered down to one, of which the newest
holds the text and no two neighbours hold the same; there are some just if the name is bound; and
asked for the history with a limit, the store gives the first of them, or all if the limit is below
one. -/
theorem history_documented {s : Store} (h : s.IsNew) (requests : List Request) :
    ∃ s' history, s.performAll requests = .ok s' ∧ s'.history? = some history ∧
      ∀ name, ∃ text versions, s'.get? name = .ok text ∧ Documented text versions ∧
        ∀ limit, history name limit = .ok
          (if limit < 1 then versions else versions.take (min limit.toNat versions.length)) := by
  obtain ⟨m, s', hrun, hmirrors, hrecorded⟩ := h.mirrors.performAll Memory.recorded_empty requests
  obtain ⟨history, hhistory, hanswer⟩ := hmirrors.history?_eq
  refine ⟨s', history, hrun, hhistory, fun name => ?_⟩
  refine ⟨m.get? name, (m.versionsOf name).reverse, hmirrors.get?_eq name,
    hrecorded.documented name, fun limit => ?_⟩
  rw [hanswer, Memory.history, upTo_eq]

/-- Two texts of one name, one of them stored twice in a row, and a name that is forgotten again. -/
def sampleChanges : List Request :=
  [.put ['x'] ['1'], .put ['y'] ['1'], .put ['x'] ['1'], .put ['x'] ['2'], .delete ['y']]

theorem history_documented_sample :
    ∃ c d', openAt sampleDisk samplePath = .ok (c, d') ∧ IsNew (.database c) ∧
      ∃ s' history versions, (Store.database c).performAll sampleChanges = .ok s' ∧
        s'.history? = some history ∧ s'.get? ['x'] = .ok (some ['2']) ∧
        history ['x'] 0 = .ok versions ∧ Documented (some ['2']) versions := by
  let c : Connection := { db := ⟨Database.schema, some {}⟩ }
  have hopen : openAt sampleDisk samplePath =
      .ok (c, sampleDisk.put [samplePath] (Database.toText ⟨Database.schema, some {}⟩)) := rfl
  have hnew : IsNew (.database c) := .database hopen rfl
  have hx : ((Store.database c).performAll sampleChanges >>= fun s => s.get? ['x']) =
      .ok (some ['2']) := by
    decide +kernel
  obtain ⟨s', history, hrun, hhistory, hname⟩ := history_documented hnew sampleChanges
  obtain ⟨text, versions, hget, hdocumented, hanswer⟩ := hname ['x']
  have htext : s'.get? ['x'] = .ok (some ['2']) := by
    rw [hrun] at hx
    exact hx
  obtain rfl : text = some ['2'] := by
    rw [hget] at htext
    cases htext
    rfl
  exact ⟨c, _, hopen, hnew, s', history, versions, hrun, hhistory, htext, hanswer 0, hdocumented⟩

end Scriptlet.Store
