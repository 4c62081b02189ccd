import Scriptlet.Proofs.Store.Agreement
import Scriptlet.Proofs.Store.Reopen
import Scriptlet.Proofs.Text.ByteOrder

/-! A store in memory and a database are interchangeable: asked the same one request after another,
they give the same answers, though the database is closed and opened again in between as often as
one likes. One request keeps the stores linked, and so does opening the database again; a run of
requests follows by induction. -/

namespace Scriptlet.Store

/-! ### Requests -/

inductive Request
  | get (name : Text)
  | put (name text : Text)
  | delete (name : Text)
  | names
  | history (name : Text) (limit : Int)

inductive Answer
  | text (t : Option Text)
  | changed
  | names (ts : List Text)
  | versions (vs : List Version)
  /-- The store keeps no history. -/
  | noHistory
  deriving DecidableEq

def perform (s : Store) : Request → Except Fault (Answer × Store)
  | .get name => do return (.text (← s.get? name), s)
  | .put name text => do return (.changed, ← s.put name text)
  | .delete name => do return (.changed, ← s.delete name)
  | .names => do return (.names (← s.names), s)
  | .history name limit =>
    match s.history? with
    | some versions => do return (.versions (← versions name limit), s)
    | none => .ok (.noHistory, s)

/-- The answers of a store to one request after another; none if it fails on the way. -/
def answers : List Request → Store → Option (List Answer)
  | [], _ => some []
  | r :: rs, s => do
    let (a, s) ← (s.perform r).toOption
    return a :: (← answers rs s)

/-- A step of a session with a database in a file. -/
inductive Step
  | request (r : Request)
  /-- The database is closed and opened again. -/
  | reopen

def Step.request? : Step → Option Request
  | request r => some r
  | reopen => none

structure Site where
  disk : Disk
  store : Store

namespace Site

def reopen (path : Text) (site : Site) : Option Site := do
  let closed ← site.store.close.toOption
  let (c, d) ← (openAt (saveAt site.disk path (some closed)) path).toOption
  return ⟨d, .database c⟩

def answers (path : Text) : List Step → Site → Option (List Answer)
  | [], _ => some []
  | .request r :: steps, site => do
    let (a, store) ← (site.store.perform r).toOption
    return a :: (← answers path steps { site with store })
  | .reopen :: steps, site => do answers path steps (← site.reopen path)

end Site

/-! ### One step -/

/-- A database in use that holds the same as a store in memory. -/
def Linked (path : Text) (m : Memory) (site : Site) : Prop :=
  ∃ c t, site.store = .database c ∧ Usable path site.disk c ∧ c.db.tables = some t ∧ Agrees m t

theorem Usable.tables_eq {path : Text} {d : Disk} {c : Connection} {t : Tables}
    (h : Usable path d c) (ht : c.db.tables = some t) (table : Text) : c.tables table = .ok t := by
  simp [Connection.tables, h.isOpen, ht]

theorem Usable.withTables {path : Text} {d : Disk} {c : Connection} (h : Usable path d c)
    (t : Tables) : Usable path d (c.withTables t) :=
  ⟨h.isOpen, h.schemaVersion, h.reachable⟩

theorem pairwise_bytes_names (m : Memory) :
    m.names.Pairwise fun a b => Text.bytes a < Text.bytes b :=
  Std.ExtTreeMap.ordered_keys.imp Text.bytes_lt_of_compare

/-- An answer that lists names lists them in the order of their bytes. -/
def Answer.Ordered : Answer → Prop
  | .names ts => ts.Pairwise fun a b => Text.bytes a < Text.bytes b
  | _ => True

namespace Linked

variable {path : Text} {m : Memory} {site : Site}

/-- Linked stores answer a request alike and stay linked. -/
theorem perform (h : Linked path m site) (r : Request) :
    ∃ a m' store, site.store.perform r = .ok (a, store) ∧
      (Store.memory m).perform r = .ok (a, .memory m') ∧ a.Ordered ∧
      Linked path m' { site with store } := by
  obtain ⟨c, t, hstore, husable, ht, hagrees⟩ := h
  have hread : ∀ {α : Type} (f : Tables → α) (table : Text),
      (do return f (← c.tables table) : Except Fault α) = .ok (f t) := by
    intro α f table
    rw [husable.tables_eq ht]
    rfl
  rw [hstore]
  cases r with
  | get name =>
    have hget : c.get? name = .ok (m.get? name) := by
      rw [Connection.get?, hread, hagrees.get?_eq]
    refine ⟨.text (m.get? name), m, .database c, ?_, rfl, trivial, c, t, rfl, husable, ht, hagrees⟩
    simp only [Store.perform, Store.get?, hget]
    rfl
  | put name text =>
    have hput : c.put name text = .ok (c.withTables (t.put name text)) := hread _ _
    refine ⟨.changed, m.put name text, .database (c.withTables (t.put name text)), ?_, rfl, trivial,
      _, _, rfl, husable.withTables _, rfl, hagrees.put name text⟩
    simp only [Store.perform, Store.put, hput]
    rfl
  | delete name =>
    have hdelete : c.delete name = .ok (c.withTables (t.delete name)) := hread _ _
    refine ⟨.changed, m.delete name, .database (c.withTables (t.delete name)), ?_, rfl, trivial,
      _, _, rfl, husable.withTables _, rfl, hagrees.delete name⟩
    simp only [Store.perform, Store.delete, hdelete]
    rfl
  | names =>
    have hnames : c.names = .ok m.names := by rw [Connection.names, hread, hagrees.names_eq]
    refine ⟨.names m.names, m, .database c, ?_, rfl, pairwise_bytes_names m, c, t, rfl, husable, ht,
      hagrees⟩
    simp only [Store.perform, Store.names, hnames]
    rfl
  | history name limit =>
    have hhistory : c.history name limit = .ok (m.history name limit) := by
      rw [Connection.history, hread, hagrees.history_eq]
    refine ⟨.versions (m.history name limit), m, .database c, ?_, rfl, trivial, c, t, rfl, husable,
      ht, hagrees⟩
    simp only [Store.perform, Store.history?, hhistory]
    rfl

/-- A database that is closed and opened again stays linked. -/
theorem reopen (h : Linked path m site) (hfile : hasFile path = true) :
    ∃ site', site.reopen path = some site' ∧ Linked path m site' := by
  obtain ⟨c, t, hstore, husable, ht, hagrees⟩ := h
  obtain ⟨d', hopen⟩ := openAt_saveAt hfile husable
  refine ⟨⟨d', .database { db := c.db }⟩, ?_, _, t, rfl, usable_of_openAt hopen, ht, hagrees⟩
  simp only [Site.reopen, hstore, Store.close, Except.toOption, Option.bind_eq_bind,
    Option.bind_some, hopen]
  rfl

/-! ### A whole run -/

theorem answers (h : Linked path m site) {steps : List Step}
    (hfile : hasFile path = true ∨ .reopen ∉ steps) :
    ∃ as, site.answers path steps = some as ∧
      Store.answers (steps.filterMap Step.request?) (.memory m) = some as ∧
      ∀ a ∈ as, a.Ordered := by
  induction steps generalizing m site with
  | nil => exact ⟨[], rfl, rfl, nofun⟩
  | cons step steps ih =>
    have hrest : hasFile path = true ∨ .reopen ∉ steps :=
      hfile.imp_right fun hmem hrest => hmem (List.mem_cons_of_mem _ hrest)
    cases step with
    | request r =>
      obtain ⟨a, m', store, hsite, hmemory, hordered, hlinked⟩ := h.perform r
      obtain ⟨as, hanswers, hmemory', hall⟩ := ih hlinked hrest
      refine ⟨a :: as, ?_, ?_, List.forall_mem_cons.2 ⟨hordered, hall⟩⟩
      · simp only [Site.answers, hsite, Except.toOption, Option.bind_eq_bind, Option.bind_some,
          hanswers]
        rfl
      · simp only [List.filterMap_cons, Step.request?, Store.answers, hmemory, Except.toOption,
          Option.bind_eq_bind, Option.bind_some, hmemory']
        rfl
    | reopen =>
      obtain ⟨site', hreopen, hlinked⟩ :=
        h.reopen (hfile.resolve_right fun hmem => hmem List.mem_cons_self)
      obtain ⟨as, hanswers, hmemory, hall⟩ := ih hlinked hrest
      refine ⟨as, ?_, hmemory, hall⟩
      simp only [Site.answers, hreopen, Option.bind_eq_bind, Option.bind_some, hanswers]

end Linked

def sampleDisk : Disk := { dir := ['/'] }

def samplePath : Text := "store.db".toList

end Scriptlet.Store
