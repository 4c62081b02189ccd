import Scriptlet.Proofs.Script.Source
import Scriptlet.Proofs.Store.Tables

/-! Storing a value and loading it again. What is stored is the source form, and loading evaluates
it, so a value comes back exactly if its source form is worth that value and binds nothing but the
name it is loaded under. This holds of finite numbers, of texts, and of functions that are stored
under their own name and can be read as they are written. -/

namespace Scriptlet.Script

open Command

/-- The values that come back from the store under a name. -/
def Restorable (name : Text) : Value → Prop
  | .null => False
  | .number x => Number.isFinite x = true
  | .text t => '"' ∉ t
  | .callable none => False
  | .callable (some f) => f.name = name ∧ f.Readable

variable {settings : Settings} {self : Text → Action Value} {s s' : State} {name : Text}

/-! ### Storing -/

theorem ofStore_eq_done {α : Type} {answer : Except Store.Fault α} {task : Text} {a : α} :
    (Action.ofStore answer).during task s = (.done a, s') ↔ answer = .ok a ∧ s' = s := by
  cases answer with
  | ok b => simp [Action.ofStore, Action.during, Action.result, eq_comm]
  | error e => simp [Action.ofStore, Action.during, Action.fail]

/-- A value that was stored has its source form in the store, and is no text with a quote. -/
theorem of_runPersist {store : Store} {v w : Value} {rest : List Value}
    (hstore : s.store = some store) (hbound : s.env.lookup name = some v)
    (h : Builtin.runPersist (.text name :: rest) s = (.done w, s')) :
    name ≠ [] ∧ (∀ t, v = .text t → '"' ∉ t) ∧
      ∃ store', s' = { s with store := some store' } ∧ store'.get? name = .ok (some v.source) := by
  obtain ⟨t, s₁, ht, hstored⟩ := Action.bind_eq_done.1 h
  obtain ⟨hname, hne, rfl⟩ := expectName_eq_done.1 ht
  cases hname
  obtain ⟨found, s₂, hfound, hstored⟩ := Action.bind_eq_done.1 hstored
  cases hfound
  rw [hstore] at hstored
  obtain ⟨bound, s₃, hlookup, hstored⟩ := Action.bind_eq_done.1 hstored
  cases hlookup
  rw [hbound] at hstored
  have hput : ∀ {s : State}, (do
      let store ← (Action.ofStore (store.put name v.source)).during (Builtin.task .persist name)
      Action.setStore store
      return Value.null) s = (.done w, s') →
      ∃ store', s' = { s with store := some store' } ∧ store'.get? name = .ok (some v.source) := by
    intro s h
    obtain ⟨store', s₄, hput, hset⟩ := Action.bind_eq_done.1 h
    obtain ⟨hok, rfl⟩ := ofStore_eq_done.1 hput
    cases hset
    exact ⟨store', rfl, Store.get?_of_put hok⟩
  cases v with
  | null => exact ⟨hne, by simp, hput hstored⟩
  | number x => exact ⟨hne, by simp, hput hstored⟩
  | callable f => exact ⟨hne, by simp, hput hstored⟩
  | text t =>
    cases hquote : t.contains '"' with
    | true =>
      simp only [hquote, if_true] at hstored
      cases hstored
    | false =>
      simp only [hquote] at hstored
      exact ⟨hne, by simpa using hquote, hput hstored⟩

/-! ### Loading -/

theorem runLoad_eq {store : Store} {text : Text} {rest : List Value} (hne : name ≠ [])
    (hstore : s.store = some store) (hentry : store.get? name = .ok (some text))
    (htext : text ≠ []) :
    Builtin.runLoad self (.text name :: rest) s = (do
      let v ← (self text).during (Builtin.task .load name)
      Action.bindName name v
      return v) s := by
  obtain ⟨c, name, rfl⟩ := List.exists_cons_of_ne_nil hne
  obtain ⟨a, text, rfl⟩ := List.exists_cons_of_ne_nil htext
  simp [Builtin.runLoad, Builtin.firstArg, Builtin.expectName, Action.bind_apply, Action.pure_apply,
    Action.store, hstore, hentry, Action.ofStore, Action.during, Action.result]

/-- A value comes back if evaluating the text gives it, and only then. -/
theorem runLoad_eq_done {store : Store} {text : Text} {rest : List Value} {v : Value}
    (hne : name ≠ []) (hstore : s.store = some store)
    (hentry : store.get? name = .ok (some text)) (htext : text ≠ []) :
    Builtin.runLoad self (.text name :: rest) s = (.done v, s') ↔
      ∃ s₁, self text s = (.done v, s₁) ∧ s' = { s₁ with env := s₁.env.set name v } := by
  rw [runLoad_eq hne hstore hentry htext]
  constructor
  · intro h
    obtain ⟨w, s₁, hself, hbind⟩ := Action.bind_eq_done.1 h
    obtain ⟨_, s₂, hname, hdone⟩ := Action.bind_eq_done.1 hbind
    cases hname
    cases hdone
    refine ⟨s₁, ?_, rfl⟩
    unfold Action.during at hself
    split at hself
    · cases hself
    · exact hself
  · rintro ⟨s₁, hself, rfl⟩
    refine Action.bind_eq_done.2 ⟨v, s₁, ?_, rfl⟩
    simp only [Action.during, hself]

theorem runLoad_nil {store : Store} {rest : List Value} (hne : name ≠ [])
    (hstore : s.store = some store) (hentry : store.get? name = .ok (some [])) :
    Builtin.runLoad self (.text name :: rest) s = (.done .null, s) := by
  obtain ⟨c, name, rfl⟩ := List.exists_cons_of_ne_nil hne
  simp [Builtin.runLoad, Builtin.firstArg, Builtin.expectName, Action.bind_apply, Action.pure_apply,
    Action.store, hstore, hentry, Action.ofStore, Action.during, Action.result]

/-! ### Values that come back -/

theorem mem_of_infinite {x : Float} (h : Number.isFinite x = false) :
    Number.toText x ∈ ["NaN".toList, "-Inf".toList, "+Inf".toList] := by
  simp only [Number.toText, h, Bool.not_false, if_true]
  split
  · simp
  · split <;> simp

theorem toText_ne_nil (x : Float) : Number.toText x ≠ [] := by
  intro hnil
  cases hfinite : Number.isFinite x with
  | true =>
    have hread := Number.ofText?_toText hfinite
    rw [hnil] at hread
    cases hread
  | false =>
    have hword := mem_of_infinite hfinite
    simp [hnil] at hword

theorem Restorable.source_ne_nil {v : Value} (h : Restorable name v) : v.source ≠ [] := by
  match v, h with
  | .number x, _ => exact toText_ne_nil x
  | .text t, _ => exact List.cons_ne_nil _ _
  | .callable (some f), _ => exact f.source_ne_nil

theorem set_set (env : Env) (name : Text) (v w : Value) :
    (env.set name v).set name w = env.set name w := by
  ext other : 1
  simp only [Env.lookup_set]
  split <;> rfl

/-- Evaluating the source form of a restorable value gives it back and binds at most its name. -/
theorem Restorable.run_source {v : Value} (hbuiltins : settings.builtins = true)
    (h : Restorable name v) (hfree : ∀ f, v = .callable (some f) → s.env.lookup f.source = none)
    (depth : Nat) :
    ∃ s₁, run settings (depth + 2) v.source s = (.done v, s₁) ∧
      { s₁ with env := s₁.env.set name v } = { s with env := s.env.set name v } := by
  match v, h with
  | .number x, h => exact ⟨s, run_toText h (depth + 1) s, rfl⟩
  | .text t, h => exact ⟨s, run_quote h (depth + 1) s, rfl⟩
  | .callable (some f), ⟨hname, hreadable⟩ =>
    refine ⟨_, Script.run_source hbuiltins hreadable (hfree f rfl) depth, ?_⟩
    simp only [hname, set_set]

/-! ### Values that do not -/

/-- A number that is not finite is stored as a word that means nothing. -/
theorem run_toText_infinite {x : Float} (h : Number.isFinite x = false)
    (hunbound : s.env.lookup (Number.toText x) = none) (depth : Nat) :
    run settings (depth + 1) (Number.toText x) s = (.failed (.undefined (Number.toText x)), s) := by
  have hform : ∀ t ∈ ["NaN".toList, "-Inf".toList, "+Inf".toList],
      Form.ofText t = .other ∧ Statement.ofText t = .word := by
    decide +kernel
  obtain ⟨hother, hstatement⟩ := hform _ (mem_of_infinite h)
  rw [run_succ, evaluate_unbound hother hunbound, runStatement, hstatement]
  rfl

/-- A function that comes back in every environment is readable and stored under its own name. -/
theorem restorable_callable {f : Function} (hbuiltins : settings.builtins = true) (depth : Nat)
    (hrun : ∀ env : Env, env.lookup f.source = none →
      ∃ s₁, run settings (depth + 2) f.source { s with env } = (.done (.callable (some f)), s₁) ∧
        { s with env := env.set name (.callable (some f)) } =
          { s₁ with env := s₁.env.set name (.callable (some f)) }) :
    Restorable name (.callable (some f)) := by
  have hreadable : f.Readable :=
    readable_of_run hbuiltins fun env henv => (hrun env henv).imp fun _ h => h.1
  -- In the empty environment a name of the function's own would stay bound beside `name`.
  obtain ⟨s₁, hs₁, heq⟩ := hrun .empty (Env.lookup_empty _)
  rw [run_source hbuiltins hreadable (Env.lookup_empty _)] at hs₁
  cases hs₁
  have hname : name = f.name := by
    simpa [Env.lookup_set] using congrArg (fun s => s.env.lookup f.name) heq
  exact ⟨hname.symm, hreadable⟩

/-- A value that comes back in every environment is restorable. -/
theorem restorable_of_load {store : Store} {v : Value} {rest : List Value} {depth : Nat}
    (hbuiltins : settings.builtins = true) (hne : name ≠ []) (hstore : s.store = some store)
    (hentry : store.get? name = .ok (some v.source)) (hquote : ∀ t, v = .text t → '"' ∉ t)
    (h : ∀ env : Env, (∀ f, v = .callable (some f) → env.lookup f.source = none) →
      Builtin.runLoad (run settings (depth + 2)) (.text name :: rest) { s with env } =
        (.done v, { s with env := env.set name v })) :
    Restorable name v := by
  match v with
  | .null =>
    have hload := h .empty (by simp)
    rw [runLoad_nil hne (s := { s with env := .empty }) hstore hentry] at hload
    have henv := congrArg (fun r => r.2.env.lookup name) hload
    simp [Env.lookup_set] at henv
  | .number x =>
    by_contra hfinite
    have hinfinite : Number.isFinite x = false := eq_false_of_ne_true hfinite
    obtain ⟨s₁, hrun, -⟩ := (runLoad_eq_done hne (s := { s with env := .empty }) hstore hentry
      (toText_ne_nil x)).1 (h .empty (by simp))
    have hfailed : run settings (depth + 2) (Number.toText x) { s with env := .empty } = _ :=
      run_toText_infinite hinfinite (Env.lookup_empty _) (depth + 1)
    cases hfailed.symm.trans hrun
  | .text t => exact hquote t rfl
  | .callable none =>
    have hload := h .empty (by simp)
    rw [runLoad_nil hne (s := { s with env := .empty }) hstore hentry] at hload
    cases hload
  | .callable (some f) =>
    refine restorable_callable (s := s) hbuiltins depth fun env henv => ?_
    refine (runLoad_eq_done hne (s := { s with env }) hstore hentry f.source_ne_nil).1 (h env ?_)
    rintro g ⟨⟩
    exact henv

/-! ### What comes back -/

/-- The store of the second state has the same entry of a name as that of the first. -/
def SameEntry (name : Text) (s t : State) : Prop :=
  ∃ store store', s.store = some store ∧ t.store = some store' ∧ store'.get? name = store.get? name

/-- Loading a name gives the value, binds the name to it, and changes nothing else. -/
def Restores (settings : Settings) (depth : Nat) (name : Text) (v : Value) (t : State) : Prop :=
  ∀ call rest, Builtin.run settings (run settings depth) call (.text name :: rest) .load t =
    (.done v, { t with env := t.env.set name v })

/-- After a value was stored, it comes back wherever its entry is unchanged, exactly if it is
restorable; no environment may bind the source form of a function as if it were a name. Where one
does bind it to a function, that function comes back instead. -/
theorem load_restores_iff {store : Store} {v w : Value} {call : Command.Call} {rest : List Value}
    (hbuiltins : settings.builtins = true) (hstore : s.store = some store)
    (hbound : s.env.lookup name = some v)
    (hpersist : Builtin.run settings self call (.text name :: rest) .persist s = (.done w, s'))
    (depth : Nat) :
    ((∀ t, SameEntry name s' t → (∀ f, v = .callable (some f) → t.env.lookup f.source = none) →
        Restores settings (depth + 2) name v t) ↔ Restorable name v) ∧
    ∀ f g t, v = .callable (some f) → f.Readable → SameEntry name s' t →
      t.env.lookup f.source = some (.callable g) →
      Restores settings (depth + 2) name (.callable g) t := by
  obtain ⟨hne, hquote, stored, rfl, hentry⟩ := of_runPersist hstore hbound hpersist
  have hsame : ∀ {t : State}, SameEntry name { s with store := some stored } t →
      ∃ store', t.store = some store' ∧ store'.get? name = .ok (some v.source) := by
    rintro t ⟨_, store', ⟨⟩, ht, hget⟩
    exact ⟨store', ht, hget.trans hentry⟩
  refine ⟨⟨fun h => ?_, fun h t ht hfree call rest => ?_⟩, ?_⟩
  · refine restorable_of_load (s := { s with store := some stored }) hbuiltins hne rfl hentry hquote
      fun env henv => h { s with env, store := some stored } ?_ henv ⟨[], [], none⟩ []
    exact ⟨stored, stored, rfl, rfl, rfl⟩
  · obtain ⟨store', hstore', hget⟩ := hsame ht
    obtain ⟨s₁, hrun, hs₁⟩ := h.run_source hbuiltins hfree depth
    exact (runLoad_eq_done hne hstore' hget h.source_ne_nil).2 ⟨s₁, hrun, hs₁.symm⟩
  · rintro f g t rfl hreadable ht hshadow call rest
    obtain ⟨store', hstore', hget⟩ := hsame ht
    refine (runLoad_eq_done hne hstore' hget f.source_ne_nil).2 ⟨t, ?_, rfl⟩
    have hform : Form.ofText f.source = .other :=
      Form.ofText_other f.ofText?_source f.literal?_source (.inr hreadable.not_equation)
    exact (evaluate_bound hform hshadow).trans rfl

def doubling : Function :=
  ⟨"double".toList, [['x']], "if(x > 9)\x7bprint(\"large\")\x7d\nreturn=x*2".toList⟩

/-- A state in which the function is bound and the store is empty. -/
def doublingState : State where
  env := Env.empty.set doubling.name (.callable (some doubling))
  store := some (.memory .empty)

theorem load_doubling :
    let persisted := Builtin.run {} (run {} 0) ⟨[], [], none⟩ [.text doubling.name] .persist
      doublingState
    persisted.1 = .done .null ∧
      Restores {} 2 doubling.name (.callable (some doubling))
        { persisted.2 with env := .empty } := by
  intro persisted
  have hbuiltins : ({} : Settings).builtins = true := rfl
  have hbound : doublingState.env.lookup doubling.name = some (.callable (some doubling)) := by
    decide +kernel
  have hpersist : persisted.1 = .done .null := by decide +kernel
  have hkept : persisted.2.store.isSome = true := by decide +kernel
  have hreadable : doubling.Readable :=
    ⟨by decide +kernel, by decide +kernel, by decide +kernel, by decide +kernel⟩
  obtain ⟨stored, hstored⟩ := Option.isSome_iff_exists.1 hkept
  refine ⟨hpersist, ?_⟩
  refine (load_restores_iff hbuiltins rfl hbound (Prod.ext hpersist rfl) 0).1.2 ⟨rfl, hreadable⟩ _
    ⟨stored, stored, hstored, hstored, rfl⟩ ?_
  exact fun f _ => Env.lookup_empty f.source

end Scriptlet.Script
