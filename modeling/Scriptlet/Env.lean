import Std.Data.ExtTreeMap
import Scriptlet.Value

/-! Environments bind names to values. A block runs on a copy of the environment around it; merging
the copy back takes over the values of the names that were bound before, and drops the others. -/

namespace Scriptlet

/-- Names are kept in the order of their characters. -/
structure Env where
  vars : Std.ExtTreeMap Text Value

namespace Env

def empty : Env := ⟨∅⟩

instance : Inhabited Env := ⟨empty⟩

def lookup (env : Env) (name : Text) : Option Value := env.vars[name]?

/-- The value of a name, null when it is not bound. -/
def get (env : Env) (name : Text) : Value := (env.lookup name).getD .null

def set (env : Env) (name : Text) (v : Value) : Env := ⟨env.vars.insert name v⟩

def contains (env : Env) (name : Text) : Bool := env.vars.contains name

def size (env : Env) : Nat := env.vars.size

def names (env : Env) : List Text := env.vars.keys

def toList (env : Env) : List (Text × Value) := env.vars.toList

/-- Every name of `outer` takes its value from `inner` if it is bound there, except the names in
`keep`. -/
def mergeBack (outer inner : Env) (keep : List Text) : Env :=
  ⟨outer.vars.map fun name v => if keep.contains name then v else (inner.lookup name).getD v⟩

@[ext] theorem ext {a b : Env} (h : ∀ name, a.lookup name = b.lookup name) : a = b := by
  cases a; cases b
  exact congrArg mk (Std.ExtTreeMap.ext_getElem? h)

@[simp] theorem lookup_empty (name : Text) : empty.lookup name = none := by
  simp [empty, lookup]

theorem lookup_set (env : Env) (name other : Text) (v : Value) :
    (env.set name v).lookup other = if name = other then some v else env.lookup other := by
  simp [set, lookup, Std.ExtTreeMap.getElem?_insert]

theorem lookup_mergeBack (outer inner : Env) (keep : List Text) (name : Text) :
    (outer.mergeBack inner keep).lookup name = (outer.lookup name).map fun v =>
      if keep.contains name then v else (inner.lookup name).getD v := by
  simp [mergeBack, lookup, Std.ExtTreeMap.getElem?_map]

end Env

end Scriptlet
