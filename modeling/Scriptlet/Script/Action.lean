import Scriptlet.Env
import Scriptlet.Failure
import Scriptlet.Store.Basic

/-! Running a script changes the environment, the store and the console. An action is such a run: it
ends with a value, with a failure, or without an answer because a loop without a limit went on for
too long. The changes made before a failure stay. -/

namespace Scriptlet.Script

/-- What a script runs with. -/
structure Settings where
  /-- Whether the builtins can be called. -/
  builtins : Bool := true
  /-- Whether functions defined by scripts can be called. -/
  functions : Bool := true
  /-- Characters that are dropped from scripts. -/
  ignore : Text := Command.defaultIgnore
  /-- How deep commands may nest. -/
  maxDepth : Nat := 1000
  /-- How many rounds a loop may take; zero for no limit. -/
  loopLimit : Nat := 0
  /-- How many rounds of a loop without a limit are followed. -/
  fuel : Nat := Nat.pow 2 62

/-- Sets the limits. A depth below one keeps the one there is; a loop limit below one is none. -/
def Settings.withLimits (settings : Settings) (maxDepth loopLimit : Int) : Settings :=
  { settings with
    maxDepth := if maxDepth < 1 then settings.maxDepth else maxDepth.toNat
    loopLimit := loopLimit.toNat }

structure State where
  env : Env := .empty
  store : Option Store := none
  console : Console := {}

instance : Inhabited State := ⟨{}⟩

inductive Outcome (α : Type)
  | done (a : α)
  | failed (f : Failure)
  | exhausted
  deriving DecidableEq

def Action (α : Type) : Type := State → Outcome α × State

namespace Action

variable {α β : Type}

def result (a : α) : Action α := fun s => (.done a, s)

def fail (f : Failure) : Action α := fun s => (.failed f, s)

/-- The end of a loop that is no longer followed. -/
def giveUp : Action α := fun s => (.exhausted, s)

def andThen (x : Action α) (f : α → Action β) : Action β := fun s =>
  match x s with
  | (.done a, s) => f a s
  | (.failed e, s) => (.failed e, s)
  | (.exhausted, s) => (.exhausted, s)

instance : Monad Action where
  pure := result
  bind := andThen

theorem pure_apply (a : α) (s : State) : (pure a : Action α) s = (.done a, s) := rfl

theorem bind_apply (x : Action α) (f : α → Action β) (s : State) :
    (x >>= f) s =
      match x s with
      | (.done a, s) => f a s
      | (.failed e, s) => (.failed e, s)
      | (.exhausted, s) => (.exhausted, s) := rfl

/-- Answers some failures with a value; the changes made before them stay. -/
def recover (x : Action α) (answer : Failure → Option α) : Action α := fun s =>
  match x s with
  | (.failed e, s) =>
    match answer e with
    | some a => (.done a, s)
    | none => (.failed e, s)
  | r => r

/-- Hands a failure on as a value. -/
def attempt (x : Action α) : Action (Except Failure α) := fun s =>
  match x s with
  | (.done a, s) => (.done (.ok a), s)
  | (.failed e, s) => (.done (.error e), s)
  | (.exhausted, s) => (.exhausted, s)

/-- Tells a failure as one within a task. -/
def during (task : Text) (x : Action α) : Action α := fun s =>
  match x s with
  | (.failed e, s) => (.failed (.during task e), s)
  | r => r

def env : Action Env := fun s => (.done s.env, s)

def store : Action (Option Store) := fun s => (.done s.store, s)

def lookup (name : Text) : Action (Option Value) := fun s => (.done (s.env.lookup name), s)

def bindName (name : Text) (v : Value) : Action Unit := fun s =>
  (.done (), { s with env := s.env.set name v })

def setStore (store : Store) : Action Unit := fun s => (.done (), { s with store := some store })

/-- The answer of a store, or its failure. -/
def ofStore (answer : Except Store.Fault α) : Action α :=
  match answer with
  | .ok a => result a
  | .error e => fail (.store e)

/-- Changes the console. -/
def onConsole (change : Console → Console) : Action Unit := fun s =>
  (.done (), { s with console := change s.console })

def print (t : Text) : Action Unit := fun s =>
  match s.console.writer with
  | .absent => (.done (), s)
  | .closed => (.failed .write, s)
  | .working => (.done (), { s with console := s.console.write t })

/-- A line of input, unless there is nothing to read from. -/
def readLine (prompt : Text) : Action (Option Text) := fun s =>
  match s.console.read prompt with
  | (none, console) => (.done none, { s with console })
  | (some (.ok line), console) => (.done (some line), { s with console })
  | (some (.error e), console) => (.failed (.read e), { s with console })

/-- Everything still to be read. -/
def readRest : Action Text := fun s =>
  match s.console.readAll with
  | (t, console) => (.done t, { s with console })

/-- Runs on a copy of the environment, prepared by `enter`. Afterwards, and after a failure too, the
names that were bound before take over their values from the copy, except those in `keep`. -/
def inScope (enter : Env → Env) (keep : List Text) (body : Action α) : Action α := fun s =>
  match body { s with env := enter s.env } with
  | (r, inner) => (r, { inner with env := s.env.mergeBack inner.env keep })

/-- Runs `setup` and `body` on one copy of the environment. A failure of `setup` leaves the
environment as it was; after `body` the copy is merged back in any case. -/
def enclosed (setup : Action Unit) (body : Action α) : Action α := fun s =>
  match setup s with
  | (.done (), inner) =>
    match body inner with
    | (r, inner) => (r, { inner with env := s.env.mergeBack inner.env [] })
  | (.failed e, inner) => (.failed e, { inner with env := s.env })
  | (.exhausted, inner) => (.exhausted, { inner with env := s.env })

end Action

end Scriptlet.Script
