import Scriptlet.Proofs.Script.Limits
import Scriptlet.Proofs.Script.Scope

/-! Evaluation and the console. An evaluation that reads no line only writes to the console, and it
does so whatever was written, asked or left to read before. Reading is told from the prompts: on a
list of prepared lines every reading adds one. -/

namespace Scriptlet

namespace Console

/-- Lines are read from a prepared list. -/
def IsPrepared (c : Console) : Prop := ∃ rest, c.reader = .entries rest

/-- Between the two consoles something was read. -/
def Asked (c c' : Console) : Prop := c'.IsPrepared ∧ c.prompts.length < c'.prompts.length

theorem read_nil {c : Console} (h : c.reader = .entries []) (prompt : Text) :
    c.read prompt = (some (.error .endOfInput), { c with prompts := c.prompts ++ [prompt] }) := by
  simp only [read, h]

theorem read_cons {c : Console} {entry : Except ReadFault Text}
    {rest : List (Except ReadFault Text)} (h : c.reader = .entries (entry :: rest))
    (prompt : Text) :
    c.read prompt =
      (some entry, { c with reader := .entries rest, prompts := c.prompts ++ [prompt] }) := by
  simp only [read, h]

@[simp] theorem write_nil (c : Console) : c.write [] = c := by
  simp [write]

@[simp] theorem write_write (c : Console) (t u : Text) :
    (c.write t).write u = c.write (t ++ u) := by
  simp [write]

theorem Asked.write {c c' : Console} (h : c.Asked c') (t : Text) : c.Asked (c'.write t) := h

theorem Asked.trans {c c₁ c₂ : Console} (h : c.Asked c₁) (h' : c₁.Asked c₂) : c.Asked c₂ :=
  ⟨h'.1, h.2.trans h'.2⟩

end Console

namespace Script

/-- The action writes the text and does nothing else to the console. It would do the same on any
other console with the same writer. -/
def Writes {α : Type} (x : Action α) (s : State) (printed : Text) : Prop :=
  ∀ c : Console, c.writer = s.console.writer →
    x { s with console := c } = ((x s).1, { (x s).2 with console := c.write printed })

section

variable {α : Type} {x : Action α} {s : State} {printed : Text}

theorem Writes.console (h : Writes x s printed) :
    (x s).2.console = s.console.write printed :=
  congrArg (fun r : Outcome α × State => r.2.console) (h s.console rfl)

theorem writes_nil (h : ∀ c, x { s with console := c } = ((x s).1, { (x s).2 with console := c })) :
    Writes x s [] := by
  intro c _
  rw [Console.write_nil]
  exact h c

end

/-- Either the action reads a line, or it only writes to the console. -/
def framed : Congruence where
  rel x _ := ∀ s, s.console.IsPrepared → s.console.Asked (x s).2.console ∨ ∃ t, Writes x s t
  result _ _ _ := .inr ⟨[], writes_nil fun _ => rfl⟩
  fail _ _ _ _ := .inr ⟨[], writes_nil fun _ => rfl⟩
  bind {_ _ x _ f _} hx hf s hs := by
    obtain hasked | ⟨t, ht⟩ := hx s hs
    · refine .inl ?_
      rw [Action.bind_apply]
      generalize x s = first at hasked
      obtain ⟨a | e | -, s₁⟩ := first
      · obtain hagain | ⟨u, hu⟩ := hf a s₁ hasked.1
        · exact hasked.trans hagain
        · exact hu.console ▸ hasked.write u
      · exact hasked
      · exact hasked
    · have hconsole := ht.console
      rcases hfirst : x s with ⟨a | e | -, s₁⟩
      · obtain ⟨env, store, _⟩ := s₁
        obtain rfl : _ = s.console.write t := by simpa only [hfirst] using hconsole
        refine (hf a ⟨env, store, s.console.write t⟩ hs).imp (fun hasked => ?_)
          fun ⟨u, hu⟩ => ⟨t ++ u, fun c hc => ?_⟩
        · rw [Action.bind_apply, hfirst]
          exact hasked
        · have hrest := hu (c.write t) hc
          simp only [Action.bind_apply, ht c hc, hfirst, ← Console.write_write]
          exact hrest
      · exact .inr ⟨t, fun c hc => by simp only [Action.bind_apply, ht c hc, hfirst]⟩
      · exact .inr ⟨t, fun c hc => by simp only [Action.bind_apply, ht c hc, hfirst]⟩
  recover {_ x _} a hx s hs := by
    refine (hx s hs).imp (fun hasked => ?_) fun ⟨t, ht⟩ => ⟨t, fun c hc => ?_⟩
    · rw [Action.recover_snd]
      exact hasked
    · simp only [Action.recover, ht c hc]
      rcases x s with ⟨b | e | -, s₁⟩
      · rfl
      · cases hplain : e.isPlainText <;> simp [hplain]
      · rfl
  during {_ x _} task hx s hs := by
    refine (hx s hs).imp (fun hasked => ?_) fun ⟨t, ht⟩ => ⟨t, fun c hc => ?_⟩
    · rw [Action.during_snd]
      exact hasked
    · simp only [Action.during, ht c hc]
      rcases x s with ⟨b | e | -, s₁⟩ <;> rfl
  env _ _ := .inr ⟨[], writes_nil fun _ => rfl⟩
  store _ _ := .inr ⟨[], writes_nil fun _ => rfl⟩
  lookup _ _ _ := .inr ⟨[], writes_nil fun _ => rfl⟩
  bindName _ _ _ _ := .inr ⟨[], writes_nil fun _ => rfl⟩
  setStore _ _ _ := .inr ⟨[], writes_nil fun _ => rfl⟩
  print t s _ := by
    cases hwriter : s.console.writer with
    | absent =>
      refine .inr ⟨[], fun c hc => ?_⟩
      simp [Action.print, hc, hwriter]
    | working =>
      refine .inr ⟨t, fun c hc => ?_⟩
      simp [Action.print, hc, hwriter]
    | closed =>
      refine .inr ⟨[], fun c hc => ?_⟩
      simp [Action.print, hc, hwriter]
  readLine prompt s hs := by
    obtain ⟨rest, hrest⟩ := hs
    refine .inl ?_
    unfold Action.readLine
    cases rest with
    | nil =>
      rw [Console.read_nil hrest]
      exact ⟨⟨[], hrest⟩, by simp⟩
    | cons entry rest =>
      rw [Console.read_cons hrest]
      cases entry <;> exact ⟨⟨rest, rfl⟩, by simp⟩
  inScope enter keep hx s hs := by
    refine (hx { s with env := enter s.env } hs).imp id fun ⟨t, ht⟩ => ⟨t, fun c hc => ?_⟩
    simp only [Action.inScope, ht c hc]
  enclosed {_ setup _ x _} hsetup hx s hs := by
    obtain hasked | ⟨t, ht⟩ := hsetup s hs
    · refine .inl ?_
      unfold Action.enclosed
      generalize setup s = first at hasked
      obtain ⟨⟨⟩ | e | -, s₁⟩ := first
      · obtain hagain | ⟨u, hu⟩ := hx s₁ hasked.1
        · exact hasked.trans hagain
        · exact hu.console ▸ hasked.write u
      · exact hasked
      · exact hasked
    · have hconsole := ht.console
      rcases hfirst : setup s with ⟨⟨⟩ | e | -, s₁⟩
      · obtain ⟨env, store, _⟩ := s₁
        obtain rfl : _ = s.console.write t := by simpa only [hfirst] using hconsole
        refine (hx ⟨env, store, s.console.write t⟩ hs).imp (fun hasked => ?_)
          fun ⟨u, hu⟩ => ⟨t ++ u, fun c hc => ?_⟩
        · simp only [Action.enclosed, hfirst]
          exact hasked
        · have hrest := hu (c.write t) hc
          simp only [Action.enclosed, ht c hc, hfirst, ← Console.write_write]
          rw [hrest]
      · exact .inr ⟨t, fun c hc => by simp only [Action.enclosed, ht c hc, hfirst]⟩
      · exact .inr ⟨t, fun c hc => by simp only [Action.enclosed, ht c hc, hfirst]⟩

theorem framed_relates (settings : Settings) : framed.Relates settings settings :=
  Congruence.relates_self (fun _ _ => .inr ⟨[], writes_nil fun _ => rfl⟩)
    fun _ _ _ => .inr ⟨[], writes_nil fun _ => rfl⟩

/-- Commands either read a line or only write to the console. -/
theorem asked_or_writes_runCommands (settings : Settings) (commands : List Text) (s : State)
    (hs : s.console.IsPrepared) :
    s.console.Asked (runCommands (runCommand settings) commands s).2.console ∨
      ∃ t, Writes (runCommands (runCommand settings) commands) s t := by
  have hcommands : framed.rel (runCommands (runCommand settings) commands)
      (runCommands (runCommand settings) commands) :=
    Congruence.runCommands ((framed_relates settings).run 0 (fun _ => framed.fail _ rfl)
      settings.maxDepth) commands
  exact hcommands s hs

end Script

end Scriptlet
