import Scriptlet.Proofs.Script.Congruence

/-! The limits on depth and on loops only cut an evaluation off. A failure at a limit is handed on
by every operation, also by the one that answers failures, so a run that ends in another way has met
no limit and goes the same way under wider ones. A loop without a limit is followed for a number of
rounds only; what it comes to is what it comes to from some number of rounds on. -/

namespace Scriptlet

namespace Failure

/-- A failure at one of the limits, perhaps within larger tasks. -/
def isLimit (f : Failure) : Bool :=
  match f.root with
  | tooDeep _ | tooLong _ => true
  | _ => false

theorem isLimit_during (task : Text) (f : Failure) : (during task f).isLimit = f.isLimit := rfl

theorem isPlainText_of_isLimit {f : Failure} (h : f.isLimit = true) : f.isPlainText = false := by
  unfold isLimit at h
  unfold isPlainText
  cases hroot : f.root <;> simp [hroot] at h ⊢

end Failure

namespace Script

/-! ### Cut off runs -/

/-- The run ended at a limit, or was no longer followed. -/
def Outcome.isCut {α : Type} : Outcome α → Bool
  | .done _ => false
  | .failed f => f.isLimit
  | .exhausted => true

namespace Action

variable {α β : Type} {x : Action α} {s : State}

theorem isCut_bind (h : (x s).1.isCut = true) (f : α → Action β) :
    ((x >>= f) s).1.isCut = true := by
  rw [bind_apply]
  generalize x s = first at h
  obtain ⟨a | e | -, s₁⟩ := first
  · cases h
  · exact h
  · exact h

/-- A failure at a limit is not the failure of a plain text, so it is not answered. -/
theorem isCut_recover (h : (x s).1.isCut = true) (a : α) :
    (x.recover (fun f => if f.isPlainText then some a else none) s).1.isCut = true := by
  unfold recover
  generalize x s = first at h
  obtain ⟨b | e | -, s₁⟩ := first
  · exact h
  · have hplain : e.isPlainText = false := Failure.isPlainText_of_isLimit h
    simpa [hplain] using h
  · exact h

theorem isCut_during (h : (x s).1.isCut = true) (task : Text) :
    (x.during task s).1.isCut = true := by
  unfold during
  generalize x s = first at h
  obtain ⟨b | e | -, s₁⟩ := first
  · exact h
  · exact (Failure.isLimit_during task e).trans h
  · exact h

theorem isCut_enclosed {setup : Action Unit} (h : (setup s).1.isCut = true) (x : Action α) :
    (enclosed setup x s).1.isCut = true := by
  unfold enclosed
  generalize setup s = first at h
  obtain ⟨⟨⟩ | e | -, s₁⟩ := first
  · cases h
  · exact h
  · exact h

end Action

/-- The second action does what the first does, wherever that is not cut off. -/
def cutOff : Congruence where
  rel x y := ∀ s, (x s).1.isCut = true ∨ y s = x s
  result _ _ := .inr rfl
  fail _ _ _ := .inr rfl
  bind {_ _ x _ f _} hx hf s := by
    obtain hcut | heq := hx s
    · exact .inl (Action.isCut_bind hcut f)
    · rw [Action.bind_apply, Action.bind_apply, heq]
      rcases x s with ⟨a | e | -, s₁⟩
      · exact hf a s₁
      · exact .inr rfl
      · exact .inr rfl
  recover a hx s := by
    refine (hx s).imp (fun hcut => Action.isCut_recover hcut a) fun heq => ?_
    rw [Action.recover, heq, Action.recover]
  during task hx s := by
    refine (hx s).imp (fun hcut => Action.isCut_during hcut task) fun heq => ?_
    rw [Action.during, heq, Action.during]
  env _ := .inr rfl
  store _ := .inr rfl
  lookup _ _ := .inr rfl
  bindName _ _ _ := .inr rfl
  setStore _ _ := .inr rfl
  print _ _ := .inr rfl
  readLine _ _ := .inr rfl
  inScope enter keep hx s := by
    refine (hx { s with env := enter s.env }).imp id fun heq => ?_
    rw [Action.inScope, heq, Action.inScope]
  enclosed {_ setup _ x _} hsetup hx s := by
    obtain hcut | heq := hsetup s
    · exact .inl (Action.isCut_enclosed hcut x)
    · rw [Action.enclosed, Action.enclosed, heq]
      rcases setup s with ⟨- | e | -, s₁⟩
      · refine (hx s₁).imp id fun heq => ?_
        simp only [heq]
      · exact .inr rfl
      · exact .inr rfl

/-! ### Wider limits -/

/-- How many rounds of a loop are followed. -/
def Settings.rounds (settings : Settings) : Nat :=
  if 0 < settings.loopLimit then settings.loopLimit + 1 else settings.fuel

theorem Loop.run_eq (settings : Settings) (self : Text → Action Value) (loop : Loop) :
    loop.run settings self = loop.runFrom settings self settings.rounds 0 .null := rfl

/-- The second settings differ from the first at most in wider limits. -/
structure Settings.Widens (settings settings' : Settings) : Prop
    extends settings.Alike settings' where
  limit : ∀ n, settings'.AtLimit n → settings.AtLimit n
  rounds : settings.rounds ≤ settings'.rounds

theorem Settings.Widens.refl (settings : Settings) : settings.Widens settings where
  toAlike := .refl settings
  limit _ := id
  rounds := le_rfl

/-- Settings with another limit on loops are wider if the limit is greater or there is none. -/
theorem Settings.widens_of_le {settings : Settings} {maxDepth loopLimit fuel : Nat}
    (hloop : loopLimit = 0 ∨ 1 ≤ settings.loopLimit ∧ settings.loopLimit ≤ loopLimit)
    (hfuel : settings.rounds ≤ fuel) :
    settings.Widens { settings with maxDepth, loopLimit, fuel } where
  builtins := rfl
  functions := rfl
  ignore := rfl
  limit n hn := by
    simp only [AtLimit] at hn ⊢
    omega
  rounds := by
    obtain rfl | ⟨hpos, hle⟩ := hloop
    · exact hfuel
    · have hpos' : 0 < loopLimit := by omega
      rw [Settings.rounds, Settings.rounds, if_pos (show 0 < settings.loopLimit from hpos),
        if_pos hpos']
      exact Nat.succ_le_succ hle

theorem cutOff_runFrom {settings settings' : Settings} (h : settings.Widens settings')
    {self self' : Text → Action Value} (hself : ∀ t, cutOff.rel (self t) (self' t)) (loop : Loop)
    {fuel fuel' : Nat} (hfuel : fuel ≤ fuel') (n : Nat) (last : Value) :
    cutOff.rel (loop.runFrom settings self fuel n last)
      (loop.runFrom settings' self' fuel' n last) := by
  induction fuel generalizing fuel' n last with
  | zero => exact fun _ => .inl rfl
  | succ fuel ih =>
    obtain ⟨more, rfl⟩ := Nat.exists_eq_add_of_lt hfuel
    have hblock : ∀ t, loop.block = some t →
        cutOff.rel (runBlock settings self t) (runBlock settings' self' t) := fun _ _ =>
      Congruence.runBlockIn hself h.toAlike _ _ fun _ _ _ => .inr rfl
    refine Congruence.runFrom_succ hself hblock (fun _ _ _ _ => .inl rfl) fun hn => ?_
    exact ⟨mt (h.limit n) hn, fun v => ih (Nat.le_add_right fuel more) (n + 1) v⟩

theorem cutOff_relates {settings settings' : Settings} (h : settings.Widens settings') :
    cutOff.Relates settings settings' where
  toAlike := h.toAlike
  unloadable _ _ := .inr rfl
  loop hself loop := cutOff_runFrom h hself loop h.rounds 0 .null

/-- A run that is not cut off is the same under wider limits. -/
theorem runCommands_of_widens {settings settings' : Settings} (h : settings.Widens settings')
    (hdepth : settings.maxDepth ≤ settings'.maxDepth) (commands : List Text) :
    cutOff.rel (runCommands (runCommand settings) commands)
      (runCommands (runCommand settings') commands) := by
  obtain ⟨more, hmore⟩ := Nat.exists_eq_add_of_le hdepth
  refine Congruence.runCommands (fun command => ?_) commands
  rw [runCommand, runCommand, hmore]
  exact (cutOff_relates h).run more (fun _ _ => .inl rfl) settings.maxDepth command

/-! ### What a run comes to -/

/-- What an action ends with if its loops are followed far enough. -/
def Returns {α : Type} (x : Nat → Action α) (s : State) (r : Outcome α × State) : Prop :=
  r.1 ≠ .exhausted ∧ ∃ n, ∀ fuel, n ≤ fuel → x fuel s = r

theorem Outcome.isCut_eq_false {α : Type} {r : Outcome α} (h : r ≠ .exhausted)
    (hlimit : ∀ f, r = .failed f → f.isLimit = false) : r.isCut = false := by
  cases r with
  | done a => rfl
  | failed f => exact hlimit f rfl
  | exhausted => exact absurd rfl h

/-- Following the loops further changes nothing about a run that was not cut off. -/
theorem returns_runCommands {settings : Settings} {commands : List Text} {s : State}
    (h : (runCommands (runCommand settings) commands s).1.isCut = false) :
    Returns (fun fuel => runCommands (runCommand { settings with fuel }) commands) s
      (runCommands (runCommand settings) commands s) := by
  refine ⟨fun hex => by simp [hex, Outcome.isCut] at h, settings.rounds, fun fuel hfuel => ?_⟩
  have hwidens : settings.Widens { settings with fuel } :=
    Settings.widens_of_le (by omega) hfuel
  exact (runCommands_of_widens hwidens le_rfl commands s).resolve_left (by simp [h])

/-- The limits only cut off. A run that returns, and not with a failure at a limit, returns the same
under every greater depth and under every loop limit that is greater or absent. For no evaluation
answers a failure at a limit: wherever the evaluation of the parts ends with one, anything could be
in its place, unless the whole ends with one too. -/
theorem limits_cut_off (settings : Settings) :
    (∀ (commands : List Text) (s : State) (r : Outcome Value × State) (maxDepth loopLimit : Nat),
      Returns (fun fuel => runCommands (runCommand { settings with fuel }) commands) s r →
      (∀ f, r.1 = .failed f → f.isLimit = false) → settings.maxDepth ≤ maxDepth →
      loopLimit = 0 ∨ 1 ≤ settings.loopLimit ∧ settings.loopLimit ≤ loopLimit →
      Returns (fun fuel =>
        runCommands (runCommand { settings with maxDepth, loopLimit, fuel }) commands) s r) ∧
    ∀ self self' : Text → Action Value,
      (∀ t s, (self t s).1.isCut = true ∨ self' t s = self t s) →
      ∀ command s, (evaluate settings self command s).1.isCut = true ∨
        evaluate settings self' command s = evaluate settings self command s := by
  refine ⟨fun commands s r maxDepth loopLimit hr hlimit hdepth hloop => ?_, fun self self' h => ?_⟩
  · obtain ⟨hreturns, n, hn⟩ := hr
    have hcut : r.1.isCut = false := Outcome.isCut_eq_false hreturns hlimit
    let narrow : Settings := { settings with fuel := n }
    refine ⟨hreturns, narrow.rounds, fun fuel hfuel => ?_⟩
    have hwidens : narrow.Widens { settings with maxDepth, loopLimit, fuel } :=
      Settings.widens_of_le hloop hfuel
    have hsame := runCommands_of_widens hwidens hdepth commands s
    rw [show runCommands (runCommand narrow) commands s = r from hn n le_rfl] at hsame
    exact hsame.resolve_left (by simp [hcut])
  · exact (cutOff_relates (.refl settings)).evaluate h

/-- A loop of two rounds, then a word that means nothing. -/
def countingCommands : List Text :=
  ["n=0".toList, "while(n<2)\x7bn=n+1\x7d".toList, "missing".toList]

theorem limits_cut_off_counting :
    let settings : Settings := { maxDepth := 6, loopLimit := 2 }
    let r := runCommands (runCommand settings) countingCommands {}
    r.1 = .failed (.undefined "missing".toList) ∧
      Returns (fun fuel =>
        runCommands (runCommand { settings with maxDepth := 7, loopLimit := 0, fuel })
          countingCommands) {} r := by
  intro settings r
  have houtcome : r.1 = .failed (.undefined "missing".toList) := by decide +kernel
  have hcut : r.1.isCut = false := by
    rw [houtcome]
    rfl
  have hlimit : ∀ f, r.1 = .failed f → f.isLimit = false := by
    intro f hf
    rw [houtcome] at hf
    cases hf
    rfl
  exact ⟨houtcome, (limits_cut_off settings).1 countingCommands {} r 7 0
    (returns_runCommands hcut) hlimit (by decide) (.inl rfl)⟩

end Script

end Scriptlet
