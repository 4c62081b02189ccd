import Scriptlet.Proofs.Script.Scope
import Scriptlet.Proofs.Script.Source
import Scriptlet.Proofs.Script.Termination

/-! Loops, round by round. A round evaluates the condition and, if that holds, runs the block and
then the step. A loop with a limit goes through as many full rounds as the limit allows and then
looks at its condition once more; until then it stops where the condition does not hold, or where a
round breaks off. A counting loop does this in a scope of its own: whatever happens in it, the names
around it stay bound, and they take over their values from where the loop stopped. -/

namespace Scriptlet.Script

namespace Loop

variable (settings : Settings) (self : Text → Action Value) (loop : Loop)

/-! ### Rounds -/

/-- The block of a round. Without one the last value stays. -/
def runBody (last : Value) : Action Value := loop.block.elim (pure last) (runBlock settings self)

/-- The step of a round, if there is one. -/
def runStep : Action Value := loop.step.elim (pure .null) self

/-- A round without a failure: the condition holds, then the block runs, then the step. -/
inductive FullRound (last : Value) (s : State) (v : Value) (s' : State) : Prop
  | intro {c w : Value} {s₁ s₂ : State} (hcondition : self loop.condition s = (.done c, s₁))
    (htruthy : c.truthy = true) (hbody : loop.runBody settings self last s₁ = (.done v, s₂))
    (hstep : loop.runStep self s₂ = (.done w, s'))

/-- A round that fails, in its condition, its block or its step. -/
inductive BrokenRound (last : Value) (s : State) (f : Failure) (s' : State) : Prop
  | condition (hcondition : self loop.condition s = (.failed f, s'))
  | body {c : Value} {s₁ : State} (hcondition : self loop.condition s = (.done c, s₁))
    (htruthy : c.truthy = true) (hbody : loop.runBody settings self last s₁ = (.failed f, s'))
  | step {c v : Value} {s₁ s₂ : State} (hcondition : self loop.condition s = (.done c, s₁))
    (htruthy : c.truthy = true) (hbody : loop.runBody settings self last s₁ = (.done v, s₂))
    (hstep : loop.runStep self s₂ = (.failed f, s'))

/-- So many full rounds lead to a value of the block and a state. -/
inductive Rounds (s : State) : Nat → Value → State → Prop
  | zero : Rounds s 0 .null s
  | succ {n : Nat} {last v : Value} {s₁ s₂ : State} (hrounds : Rounds s n last s₁)
    (hround : loop.FullRound settings self last s₁ v s₂) : Rounds s (n + 1) v s₂

/-- How a loop ends after `n` full rounds: the condition does not hold any more, it still holds
where no further round is allowed, a further round breaks off, or the last look at the condition
fails. -/
inductive Stops (n : Nat) (last : Value) (s : State) : Outcome Value × State → Prop
  | condition {c : Value} {s' : State} (hcondition : self loop.condition s = (.done c, s'))
    (hfalsy : c.truthy = false) : Stops n last s (.done last, s')
  | limit {c : Value} {s' : State} (hlimit : n = settings.loopLimit)
    (hcondition : self loop.condition s = (.done c, s')) (htruthy : c.truthy = true) :
    Stops n last s (.failed (.tooLong settings.loopLimit), s')
  | broken {f : Failure} {s' : State} (hlimit : n < settings.loopLimit)
    (hround : loop.BrokenRound settings self last s f s') : Stops n last s (.failed f, s')
  | lastCondition {f : Failure} {s' : State} (hlimit : n = settings.loopLimit)
    (hcondition : self loop.condition s = (.failed f, s')) : Stops n last s (.failed f, s')

variable {settings self loop}

theorem round_eq (last : Value) :
    loop.round settings self last = (do
      let v ← loop.runBody settings self last
      let _ ← loop.runStep self
      return v) := by
  obtain ⟨condition, block, step⟩ := loop
  cases block <;> cases step <;> rfl

/-- What is left of a round after its condition ends with the value of the block, breaks off, or is
no longer followed. -/
theorem round_cases (last : Value) (s : State) :
    (∃ v w s₂ s', loop.runBody settings self last s = (.done v, s₂) ∧
      loop.runStep self s₂ = (.done w, s')) ∨
    (∃ f s', loop.runBody settings self last s = (.failed f, s') ∨
      ∃ v s₂, loop.runBody settings self last s = (.done v, s₂) ∧
        loop.runStep self s₂ = (.failed f, s')) ∨
    (loop.round settings self last s).1 = .exhausted := by
  rw [round_eq, Action.bind_apply]
  rcases hbody : loop.runBody settings self last s with ⟨v | f | -, s₂⟩
  · simp only [Action.bind_apply]
    rcases hstep : loop.runStep self s₂ with ⟨w | f | -, s'⟩
    · exact .inl ⟨v, w, s₂, s', rfl, hstep⟩
    · exact .inr (.inl ⟨f, s', .inr ⟨v, s₂, rfl, hstep⟩⟩)
    · exact .inr (.inr rfl)
  · exact .inr (.inl ⟨f, s₂, .inl rfl⟩)
  · exact .inr (.inr rfl)

theorem round_done {last v w : Value} {s s₂ s' : State}
    (hbody : loop.runBody settings self last s = (.done v, s₂))
    (hstep : loop.runStep self s₂ = (.done w, s')) :
    loop.round settings self last s = (.done v, s') := by
  rw [round_eq]
  exact Action.bind_eq_done.2 ⟨v, s₂, hbody, Action.bind_eq_done.2 ⟨w, s', hstep, rfl⟩⟩

theorem round_failed {last : Value} {f : Failure} {s s' : State}
    (h : loop.runBody settings self last s = (.failed f, s') ∨
      ∃ v s₂, loop.runBody settings self last s = (.done v, s₂) ∧
        loop.runStep self s₂ = (.failed f, s')) :
    loop.round settings self last s = (.failed f, s') := by
  rw [round_eq]
  rcases h with hbody | ⟨v, s₂, hbody, hstep⟩
  · simp [Action.bind_apply, hbody]
  · simp [Action.bind_apply, hbody, hstep]

/-- Where a round leads to if nothing in it fails. -/
def afterRound (settings : Settings) (self : Text → Action Value) (loop : Loop) (last : Value)
    (s : State) : State :=
  (loop.runStep self (loop.runBody settings self last (self loop.condition s).2).2).2

theorem FullRound.of_outcomes (settings : Settings) (self : Text → Action Value) (loop : Loop)
    (last : Value) (s : State) {c v w : Value} (hcondition : (self loop.condition s).1 = .done c)
    (htruthy : c.truthy = true)
    (hbody : (loop.runBody settings self last (self loop.condition s).2).1 = .done v)
    (hstep : (loop.runStep self
      (loop.runBody settings self last (self loop.condition s).2).2).1 = .done w) :
    loop.FullRound settings self last s v (loop.afterRound settings self last s) :=
  .intro (Prod.ext hcondition rfl) htruthy (Prod.ext hbody rfl) (Prod.ext hstep rfl)

/-! ### One more look at the condition -/

section

variable {fuel n : Nat} {last : Value} {s : State}

theorem runFrom_falsy {c : Value} {s' : State} (hcondition : self loop.condition s = (.done c, s'))
    (hfalsy : c.truthy = false) :
    loop.runFrom settings self (fuel + 1) n last s = (.done last, s') := by
  rw [runFrom_succ, Action.bind_apply, hcondition]
  simp [hfalsy, Action.pure_apply]

theorem runFrom_condition_failed {f : Failure} {s' : State}
    (hcondition : self loop.condition s = (.failed f, s')) :
    loop.runFrom settings self (fuel + 1) n last s = (.failed f, s') := by
  rw [runFrom_succ, Action.bind_apply, hcondition]

theorem runFrom_atLimit {c : Value} {s' : State} (hn : settings.AtLimit n)
    (hcondition : self loop.condition s = (.done c, s')) (htruthy : c.truthy = true) :
    loop.runFrom settings self (fuel + 1) n last s =
      (.failed (.tooLong settings.loopLimit), s') := by
  rw [runFrom_succ, Action.bind_apply, hcondition]
  simp [htruthy, hn, Action.fail]

theorem runFrom_truthy {c : Value} {s₁ : State} (hn : ¬ settings.AtLimit n)
    (hcondition : self loop.condition s = (.done c, s₁)) (htruthy : c.truthy = true) :
    loop.runFrom settings self (fuel + 1) n last s =
      (loop.round settings self last >>= loop.runFrom settings self fuel (n + 1)) s₁ := by
  rw [runFrom_succ, Action.bind_apply, hcondition]
  simp [htruthy, hn]

/-- A full round below the limit is one round less to go. -/
theorem FullRound.runFrom_eq {v : Value} {s' : State}
    (h : loop.FullRound settings self last s v s') (hn : ¬ settings.AtLimit n) :
    loop.runFrom settings self (fuel + 1) n last s =
      loop.runFrom settings self fuel (n + 1) v s' := by
  obtain ⟨hcondition, htruthy, hbody, hstep⟩ := h
  rw [runFrom_truthy hn hcondition htruthy, Action.bind_apply, round_done hbody hstep]

theorem BrokenRound.runFrom_eq {f : Failure} {s' : State}
    (h : loop.BrokenRound settings self last s f s') (hn : ¬ settings.AtLimit n) :
    loop.runFrom settings self (fuel + 1) n last s = (.failed f, s') := by
  cases h with
  | condition hcondition => exact runFrom_condition_failed hcondition
  | body hcondition htruthy hbody =>
    rw [runFrom_truthy hn hcondition htruthy, Action.bind_apply, round_failed (.inl hbody)]
  | step hcondition htruthy hbody hstep =>
    rw [runFrom_truthy hn hcondition htruthy, Action.bind_apply,
      round_failed (.inr ⟨_, _, hbody, hstep⟩)]

end

/-! ### Up to the limit -/

section

variable {n : Nat} {last : Value} {s s₁ : State}

theorem not_atLimit (hn : n < settings.loopLimit) : ¬ settings.AtLimit n := by
  intro hat
  exact absurd hat.2 (Nat.not_le.2 hn)

/-- After some full rounds the loop goes on from where they led to. -/
theorem Rounds.runFrom_eq (h : loop.Rounds settings self s n last s₁)
    (hn : n ≤ settings.loopLimit) :
    loop.runFrom settings self (settings.loopLimit + 1) 0 .null s =
      loop.runFrom settings self (settings.loopLimit - n + 1) n last s₁ := by
  induction h with
  | zero => rfl
  | @succ n last v s₁ s₂ hrounds hround ih =>
    have hleft : settings.loopLimit - n = settings.loopLimit - (n + 1) + 1 := by omega
    rw [ih (by omega), hround.runFrom_eq (not_atLimit hn), hleft]

theorem Stops.runFrom_eq {r : Outcome Value × State}
    (h : loop.Stops settings self n last s r) (hlimit : 1 ≤ settings.loopLimit) :
    loop.runFrom settings self (settings.loopLimit - n + 1) n last s = r := by
  cases h with
  | condition hcondition hfalsy => exact runFrom_falsy hcondition hfalsy
  | limit hn hcondition htruthy =>
    exact runFrom_atLimit ⟨hlimit, Nat.le_of_eq hn.symm⟩ hcondition htruthy
  | broken hn hround => exact hround.runFrom_eq (not_atLimit hn)
  | lastCondition hn hcondition => exact runFrom_condition_failed hcondition

theorem answers_round (hself : ∀ t, answers.rel (self t) (self t)) (last : Value) (s : State) :
    (loop.round settings self last s).1 ≠ .exhausted := by
  have hblock : ∀ t, loop.block = some t →
      answers.rel (runBlock settings self t) (runBlock settings self t) := by
    intro t _
    exact Congruence.runBlockIn hself (.refl settings) _ _ fun _ _ _ => nofun
  have hround : answers.rel (loop.round settings self last) (loop.round settings self last) :=
    Congruence.round hself hblock last
  exact hround s

/-- A loop with a limit comes to an end that some full rounds lead to. -/
theorem exists_stops (hself : ∀ t, answers.rel (self t) (self t)) {n : Nat} {last : Value}
    {s₁ : State} (hrounds : loop.Rounds settings self s n last s₁) (hn : n ≤ settings.loopLimit) :
    ∃ m ≤ settings.loopLimit, ∃ v s₂ r,
      loop.Rounds settings self s m v s₂ ∧ loop.Stops settings self m v s₂ r := by
  have hanswers := hself loop.condition s₁
  rcases hcondition : self loop.condition s₁ with ⟨c | f | -, s₂⟩
  · cases htruthy : c.truthy with
    | false => exact ⟨n, hn, last, s₁, _, hrounds, .condition hcondition htruthy⟩
    | true =>
      -- Below the limit there is another round, and with it one less to go.
      rcases Nat.lt_or_eq_of_le hn with hlt | heq
      · rcases @round_cases settings self loop last s₂ with
          ⟨v, w, s₃, s₄, hbody, hstep⟩ | ⟨f, s₃, hbody | ⟨v, s₄, hbody, hstep⟩⟩ | hexhausted
        · exact exists_stops hself (hrounds.succ (.intro hcondition htruthy hbody hstep)) hlt
        · exact ⟨n, hn, last, s₁, _, hrounds, .broken hlt (.body hcondition htruthy hbody)⟩
        · exact ⟨n, hn, last, s₁, _, hrounds, .broken hlt (.step hcondition htruthy hbody hstep)⟩
        · exact absurd hexhausted (answers_round hself last s₂)
      · exact ⟨n, hn, last, s₁, _, hrounds, .limit heq hcondition htruthy⟩
  · rcases Nat.lt_or_eq_of_le hn with hlt | heq
    · exact ⟨n, hn, last, s₁, _, hrounds, .broken hlt (.condition hcondition)⟩
    · exact ⟨n, hn, last, s₁, _, hrounds, .lastCondition heq hcondition⟩
  · exact absurd (congrArg Prod.fst hcondition) hanswers
termination_by settings.loopLimit - n

/-! ### How many rounds there are -/

theorem FullRound.unique {v v' : Value} {s' s'' : State}
    (h : loop.FullRound settings self last s v s')
    (h' : loop.FullRound settings self last s v' s'') : v = v' ∧ s' = s'' := by
  obtain ⟨hcondition, -, hbody, hstep⟩ := h
  obtain ⟨hcondition', -, hbody', hstep'⟩ := h'
  cases hcondition.symm.trans hcondition'
  cases hbody.symm.trans hbody'
  cases hstep.symm.trans hstep'
  exact ⟨rfl, rfl⟩

theorem Rounds.unique {v : Value} {s₂ : State} (h : loop.Rounds settings self s n last s₁)
    (h' : loop.Rounds settings self s n v s₂) : last = v ∧ s₁ = s₂ := by
  induction h generalizing v s₂ with
  | zero =>
    cases h'
    exact ⟨rfl, rfl⟩
  | succ _ hround ih =>
    cases h' with
    | succ hrounds' hround' =>
      obtain ⟨rfl, rfl⟩ := ih hrounds'
      exact hround.unique hround'

/-- Further rounds begin with a full round. -/
theorem Rounds.exists_fullRound {m : Nat} {v : Value} {s₂ : State}
    (h : loop.Rounds settings self s m v s₂) (hn : n < m) :
    ∃ last s₁ w s', loop.Rounds settings self s n last s₁ ∧
      loop.FullRound settings self last s₁ w s' := by
  induction h with
  | zero => omega
  | @succ m last v s₁ s₂ hrounds hround ih =>
    rcases Nat.lt_or_eq_of_le (Nat.le_of_lt_succ hn) with hlt | rfl
    · exact ih hlt
    · exact ⟨last, s₁, v, s₂, hrounds, hround⟩

/-- Where a loop stops below its limit there is no full round. -/
theorem Stops.not_fullRound {r : Outcome Value × State} (h : loop.Stops settings self n last s r)
    (hn : n < settings.loopLimit) {v : Value} {s' : State} :
    ¬ loop.FullRound settings self last s v s' := by
  rintro ⟨hcondition, htruthy, hbody, hstep⟩
  cases h with
  | condition hcondition' hfalsy =>
    cases hcondition.symm.trans hcondition'
    rw [htruthy] at hfalsy
    cases hfalsy
  | limit hlimit => omega
  | lastCondition hlimit => omega
  | broken _ hround =>
    cases hround with
    | condition hcondition' => cases hcondition.symm.trans hcondition'
    | body hcondition' _ hbody' =>
      cases hcondition.symm.trans hcondition'
      cases hbody.symm.trans hbody'
    | step hcondition' _ hbody' hstep' =>
      cases hcondition.symm.trans hcondition'
      cases hbody.symm.trans hbody'
      cases hstep.symm.trans hstep'

theorem Stops.le {r : Outcome Value × State} (h : loop.Stops settings self n last s₁ r)
    (hrounds : loop.Rounds settings self s n last s₁) {m : Nat} {v : Value} {s₂ : State}
    (hrounds' : loop.Rounds settings self s m v s₂) (hm : m ≤ settings.loopLimit) : m ≤ n := by
  apply Nat.le_of_not_lt
  intro hlt
  obtain ⟨last', s₁', w, s', hrounds'', hround⟩ := hrounds'.exists_fullRound hlt
  obtain ⟨rfl, rfl⟩ := hrounds.unique hrounds''
  exact h.not_fullRound (by omega) hround

/-- Before the first block, and without one, the value is null. -/
theorem Rounds.eq_null (h : loop.Rounds settings self s n last s₁)
    (hnone : n = 0 ∨ loop.block = none) : last = .null := by
  induction h with
  | zero => rfl
  | succ _ hround ih =>
    have hblock : loop.block = none := hnone.resolve_left (Nat.succ_ne_zero _)
    obtain ⟨-, -, hbody, -⟩ := hround
    rw [runBody, hblock, Option.elim_none, Action.pure_apply] at hbody
    cases hbody
    exact ih (.inr hblock)

end

end Loop

/-- The limit on loops is exact. A loop goes through a number of full rounds, which is at most the
limit and is the only one after which it can stop, and then it stops. So it ends with the value of
the last block if the condition does not hold after at most as many rounds as the limit, with a
failure at the limit if the condition still holds after that many, and with the failure of a round
that breaks off. The value is null before the first block and without one. -/
theorem loop_limit_exact (settings : Settings) (hlimit : 1 ≤ settings.loopLimit) (depth : Nat)
    (loop : Loop) (s : State) :
    let self := run settings depth
    (∃ n ≤ settings.loopLimit, ∃ v s₁, loop.Rounds settings self s n v s₁ ∧
      loop.Stops settings self n v s₁ (loop.run settings self s) ∧
      ∀ m ≤ settings.loopLimit, ∀ w s₂ r, loop.Rounds settings self s m w s₂ →
        loop.Stops settings self m w s₂ r → m = n) ∧
    (∀ n ≤ settings.loopLimit, ∀ v s₁ r, loop.Rounds settings self s n v s₁ →
      loop.Stops settings self n v s₁ r → loop.run settings self s = r) ∧
    ∀ n v s₁, loop.Rounds settings self s n v s₁ → n = 0 ∨ loop.block = none → v = .null := by
  intro self
  have hstops : ∀ n ≤ settings.loopLimit, ∀ v s₁ r, loop.Rounds settings self s n v s₁ →
      loop.Stops settings self n v s₁ r → loop.run settings self s = r := by
    intro n hn v s₁ r hrounds hends
    rw [Loop.run_eq, rounds_eq hlimit, hrounds.runFrom_eq hn]
    exact hends.runFrom_eq hlimit
  refine ⟨?_, hstops, fun n v s₁ hrounds => hrounds.eq_null⟩
  have hbegin : loop.Rounds settings self s 0 .null s := .zero
  obtain ⟨n, hn, v, s₁, r, hrounds, hends⟩ :=
    Loop.exists_stops (run_ne_exhausted hlimit depth) hbegin (Nat.zero_le _)
  refine ⟨n, hn, v, s₁, hrounds, ?_, ?_⟩
  · rw [hstops n hn v s₁ r hrounds hends]
    exact hends
  · intro m hm w s₂ r' hrounds' hends'
    exact Nat.le_antisymm (hends.le hrounds hrounds' hm) (hends'.le hrounds' hrounds hn)

/-- A loop whose condition holds for five rounds. -/
def risingLoop : Loop := ⟨"n<5".toList, some "n=n+1\nreturn=n".toList, none⟩

def risingSettings : Settings := { loopLimit := 1 }

def risingState : State := { env := Env.empty.set ['n'] (.number 0) }

theorem loop_limit_exact_rising :
    1 ≤ risingSettings.loopLimit ∧
    ∃ s₁ s₂, risingLoop.Rounds risingSettings (run risingSettings 8) risingState 1 (.number 1) s₁ ∧
      run risingSettings 8 risingLoop.condition s₁ = (.done (.number 1), s₂) ∧
      risingLoop.run risingSettings (run risingSettings 8) risingState =
        (.failed (.tooLong 1), s₂) := by
  have hlimit : 1 ≤ risingSettings.loopLimit := by decide
  have hround := Loop.FullRound.of_outcomes risingSettings (run risingSettings 8) risingLoop
    .null risingState (c := .number 1) (v := .number 1) (w := .null)
    (by decide +kernel) (by decide) (by decide +kernel) (by decide +kernel)
  have hmore : (run risingSettings 8 risingLoop.condition (risingLoop.afterRound risingSettings
      (run risingSettings 8) .null risingState)).1 = .done (.number 1) := by
    decide +kernel
  generalize risingLoop.afterRound risingSettings (run risingSettings 8) .null risingState = ended
    at hround hmore
  have hrounds : risingLoop.Rounds risingSettings (run risingSettings 8) risingState 1
      (.number 1) ended :=
    .succ .zero hround
  have hcondition : run risingSettings 8 risingLoop.condition ended =
      (.done (.number 1), (run risingSettings 8 risingLoop.condition ended).2) :=
    Prod.ext hmore rfl
  refine ⟨hlimit, ended, _, hrounds, hcondition, ?_⟩
  exact (loop_limit_exact risingSettings hlimit 8 risingLoop risingState).2.1 1 le_rfl _ _ _
    hrounds (.limit rfl hcondition (by decide))

/-! ### Counting loops -/

namespace Builtin

/-- What a counting loop does before its first round. -/
def prepareCount (self : Text → Action Value) (counter start : Text) : Action Unit := do
  let v ← self counter
  let name ← expectName (name count) .variableName v
  let first ← self start
  Action.bindName name first

/-- The variable is a name, and the loop begins with it bound to its start. -/
inductive Prepared (self : Text → Action Value) (counter start : Text) (s : State) : State → Prop
  | intro {name : Text} {first : Value} {s₁ s₂ : State}
    (hcounter : self counter s = (.done (.text name), s₁)) (hname : name ≠ [])
    (hstart : self start s₁ = (.done first, s₂)) :
    Prepared self counter start s { s₂ with env := s₂.env.set name first }

/-- The loop does not begin: its variable cannot be evaluated or is no name, or its start cannot be
evaluated. -/
inductive Unprepared (self : Text → Action Value) (counter start : Text) (s : State) :
    Failure → State → Prop
  | counter {f : Failure} {s₁ : State} (hcounter : self counter s = (.failed f, s₁)) :
    Unprepared self counter start s f s₁
  | name {v : Value} {s₁ : State} (hcounter : self counter s = (.done v, s₁))
    (hname : ∀ t, v = .text t → t = []) :
    Unprepared self counter start s (.mismatch (Builtin.name count) .variableName v) s₁
  | start {name : Text} {f : Failure} {s₁ s₂ : State}
    (hcounter : self counter s = (.done (.text name), s₁)) (hname : name ≠ [])
    (hstart : self start s₁ = (.failed f, s₂)) : Unprepared self counter start s f s₂

variable {settings : Settings} {self : Text → Action Value} {call : Command.Call}
  {counter start condition step : Text} {s s₁ : State}

theorem runCount_eq (h : call.arguments = [counter, start, condition, step]) :
    runCount settings self call = .enclosed (prepareCount self counter start)
      (Loop.run settings self ⟨condition, call.block, some step⟩) := by
  rw [runCount, h]
  rfl

theorem runCount_malformed (h : call.arguments.length ≠ 4) :
    runCount settings self call = .fail (.malformed .countArguments call.header) := by
  unfold runCount
  split
  · next hargs => simp [hargs] at h
  · rfl

theorem expectName_of_name {operation t : Text} {want : Want} (h : t ≠ []) :
    expectName operation want (.text t) = pure t := by
  obtain ⟨c, t, rfl⟩ := List.exists_cons_of_ne_nil h
  rfl

theorem expectName_of_not_name {operation : Text} {want : Want} {v : Value}
    (h : ∀ t, v = .text t → t = []) :
    expectName operation want v = .fail (.mismatch operation want v) := by
  unfold expectName
  split
  · next c t => exact absurd (h _ rfl) (List.cons_ne_nil c t)
  · rfl

theorem Prepared.prepareCount_eq (h : Prepared self counter start s s₁) :
    prepareCount self counter start s = (.done (), s₁) := by
  obtain ⟨hcounter, hname, hstart⟩ := h
  simp only [prepareCount, Action.bind_apply, hcounter, expectName_of_name hname,
    Action.pure_apply, hstart]
  rfl

theorem Unprepared.prepareCount_eq {f : Failure} (h : Unprepared self counter start s f s₁) :
    prepareCount self counter start s = (.failed f, s₁) := by
  cases h with
  | counter hcounter => simp only [prepareCount, Action.bind_apply, hcounter]
  | name hcounter hname =>
    simp only [prepareCount, Action.bind_apply, hcounter, expectName_of_not_name hname, Action.fail]
  | start hcounter hname hstart =>
    simp only [prepareCount, Action.bind_apply, hcounter, expectName_of_name hname,
      Action.pure_apply, hstart]

/-- Either the loop begins, or it fails before, or its preparation is no longer followed. -/
theorem prepareCount_cases (self : Text → Action Value) (counter start : Text) (s : State) :
    (∃ s₁, Prepared self counter start s s₁) ∨ (∃ f s₁, Unprepared self counter start s f s₁) ∨
      (prepareCount self counter start s).1 = .exhausted := by
  rcases hcounter : self counter s with ⟨v | f | -, s₁⟩
  · by_cases hname : ∀ t, v = .text t → t = []
    · exact .inr (.inl ⟨_, _, .name hcounter hname⟩)
    · obtain ⟨name, rfl, hne⟩ : ∃ t, v = .text t ∧ t ≠ [] := by simpa using hname
      rcases hstart : self start s₁ with ⟨first | f | -, s₂⟩
      · exact .inl ⟨_, .intro hcounter hne hstart⟩
      · exact .inr (.inl ⟨_, _, .start hcounter hne hstart⟩)
      · refine .inr (.inr ?_)
        simp only [prepareCount, Action.bind_apply, hcounter, expectName_of_name hne,
          Action.pure_apply, hstart]
  · exact .inr (.inl ⟨_, _, .counter hcounter⟩)
  · refine .inr (.inr ?_)
    simp only [prepareCount, Action.bind_apply, hcounter]

end Builtin

section

variable {α : Type} {setup : Action Unit} {body : Action α} {s s₁ : State}

theorem Action.names_enclosed (setup : Action Unit) (body : Action α) (s : State) :
    (Action.enclosed setup body s).2.env.names = s.env.names := by
  unfold Action.enclosed
  rcases setup s with ⟨- | f | -, s₁⟩
  · exact Env.names_mergeBack _ _ _
  · rfl
  · rfl

theorem Action.enclosed_done (h : setup s = (.done (), s₁)) :
    Action.enclosed setup body s =
      ((body s₁).1, { (body s₁).2 with env := s.env.mergeBack (body s₁).2.env [] }) := by
  simp only [Action.enclosed, h]

theorem Action.enclosed_failed {f : Failure} (h : setup s = (.failed f, s₁)) :
    Action.enclosed setup body s = (.failed f, { s₁ with env := s.env }) := by
  simp only [Action.enclosed, h]

theorem Action.enclosed_exhausted (h : (setup s).1 = .exhausted) :
    (Action.enclosed setup body s).1 = .exhausted ∧
      (Action.enclosed setup body s).2.env = s.env := by
  unfold Action.enclosed
  generalize setup s = first at h
  obtain ⟨r, s₁⟩ := first
  cases h
  exact ⟨rfl, rfl⟩

end

theorem names_runCount (settings : Settings) (self : Text → Action Value) (call : Command.Call)
    (s : State) : (Builtin.runCount settings self call s).2.env.names = s.env.names := by
  by_cases hlength : call.arguments.length = 4
  · obtain ⟨counter, start, condition, step, hargs⟩ := List.length_eq_four.1 hlength
    rw [Builtin.runCount_eq hargs]
    exact Action.names_enclosed _ _ s
  · rw [Builtin.runCount_malformed hlength]
    rfl

/-- Nothing around a counting loop is unbound on the way into it. -/
theorem names_subset_prepared {settings : Settings} {depth : Nat} {counter start : Text}
    {s s₁ : State} (h : Builtin.Prepared (run settings depth) counter start s s₁) :
    s.env.names ⊆ s₁.env.names := by
  obtain @⟨name, first, s₁, s₂, hcounter, -, hstart⟩ := h
  have hfirst := names_subset_run settings depth counter s
  have hsecond := names_subset_run settings depth start s₁
  rw [hcounter] at hfirst
  rw [hstart] at hsecond
  exact List.Subset.trans (List.Subset.trans hfirst hsecond) (Env.names_subset_set _ name first)

theorem names_subset_loop (settings : Settings) (depth : Nat) (loop : Loop) (s : State) :
    s.env.names ⊆ (loop.run settings (run settings depth) s).2.env.names := by
  have hloop : keepsNames.rel (loop.run settings (run settings depth))
      (loop.run settings (run settings depth)) :=
    (keepsNames_relates settings).loop (names_subset_run settings depth) loop
  exact hloop s

theorem runCall_count {settings : Settings} (hbuiltins : settings.builtins = true)
    {call : Command.Call} (hname : call.name = "for".toList) (self : Text → Action Value) :
    runCall settings self call = Builtin.runCount settings self call := by
  have hcount : Builtin.ofName? call.name = some .count := by
    rw [hname]
    decide
  rw [runCall, hbuiltins, if_pos rfl, hcount]
  rfl

/-- A counting loop leaves nothing behind and fails cleanly. The names around it are the same after
it as before, whatever happens. If it fails before its first look at the condition, the environment
is the same. Otherwise, and however the loop ends, every name around it has the value that the loop
has left it with, that of the variable included if it was bound before. -/
theorem counting_loop_scope (settings : Settings) (depth : Nat) (call : Command.Call) (s : State) :
    let self := run settings depth
    let ended := Builtin.runCount settings self call s
    (settings.builtins = true → call.name = "for".toList →
      runCall settings self call s = ended) ∧
    ended.2.env.names = s.env.names ∧
    (call.arguments.length ≠ 4 →
      ended = (.failed (.malformed .countArguments call.header), s)) ∧
    ∀ counter start condition step, call.arguments = [counter, start, condition, step] →
      (∀ f s₁, Builtin.Unprepared self counter start s f s₁ →
        ended = (.failed f, { s₁ with env := s.env })) ∧
      (∀ s₁, Builtin.Prepared self counter start s s₁ →
        let inner := Loop.run settings self ⟨condition, call.block, some step⟩ s₁
        ended.1 = inner.1 ∧ ended.2.store = inner.2.store ∧ ended.2.console = inner.2.console ∧
        ∀ name ∈ s.env.names, ∃ v,
          inner.2.env.lookup name = some v ∧ ended.2.env.lookup name = some v) ∧
      ((∃ s₁, Builtin.Prepared self counter start s s₁) ∨
        (∃ f s₁, Builtin.Unprepared self counter start s f s₁) ∨
        ended.1 = .exhausted ∧ ended.2.env = s.env) := by
  intro self ended
  refine ⟨?_, names_runCount settings self call s, ?_, ?_⟩
  · intro hbuiltins hname
    rw [runCall_count hbuiltins hname]
  · intro hargs
    exact congrFun (Builtin.runCount_malformed hargs) s
  · intro counter start condition step hargs
    have hended : ended = Action.enclosed (Builtin.prepareCount self counter start)
        (Loop.run settings self ⟨condition, call.block, some step⟩) s :=
      congrFun (Builtin.runCount_eq hargs) s
    refine ⟨?_, ?_, ?_⟩
    · intro f s₁ hunprepared
      rw [hended, Action.enclosed_failed hunprepared.prepareCount_eq]
    · intro s₁ hprepared inner
      rw [hended, Action.enclosed_done hprepared.prepareCount_eq]
      refine ⟨rfl, rfl, rfl, ?_⟩
      -- Neither the preparation nor the loop unbinds a name, so each still has a value to keep.
      intro name hname
      have hinner : name ∈ inner.2.env.names :=
        names_subset_loop settings depth _ s₁ (names_subset_prepared hprepared hname)
      obtain ⟨v, hv⟩ := Option.isSome_iff_exists.1 (Env.mem_names.1 hinner)
      exact ⟨v, hv, Env.lookup_mergeBack_of_bound hname hv List.not_mem_nil⟩
    · rcases Builtin.prepareCount_cases self counter start s with
        hprepared | hunprepared | hexhausted
      · exact .inl hprepared
      · exact .inr (.inl hunprepared)
      · rw [hended]
        exact .inr (.inr (Action.enclosed_exhausted hexhausted))

/-- A counting loop that sets another variable and fails in its first step. -/
def failingCall : Command.Call :=
  ⟨"for".toList, [['"', 'i', '"'], ['0'], "i<2".toList, "missing".toList], some "x=i\ny=i".toList⟩

def failingState : State := { env := (Env.empty.set ['i'] (.number 9)).set ['x'] (.number 5) }

def failingStart : State := { failingState with env := failingState.env.set ['i'] (.number 0) }

theorem counting_loop_scope_failing :
    let ended := Builtin.runCount {} (run {} 8) failingCall failingState
    ended.1 = .failed (.undefined "missing".toList) ∧ ended.2.env.names = [['i'], ['x']] ∧
      ended.2.env.lookup ['i'] = some (.number 0) ∧
      ended.2.env.lookup ['x'] = some (.number 0) := by
  have hnames : failingState.env.names = [['i'], ['x']] := by decide +kernel
  have hcounter : run {} 8 ['"', 'i', '"'] failingState = (.done (.text ['i']), failingState) :=
    run_quote (t := ['i']) (by simp) 7 failingState
  have hstart : run {} 8 ['0'] failingState = (.done (.number 0), failingState) := by
    rw [run_succ]
    exact evaluate_number (by decide +kernel) failingState
  have hprepared : Builtin.Prepared (run {} 8) ['"', 'i', '"'] ['0'] failingState failingStart :=
    .intro hcounter (List.cons_ne_nil _ _) hstart
  have hinner :
      let inner := Loop.run {} (run {} 8)
        ⟨"i<2".toList, failingCall.block, some "missing".toList⟩ failingStart
      inner.1 = .failed (.undefined "missing".toList) ∧
        inner.2.env.lookup ['i'] = some (.number 0) ∧
        inner.2.env.lookup ['x'] = some (.number 0) := by
    decide +kernel
  obtain ⟨-, hsame, -, hcases⟩ := counting_loop_scope {} 8 failingCall failingState
  have hloop := (hcases ['"', 'i', '"'] ['0'] "i<2".toList "missing".toList rfl).2.1 failingStart
    hprepared
  clear hcases
  generalize Builtin.runCount {} (run {} 8) failingCall failingState = ended at hsame hloop ⊢
  generalize Loop.run {} (run {} 8) ⟨"i<2".toList, failingCall.block, some "missing".toList⟩
    failingStart = inner at hinner hloop
  obtain ⟨houtcome, hfirst, hsecond⟩ := hinner
  obtain ⟨hended, -, -, hvalues⟩ := hloop
  obtain ⟨v, hv, hlookup⟩ := hvalues ['i'] (by rw [hnames]; decide)
  obtain ⟨w, hw, hlookup'⟩ := hvalues ['x'] (by rw [hnames]; decide)
  rw [hfirst] at hv
  rw [hsecond] at hw
  exact ⟨hended.trans houtcome, hsame.trans hnames, hlookup.trans hv.symm, hlookup'.trans hw.symm⟩

end Scriptlet.Script
