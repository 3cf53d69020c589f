import Mathlib.Logic.Relation

/-!
# Runs of a labelled step function

A system is a partial step function on states, labelled by actions: `none`
when the action is not enabled. Interleavings need nothing more, since the
action names the party that moves and carries whatever the environment chose.

A guard is a condition on an action and the state it is taken in. `Moves step
guard` relates a state to the states that runs whose every step meets the guard
can reach. Its one proof rule is `Moves.invariant`: what a guarded step keeps, a
guarded run keeps.

A script is a list of actions run in order, for reaching a particular state by
evaluation (`Moves.of_script`).
-/

set_option autoImplicit false

namespace Retrovert.Runs

variable {σ α : Type*}

/-- The guard that every step meets. -/
def unguarded : σ → α → Prop := fun _ _ => True

/-- The states that runs of steps meeting the guard lead to. -/
def Moves (step : σ → α → Option σ) (guard : σ → α → Prop) : σ → σ → Prop :=
  Relation.ReflTransGen fun before after =>
    ∃ action, guard before action ∧ step before action = some after

namespace Moves

variable {step : σ → α → Option σ} {guard weaker : σ → α → Prop}

theorem refl (state : σ) : Moves step guard state state :=
  Relation.ReflTransGen.refl

theorem trans {first second third : σ} (earlier : Moves step guard first second)
    (later : Moves step guard second third) : Moves step guard first third :=
  Relation.ReflTransGen.trans earlier later

/-- One more step at the end of a run. -/
theorem tail {first second third : σ} {action : α} (run : Moves step guard first second)
    (meets : guard second action) (stepped : step second action = some third) :
    Moves step guard first third :=
  Relation.ReflTransGen.tail run ⟨action, meets, stepped⟩

/-- One more step at the front of a run. -/
theorem head {first second third : σ} {action : α} (meets : guard first action)
    (stepped : step first action = some second) (run : Moves step guard second third) :
    Moves step guard first third :=
  Relation.ReflTransGen.head ⟨action, meets, stepped⟩ run

/-- A run under a stronger guard is a run under a weaker one. -/
theorem mono (implies : ∀ state action, guard state action → weaker state action)
    {first last : σ} (run : Moves step guard first last) : Moves step weaker first last :=
  Relation.ReflTransGen.mono
    (fun _ _ ⟨action, meets, stepped⟩ => ⟨action, implies _ _ meets, stepped⟩) _ _ run

/-- A run whose steps two systems agree on is a run of either. -/
theorem congr {other : σ → α → Option σ}
    (agree : ∀ state action, guard state action → other state action = step state action)
    {first last : σ} (run : Moves step guard first last) : Moves other guard first last :=
  Relation.ReflTransGen.mono
    (fun _ _ ⟨action, meets, stepped⟩ => ⟨action, meets, (agree _ _ meets).trans stepped⟩) _ _ run

/-- **The invariant rule.** A property that every guarded step keeps holds
wherever a guarded run leads, once it holds where the run starts. -/
theorem invariant (holds : σ → Prop)
    (keeps : ∀ before action after, guard before action → step before action = some after →
      holds before → holds after)
    {first last : σ} (run : Moves step guard first last) (start : holds first) : holds last := by
  induction run with
  | refl => exact start
  | tail _ moved ih =>
      obtain ⟨action, meets, stepped⟩ := moved
      exact keeps _ action _ meets stepped ih

end Moves

/-! ## Labelled runs -/

/-- Runs of steps meeting the guard, with the actions that were taken. -/
inductive Trace (step : σ → α → Option σ) (guard : σ → α → Prop) (first : σ) : List α → σ → Prop
  | refl : Trace step guard first [] first
  | tail {actions : List α} {second third : σ} {action : α}
      (run : Trace step guard first actions second) (meets : guard second action)
      (stepped : step second action = some third) :
      Trace step guard first (actions ++ [action]) third

namespace Trace

variable {step : σ → α → Option σ} {guard weaker : σ → α → Prop}

/-- A property of the actions taken and the state they led to holds along a run, once every
guarded step keeps it. -/
theorem invariant (holds : List α → σ → Prop)
    (keeps : ∀ actions before action after, guard before action → step before action = some after →
      holds actions before → holds (actions ++ [action]) after)
    {first last : σ} {actions : List α} (run : Trace step guard first actions last)
    (start : holds [] first) : holds actions last := by
  induction run with
  | refl => exact start
  | tail _ meets stepped ih => exact keeps _ _ _ _ meets stepped ih

theorem mono (implies : ∀ state action, guard state action → weaker state action)
    {first last : σ} {actions : List α} (run : Trace step guard first actions last) :
    Trace step weaker first actions last := by
  induction run with
  | refl => exact .refl
  | tail _ meets stepped ih => exact ih.tail (implies _ _ meets) stepped

/-- One more step at the front of a run. -/
theorem head {first second third : σ} {action : α} {actions : List α}
    (meets : guard first action) (stepped : step first action = some second)
    (run : Trace step guard second actions third) :
    Trace step guard first (action :: actions) third := by
  induction run with
  | refl =>
      have none : Trace step guard first [] first := .refl
      exact none.tail meets stepped
  | tail _ meets' stepped' ih => exact ih.tail meets' stepped'

end Trace

/-! ## Counted runs -/

/-- Runs of steps meeting the guard, with how many of their steps count. -/
inductive Counting (step : σ → α → Option σ) (guard counts : σ → α → Prop) : Nat → σ → σ → Prop
  | refl (state : σ) : Counting step guard counts 0 state state
  | counted {n : Nat} {first second third : σ} {action : α}
      (run : Counting step guard counts n first second) (meets : guard second action)
      (counted : counts second action) (stepped : step second action = some third) :
      Counting step guard counts (n + 1) first third
  | uncounted {n : Nat} {first second third : σ} {action : α}
      (run : Counting step guard counts n first second) (meets : guard second action)
      (stepped : step second action = some third) : Counting step guard counts n first third

/-- **The variant rule.** Where no step raises a measure and every step that counts lowers
it, a run of as many counting steps as the measure had brings it down to nothing. -/
theorem Counting.dwindles {step : σ → α → Option σ} {guard counts : σ → α → Prop}
    (holds : σ → Prop) (measure : σ → Nat)
    (keeps : ∀ before action after, guard before action → step before action = some after →
      holds before → holds after ∧ measure after ≤ measure before)
    (lowers : ∀ before action after, guard before action → step before action = some after →
      counts before action → holds before → measure after ≤ measure before - 1)
    {n : Nat} {first last : σ} (run : Counting step guard counts n first last)
    (start : holds first) : holds last ∧ measure last ≤ measure first - n := by
  induction run with
  | refl => exact ⟨start, Nat.le_refl _⟩
  | counted _ meets counted stepped ih =>
      obtain ⟨held, bounded⟩ := ih start
      have lower := lowers _ _ _ meets stepped counted held
      exact ⟨(keeps _ _ _ meets stepped held).1, by omega⟩
  | uncounted _ meets stepped ih =>
      obtain ⟨held, bounded⟩ := ih start
      obtain ⟨holds, lower⟩ := keeps _ _ _ meets stepped held
      exact ⟨holds, by omega⟩

/-! ## Scripts -/

/-- Take the actions of a script in order, each under the guard; `none` once one
is not enabled. -/
def script (step : σ → α → Option σ) (guard : σ → α → Prop)
    [∀ state action, Decidable (guard state action)] : σ → List α → Option σ
  | state, [] => some state
  | state, action :: rest =>
      if guard state action then
        (step state action).bind fun next => script step guard next rest
      else none

instance (state : σ) (action : α) : Decidable (unguarded state action) :=
  inferInstanceAs (Decidable True)

/-- A script that runs through is a run. -/
theorem Moves.of_script {step : σ → α → Option σ} {guard : σ → α → Prop}
    [∀ state action, Decidable (guard state action)] {first last : σ} {actions : List α}
    (ran : script step guard first actions = some last) : Moves step guard first last := by
  induction actions generalizing first with
  | nil =>
      cases ran
      exact .refl _
  | cons action rest ih =>
      simp only [script, Option.ite_none_right_eq_some, Option.bind_eq_some_iff] at ran
      obtain ⟨meets, next, stepped, rest⟩ := ran
      exact .head meets stepped (ih rest)

theorem Trace.of_script {step : σ → α → Option σ} {guard : σ → α → Prop}
    [∀ state action, Decidable (guard state action)] {first last : σ} {actions : List α}
    (ran : script step guard first actions = some last) :
    Trace step guard first actions last := by
  induction actions generalizing first with
  | nil =>
      cases ran
      exact .refl
  | cons action rest ih =>
      simp only [script, Option.ite_none_right_eq_some, Option.bind_eq_some_iff] at ran
      obtain ⟨meets, next, stepped, rest⟩ := ran
      exact .head meets stepped (ih rest)

/-- What a check finds at the end of a script holds somewhere a run leads. -/
theorem Moves.of_check (step : σ → α → Option σ) (guard : σ → α → Prop)
    [∀ state action, Decidable (guard state action)] (first : σ) (actions : List α)
    (check : σ → Bool) (checked : (script step guard first actions).any check = true) :
    ∃ last, Moves step guard first last ∧ check last = true := by
  obtain ⟨last, ran, found⟩ := (Option.any_eq_true _ _).mp checked
  exact ⟨last, .of_script ran, found⟩

theorem Trace.of_check (step : σ → α → Option σ) (guard : σ → α → Prop)
    [∀ state action, Decidable (guard state action)] (first : σ) (actions : List α)
    (check : σ → Bool) (checked : (script step guard first actions).any check = true) :
    ∃ last, Trace step guard first actions last ∧ check last = true := by
  obtain ⟨last, ran, found⟩ := (Option.any_eq_true _ _).mp checked
  exact ⟨last, .of_script ran, found⟩

end Retrovert.Runs
