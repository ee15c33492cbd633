import Mathlib.Tactic.Basic

/-!
# Runs of a partial step function

A machine that is fed one input at a time and may refuse it (`step` returns `none` where the
program it stands for does not continue). A result for every run is one about `StepSystem.Reach`,
whose only rule is the last step; `Reach.invariant` is its induction, and `exec` is the executable
side, so that a concrete run can be evaluated.

Inputs are admitted by a predicate on the state they are taken in: the environment's contract
(times that do not go back, buffers of the right length), or a condition under which a result
holds. Weakening the contract only adds runs (`Reach.mono`).
-/

/-- An initial state and a step that may get stuck. -/
structure StepSystem (σ ι : Type*) where
  /-- The state before any input. -/
  init : σ
  /-- The state after one input, if there is one. -/
  step : σ → ι → Option σ

namespace StepSystem

variable {σ ι : Type*} (S : StepSystem σ ι)

/-- The states reached from the initial one by inputs that `ok` admits. -/
inductive Reach (ok : σ → ι → Prop) : σ → Prop
  | init : Reach ok S.init
  | step {s t : σ} {i : ι} : Reach ok s → ok s i → S.step s i = some t → Reach ok t

variable {S}

/-- **Induction along a run.** -/
theorem Reach.invariant {ok : σ → ι → Prop} {P : σ → Prop} (h₀ : P S.init)
    (hstep : ∀ {s t : σ} {i : ι}, P s → ok s i → S.step s i = some t → P t) {s : σ}
    (h : S.Reach ok s) : P s := by
  induction h with
  | init => exact h₀
  | step _ hok hs ih => exact hstep ih hok hs

/-- A weaker contract admits every run of a stronger one. -/
theorem Reach.mono {ok ok' : σ → ι → Prop} (hle : ∀ s i, ok s i → ok' s i) {s : σ}
    (h : S.Reach ok s) : S.Reach ok' s := by
  induction h with
  | init => exact .init
  | step _ hok hs ih => exact .step ih (hle _ _ hok) hs

variable (S)

/-- Feed a list of inputs, stopping with `none` at the first one that is not admitted or that
the machine refuses. -/
def exec (ok : σ → ι → Prop) [∀ s i, Decidable (ok s i)] : σ → List ι → Option σ
  | s, [] => some s
  | s, i :: is => if ok s i then (S.step s i).bind fun t ↦ exec ok t is else none

variable {S}

theorem exec_cons_eq_some {ok : σ → ι → Prop} [∀ s i, Decidable (ok s i)] {s u : σ} {i : ι}
    {is : List ι} : S.exec ok s (i :: is) = some u ↔
      ok s i ∧ ∃ t, S.step s i = some t ∧ S.exec ok t is = some u := by
  by_cases h : ok s i <;> simp [exec, h, Option.bind_eq_some_iff]

/-- Evaluating a list of inputs yields a reachable state. -/
theorem Reach.exec {ok : σ → ι → Prop} [∀ s i, Decidable (ok s i)] {s t : σ} {is : List ι}
    (hs : S.Reach ok s) (h : S.exec ok s is = some t) : S.Reach ok t := by
  induction is generalizing s with
  | nil =>
    rw [StepSystem.exec, Option.some.injEq] at h
    exact h ▸ hs
  | cons i is ih =>
    obtain ⟨hok, u, hu, h⟩ := exec_cons_eq_some.1 h
    exact ih (.step hs hok hu) h

/-- The state that a list of inputs leads to, when it leads to one. -/
theorem reach_get_exec (S : StepSystem σ ι) (ok : σ → ι → Prop) [∀ s i, Decidable (ok s i)]
    (is : List ι) (h : (S.exec ok S.init is).isSome) : S.Reach ok ((S.exec ok S.init is).get h) :=
  Reach.init.exec (Option.some_get h).symm

end StepSystem
