import SandboxOrchestrator.Library.LabelledRuns

/-!
# What a program reaches whatever its environment chooses

A program that is alone takes one action after the other, and the environment chooses
something in each of them. `Inevitable Q s` says that from `s` it can always go on until
it reaches a state in `Q`, and that it does so after finitely many actions.
-/

namespace LabelledRuns

set_option autoImplicit false

universe u v w
variable {σ : Type u} {α : Type v} {γ : Type w}

inductive Inevitable (step : σ → α → Option σ) (act : γ → α) (Q : σ → Prop) : σ → Prop where
  | here {s : σ} (h : Q s) : Inevitable step act Q s
  | next {s : σ} (f : γ → σ) (h : ∀ c, step s (act c) = some (f c))
      (later : ∀ c, Inevitable step act Q (f c)) : Inevitable step act Q s

def actions (act : γ → α) (choices : Nat → γ) (n : Nat) : List α :=
  (List.range n).map fun i => act (choices i)

theorem actions_succ (act : γ → α) (choices : Nat → γ) (n : Nat) :
    actions act choices (n + 1) = act (choices 0) :: actions act (fun i => choices (i + 1)) n := by
  simp [actions, List.range_succ_eq_map, Function.comp_def]

variable {step : σ → α → Option σ} {act : γ → α} {Q Q' : σ → Prop}

theorem Inevitable.bind {s : σ} (h : Inevitable step act Q s)
    (hq : ∀ t, Q t → Inevitable step act Q' t) : Inevitable step act Q' s := by
  induction h with
  | here h => exact hq _ h
  | next f h later ih => exact .next f h ih

theorem Inevitable.mono {s : σ} (h : Inevitable step act Q s) (hq : ∀ t, Q t → Q' t) :
    Inevitable step act Q' s :=
  h.bind fun t ht => .here (hq t ht)

/-- Under every sequence of choices there is a run into `Q`. -/
theorem Inevitable.exists_run {s : σ} (h : Inevitable step act Q s) (choices : Nat → γ) :
    ∃ n t, run step s (actions act choices n) = some t ∧ Q t := by
  induction h generalizing choices with
  | here h => exact ⟨0, _, rfl, h⟩
  | next f h later ih =>
    obtain ⟨n, t, ht, hq⟩ := ih (choices 0) fun i => choices (i + 1)
    refine ⟨n + 1, t, ?_, hq⟩
    rw [actions_succ]
    exact run_cons_eq_some.mpr ⟨_, h _, ht⟩

end LabelledRuns
