import Mathlib.Algebra.BigOperators.Group.List.Basic
import Mathlib.Algebra.Order.Monoid.Defs

/-!
# What a path costs

A computation goes from one wait to the next and ends in one of them; a path lists its
waits, each with what it took. A potential that pays for every step bounds what the waits
of a path take together, and the rest of the path may be bounded in another way.
-/

namespace TimedPaths

set_option autoImplicit false

universe u v
variable {σ : Type u} {M : Type v}

inductive Path (goes : σ → σ → Prop) (ends : σ → Prop) : σ → List (σ × M) → Prop where
  | last (s : σ) (took : M) (h : ends s) : Path goes ends s [(s, took)]
  | next (s t : σ) (took : M) (rest : List (σ × M)) (h : goes s t) (path : Path goes ends t rest) :
      Path goes ends s ((s, took) :: rest)

variable [AddCommMonoid M]

def total (path : List (σ × M)) : M := (path.map Prod.snd).sum

def spent (p : σ → Bool) (path : List (σ × M)) : M := total (path.filter fun x => p x.1)

@[simp] theorem total_nil : total ([] : List (σ × M)) = 0 := rfl

@[simp] theorem total_cons (x : σ × M) (path : List (σ × M)) :
    total (x :: path) = x.2 + total path := by
  simp [total]

@[simp] theorem spent_nil (p : σ → Bool) : spent p ([] : List (σ × M)) = 0 := rfl

theorem spent_cons (p : σ → Bool) (x : σ × M) (path : List (σ × M)) :
    spent p (x :: path) = (if p x.1 then x.2 else 0) + spent p path := by
  cases h : p x.1 with
  | false => simp [spent, h]
  | true => simp [spent, h]

theorem spent_add_spent_not (p : σ → Bool) (path : List (σ × M)) :
    spent p path + spent (fun s => !p s) path = total path := by
  induction path with
  | nil => exact add_zero 0
  | cons x path ih =>
    rw [total_cons, ← ih, spent_cons, spent_cons]
    cases p x.1 with
    | false => simp only [Bool.false_eq_true, ↓reduceIte, Bool.not_false, zero_add, add_left_comm]
    | true => simp only [↓reduceIte, Bool.not_true, Bool.false_eq_true, zero_add, add_assoc]

/-- The waits satisfying `p` of a path take at most what a potential pays for. -/
theorem spent_le_potential [PartialOrder M] [IsOrderedAddMonoid M] {goes : σ → σ → Prop}
    {ends : σ → Prop} {s : σ} {path : List (σ × M)} (h : Path goes ends s path) (p : σ → Bool)
    (bound potential : σ → M)
    (step : ∀ s t, goes s t → (if p s then bound s else 0) + potential t ≤ potential s)
    (last : ∀ s, ends s → (if p s then bound s else 0) ≤ potential s)
    (hb : ∀ x ∈ path, p x.1 = true → x.2 ≤ bound x.1) : spent p path ≤ potential s := by
  have hpay : ∀ x ∈ path, (if p x.1 then x.2 else 0) ≤ if p x.1 then bound x.1 else 0 := by
    intro x hx
    by_cases hp : p x.1 = true
    · simpa only [if_pos hp] using hb x hx hp
    · simp only [if_neg hp, le_refl]
  induction h with
  | last s took h =>
    rw [spent_cons, spent_nil, add_zero]
    exact (hpay _ List.mem_cons_self).trans (last s h)
  | next s t took rest h path ih =>
    rw [spent_cons]
    have hrest := ih (fun x hx => hb x (List.mem_cons_of_mem _ hx))
      (fun x hx => hpay x (List.mem_cons_of_mem _ hx))
    calc
      (if p s then took else 0) + spent p rest ≤ (if p s then bound s else 0) + potential t :=
        add_le_add (hpay _ List.mem_cons_self) hrest
      _ ≤ potential s := step s t h

end TimedPaths
