import Mathlib.Order.Basic
import Mathlib.Data.List.Basic
import Mathlib.Logic.Relation

/-!
# Trails

The record an object leaves of its moves, newest first. A trail fits together: it begins
where the object began, each entry goes on where the one before it ended, and time does
not run backwards. Where moves do not lower a rank, each level is reached once.
-/

set_option autoImplicit false

universe u v w

namespace Trails

/-- A move on the record: who made it, from where to where, and when. -/
structure Entry (ℓ : Type u) (σ : Type v) (τ : Type w) where
  label : ℓ
  old : σ
  new : σ
  time : τ
  deriving DecidableEq

variable {ℓ : Type u} {σ : Type v} {τ : Type w} {move : ℓ → σ → σ → Prop}

/-- `l` leads from `origin` at `since` to `current`, its newest entry at `last`. -/
inductive Trail [LE τ] (move : ℓ → σ → σ → Prop) (origin : σ) (since : τ) :
    List (Entry ℓ σ τ) → σ → τ → Prop where
  | nil : Trail move origin since [] origin since
  | cons {l : List (Entry ℓ σ τ)} {last : τ} (label : ℓ) (old new : σ) (time : τ)
      (moves : move label old new) (later : last ≤ time) (before : Trail move origin since l old last) :
      Trail move origin since (⟨label, old, new, time⟩ :: l) new time

namespace Trail

variable [Preorder τ] {origin current : σ} {since last : τ} {l : List (Entry ℓ σ τ)}

theorem since_le (h : Trail move origin since l current last) : since ≤ last := by
  induction h with
  | nil => exact le_refl since
  | cons label old new time moves later before ih => exact le_trans ih later

theorem moves_of_mem (h : Trail move origin since l current last) {e : Entry ℓ σ τ} (he : e ∈ l) :
    move e.label e.old e.new := by
  induction h with
  | nil => cases he
  | cons label old new time moves later before ih =>
    rcases List.mem_cons.mp he with rfl | he
    · exact moves
    · exact ih he

theorem time_le (h : Trail move origin since l current last) {e : Entry ℓ σ τ} (he : e ∈ l) :
    since ≤ e.time ∧ e.time ≤ last := by
  induction h with
  | nil => cases he
  | cons label old new time moves later before ih =>
    rcases List.mem_cons.mp he with rfl | he
    · exact ⟨le_trans before.since_le later, le_refl _⟩
    · exact ⟨(ih he).1, le_trans (ih he).2 later⟩

section

variable (rank : σ → Nat) (mono : ∀ x a b, move x a b → rank a ≤ rank b)
include mono

theorem rank_le (h : Trail move origin since l current last) : rank origin ≤ rank current := by
  induction h with
  | nil => exact Nat.le_refl _
  | cons label old new time moves later before ih => exact Nat.le_trans ih (mono label old new moves)

/-- The entries that reach level `n` from below: one if the object has come that far, and
there is no other. -/
theorem countP_reaches (h : Trail move origin since l current last) (n : Nat) :
    l.countP (fun e => decide (rank e.old < n ∧ n ≤ rank e.new)) =
      if rank origin < n ∧ n ≤ rank current then 1 else 0 := by
  induction h with
  | nil =>
    rw [if_neg (by omega)]
    rfl
  | cons label old new time moves later before ih =>
    have hmono := mono label old new moves
    have horigin := before.rank_le rank mono
    rw [List.countP_cons, ih]
    simp only [decide_eq_true_eq]
    split <;> split <;> split <;> omega

end

end Trail

end Trails
