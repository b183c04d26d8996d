import Mathlib.Algebra.BigOperators.Group.Finset.Basic
import Mathlib.Algebra.Order.BigOperators.Group.Finset

/-!
# Polling under a deadline

Attempts follow each other with a pause between them until one has an answer that stops the
loop or the deadline is there, which cuts off whatever is under way. How long an attempt
takes and what it answers is the environment's choice.
-/

namespace Polling

set_option autoImplicit false

universe u

structure Attempt (A : Type u) where
  took : Nat
  answer : A

inductive Verdict (A : Type u) where
  | answered (at_ : Nat) (answer : A)
  | timedOut

variable {A : Type u}

/-- Attempt `i` starts `elapsed` after the loop did. The first argument bounds the attempts. -/
def poll (stop : A → Bool) (pause deadline : Nat) (attempts : Nat → Attempt A) :
    Nat → Nat → Nat → Verdict A
  | 0, _, _ => .timedOut
  | n + 1, i, elapsed =>
    let at_ := elapsed + (attempts i).took
    if deadline ≤ at_ then .timedOut
    else if stop (attempts i).answer then .answered at_ (attempts i).answer
    else if deadline ≤ at_ + pause then .timedOut
    else poll stop pause deadline attempts n (i + 1) (at_ + pause)

/-- Attempts that fit before the deadline, when they take no time at all. -/
def rounds (pause deadline : Nat) : Nat := deadline / pause + 1

/-- When attempt `i` starts, if no attempt before it stopped the loop. -/
def startOf (pause : Nat) (attempts : Nat → Attempt A) (i : Nat) : Nat :=
  ∑ j ∈ Finset.range i, ((attempts j).took + pause)

def finishOf (pause : Nat) (attempts : Nat → Attempt A) (i : Nat) : Nat :=
  startOf pause attempts i + (attempts i).took

section

variable {stop : A → Bool} {pause deadline : Nat} {attempts : Nat → Attempt A}

theorem startOf_succ (i : Nat) :
    startOf pause attempts (i + 1) = finishOf pause attempts i + pause := by
  rw [startOf, Finset.sum_range_succ, finishOf, startOf, Nat.add_assoc]

theorem startOf_mono (pause : Nat) (attempts : Nat → Attempt A) {i k : Nat} (h : i ≤ k) :
    startOf pause attempts i ≤ startOf pause attempts k :=
  Finset.sum_le_sum_of_subset (Finset.range_mono h)

theorem startOf_le_finishOf (pause : Nat) (attempts : Nat → Attempt A) {i k : Nat} (h : i ≤ k) :
    startOf pause attempts i ≤ finishOf pause attempts k :=
  Nat.le_trans (startOf_mono pause attempts h) (Nat.le_add_right _ _)

theorem finishOf_mono (pause : Nat) (attempts : Nat → Attempt A) {i k : Nat} (h : i ≤ k) :
    finishOf pause attempts i ≤ finishOf pause attempts k := by
  rcases Nat.lt_or_ge i k with hlt | hge
  · have hstart := startOf_mono pause attempts hlt
    rw [startOf_succ] at hstart
    exact Nat.le_trans (Nat.le_trans (Nat.le_add_right _ pause) hstart) (Nat.le_add_right _ _)
  · rw [Nat.le_antisymm h hge]

/-- What a verdict says of the attempts: the first that stops the loop, in time, or none. -/
def Verdict.Right (stop : A → Bool) (pause deadline : Nat) (attempts : Nat → Attempt A) :
    Verdict A → Prop
  | .answered at_ answer => ∃ i, at_ = finishOf pause attempts i ∧ answer = (attempts i).answer ∧
      stop answer = true ∧ at_ < deadline ∧ ∀ j < i, stop (attempts j).answer = false
  | .timedOut => ∀ i, finishOf pause attempts i < deadline → stop (attempts i).answer = false

/-- The loop from attempt `i` on, when no attempt before it stopped it. -/
theorem poll_right (n i : Nat) (henough : deadline ≤ startOf pause attempts i + n * pause)
    (hbefore : ∀ j < i, stop (attempts j).answer = false) :
    (poll stop pause deadline attempts n i (startOf pause attempts i)).Right stop pause deadline
      attempts := by
  have hout : ∀ k, deadline ≤ startOf pause attempts k →
      (∀ j < k, stop (attempts j).answer = false) →
      (Verdict.timedOut : Verdict A).Right stop pause deadline attempts := by
    intro k hk hbefore j hj
    refine hbefore j ?_
    by_contra hge
    have := startOf_le_finishOf pause attempts (Nat.le_of_not_lt hge)
    omega
  induction n generalizing i with
  | zero =>
    exact hout i (by omega) hbefore
  | succ n ih =>
    simp only [poll]
    split
    · rename_i hlate
      intro j hj
      refine hbefore j ?_
      by_contra hge
      have := finishOf_mono pause attempts (Nat.le_of_not_lt hge)
      rw [finishOf] at this
      omega
    · rename_i hearly
      split
      · rename_i hstop
        exact ⟨i, rfl, rfl, hstop, Nat.lt_of_not_le hearly, hbefore⟩
      · rename_i hgoes
        have hnext : ∀ j < i + 1, stop (attempts j).answer = false := by
          intro j hj
          rcases Nat.lt_succ_iff_lt_or_eq.mp hj with hlt | rfl
          · exact hbefore j hlt
          · exact Bool.eq_false_iff.mpr hgoes
        have hstart : startOf pause attempts i + (attempts i).took + pause =
            startOf pause attempts (i + 1) := (startOf_succ i).symm
        rw [hstart]
        split
        · rename_i hslept
          exact hout (i + 1) hslept hnext
        · refine ih (i + 1) ?_ hnext
          rw [Nat.succ_mul] at henough
          omega

theorem rounds_enough (hpause : 0 < pause) : deadline ≤ rounds pause deadline * pause := by
  have := Nat.lt_div_mul_add hpause (a := deadline)
  rw [rounds, Nat.succ_mul]
  omega

/-- The verdict of the whole loop is right, however long the attempts take. -/
theorem poll_verdict (hpause : 0 < pause) :
    (poll stop pause deadline attempts (rounds pause deadline) 0 0).Right stop pause deadline
      attempts :=
  poll_right (rounds pause deadline) 0
    (Nat.le_trans (rounds_enough hpause) (Nat.le_add_left _ _)) fun _ h => absurd h (Nat.not_lt_zero _)

theorem poll_eq_answered_iff (hpause : 0 < pause) {at_ : Nat} {answer : A} :
    poll stop pause deadline attempts (rounds pause deadline) 0 0 = .answered at_ answer ↔
      ∃ i, at_ = finishOf pause attempts i ∧ answer = (attempts i).answer ∧ stop answer = true ∧
        at_ < deadline ∧ ∀ j < i, stop (attempts j).answer = false := by
  have hright := @poll_verdict A stop pause deadline attempts hpause
  constructor
  · intro hverdict
    rw [hverdict] at hright
    exact hright
  · rintro ⟨i, rfl, rfl, hstop, hlt, hbefore⟩
    cases hverdict : poll stop pause deadline attempts (rounds pause deadline) 0 0 with
    | timedOut =>
      rw [hverdict] at hright
      rw [hright i hlt] at hstop
      cases hstop
    | answered at_ answer =>
      rw [hverdict] at hright
      obtain ⟨k, rfl, rfl, hstop', -, hbefore'⟩ := hright
      -- two first attempts are the same one
      have hik : ¬i < k := fun h => by rw [hbefore' i h] at hstop; cases hstop
      have hki : ¬k < i := fun h => by rw [hbefore k h] at hstop'; cases hstop'
      rw [Nat.le_antisymm (Nat.le_of_not_lt hik) (Nat.le_of_not_lt hki)]

end

end Polling
