import SandboxOrchestrator.Lifecycle
import Mathlib.Data.Multiset.Basic
import Mathlib.Data.Multiset.Count

/-!
# The fast path as a protocol

One sandbox, its row, its container and the handlers and jobs that work on it, each
reduced to the phase it is in. `Move` lists what they can do to one another when no
handler is killed and no reaper runs; `Settles` is the invariant that makes the row and
the container agree once all of them are gone.
-/

namespace SandboxOrchestrator

set_option autoImplicit false

inductive Token where
  | startJob
  /-- A start delivery before its pick-up. -/
  | early
  /-- In its launch, without a container it knows of. -/
  | launching
  /-- In its launch, on a container it saw or made. -/
  | holding
  /-- About to discard what a failed launch left. -/
  | broken
  /-- About to write the outcome of a failed launch. -/
  | settling
  /-- About to discard a container nobody wants any more. -/
  | unwanted
  | stopJob
  | removing
  | finishing
  /-- A DELETE before its UPDATE. -/
  | requested
  /-- A DELETE that found the row past `running` and has not answered yet. -/
  | marked
  deriving DecidableEq

structure Fast where
  status : SandboxStatus
  container : Bool
  tokens : Multiset Token

namespace Fast

def starts (p : Fast) : Nat :=
  p.tokens.count .startJob + p.tokens.count .early + p.tokens.count .launching +
    p.tokens.count .holding + p.tokens.count .broken + p.tokens.count .settling +
    p.tokens.count .unwanted

def stops (p : Fast) : Nat :=
  p.tokens.count .stopJob + p.tokens.count .removing + p.tokens.count .finishing

end Fast

inductive Move : Fast → Fast → Prop where
  | deliverStart (st : SandboxStatus) (c : Bool) (R : Multiset Token) :
      Move ⟨st, c, .startJob ::ₘ R⟩ ⟨st, c, .early ::ₘ R⟩
  | skip (st : SandboxStatus) (c : Bool) (R : Multiset Token) (settled : st ∉ startable) :
      Move ⟨st, c, .early ::ₘ R⟩ ⟨st, c, R⟩
  | expire (st : SandboxStatus) (c : Bool) (R : Multiset Token) (open_ : st ∈ startable) :
      Move ⟨st, c, .early ::ₘ R⟩ ⟨.stopped, c, R⟩
  | pickUp (st : SandboxStatus) (c : Bool) (R : Multiset Token) (open_ : st ∈ startable) :
      Move ⟨st, c, .early ::ₘ R⟩ ⟨.starting, c, .launching ::ₘ R⟩
  | launch (st : SandboxStatus) (c c' : Bool) (R : Multiset Token) :
      Move ⟨st, c, .launching ::ₘ R⟩ ⟨st, c', .launching ::ₘ R⟩
  | hold (st : SandboxStatus) (c : Bool) (R : Multiset Token) :
      Move ⟨st, c, .launching ::ₘ R⟩ ⟨st, true, .holding ::ₘ R⟩
  | startRefused (st : SandboxStatus) (c : Bool) (R : Multiset Token) :
      Move ⟨st, c, .holding ::ₘ R⟩ ⟨st, c, .launching ::ₘ R⟩
  | launchFails (st : SandboxStatus) (c c' : Bool) (R : Multiset Token) :
      Move ⟨st, c, .launching ::ₘ R⟩ ⟨st, c', .broken ::ₘ R⟩
  | startFails (st : SandboxStatus) (c : Bool) (R : Multiset Token) :
      Move ⟨st, c, .holding ::ₘ R⟩ ⟨st, c, .broken ::ₘ R⟩
  | succeed (c : Bool) (R : Multiset Token) :
      Move ⟨.starting, c, .holding ::ₘ R⟩ ⟨.running, c, R⟩
  | overtaken (st : SandboxStatus) (c : Bool) (R : Multiset Token) (left_ : st ≠ .starting) :
      Move ⟨st, c, .holding ::ₘ R⟩ ⟨st, c, .unwanted ::ₘ R⟩
  | discardBroken (st : SandboxStatus) (c : Bool) (R : Multiset Token) :
      Move ⟨st, c, .broken ::ₘ R⟩ ⟨st, false, .settling ::ₘ R⟩
  | retry (c : Bool) (R : Multiset Token) :
      Move ⟨.starting, c, .settling ::ₘ R⟩ ⟨.queued, c, .startJob ::ₘ R⟩
  | fail (c : Bool) (R : Multiset Token) :
      Move ⟨.starting, c, .settling ::ₘ R⟩ ⟨.failed, c, R⟩
  | giveUp (st : SandboxStatus) (c : Bool) (R : Multiset Token) (left_ : st ≠ .starting) :
      Move ⟨st, c, .settling ::ₘ R⟩ ⟨st, c, R⟩
  | discardUnwanted (st : SandboxStatus) (c : Bool) (R : Multiset Token) :
      Move ⟨st, c, .unwanted ::ₘ R⟩ ⟨st, false, R⟩
  | deliverStop (st : SandboxStatus) (c : Bool) (R : Multiset Token) :
      Move ⟨st, c, .stopJob ::ₘ R⟩ ⟨st, c, .removing ::ₘ R⟩
  | remove (st : SandboxStatus) (c : Bool) (R : Multiset Token) :
      Move ⟨st, c, .removing ::ₘ R⟩ ⟨st, false, .finishing ::ₘ R⟩
  | finish (c : Bool) (R : Multiset Token) :
      Move ⟨.stopping, c, .finishing ::ₘ R⟩ ⟨.stopped, c, R⟩
  | finished (st : SandboxStatus) (c : Bool) (R : Multiset Token) (left_ : st ≠ .stopping) :
      Move ⟨st, c, .finishing ::ₘ R⟩ ⟨st, c, R⟩
  | request (st : SandboxStatus) (c : Bool) (R : Multiset Token) :
      Move ⟨st, c, R⟩ ⟨st, c, .requested ::ₘ R⟩
  | answer (st : SandboxStatus) (c : Bool) (R : Multiset Token) :
      Move ⟨st, c, .requested ::ₘ R⟩ ⟨st, c, R⟩
  | mark (st : SandboxStatus) (c : Bool) (R : Multiset Token) (active : st ∈ activeStatuses) :
      Move ⟨st, c, .requested ::ₘ R⟩ ⟨.stopping, c, .marked ::ₘ R⟩
  | marked (st : SandboxStatus) (c : Bool) (R : Multiset Token) (settled : st ∉ activeStatuses) :
      Move ⟨st, c, .requested ::ₘ R⟩ ⟨st, c, .marked ::ₘ R⟩
  | stoppedMeanwhile (st : SandboxStatus) (c : Bool) (R : Multiset Token) (left_ : st ≠ .stopping) :
      Move ⟨st, c, .marked ::ₘ R⟩ ⟨st, c, R⟩
  /-- The enqueue finds no stop job queued or running. -/
  | enqueue (st : SandboxStatus) (c : Bool) (R : Multiset Token)
      (free : Fast.stops ⟨st, c, R⟩ = 0) :
      Move ⟨st, c, .marked ::ₘ R⟩ ⟨st, c, .stopJob ::ₘ R⟩
  /-- The enqueue is a no-op. -/
  | deduplicate (st : SandboxStatus) (c : Bool) (R : Multiset Token)
      (taken : Fast.stops ⟨st, c, R⟩ ≠ 0) :
      Move ⟨st, c, .marked ::ₘ R⟩ ⟨st, c, R⟩

/-- Whatever is left to do about the row and the container, some token will do it. -/
structure Settles (p : Fast) : Prop where
  startOnce : p.starts ≤ 1
  stopOnce : p.stops ≤ 1
  unmarked : p.status.rank < 2 → p.stops = 0 ∧ p.tokens.count .marked = 0
  queued : p.status = .queued → 1 ≤ p.tokens.count .startJob + p.tokens.count .early
  starting : p.status = .starting →
    1 ≤ p.tokens.count .launching + p.tokens.count .holding + p.tokens.count .broken +
      p.tokens.count .settling
  stopping : p.status = .stopping → 1 ≤ p.stops + p.tokens.count .marked
  started : p.status = .running → p.starts = 0
  running : p.status = .running → p.container = true
  held : p.status = .starting → 1 ≤ p.tokens.count .holding → p.container = true
  attended : p.container = true → p.status = .running ∨
    1 ≤ p.tokens.count .launching + p.tokens.count .holding + p.tokens.count .broken +
      p.tokens.count .unwanted ∨
    1 ≤ p.tokens.count .stopJob + p.tokens.count .removing ∨
    p.status = .stopping ∧ p.stops = 0 ∧ 1 ≤ p.tokens.count .marked

variable {p q : Fast}

theorem Move.starts_le (h : Move p q) : q.starts ≤ p.starts := by
  cases h <;> simp [Fast.starts] <;> omega

theorem Move.stops_le_one (h : Move p q) (hp : p.stops ≤ 1) : q.stops ≤ 1 := by
  cases h <;> simp_all [Fast.stops] <;> omega

theorem Move.rank_le (h : Move p q) : p.status.rank ≤ q.status.rank := by
  cases h with
  | expire st c R open_ => simp [(mem_startable st).mp open_]
  | pickUp st c R open_ => simp [(mem_startable st).mp open_]
  | mark st c R active => exact (mem_activeStatuses st).mp active
  | _ => simp [SandboxStatus.rank]

theorem Move.unmarked (h : Move p q)
    (hp : p.status.rank < 2 → p.stops = 0 ∧ p.tokens.count .marked = 0) (hq : q.status.rank < 2) :
    q.stops = 0 ∧ q.tokens.count .marked = 0 := by
  have hbefore := hp (Nat.lt_of_le_of_lt h.rank_le hq)
  cases h with
  | mark => simp [SandboxStatus.rank] at hq
  | marked st c R settled =>
    rw [mem_activeStatuses] at settled
    simp only at hq
    omega
  | _ => simp_all [Fast.stops]

theorem Move.queued (h : Move p q) (hp : Settles p) (hq : q.status = .queued) :
    1 ≤ q.tokens.count .startJob + q.tokens.count .early := by
  have hbefore := hp.queued
  cases h <;> simp_all [startable] <;> omega

theorem Move.starting (h : Move p q) (hp : Settles p) (hq : q.status = .starting) :
    1 ≤ q.tokens.count .launching + q.tokens.count .holding + q.tokens.count .broken +
      q.tokens.count .settling := by
  have hbefore := hp.starting
  cases h <;> simp_all [startable] <;> omega

theorem Move.stopping (h : Move p q) (hp : Settles p) (hq : q.status = .stopping) :
    1 ≤ q.stops + q.tokens.count .marked := by
  have hbefore := hp.stopping
  cases h with
  | deduplicate st c R taken => exact Nat.le_add_right_of_le (Nat.one_le_iff_ne_zero.mpr taken)
  | _ => simp_all [Fast.stops] <;> omega

theorem Move.started (h : Move p q) (hp : Settles p) (hq : q.status = .running) : q.starts = 0 := by
  have hone := hp.startOnce
  cases h with
  | succeed c R =>
    simp only [Fast.starts, Multiset.count_cons_self, Multiset.count_cons_of_ne, ne_eq, reduceCtorEq,
      not_false_eq_true] at hone ⊢
    omega
  | _ =>
    have hbefore := hp.started
    simp_all [Fast.starts]

/-- Only a container in place gets its row `running`, and as long as no stop job exists
nobody but the one start delivery removes it. -/
theorem Move.running (h : Move p q) (hp : Settles p) (hq : q.status = .running) :
    q.container = true := by
  have hstarts := hp.started
  have hstops := hp.unmarked
  cases h with
  | succeed c R => exact hp.held rfl (by simp)
  | remove st c R => simp_all [Fast.stops, SandboxStatus.rank]
  | _ =>
    have hbefore := hp.running
    simp_all [Fast.starts]

theorem Move.held (h : Move p q) (hp : Settles p) (hq : q.status = .starting)
    (hh : 1 ≤ q.tokens.count .holding) : q.container = true := by
  have hone := hp.startOnce
  have hstops := hp.unmarked
  cases h with
  | hold => rfl
  | remove st c R => simp_all [Fast.stops, SandboxStatus.rank]
  | _ =>
    have hbefore := hp.held
    simp_all [Fast.starts]
    try omega

theorem Move.attended (h : Move p q) (hp : Settles p) (hc : q.container = true) :
    q.status = .running ∨
      1 ≤ q.tokens.count .launching + q.tokens.count .holding + q.tokens.count .broken +
        q.tokens.count .unwanted ∨
      1 ≤ q.tokens.count .stopJob + q.tokens.count .removing ∨
      q.status = .stopping ∧ q.stops = 0 ∧ 1 ≤ q.tokens.count .marked := by
  have hone := hp.startOnce
  have hstop := hp.stopOnce
  have hbefore := hp.attended
  have hstops := hp.unmarked
  cases h with
  | hold => right; left; simp; omega
  | launch => right; left; simp; omega
  | launchFails => right; left; simp; omega
  | mark st c R active =>
    rcases hbefore hc with hrun | hsec | hrem | ⟨hst, hno, hmarked⟩
    · simp at hrun
      subst hrun
      simp_all [SandboxStatus.rank, Fast.stops]
    · right; left; simpa using hsec
    · right; right; left; simpa using hrem
    · simp_all [Fast.stops]
  | expire st c R open_ =>
    -- Its container would have to be attended by a second delivery or by a stop job.
    have hrank : st.rank = 0 := (mem_startable st).mp open_
    rcases hbefore hc with hrun | hsec | hrem | ⟨hst, -⟩
    · simp_all [SandboxStatus.rank]
    · simp only [Fast.starts, Multiset.count_cons, reduceCtorEq, if_true, if_false] at hone hsec
      omega
    · simp_all [Fast.stops]
    · simp_all [SandboxStatus.rank]
  | _ =>
    simp only [Fast.starts, Fast.stops, Multiset.count_cons, reduceCtorEq, if_true, if_false] at * <;>
      grind

theorem Move.settles (h : Move p q) (hp : Settles p) : Settles q where
  startOnce := Nat.le_trans h.starts_le hp.startOnce
  stopOnce := h.stops_le_one hp.stopOnce
  unmarked := h.unmarked hp.unmarked
  queued := h.queued hp
  starting := h.starting hp
  stopping := h.stopping hp
  started := h.started hp
  running := h.running hp
  held := h.held hp
  attended := h.attended hp

theorem Settles.of_move (hp : Settles p) (h : Relation.ReflGen Move p q) : Settles q := by
  cases h with
  | refl => exact hp
  | single hm => exact hm.settles hp

end SandboxOrchestrator
