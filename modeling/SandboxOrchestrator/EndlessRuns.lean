import SandboxOrchestrator.StartWork
import SandboxOrchestrator.SweepEnforces

/-!
# Endless runs in which nothing is neglected

What the results about endless runs assume of the environment: jobs are taken, sweeps succeed
again and again, the clock goes on. Every finite run that leaves nothing in flight and nothing
queued goes on as such a run.
-/

namespace SandboxOrchestrator

set_option autoImplicit false

/-- Workers take the jobs in their queues. -/
def JobsTaken {settings : Settings} (x : EndlessRun settings) : Prop :=
  x.Fair (fun s job => job ∈ s.world.queue) fun a job => ∃ pid, a = .deliver pid job

/-- The steps that concern the start of the sandbox: ids are drawn once, its job is not lost and
from some point on not delivered once more. -/
structure StartKept (sid : Uuid) {settings : Settings} (x : EndlessRun settings) : Prop where
  fresh : x.Always Fresh
  kept : x.Always (NotLost settings sid)
  once : ∃ n, ∀ m, n ≤ m → DeliveredOnce sid (x.state m) (x.action m) (x.state (m + 1))

/-- Again and again a sweep begins whose calls all succeed. -/
def SweepsSucceed {settings : Settings} (x : EndlessRun settings) : Prop :=
  ∀ n, ∃ m pid, n ≤ m ∧ (x.state m).proc pid = some (.sweep .start) ∧
    ∀ k, m ≤ k → (∀ j, m ≤ j → j ≤ k → (x.state j).proc pid ≠ none) →
      Succeeds pid (x.state k) (x.action k) (x.state (k + 1))

def ClockGoesOn {settings : Settings} (x : EndlessRun settings) : Prop :=
  ∀ t, ∃ n, t ≤ (x.state n).world.now

/-! ## The assumptions can be met -/

/-- The clock goes on at every even step, and the sweeps of handler `0` at the odd ones. -/
def sweepOn (n : Nat) (s : State) : Action :=
  if n % 2 = 0 then .tick (s.world.now + 1) else if (s.proc 0).isSome then .ok 0 else .sweep 0

structure OnlySweeps (s : State) : Prop where
  provenance : Provenance s
  procs : ∀ pid proc, s.proc pid = some proc → pid = 0 ∧ ∃ p, proc = .sweep p
  queue : s.world.queue = []

section

variable {settings : Settings} {s t : State} {n : Nat}

theorem sweepOn_cases (n : Nat) (s : State) :
    (∃ now, sweepOn n s = .tick now) ∨ sweepOn n s = .ok 0 ∨ sweepOn n s = .sweep 0 := by
  unfold sweepOn
  split
  · exact .inl ⟨_, rfl⟩
  · split
    · exact .inr (.inl rfl)
    · exact .inr (.inr rfl)

theorem OnlySweeps.possible (hs : OnlySweeps s) (n : Nat) : ∃ t, step settings s (sweepOn n s) = some t := by
  unfold sweepOn
  split
  · exact ⟨_, if_pos (Int.le_add_one (Int.le_refl _))⟩
  · split
    · rename_i hsome
      obtain ⟨proc, found⟩ := Option.isSome_iff_exists.mp hsome
      exact await_possible hs.provenance found .ok {}
    · rename_i hnone
      exact State.spawn_of_idle 0 (by simpa using hnone) _

theorem OnlySweeps.keeps (hs : OnlySweeps s) (h : step settings s (sweepOn n s) = some t) :
    OnlySweeps t where
  provenance := provenance_step hs.provenance h
  procs pid proc hp := by
    cases (stepped h).came hp with
    | stayed found => exact hs.procs pid proc found
    | spawned world drawn spawn =>
      generalize ha : sweepOn n s = a at spawn
      rcases sweepOn_cases n s with ⟨now, htick⟩ | hok | hsweep
      · cases htick.symm.trans ha
        cases spawn
      · cases hok.symm.trans ha
        cases spawn
      · cases hsweep.symm.trans ha
        cases spawn
        exact ⟨rfl, _, rfl⟩
    | resumed how choice old events isAwait found lives goes =>
      obtain ⟨rfl, p, rfl⟩ := hs.procs pid old found
      cases goes
      exact ⟨rfl, _, rfl⟩
  queue := by
    refine List.eq_nil_iff_forall_not_mem.mpr fun job hjob => ?_
    rcases (stepped h).mem_queue hjob with hold | ⟨pid, how, choice, proc, -, found, hnew⟩
    · rw [hs.queue] at hold
      cases hold
    · obtain ⟨-, p, rfl⟩ := hs.procs pid proc found
      rcases hnew with hrequest | ⟨old, hold, -⟩
      · cases Proc.asks_of hrequest
      · cases hold

def sweepSchedule (settings : Settings) : LabelledRuns.InfiniteRun.Schedule (step settings) OnlySweeps where
  act := sweepOn
  possible n _ hs := hs.possible n
  pres _ _ _ hs h := hs.keeps h

/-- From every state with nothing in flight and nothing queued: an endless run of sweeps. -/
def sweeping (settings : Settings) (hs : OnlySweeps s) : EndlessRun settings :=
  (sweepSchedule settings).run hs

variable {hs : OnlySweeps s}

theorem sweeping_only (n : Nat) : OnlySweeps ((sweeping settings hs).state n) :=
  (sweepSchedule settings).holds hs n

theorem sweeping_action (n : Nat) :
    (sweeping settings hs).action n = sweepOn n ((sweeping settings hs).state n) := rfl

theorem sweeping_calls : CallsResolve (sweeping settings hs) := by
  intro n pid hheld
  refine ⟨2 * n + 1, by omega, .ok, {}, ?_⟩
  have hsome := hheld (2 * n + 1) (by omega)
  obtain ⟨proc, found⟩ := Option.isSome_iff_exists.mp hsome
  obtain ⟨rfl, -⟩ := (sweeping_only (2 * n + 1)).procs pid proc found
  rw [sweeping_action, sweepOn, if_neg (by omega), if_pos hsome]
  rfl

theorem sweeping_jobs : JobsTaken (sweeping settings hs) := by
  intro n job hheld
  have hjob : job ∈ ((sweeping settings hs).state n).world.queue := hheld n (Nat.le_refl n)
  rw [(sweeping_only n).queue] at hjob
  cases hjob

theorem sweeping_tick (n : Nat) : ((sweeping settings hs).state (2 * n + 1)).world.now =
      ((sweeping settings hs).state (2 * n)).world.now + 1 ∧
    ((sweeping settings hs).state (2 * n + 1)).proc 0 = ((sweeping settings hs).state (2 * n)).proc 0 := by
  have hstep := (sweeping settings hs).steps (2 * n)
  rw [sweeping_action, sweepOn, if_pos (Nat.mul_mod_right 2 n), step,
    if_pos (Int.le_add_one (Int.le_refl _))] at hstep
  rw [← Option.some.inj hstep]
  exact ⟨rfl, rfl⟩

theorem sweeping_clock : ClockGoesOn (sweeping settings hs) := by
  have hnow : ∀ k : Nat, ((sweeping settings hs).state 0).world.now + k ≤
      ((sweeping settings hs).state (2 * k)).world.now := by
    intro k
    induction k with
    | zero => exact Int.le_of_eq (Int.add_zero _)
    | succ k ih =>
      have htick := (@sweeping_tick settings s hs k).1
      have hle := (stepped ((sweeping settings hs).steps (2 * k + 1))).now_le
      rw [Nat.mul_succ, Int.natCast_succ, ← Int.add_assoc]
      exact Int.le_trans (Int.add_le_add_right ih 1) (htick ▸ hle)
  intro time
  refine ⟨_, Int.le_trans ?_ (hnow (time - ((sweeping settings hs).state 0).world.now).toNat)⟩
  exact Int.le_add_of_sub_left_le (Int.self_le_toNat _)

theorem sweeping_sweeps : SweepsSucceed (sweeping settings hs) := by
  -- at an odd step without a sweep one begins
  have hbegin : ∀ n, n % 2 ≠ 0 → ((sweeping settings hs).state n).proc 0 = none →
      ((sweeping settings hs).state (n + 1)).proc 0 = some (.sweep .start) := by
    intro n hodd hnone
    have hstep := (sweeping settings hs).steps n
    rw [sweeping_action, sweepOn, if_neg hodd, if_neg (by rw [hnone]; decide)] at hstep
    obtain ⟨-, -, -, hprocs⟩ := State.proc_spawn hstep
    rw [hprocs, if_pos rfl]
  have hsucceeds : ∀ k, Succeeds 0 ((sweeping settings hs).state k) ((sweeping settings hs).action k)
      ((sweeping settings hs).state (k + 1)) := by
    intro k how choice ha
    rw [sweeping_action] at ha
    rcases sweepOn_cases k ((sweeping settings hs).state k) with ⟨now, htick⟩ | hok | hsweep
    · cases htick.symm.trans ha
    · cases hok.symm.trans ha
      rfl
    · cases hsweep.symm.trans ha
  intro n
  obtain ⟨m, hm, hnone⟩ := (@sweeping_calls settings s hs).ends n 0
  rcases Nat.mod_two_eq_zero_or_one m with heven | hodd
  · obtain ⟨k, rfl⟩ : ∃ k, m = 2 * k := ⟨m / 2, by omega⟩
    rw [← (sweeping_tick k).2] at hnone
    exact ⟨2 * k + 2, 0, by omega, hbegin (2 * k + 1) (by omega) hnone, fun k _ _ => hsucceeds k⟩
  · exact ⟨m + 1, 0, by omega, hbegin m (by omega) hnone, fun k _ _ => hsucceeds k⟩

theorem sweeping_startKept (sid : Uuid) : StartKept sid (sweeping settings hs) where
  fresh n := by
    rw [sweeping_action]
    rcases sweepOn_cases n ((sweeping settings hs).state n) with ⟨now, h⟩ | h | h <;> rw [h] <;> rfl
  kept n := by
    rw [sweeping_action]
    rcases sweepOn_cases n ((sweeping settings hs).state n) with ⟨now, h⟩ | h | h
    · rw [h]; rfl
    · rw [h]
      change (((sweeping settings hs).state n).proc 0).any _ = false
      cases hp : ((sweeping settings hs).state n).proc 0 with
      | none => rfl
      | some proc =>
        obtain ⟨-, p, rfl⟩ := (sweeping_only n).procs 0 proc hp
        rfl
    · rw [h]; rfl
  once := by
    refine ⟨0, fun m _ pid job ha => ?_⟩
    rw [sweeping_action] at ha
    rcases sweepOn_cases m ((sweeping settings hs).state m) with ⟨now, h⟩ | h | h <;>
      cases h.symm.trans ha

theorem exists_sweeping {now : Time} {containers : Containers} {nextObject : Nat} {sid : Uuid}
    {actions : List Action} (h : run settings (State.init now containers nextObject) actions = some s)
    (hfresh : Along settings Fresh (State.init now containers nextObject) actions)
    (hkept : Along settings (NotLost settings sid) (State.init now containers nextObject) actions)
    (hidle : s.procs.rows = []) (hqueue : s.world.queue = []) :
    ∃ x : EndlessRun settings, x.state 0 = State.init now containers nextObject ∧
      x.state actions.length = s ∧ StartKept sid x ∧ CallsResolve x ∧ JobsTaken x ∧ ClockGoesOn x ∧
      SweepsSucceed x := by
  have hs : OnlySweeps s :=
    { provenance := LabelledRuns.always (fun _ _ _ hs (h : step settings _ _ = some _) =>
        provenance_step hs h) (provenance_init ..) h
      procs := fun pid proc found => by cases (State.idle_of_rows hidle pid).symm.trans found
      queue := hqueue }
  have hrest := @sweeping_startKept settings s hs sid
  have hzero : (sweeping settings hs).state 0 = s := rfl
  let x : EndlessRun settings := .after h (sweeping settings hs) hzero
  have hstate : ∀ n, x.state (actions.length + n) = (sweeping settings hs).state n :=
    LabelledRuns.InfiniteRun.after_state
  have haction : ∀ n, x.action (actions.length + n) = (sweeping settings hs).action n :=
    LabelledRuns.InfiniteRun.after_action
  refine ⟨x, LabelledRuns.InfiniteRun.after_zero, hstate 0, ⟨?_, ?_, ?_⟩,
    LabelledRuns.InfiniteRun.after_fair sweeping_calls,
    LabelledRuns.InfiniteRun.after_fair sweeping_jobs, ?_, ?_⟩
  · exact LabelledRuns.InfiniteRun.after_always hfresh hrest.fresh
  · exact LabelledRuns.InfiniteRun.after_always hkept hrest.kept
  · obtain ⟨n, honce⟩ := hrest.once
    refine ⟨actions.length + n, fun m hm => ?_⟩
    obtain ⟨k, rfl⟩ := Nat.exists_eq_add_of_le (Nat.le_trans (Nat.le_add_right _ n) hm)
    rw [Nat.add_assoc, hstate, hstate, haction]
    exact honce k (by omega)
  · intro time
    obtain ⟨n, hn⟩ := @sweeping_clock settings s hs time
    exact ⟨actions.length + n, by rw [hstate]; exact hn⟩
  · intro n
    obtain ⟨m, pid, hm, hstart, hsucceeds⟩ := @sweeping_sweeps settings s hs n
    refine ⟨actions.length + m, pid, by omega, by rw [hstate]; exact hstart, fun k hk hthere => ?_⟩
    obtain ⟨j, rfl⟩ := Nat.exists_eq_add_of_le (Nat.le_trans (Nat.le_add_right _ m) hk)
    rw [Nat.add_assoc, hstate, hstate, haction]
    refine hsucceeds j (by omega) fun i hi hij => ?_
    rw [← hstate]
    exact hthere (actions.length + i) (by omega) (by omega)

end

end SandboxOrchestrator
