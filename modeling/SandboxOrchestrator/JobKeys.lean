import SandboxOrchestrator.Posting
import SandboxOrchestrator.Admission
import SandboxOrchestrator.RowFields
import SandboxOrchestrator.Labels
import Mathlib.Algebra.BigOperators.Group.List.Basic

/-!
# Jobs are neither lost nor doubled

Every job Redis accepted is queued, executed by one delivery, or done for, and its id is
taken for exactly as long. `JobStep` lists what a step can do to the jobs; a sum over the
jobs, with one weight for a queued job and one for an executing one, then gives that an id
is never queued or executed twice, and how often a job is delivered.
-/

namespace SandboxOrchestrator

set_option autoImplicit false

def Job.key (job : Job) : Task × Uuid := (job.task, job.sandboxId)

/-- `_job_id`. -/
def Job.id (job : Job) : String := sandboxJobId job.task job.sandboxId

theorem Job.id_eq_iff {job job' : Job} : job.id = job'.id ↔ job.key = job'.key := by
  rw [Job.id, Job.id, sandboxJobId_inj, Job.key, Job.key, Prod.mk.injEq]

/-- The sum over all jobs: `f` of the queued ones and `g` of the executing ones. -/
def State.charge (f g : Job → Nat) (s : State) : Nat :=
  (s.world.queue.map f).sum + (s.procs.rows.map fun e => (e.2.job?.map g).getD 0).sum

def isPlaced (key : Task × Uuid) : Event → Bool
  | .placed job => decide (job.key = key)
  | _ => false

def World.placedCount (key : Task × Uuid) (w : World) : Nat := w.log.countP (isPlaced key)

theorem World.placedCount_start (w : World) (sid : Uuid) :
    w.placedCount (.startSandbox, sid) = w.log.countP (isStartOf sid) := by
  have hsame : isPlaced (.startSandbox, sid) = isStartOf sid := by
    funext e
    cases e with
    | placed job => simp only [isPlaced, isStartOf, Job.key, Prod.mk.injEq, Bool.decide_and]
    | _ => rfl
  rw [World.placedCount, hsame]

/-! ## The jobs over one call -/

inductive JobCall (w : World) (q : Request) (w' : World) : Prop where
  | same (queue : w'.queue = w.queue) (keys : w'.jobKeys = w.jobKeys)
      (placed : ∀ key, w'.placedCount key = w.placedCount key)
  | placed (job : Job) (isEnqueue : q = .enqueue job) (fresh : job.key ∉ w.jobKeys)
      (queue : w'.queue = w.queue ++ [job]) (keys : w'.jobKeys = job.key :: w.jobKeys)
      (placed : ∀ key, w'.placedCount key = w.placedCount key + if job.key = key then 1 else 0)

theorem jobCall_after (w : World) (actor : Actor) (how : How) (choice : Choice) (q : Request) :
    JobCall w q (w.after actor how choice q) := by
  have hcount : ∀ key, (w.after actor how choice q).placedCount key = w.placedCount key ∨
      ∃ job, q = .enqueue job := by
    intro key
    have hwrites : ∀ a sid old new t, isPlaced key (.wrote a sid old new t) = false := by
      intros
      rfl
    rcases @World.countP_after w actor how choice q (isPlaced key) hwrites with h | ⟨job, hq, -⟩
    · exact .inl h
    · exact .inr ⟨job, hq⟩
  by_cases hq : ∃ job, q = .enqueue job
  · obtain ⟨job, rfl⟩ := hq
    unfold World.after
    split
    · simp only [World.perform, World.enqueue]
      split
      · exact .same rfl rfl fun _ => rfl
      · rename_i hfresh
        refine .placed job rfl hfresh rfl rfl fun key => ?_
        simp only [World.placedCount, List.countP_cons, isPlaced, decide_eq_true_eq]
    · exact .same rfl rfl fun _ => rfl
  · have hquiet : ∀ job, q ≠ .enqueue job := fun job h => hq ⟨job, h⟩
    obtain ⟨hqueue, hkeys⟩ := @World.queue_after w actor how choice q hquiet
    exact .same hqueue hkeys fun key => (hcount key).resolve_right hq

/-! ## The jobs over one step -/

theorem State.sum_frame {s t : State} (g : Proc → Nat) (pid : Nat)
    (h : ∀ q, q ≠ pid → t.proc q = s.proc q) :
    ∃ n, (s.procs.rows.map fun e => g e.2).sum = ((s.proc pid).map g).getD 0 + n ∧
      (t.procs.rows.map fun e => g e.2).sum = ((t.proc pid).map g).getD 0 + n := by
  have hsum : ∀ u : State, (∀ q, q ≠ pid → u.proc q = s.proc q) →
      (u.procs.rows.map fun e => g e.2).sum = ((u.proc pid).map g).getD 0 +
        ((s.procs.rows.filter fun e => decide (e.1 ≠ pid)).map fun e => g e.2).sum := by
    intro u hu
    rw [((State.rows_perm hu).map _).sum_eq, List.map_append, List.sum_append]
    cases u.proc pid <;> rfl
  exact ⟨_, hsum s fun _ _ => rfl, hsum t h⟩

/-- What a step does to the jobs, stated through every sum over them. -/
inductive JobStep (settings : Settings) (s t : State) (a : Action) : Prop where
  | same (other : ∀ pid job, a ≠ .deliver pid job) (keys : t.world.jobKeys = s.world.jobKeys)
      (placed : ∀ key, t.world.placedCount key = s.world.placedCount key)
      (charge : ∀ f g, t.charge f g = s.charge f g)
  | placed (job : Job) (other : ∀ pid job, a ≠ .deliver pid job) (first : job.jobTry = 1)
      (fresh : job.key ∉ s.world.jobKeys) (keys : t.world.jobKeys = job.key :: s.world.jobKeys)
      (placed : ∀ key, t.world.placedCount key =
        s.world.placedCount key + if job.key = key then 1 else 0)
      (charge : ∀ f g, t.charge f g = s.charge f g + f job)
  | delivered (pid : Nat) (job : Job) (isDeliver : a = .deliver pid job)
      (tries : job.jobTry ≤ settings.jobMaxTries) (keys : t.world.jobKeys = s.world.jobKeys)
      (placed : ∀ key, t.world.placedCount key = s.world.placedCount key)
      (charge : ∀ f g, t.charge f g + f job = s.charge f g + g job)
  | dropped (pid : Nat) (job : Job) (isDeliver : a = .deliver pid job)
      (tries : settings.jobMaxTries < job.jobTry)
      (keys : t.world.jobKeys = s.world.jobKeys.erase job.key)
      (placed : ∀ key, t.world.placedCount key = s.world.placedCount key)
      (charge : ∀ f g, t.charge f g + f job = s.charge f g)
  | redelivered (pid : Nat) (job : Job) (isRedeliver : a = .redeliver pid job)
      (keys : t.world.jobKeys = s.world.jobKeys)
      (placed : ∀ key, t.world.placedCount key = s.world.placedCount key)
      (charge : ∀ f g, t.charge f g = s.charge f g + g job)
  | requeued (job : Job) (other : ∀ pid job, a ≠ .deliver pid job)
      (keys : t.world.jobKeys = s.world.jobKeys)
      (placed : ∀ key, t.world.placedCount key = s.world.placedCount key)
      (charge : ∀ f g, t.charge f g + g job =
        s.charge f g + f { job with jobTry := job.jobTry + 1 })
  | finished (job : Job) (other : ∀ pid job, a ≠ .deliver pid job)
      (keys : t.world.jobKeys = s.world.jobKeys.erase job.key)
      (placed : ∀ key, t.world.placedCount key = s.world.placedCount key)
      (charge : ∀ f g, t.charge f g + g job = s.charge f g)

theorem Proc.job_of_enqueue {proc : Proc} {job : Job} (h : proc.request = .enqueue job) :
    proc.job? = none := by
  cases Proc.asks_of h <;> rfl

theorem jobStep_call {settings : Settings} {s t : State} {pid : Nat} {how : How} {choice : Choice}
    {proc : Proc} (found : s.proc pid = some proc) (job_eq : (t.proc pid).bind Proc.job? = proc.job?)
    (queue : t.world.queue = (s.worldAfter proc how choice).queue)
    (keys : t.world.jobKeys = (s.worldAfter proc how choice).jobKeys)
    (placed : ∀ key, t.world.placedCount key = (s.worldAfter proc how choice).placedCount key)
    (others : ∀ q, q ≠ pid → t.proc q = s.proc q) :
    JobStep settings s t (.await pid how choice) := by
  have hprocs : ∀ g : Job → Nat, (t.procs.rows.map fun e => (e.2.job?.map g).getD 0).sum =
      (s.procs.rows.map fun e => (e.2.job?.map g).getD 0).sum := by
    intro g
    obtain ⟨n, hs, ht⟩ := State.sum_frame (fun p => (p.job?.map g).getD 0) pid others
    have hsame : ((t.proc pid).map fun p => (p.job?.map g).getD 0).getD 0 = (proc.job?.map g).getD 0 := by
      rw [← job_eq]
      cases t.proc pid <;> rfl
    rw [found] at hs
    rw [hsame] at ht
    exact ht.trans hs.symm
  have hother : ∀ q job, Action.await pid how choice ≠ .deliver q job := fun _ _ h => by cases h
  cases jobCall_after s.world proc.actor how choice proc.request with
  | same hqueue hkeys hplaced =>
    refine .same hother (keys.trans hkeys) (fun key => (placed key).trans (hplaced key)) fun f g => ?_
    rw [State.charge, State.charge, hprocs, queue, State.worldAfter, hqueue]
  | placed job isEnqueue fresh hqueue hkeys hplaced =>
    refine .placed job hother (Proc.first_of_enqueue isEnqueue) fresh (keys.trans hkeys)
      (fun key => (placed key).trans (hplaced key)) fun f g => ?_
    rw [State.charge, State.charge, hprocs, queue, State.worldAfter, hqueue, List.map_append,
      List.sum_append, List.map_singleton, List.sum_singleton]
    omega

theorem World.placedCount_append {key : Task × Uuid} {own log : List Event}
    (h : ∀ e ∈ own, e.byCall = false) :
    (own ++ log).countP (isPlaced key) = log.countP (isPlaced key) := by
  have hzero : own.countP (isPlaced key) = 0 := by
    refine List.countP_eq_zero.mpr fun e he hplaced => ?_
    cases e with
    | placed job => cases h _ he
    | _ => cases hplaced
  rw [List.countP_append, hzero, Nat.zero_add]

theorem jobStep_over {settings : Settings} {s t : State} {pid : Nat} {how : How} {choice : Choice}
    {proc : Proc} {job : Job} {again : Bool} (found : s.proc pid = some proc)
    (hjob : proc.job? = some job) (gone : t.proc pid = none)
    (queue : t.world.queue = ((s.worldAfter proc how choice).settleJob proc again).queue)
    (keys : t.world.jobKeys = ((s.worldAfter proc how choice).settleJob proc again).jobKeys)
    (placed : ∀ key, t.world.placedCount key = (s.worldAfter proc how choice).placedCount key)
    (others : ∀ q, q ≠ pid → t.proc q = s.proc q) :
    JobStep settings s t (.await pid how choice) := by
  have hprocs : ∀ g : Job → Nat, (t.procs.rows.map fun e => (e.2.job?.map g).getD 0).sum + g job =
      (s.procs.rows.map fun e => (e.2.job?.map g).getD 0).sum := by
    intro g
    obtain ⟨n, hs, ht⟩ := State.sum_frame (fun p => (p.job?.map g).getD 0) pid others
    simp only [found, gone, hjob, Option.map_some, Option.map_none, Option.getD_some,
      Option.getD_none] at hs ht
    omega
  have hother : ∀ q job, Action.await pid how choice ≠ .deliver q job := fun _ _ h => by cases h
  have hquiet : ∀ j, proc.request ≠ .enqueue j := by
    intro j hj
    cases hjob.symm.trans (Proc.job_of_enqueue hj)
  obtain ⟨hqueue, hkeys⟩ := @World.queue_after s.world proc.actor how choice _ hquiet
  rw [World.settleJob_queue, hjob] at queue
  rw [World.settleJob_jobKeys, hjob] at keys
  have hplaced : ∀ key, t.world.placedCount key = s.world.placedCount key := by
    intro key
    cases jobCall_after s.world proc.actor how choice proc.request with
    | same _ _ hsame => exact (placed key).trans (hsame key)
    | placed j isEnqueue => exact absurd isEnqueue (hquiet j)
  cases again with
  | true =>
    refine .requeued job hother (keys.trans hkeys) hplaced fun f g => ?_
    have hp := hprocs g
    rw [State.charge, State.charge, queue, State.worldAfter, hqueue, List.map_append, List.sum_append,
      List.map_singleton, List.sum_singleton]
    omega
  | false =>
    refine .finished job hother ?_ hplaced fun f g => ?_
    · rw [keys, State.worldAfter, hkeys]
      rfl
    · have hp := hprocs g
      have hsame : t.world.queue = s.world.queue := queue.trans hqueue
      rw [State.charge, State.charge, hsame]
      omega

theorem jobStep_end {settings : Settings} {s t : State} {pid : Nat} {how : How} {choice : Choice}
    {proc : Proc} (again : Bool) (found : s.proc pid = some proc)
    (queue : t.world.queue = ((s.worldAfter proc how choice).settleJob proc again).queue)
    (keys : t.world.jobKeys = ((s.worldAfter proc how choice).settleJob proc again).jobKeys)
    (placed : ∀ key, t.world.placedCount key = (s.worldAfter proc how choice).placedCount key)
    (procs : ∀ q, t.proc q = if pid = q then none else s.proc q) :
    JobStep settings s t (.await pid how choice) := by
  have hgone : t.proc pid = none := by rw [procs, if_pos rfl]
  have hothers : ∀ q, q ≠ pid → t.proc q = s.proc q :=
    fun q hq => (procs q).trans (if_neg (Ne.symm hq))
  cases hjob : proc.job? with
  | none =>
    have hsettle : (s.worldAfter proc how choice).settleJob proc again =
        s.worldAfter proc how choice := by
      rw [World.settleJob, hjob]
    rw [hsettle] at queue keys
    exact jobStep_call found (by rw [hgone, hjob]; rfl) queue keys placed hothers
  | some job => exact jobStep_over found hjob hgone queue keys placed hothers

theorem State.charge_spawn {s t : State} {pid : Nat} {proc : Proc} (absent : s.proc pid = none)
    (procs : ∀ q, t.proc q = if pid = q then some proc else s.proc q) (g : Job → Nat) :
    (t.procs.rows.map fun e => (e.2.job?.map g).getD 0).sum =
      (s.procs.rows.map fun e => (e.2.job?.map g).getD 0).sum + (proc.job?.map g).getD 0 := by
  obtain ⟨n, hs, ht⟩ := State.sum_frame (fun p => (p.job?.map g).getD 0) pid
    fun q hq => (procs q).trans (if_neg (Ne.symm hq))
  rw [procs, if_pos rfl] at ht
  rw [absent] at hs
  simp only [Option.map_none, Option.getD_none, Option.map_some, Option.getD_some] at hs ht
  omega

theorem jobStep {settings : Settings} {s t : State} {a : Action} (h : Stepped settings s t a) :
    JobStep settings s t a := by
  cases h with
  | tick _ _ result =>
    subst result
    exact .same (fun _ _ h => by cases h) rfl (fun _ => rfl) fun _ _ => rfl
  | spawned pid proc world drawn spawn absent world_eq drawn_eq procs =>
    have hcharge := State.charge_spawn absent procs
    cases spawn with
    | deliver _ job queued tries =>
      refine .delivered pid job rfl tries (by rw [world_eq]) (fun _ => by rw [world_eq]; rfl)
        fun f g => ?_
      have herase := List.sum_map_erase f queued
      have hprocs := hcharge g
      rw [Proc.job_ofJob, Option.map_some, Option.getD_some] at hprocs
      rw [State.charge, State.charge, world_eq]
      change ((s.world.queue.erase job).map f).sum + _ + _ = _
      omega
    | redeliver _ job =>
      refine .redelivered pid job rfl (by rw [world_eq]) (fun _ => by rw [world_eq]) fun f g => ?_
      have hprocs := hcharge g
      rw [Proc.job_ofJob, Option.map_some, Option.getD_some] at hprocs
      rw [State.charge, State.charge, world_eq, hprocs]
      omega
    | _ =>
      refine .same (fun _ _ h => by cases h) (by rw [world_eq]) (fun _ => by rw [world_eq]) fun f g => ?_
      rw [State.charge, State.charge, world_eq, hcharge g]
      rfl
  | dropped pid job queued tries result =>
    subst result
    refine .dropped pid job rfl tries rfl (fun _ => rfl) fun f g => ?_
    have herase := List.sum_map_erase f queued
    simp only [State.charge]
    omega
  | died sid c found result =>
    subst result
    exact .same (fun _ _ h => by cases h) rfl (fun _ => rfl) fun _ _ => rfl
  | exited _ _ _ result =>
    subst result
    exact .same (fun _ _ h => by cases h) rfl (fun _ => rfl) fun _ _ => rfl
  | resumed pid how choice proc proc' events found lives resume world_eq drawn_eq procs =>
    refine jobStep_call found ?_ (by rw [world_eq]; rfl) (by rw [world_eq]; rfl) (fun key => ?_)
      fun q hq => (procs q).trans (if_neg (Ne.symm hq))
    · rw [procs, if_pos rfl]
      exact (Proc.goes_of_resume resume).job_eq
    · rw [World.placedCount, world_eq, World.record_log]
      exact World.placedCount_append fun e he => Proc.byCall_of_emits (Proc.resume_emits resume e he)
  | ended pid how choice proc outcome events found lives resume world_eq drawn_eq procs =>
    refine jobStep_end (decide (outcome = .retry)) found ?_ ?_ (fun key => ?_) procs
    · rw [world_eq, World.settleJob_queue, World.settleJob_queue]
      rfl
    · rw [world_eq, World.settleJob_jobKeys, World.settleJob_jobKeys]
      rfl
    · rw [World.placedCount, world_eq, World.settleJob_log, World.record_log]
      refine World.placedCount_append fun e he => ?_
      rcases List.mem_cons.mp he with rfl | he
      · exact Proc.ended_byCall proc outcome
      · exact Proc.byCall_of_emits (Proc.resume_emits resume e he)
  | killed pid effect requeue choice proc found world_eq drawn_eq procs =>
    refine jobStep_end requeue found (by rw [world_eq]) (by rw [world_eq]) (fun key => ?_) procs
    rw [World.placedCount, world_eq, World.settleJob_log]
    rfl

/-! ## One job for each id -/

def State.pending (key : Task × Uuid) (s : State) : Nat :=
  s.world.queue.countP (fun job => decide (job.key = key)) +
    s.procs.rows.countP fun e => e.2.job?.any fun job => decide (job.key = key)

/-- The jobs of an id, queued and executing, in whichever pools. -/
def State.pendingId (id : String) (s : State) : Nat :=
  s.world.queue.countP (fun job => decide (job.id = id)) +
    s.procs.rows.countP fun e => e.2.job?.any fun job => decide (job.id = id)

theorem State.pendingId_eq (job : Job) (s : State) : s.pendingId job.id = s.pending job.key := by
  simp only [State.pendingId, State.pending, Job.id_eq_iff]

def Job.counts (key : Task × Uuid) (job : Job) : Nat := if job.key = key then 1 else 0

theorem State.charge_counts (key : Task × Uuid) (s : State) :
    s.charge (Job.counts key) (Job.counts key) = s.pending key := by
  have hqueue : ∀ jobs : List Job,
      (jobs.map (Job.counts key)).sum = jobs.countP fun job => decide (job.key = key) := by
    intro jobs
    induction jobs with
    | nil => rfl
    | cons job jobs ih =>
      simp only [List.map_cons, List.sum_cons, List.countP_cons, ih, Job.counts, decide_eq_true_eq]
      omega
  have hprocs : ∀ rows : List (Nat × Proc),
      (rows.map fun e => (e.2.job?.map (Job.counts key)).getD 0).sum =
        rows.countP fun e => e.2.job?.any fun job => decide (job.key = key) := by
    intro rows
    induction rows with
    | nil => rfl
    | cons e rows ih =>
      simp only [List.map_cons, List.sum_cons, List.countP_cons, ih]
      cases e.2.job? with
      | none => simp
      | some job =>
        simp only [Option.map_some, Option.getD_some, Option.any_some, Job.counts, decide_eq_true_eq]
        omega
  rw [State.charge, State.pending, hqueue, hprocs]

/-- A worker gets a job only by taking it off its queue. -/
def NotRedelivered (_ : State) (a : Action) (_ : State) : Prop := ∀ pid job, a ≠ .redeliver pid job

structure Backed (s : State) : Prop where
  nodup : s.world.jobKeys.Nodup
  backed : ∀ key ∈ s.world.jobKeys, 1 ≤ s.pending key

structure Keyed (s : State) : Prop where
  nodup : s.world.jobKeys.Nodup
  pending : ∀ key, s.pending key = if key ∈ s.world.jobKeys then 1 else 0

theorem backed_init (now : Time) (containers : Containers) (nextObject : Nat) :
    Backed (State.init now containers nextObject) := ⟨List.nodup_nil, fun _ h => by cases h⟩

theorem keyed_init (now : Time) (containers : Containers) (nextObject : Nat) :
    Keyed (State.init now containers nextObject) := ⟨List.nodup_nil, fun _ => rfl⟩

theorem JobStep.pending {settings : Settings} {s t : State} {a : Action}
    (h : JobStep settings s t a) (key : Task × Uuid) :
    (t.world.jobKeys = s.world.jobKeys ∧
        (t.pending key = s.pending key ∨
          s.pending key ≤ t.pending key ∧ ∃ pid job, a = .redeliver pid job)) ∨
      (∃ job : Job, job.key ∉ s.world.jobKeys ∧ t.world.jobKeys = job.key :: s.world.jobKeys ∧
        t.pending key = s.pending key + job.counts key) ∨
      ∃ job : Job, t.world.jobKeys = s.world.jobKeys.erase job.key ∧
        t.pending key + job.counts key = s.pending key := by
  have read : ∀ u : State, u.charge (Job.counts key) (Job.counts key) = u.pending key :=
    State.charge_counts key
  cases h with
  | same _ keys _ charge =>
    have hcharge := charge (Job.counts key) (Job.counts key)
    rw [read, read] at hcharge
    exact .inl ⟨keys, .inl hcharge⟩
  | placed job _ _ fresh keys _ charge =>
    have hcharge := charge (Job.counts key) (Job.counts key)
    rw [read, read] at hcharge
    exact .inr (.inl ⟨job, fresh, keys, hcharge⟩)
  | delivered _ job _ _ keys _ charge =>
    have hcharge := charge (Job.counts key) (Job.counts key)
    rw [read, read] at hcharge
    exact .inl ⟨keys, .inl (by omega)⟩
  | dropped _ job _ _ keys _ charge =>
    have hcharge := charge (Job.counts key) (Job.counts key)
    rw [read, read] at hcharge
    exact .inr (.inr ⟨job, keys, hcharge⟩)
  | redelivered pid job isRedeliver keys _ charge =>
    have hcharge := charge (Job.counts key) (Job.counts key)
    rw [read, read] at hcharge
    exact .inl ⟨keys, .inr ⟨by omega, pid, job, isRedeliver⟩⟩
  | requeued job _ keys _ charge =>
    have hcharge := charge (Job.counts key) (Job.counts key)
    rw [read, read] at hcharge
    exact .inl ⟨keys, .inl (Nat.add_right_cancel hcharge)⟩
  | finished job _ keys _ charge =>
    have hcharge := charge (Job.counts key) (Job.counts key)
    rw [read, read] at hcharge
    exact .inr (.inr ⟨job, keys, hcharge⟩)

theorem JobStep.nodup {settings : Settings} {s t : State} {a : Action} (h : JobStep settings s t a)
    (hs : s.world.jobKeys.Nodup) : t.world.jobKeys.Nodup := by
  rcases h.pending (.startSandbox, 0) with ⟨keys, -⟩ | ⟨job, fresh, keys, -⟩ | ⟨job, keys, -⟩
  · exact keys ▸ hs
  · exact keys ▸ List.nodup_cons.mpr ⟨fresh, hs⟩
  · exact keys ▸ hs.erase job.key

theorem backed_step {settings : Settings} {s t : State} {a : Action} (hs : Backed s)
    (h : step settings s a = some t) : Backed t := by
  have hjobs := jobStep (stepped h)
  refine ⟨hjobs.nodup hs.nodup, fun key hkey => ?_⟩
  rcases hjobs.pending key with ⟨keys, hpending⟩ | ⟨job, -, keys, hpending⟩ | ⟨job, keys, hpending⟩
  · have hold := hs.backed key (keys ▸ hkey)
    omega
  · rw [keys] at hkey
    rcases List.mem_cons.mp hkey with rfl | hkey
    · rw [hpending, Job.counts, if_pos rfl]
      omega
    · have hold := hs.backed key hkey
      omega
  · obtain ⟨hne, hkey⟩ := hs.nodup.mem_erase_iff.mp (keys ▸ hkey)
    have hold := hs.backed key hkey
    rw [Job.counts, if_neg (Ne.symm hne)] at hpending
    omega

theorem keyed_step {settings : Settings} {s t : State} {a : Action} (hs : Keyed s)
    (hnot : NotRedelivered s a t) (h : step settings s a = some t) : Keyed t := by
  have hjobs := jobStep (stepped h)
  refine ⟨hjobs.nodup hs.nodup, fun key => ?_⟩
  have hold := hs.pending key
  rcases hjobs.pending key with
    ⟨keys, hpending | ⟨-, pid, job, rfl⟩⟩ | ⟨job, fresh, keys, hpending⟩ | ⟨job, keys, hpending⟩
  · rw [hpending, keys, hold]
  · exact absurd rfl (hnot pid job)
  · unfold Job.counts at hpending
    rw [hpending, keys]
    by_cases hkey : job.key = key
    · subst hkey
      simp [hold, fresh]
    · simp [hold, hkey, Ne.symm hkey]
  · unfold Job.counts at hpending
    simp only [keys, hs.nodup.mem_erase_iff]
    by_cases hkey : job.key = key
    · subst hkey
      rw [if_pos rfl] at hpending
      simp only [ne_eq, not_true_eq_false, false_and, if_false]
      split at hold <;> omega
    · rw [if_neg hkey] at hpending
      simp only [ne_eq, Ne.symm hkey, not_false_eq_true, true_and]
      omega

theorem World.enqueue_duplicate (w : World) (job : Job) :
    (w.enqueue job).2 = .enqueued false ↔ job.key ∈ w.jobKeys := by
  have hreply : w.enqueue job = if job.key ∈ w.jobKeys then _ else _ := rfl
  rw [hreply]
  by_cases hmem : job.key ∈ w.jobKeys
  · rw [if_pos hmem]
    exact iff_of_true rfl hmem
  · rw [if_neg hmem]
    refine iff_of_false (fun h => ?_) hmem
    cases h

/-- In every run an enqueue is refused as a duplicate only while a job of its id is queued or
executing, so no refusal loses a job. Where workers get their jobs off the queues alone, no id
is ever queued or executed twice, in whichever pools, and an enqueue is refused exactly while
its id is. -/
theorem dedupe_window (settings : Settings) (now : Time) (containers : Containers) (nextObject : Nat)
    (actions : List Action) (s : State)
    (h : run settings (State.init now containers nextObject) actions = some s) (job : Job) :
    ((s.world.enqueue job).2 = .enqueued false → 1 ≤ s.pendingId job.id) ∧
      (Along settings NotRedelivered (State.init now containers nextObject) actions →
        s.pendingId job.id ≤ 1 ∧
          ((s.world.enqueue job).2 = .enqueued false ↔ s.pendingId job.id = 1)) := by
  rw [World.enqueue_duplicate, State.pendingId_eq]
  constructor
  · intro hmem
    have hs : Backed s := LabelledRuns.always
      (fun s a t hs (h : step settings s a = some t) => backed_step hs h) (backed_init ..) h
    exact hs.backed _ hmem
  · intro hnot
    have hs : Keyed s := LabelledRuns.invariant (P := NotRedelivered)
      (fun s a t hs hn (h : step settings s a = some t) => keyed_step hs hn h) (keyed_init ..) hnot h
    have hpending := hs.pending job.key
    by_cases hmem : job.key ∈ s.world.jobKeys
    · rw [if_pos hmem] at hpending
      exact ⟨Nat.le_of_eq hpending, iff_of_true hmem hpending⟩
    · rw [if_neg hmem] at hpending
      refine ⟨by omega, iff_of_false hmem ?_⟩
      omega

/-- A sandbox whose first try failed: its job executes again, and its id is still taken. -/
theorem dedupe_window_retried : ∃ s : State,
    s.pendingId (sandboxJobId .startSandbox 1) = 1 ∧
      (s.world.enqueue ⟨.startSandbox, 1, .canary, 1⟩).2 = .enqueued false := by
  have hrun : (run ⟨3, 4, "localhost"⟩ (State.init 0 KeyedTable.empty 0)
      (posted 0 1 ++ failedOnce.take 9)).any
      (fun s => decide (s.pending (.startSandbox, 1) = 1)) = true := by decide
  obtain ⟨s, hs, hp⟩ := LabelledRuns.exists_run hrun
  have hpending : s.pendingId (sandboxJobId .startSandbox 1) = 1 :=
    (State.pendingId_eq ⟨.startSandbox, 1, .canary, 1⟩ s).trans (of_decide_eq_true hp)
  have hnot : Along ⟨3, 4, "localhost"⟩ NotRedelivered (State.init 0 KeyedTable.empty 0)
      (posted 0 1 ++ failedOnce.take 9) :=
    LabelledRuns.along_of_mem (p := fun a => ∀ pid job, a ≠ Action.redeliver pid job)
      (by simp [posted, failedOnce, Action.ok, Action.fails]) _
  have hwindow := (dedupe_window _ _ _ _ _ s hs ⟨.startSandbox, 1, .canary, 1⟩).2 hnot
  exact ⟨s, hpending, hwindow.2.mpr hpending⟩

/-! ## The tries of a job -/

def isHandlerCall (settings : Settings) (key : Task × Uuid) (_ : State) (a : Action) (_ : State) : Bool :=
  match a with
  | .deliver _ job => decide (job.key = key) && decide (job.jobTry ≤ settings.jobMaxTries)
  | _ => false

def State.triesLeft (settings : Settings) (key : Task × Uuid) (s : State) : Nat :=
  s.charge (fun job => if job.key = key then settings.jobMaxTries + 1 - job.jobTry else 0)
    (fun job => if job.key = key then settings.jobMaxTries - job.jobTry else 0)

theorem isHandlerCall_of_other {settings : Settings} {key : Task × Uuid} {s t : State} {a : Action}
    (h : ∀ pid job, a ≠ .deliver pid job) : isHandlerCall settings key s a t = false := by
  cases a with
  | deliver pid job => exact absurd rfl (h pid job)
  | _ => rfl

theorem triesLeft_step {settings : Settings} {key : Task × Uuid} {s t : State} {a : Action}
    (hnot : NotRedelivered s a t) (h : step settings s a = some t) :
    (if isHandlerCall settings key s a t then 1 else 0) + t.triesLeft settings key +
        settings.jobMaxTries * s.world.placedCount key ≤
      s.triesLeft settings key + settings.jobMaxTries * t.world.placedCount key := by
  unfold State.triesLeft
  cases jobStep (stepped h) with
  | same other keys placed charge =>
    rw [isHandlerCall_of_other other, placed, charge]
    simp
  | placed job other first fresh keys placed charge =>
    rw [isHandlerCall_of_other other, placed, charge, first]
    by_cases hkey : job.key = key
    · simp only [hkey, if_true, Nat.mul_add]
      simp
      omega
    · simp [hkey]
  | delivered pid job isDeliver tries keys placed charge =>
    subst isDeliver
    have hcharge := charge (fun job => if job.key = key then settings.jobMaxTries + 1 - job.jobTry else 0)
      (fun job => if job.key = key then settings.jobMaxTries - job.jobTry else 0)
    rw [placed]
    by_cases hkey : job.key = key
    · simp only [hkey, if_true] at hcharge
      simp only [isHandlerCall, hkey, tries, decide_true, Bool.and_true, if_true]
      omega
    · simp only [hkey, if_false] at hcharge
      simp only [isHandlerCall, hkey, decide_false, Bool.false_and, Bool.false_eq_true, if_false]
      omega
  | dropped pid job isDeliver tries keys placed charge =>
    subst isDeliver
    have hcharge := charge (fun job => if job.key = key then settings.jobMaxTries + 1 - job.jobTry else 0)
      (fun job => if job.key = key then settings.jobMaxTries - job.jobTry else 0)
    rw [placed]
    simp only [isHandlerCall, Nat.not_le.mpr tries, decide_false, Bool.and_false, Bool.false_eq_true,
      if_false]
    omega
  | redelivered pid job isRedeliver => exact absurd isRedeliver (hnot pid job)
  | requeued job other keys placed charge =>
    have hcharge := charge (fun job => if job.key = key then settings.jobMaxTries + 1 - job.jobTry else 0)
      (fun job => if job.key = key then settings.jobMaxTries - job.jobTry else 0)
    rw [isHandlerCall_of_other other, placed]
    have hkey : ({ job with jobTry := job.jobTry + 1 } : Job).key = job.key := rfl
    simp only [hkey, Nat.add_sub_add_right] at hcharge
    simp only [Bool.false_eq_true, if_false]
    omega
  | finished job other keys placed charge =>
    have hcharge := charge (fun job => if job.key = key then settings.jobMaxTries + 1 - job.jobTry else 0)
      (fun job => if job.key = key then settings.jobMaxTries - job.jobTry else 0)
    rw [isHandlerCall_of_other other, placed]
    simp only [Bool.false_eq_true, if_false]
    omega

/-- A start delivery is on one of the tries it has, and so is what it writes. -/
structure TriesBounded (settings : Settings) (s : State) : Prop where
  procs : ∀ pid d, s.proc pid = some (.start d) → d.jobTry ≤ settings.jobMaxTries
  rows : ∀ sid r, s.world.row sid = some r → r.attempts ≤ settings.jobMaxTries

theorem triesBounded_init (settings : Settings) (now : Time) (containers : Containers)
    (nextObject : Nat) : TriesBounded settings (State.init now containers nextObject) where
  procs _ _ h := by cases h
  rows _ _ h := by cases h

theorem Proc.attempts_of_writes {settings : Settings} {proc : Proc} {r : Sandbox} {v : Values}
    {now : Time} (hproc : ∀ d, proc = .start d → d.jobTry ≤ settings.jobMaxTries)
    (hr : r.attempts ≤ settings.jobMaxTries) (h : proc.request.writes r = some v) :
    (v.apply now r).attempts ≤ settings.jobMaxTries := by
  cases Proc.writes_of h with
  | pickUp jobTry pool r₀ hst => exact hproc _ rfl
  | _ => exact hr

theorem NotRedelivered.tryCounted {s t : State} {a : Action} (h : NotRedelivered s a t) :
    TryCounted s a t := by
  cases a with
  | redeliver pid job => exact absurd rfl (h pid job)
  | _ => rfl

theorem triesBounded_step {settings : Settings} {s t : State} {a : Action}
    (hs : TriesBounded settings s) (hf : RowFields settings s) (hnot : NotRedelivered s a t)
    (h : step settings s a = some t) : TriesBounded settings t := by
  have hst := stepped h
  refine ⟨fun pid d hp => ?_, fun sid r hr => ?_⟩
  · cases hst.came hp with
    | stayed found => exact hs.procs pid d found
    | spawned world drawn spawn =>
      generalize hproc : Proc.start d = proc at spawn
      cases spawn with
      | deliver _ job queued tries =>
        have hjob := @Proc.job_ofJob job
        rw [← hproc] at hjob
        cases hjob
        exact tries
      | redeliver _ job => exact absurd rfl (hnot pid job)
      | _ => cases hproc
    | resumed how choice old events isAwait found lives goes =>
      cases goes with
      | start d₀ reply pc => exact hs.procs pid d₀ found
  · rcases hst.row sid with hsame | ⟨pid, how, choice, proc, -, found, hchange⟩
    · exact hs.rows sid r (hsame.symm.trans hr)
    · rw [hr] at hchange
      generalize hx : some r = x at hchange
      cases hchange with
      | same => exact hs.rows sid r hx.symm
      | wrote r₀ v found' writes =>
        cases hx
        refine Proc.attempts_of_writes (fun d hd => ?_) (hs.rows sid r₀ found') writes
        exact hs.procs pid d (hd ▸ found)
      | inserted r₀ isInsert =>
        cases hx
        obtain ⟨c, deployment, now, -, -, rfl⟩ := Proc.draft_of_insert (hf.procs pid proc found) isInsert
        exact Nat.zero_le settings.jobMaxTries

/-- In every run in which workers get their jobs off the queues: the handler of a job is called
at most `job_max_tries` times for each time Redis accepted the job, which is once at most for a
start job; and no row counts more attempts. -/
theorem handler_calls_le (settings : Settings) (now : Time) (containers : Containers)
    (nextObject : Nat) (actions : List Action) (s : State)
    (hnot : Along settings NotRedelivered (State.init now containers nextObject) actions)
    (h : run settings (State.init now containers nextObject) actions = some s) :
    (∀ key, LabelledRuns.tally (step settings) (isHandlerCall settings key)
        (State.init now containers nextObject) actions ≤ settings.jobMaxTries * s.world.placedCount key) ∧
      (∀ sid, LabelledRuns.tally (step settings) (isHandlerCall settings (.startSandbox, sid))
        (State.init now containers nextObject) actions ≤ settings.jobMaxTries) ∧
      ∀ sid r, s.world.row sid = some r → r.attempts ≤ settings.jobMaxTries := by
  have hcalls : ∀ key, LabelledRuns.tally (step settings) (isHandlerCall settings key)
      (State.init now containers nextObject) actions ≤
        settings.jobMaxTries * s.world.placedCount key := by
    intro key
    have hpaid := LabelledRuns.tally_le_of_pays (P := NotRedelivered)
      (fun s a t hn (h : step settings s a = some t) => @triesLeft_step settings key s t a hn h) hnot h
    have hinit : (State.init now containers nextObject).triesLeft settings key = 0 := rfl
    have hnone : (State.init now containers nextObject).world.placedCount key = 0 := rfl
    rw [hinit, hnone] at hpaid
    omega
  refine ⟨hcalls, fun sid => ?_, ?_⟩
  · have hg : Grounded s := LabelledRuns.always
      (fun s a t hs (h : step settings s a = some t) => grounded_step hs h) (grounded_init ..) h
    have hone : s.world.placedCount (.startSandbox, sid) ≤ 1 := by
      rw [World.placedCount_start]
      exact hg.posting.placed sid
    calc _ ≤ settings.jobMaxTries * s.world.placedCount (.startSandbox, sid) := hcalls _
      _ ≤ settings.jobMaxTries * 1 := Nat.mul_le_mul_left _ hone
      _ = settings.jobMaxTries := Nat.mul_one _
  · have hs : RowFields settings s ∧ TriesBounded settings s :=
      LabelledRuns.invariant (P := NotRedelivered)
        (I := fun s => RowFields settings s ∧ TriesBounded settings s)
        (fun s a t hs hn (h : step settings s a = some t) =>
          ⟨rowFields_step hs.1 hn.tryCounted h, triesBounded_step hs.2 hs.1 hn h⟩)
        ⟨rowFields_init .., triesBounded_init ..⟩ hnot h
    exact hs.2.rows

/-- The same sandbox with one try: its delivery fails and is the last. -/
theorem handler_calls_le_once : ∃ (s : State) (r : Sandbox),
    s.world.row 1 = some r ∧ r.status = .failed ∧ r.attempts ≤ 1 ∧
      LabelledRuns.tally (step ⟨1, 4, "localhost"⟩) (isHandlerCall ⟨1, 4, "localhost"⟩ (.startSandbox, 1))
        (State.init 0 KeyedTable.empty 0) (posted 0 1 ++ failedOnce.take 8) ≤ 1 := by
  have hrun : (run ⟨1, 4, "localhost"⟩ (State.init 0 KeyedTable.empty 0)
      (posted 0 1 ++ failedOnce.take 8)).any
      (fun s => (s.world.row 1).any fun r => decide (r.status = .failed)) = true := by decide
  obtain ⟨s, hs, hp⟩ := LabelledRuns.exists_run hrun
  obtain ⟨r, hr, hfailed⟩ := (Option.any_eq_true _ _).mp hp
  have hnot : Along ⟨1, 4, "localhost"⟩ NotRedelivered (State.init 0 KeyedTable.empty 0)
      (posted 0 1 ++ failedOnce.take 8) :=
    LabelledRuns.along_of_mem (p := fun a => ∀ pid job, a ≠ Action.redeliver pid job)
      (by simp [posted, failedOnce, Action.ok, Action.fails]) _
  obtain ⟨-, hcalls, hattempts⟩ := handler_calls_le _ _ _ _ _ s hnot hs
  exact ⟨s, r, hr, of_decide_eq_true hfailed, hattempts 1 r hr, hcalls 1⟩

end SandboxOrchestrator
