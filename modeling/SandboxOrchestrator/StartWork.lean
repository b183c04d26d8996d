import SandboxOrchestrator.AnswersKept
import SandboxOrchestrator.Progress

/-!
# The work left to start a sandbox

What the POST, the queued job and the deliveries of a sandbox have ahead of them, retries
included, in one number. No step adds to it, but for a job that is delivered once more, and
each step of one of them takes from it.
-/

namespace SandboxOrchestrator

set_option autoImplicit false

/-- Each try costs more than the calls of one delivery. -/
def Job.work (settings : Settings) (sid : Uuid) (job : Job) : Nat :=
  if job.starts sid then 13 * (settings.jobMaxTries + 1 - job.jobTry) + 1 else 0

/-- Each call of a POST costs more than the job it enqueues. -/
def Proc.work (settings : Settings) (sid : Uuid) : Proc → Nat
  | .create c => if c.sandboxId = sid then (13 * settings.jobMaxTries + 2) * c.pc.ahead else 0
  | .start d =>
    if d.sandboxId = sid then 13 * (settings.jobMaxTries - d.jobTry) + 1 + d.pc.ahead else 0
  | _ => 0

def Proc.starts (sid : Uuid) : Proc → Bool
  | .create c => decide (c.sandboxId = sid)
  | .start d => decide (d.sandboxId = sid)
  | _ => false

def World.work (settings : Settings) (sid : Uuid) (w : World) : Nat :=
  (w.queue.map (Job.work settings sid)).sum

def State.work (settings : Settings) (sid : Uuid) (s : State) : Nat :=
  s.world.work settings sid + (s.procs.rows.map fun e => e.2.work settings sid).sum

def State.Workless (settings : Settings) (sid : Uuid) (s : State) : Prop := s.work settings sid = 0

def Request.work (settings : Settings) (sid : Uuid) : Request → Nat
  | .enqueue job => job.work settings sid
  | _ => 0

/-- The work of the job of a delivery, once it is queued again. -/
def Proc.again (settings : Settings) (sid : Uuid) (proc : Proc) : Nat :=
  (proc.job?.map fun job => Job.work settings sid { job with jobTry := job.jobTry + 1 }).getD 0

section

variable (settings : Settings) (sid : Uuid) {w : World} {proc proc' : Proc} {reply : Reply}

theorem CreatePc.ahead_pos (pc : CreatePc) : 0 < pc.ahead := by
  cases pc <;> exact Nat.succ_pos _

theorem StartPc.ahead_pos (pc : StartPc) : 0 < pc.ahead := by
  cases pc <;> exact Nat.succ_pos _

theorem Job.work_pos {job : Job} (h : job.starts sid = true) : 0 < job.work settings sid := by
  rw [Job.work, if_pos h]
  omega

theorem Job.work_of_other {job : Job} (h : job.starts sid = false) : job.work settings sid = 0 := by
  rw [Job.work, if_neg (by simp [h])]

theorem Proc.work_pos (h : proc.starts sid = true) : 0 < proc.work settings sid := by
  cases proc with
  | create c =>
    rw [Proc.work, if_pos (of_decide_eq_true h)]
    exact Nat.mul_pos (by omega) c.pc.ahead_pos
  | start d =>
    rw [Proc.work, if_pos (of_decide_eq_true h)]
    omega
  | _ => cases h

theorem Proc.work_of_other (h : proc.starts sid = false) : proc.work settings sid = 0 := by
  cases proc with
  | create c => exact if_neg (of_decide_eq_false h)
  | start d => exact if_neg (of_decide_eq_false h)
  | _ => rfl

theorem Proc.request_work (hk : proc.Known w) :
    proc.request.work settings sid = 0 ∨
      proc.starts sid = true ∧ proc.request.work settings sid = 13 * settings.jobMaxTries + 1 ∧
        ∃ c, proc = .create c := by
  cases hrequest : proc.request with
  | enqueue job =>
    cases hstarts : job.starts sid with
    | false => exact .inl (Job.work_of_other settings sid hstarts)
    | true =>
      have hkey := of_decide_eq_true hstarts
      have hstart : isStartOf sid (.placed job) = true := by simpa [isStartOf, Job.key] using hkey
      obtain ⟨c, r, rfl, -, hid⟩ := Proc.create_of_enqueue hk hrequest hstart
      refine .inr ⟨decide_eq_true hid, ?_, c, rfl⟩
      rw [Request.work, Job.work, if_pos hstarts, Proc.first_of_enqueue hrequest]
      rfl
  | _ => exact .inl rfl

/-- A reply that a handler goes on with leaves less work, what it enqueued included. -/
theorem Proc.work_goes (hk : proc.Known w) (h : proc.Goes settings reply proc')
    (hstarts : proc.starts sid = true) :
    proc'.work settings sid + proc.request.work settings sid < proc.work settings sid := by
  have hrequest := Proc.request_work settings sid hk
  cases h with
  | create c _ pc goes =>
    have hid : c.sandboxId = sid := of_decide_eq_true hstarts
    have hahead := CreateSandbox.ahead_of_goes goes
    have hmul := Nat.mul_le_mul_left (13 * settings.jobMaxTries + 2) hahead
    simp only [Proc.work, if_pos hid, Nat.succ_eq_add_one, Nat.mul_add, Nat.mul_one] at hmul ⊢
    rcases hrequest with hnone | ⟨-, hwork, -⟩ <;> omega
  | start d _ pc goes =>
    have hid : d.sandboxId = sid := of_decide_eq_true hstarts
    have hahead := StartSandbox.ahead_of_goes goes
    simp only [Proc.work, if_pos hid]
    rcases hrequest with hnone | ⟨-, -, c, hc⟩
    · omega
    · cases hc
  | _ => cases hstarts

theorem Proc.work_over (hk : proc.Known w) (hstarts : proc.starts sid = true) :
    proc.request.work settings sid + proc.again settings sid < proc.work settings sid := by
  have hrequest := Proc.request_work settings sid hk
  cases proc with
  | create c =>
    have hid : c.sandboxId = sid := of_decide_eq_true hstarts
    have hmul := Nat.mul_le_mul_left (13 * settings.jobMaxTries + 2) c.pc.ahead_pos
    simp only [Proc.work, if_pos hid, Proc.again, Proc.job?, Option.map_none, Option.getD_none] at hmul ⊢
    rcases hrequest with hnone | ⟨-, hwork, -⟩ <;> omega
  | start d =>
    have hid : d.sandboxId = sid := of_decide_eq_true hstarts
    have hpos := d.pc.ahead_pos
    have hjob : Job.starts sid ⟨.startSandbox, d.sandboxId, d.pool, d.jobTry + 1⟩ = true :=
      decide_eq_true (congrArg (Prod.mk Task.startSandbox) hid)
    simp only [Proc.work, if_pos hid, Proc.again, Proc.job?, Option.map_some, Option.getD_some,
      Job.work, if_pos hjob]
    rcases hrequest with hnone | ⟨-, -, c, hc⟩
    · omega
    · cases hc
  | _ => cases hstarts

theorem Proc.work_other (hk : proc.Known w) (hother : proc.starts sid = false) :
    proc.request.work settings sid = 0 ∧ proc.again settings sid = 0 := by
  constructor
  · exact (Proc.request_work settings sid hk).resolve_right fun h => by rw [hother] at h; cases h.1
  · cases proc with
    | start d =>
      have hid : d.sandboxId ≠ sid := of_decide_eq_false hother
      change Job.work settings sid ⟨.startSandbox, d.sandboxId, d.pool, d.jobTry + 1⟩ = 0
      exact Job.work_of_other settings sid (decide_eq_false fun hkey => hid (congrArg Prod.snd hkey))
    | stop d =>
      change Job.work settings sid ⟨.stopSandbox, d.sandboxId, d.pool, d.jobTry + 1⟩ = 0
      exact Job.work_of_other settings sid (decide_eq_false fun hkey => by cases congrArg Prod.fst hkey)
    | _ => rfl

variable {settings sid}

theorem Proc.goes_starts (h : proc.Goes settings reply proc') : proc'.starts sid = proc.starts sid := by
  cases h <;> rfl

theorem Proc.starts_ofJob {job : Job} (h : (Proc.ofJob job).starts sid = true) : job.starts sid = true := by
  obtain ⟨task, id, queue, jobTry⟩ := job
  cases task with
  | startSandbox => exact decide_eq_true (congrArg (Prod.mk Task.startSandbox) (of_decide_eq_true h))
  | stopSandbox => cases h

theorem Proc.work_ofJob {job : Job} (htries : job.jobTry ≤ settings.jobMaxTries)
    (h : job.starts sid = true) : (Proc.ofJob job).work settings sid < job.work settings sid := by
  have hkey := of_decide_eq_true h
  obtain ⟨task, id, queue, jobTry⟩ := job
  obtain ⟨rfl, rfl⟩ : task = .startSandbox ∧ id = sid := by simpa [Job.key] using hkey
  replace htries : jobTry ≤ settings.jobMaxTries := htries
  rw [Job.work, if_pos h]
  simp only [Proc.ofJob, StartSandbox.start, Proc.work, if_true, StartPc.ahead]
  omega

/-! ## The queue -/

variable (settings sid)

theorem World.work_after (w : World) (actor : Actor) (how : How) (choice : Choice) (q : Request) :
    (w.after actor how choice q).work settings sid ≤ w.work settings sid + q.work settings sid := by
  cases jobCall_after w actor how choice q with
  | same queue =>
    rw [World.work, World.work, queue]
    omega
  | placed job isEnqueue _ queue =>
    subst isEnqueue
    rw [World.work, World.work, queue, List.map_append, List.sum_append, List.map_singleton,
      List.sum_singleton]
    exact Nat.le_refl _

theorem World.work_settleJob (w : World) (proc : Proc) (requeue : Bool) :
    (w.settleJob proc requeue).work settings sid ≤ w.work settings sid + proc.again settings sid := by
  rw [World.work, World.settleJob_queue, World.work, Proc.again]
  cases proc.job? with
  | none => exact Nat.le_add_right _ _
  | some job =>
    cases requeue with
    | false => exact Nat.le_add_right _ _
    | true =>
      rw [List.map_append, List.sum_append, List.map_singleton, List.sum_singleton]
      exact Nat.le_refl _

theorem World.work_erase {job : Job} (h : job ∈ w.queue) :
    ((w.queue.erase job).map (Job.work settings sid)).sum + job.work settings sid =
      w.work settings sid := by
  have hperm := (List.perm_cons_erase h).map (Job.work settings sid)
  rw [World.work, hperm.sum_eq, List.map_cons, List.sum_cons, Nat.add_comm]

end

/-! ## One step -/

/-- What is to be done to start the sandbox: a job to be taken, a call to resolve. -/
def State.Owes (sid : Uuid) (s : State) : Job ⊕ Nat → Prop
  | .inl job => job.starts sid = true ∧ job ∈ s.world.queue
  | .inr pid => ∃ proc, s.proc pid = some proc ∧ proc.starts sid = true

def Action.Serves (a : Action) : Job ⊕ Nat → Prop
  | .inl job => ∃ pid, a = .deliver pid job
  | .inr pid => ∃ how choice, a = .await pid how choice

/-- The start job of the sandbox is not delivered once more. -/
def DeliveredOnce (sid : Uuid) (_ : State) (a : Action) (_ : State) : Prop :=
  ∀ pid job, a = .redeliver pid job → job.starts sid = false

section

variable {settings : Settings} {sid : Uuid} {s t : State} {a : Action}

theorem State.workless_iff : s.Workless settings sid ↔ ∀ i, ¬s.Owes sid i := by
  rw [State.Workless, State.work, Nat.add_eq_zero_iff, World.work, List.sum_eq_zero_iff_forall_eq_nat,
    List.sum_eq_zero_iff_forall_eq_nat]
  constructor
  · rintro ⟨hqueue, hprocs⟩ (job | pid)
    · rintro ⟨hstarts, hjob⟩
      have hzero := hqueue _ (List.mem_map_of_mem hjob)
      have hpos := Job.work_pos settings sid hstarts
      omega
    · rintro ⟨proc, found, hstarts⟩
      have hzero : proc.work settings sid = 0 :=
        hprocs _ (List.mem_map.mpr ⟨_, State.mem_procs_iff.mpr found, rfl⟩)
      have hpos := Proc.work_pos settings sid hstarts
      omega
  · intro hnone
    constructor
    · intro n hn
      obtain ⟨job, hjob, rfl⟩ := List.mem_map.mp hn
      cases hstarts : job.starts sid with
      | false => exact Job.work_of_other settings sid hstarts
      | true => exact absurd ⟨hstarts, hjob⟩ (hnone (.inl job))
    · intro n hn
      obtain ⟨⟨pid, proc⟩, hmem, rfl⟩ := List.mem_map.mp hn
      cases hstarts : proc.starts sid with
      | false => exact Proc.work_of_other settings sid hstarts
      | true => exact absurd ⟨proc, State.mem_procs_iff.mp hmem, hstarts⟩ (hnone (.inr pid))

theorem State.work_over {pid : Nat} {proc : Proc} {requeue : Bool} {w : World} (hk : Provenance s)
    (found : s.proc pid = some proc)
    (hworld : t.world.work settings sid = (w.settleJob proc requeue).work settings sid)
    (hw : w.work settings sid ≤ s.world.work settings sid + proc.request.work settings sid)
    (procs : ∀ q, t.proc q = if pid = q then none else s.proc q) :
    t.work settings sid + (if proc.starts sid then 1 else 0) ≤ s.work settings sid := by
  have hknown := hk.procs pid proc found
  have hsettle := World.work_settleJob settings sid w proc requeue
  obtain ⟨n, hs, ht⟩ := State.sum_frame (Proc.work settings sid) pid (s := s) (t := t) fun q hq => by
    rw [procs, if_neg (Ne.symm hq)]
  rw [found] at hs
  rw [procs, if_pos rfl] at ht
  simp only [State.work, hs, ht, hworld, Option.map_some, Option.map_none, Option.getD_some,
    Option.getD_none]
  cases hstarts : proc.starts sid with
  | true =>
    have hless := Proc.work_over settings sid hknown hstarts
    simp only [if_true]
    omega
  | false =>
    obtain ⟨hnone, hagain⟩ := Proc.work_other settings sid hknown hstarts
    simp only [Bool.false_eq_true, if_false]
    omega

/-- A call does not add to the work, and one that is about the start takes from it. -/
theorem Stepped.work_await {pid : Nat} {how : How} {choice : Choice} {proc : Proc}
    (h : Stepped settings s t (.await pid how choice)) (hk : Provenance s)
    (found : s.proc pid = some proc) :
    t.work settings sid + (if proc.starts sid then 1 else 0) ≤ s.work settings sid := by
  have hafter := World.work_after settings sid s.world proc.actor how choice
    proc.request
  cases h with
  | resumed _ _ _ _ proc' events found' lives resume world_eq _ procs =>
    cases found.symm.trans found'
    have hknown := hk.procs pid proc found
    have hgoes := Proc.goes_of_resume resume
    obtain ⟨n, hs, ht⟩ := State.sum_frame (Proc.work settings sid) pid (s := s) (t := t) fun q hq => by
      rw [procs, if_neg (Ne.symm hq)]
    rw [found] at hs
    rw [procs, if_pos rfl] at ht
    have hworld : t.world.work settings sid =
        (s.worldAfter proc how choice).work settings sid := by rw [world_eq]; rfl
    simp only [State.work, hs, ht, hworld, State.worldAfter, Option.map_some, Option.getD_some]
    cases hstarts : proc.starts sid with
    | true =>
      have hless := Proc.work_goes settings sid hknown hgoes hstarts
      simp only [if_true]
      omega
    | false =>
      have hnone := (Proc.work_other settings sid hknown hstarts).1
      have hzero := Proc.work_of_other settings sid ((Proc.goes_starts hgoes).trans hstarts)
      simp only [Bool.false_eq_true, if_false]
      omega
  | ended _ _ _ _ outcome events found' lives resume world_eq _ procs =>
    cases found.symm.trans found'
    exact State.work_over hk found (congrArg (World.work settings sid) world_eq) hafter procs
  | killed _ effect requeue _ _ found' world_eq _ procs =>
    cases found.symm.trans found'
    exact State.work_over hk found (congrArg (World.work settings sid) world_eq) hafter procs
  | spawned _ _ _ _ spawn => cases spawn

theorem Spawned.work {pid : Nat} {proc : Proc} {world : World} {drawn : List Uuid}
    (h : Spawned settings s a pid proc world drawn) (hdrawn : sid ∈ s.drawn) (hfresh : Fresh s a t)
    (honce : DeliveredOnce sid s a t) :
    world.work settings sid + proc.work settings sid ≤ s.world.work settings sid ∧
      ∀ job, a = .deliver pid job → job.starts sid = true →
        world.work settings sid + proc.work settings sid < s.world.work settings sid := by
  have other : ∀ {job : Job}, job.starts sid = false → (Proc.ofJob job).work settings sid = 0 := by
    intro job hjob
    refine Proc.work_of_other settings sid ?_
    cases hstarts : (Proc.ofJob job).starts sid with
    | false => rfl
    | true => rw [Proc.starts_ofJob hstarts] at hjob; cases hjob
  cases h with
  | post _ body key id =>
    have hne : id ≠ sid := fun hid => hfresh.not_drawn (hid ▸ hdrawn)
    exact ⟨Nat.le_of_eq (congrArg _ (if_neg hne)), fun job hjob => by cases hjob⟩
  | delete => exact ⟨Nat.le_refl _, fun job hjob => by cases hjob⟩
  | put => exact ⟨Nat.le_refl _, fun job hjob => by cases hjob⟩
  | sweep => exact ⟨Nat.le_refl _, fun job hjob => by cases hjob⟩
  | redeliver _ job =>
    exact ⟨Nat.le_of_eq (congrArg _ (other (honce pid job rfl))), fun job hjob => by cases hjob⟩
  | deliver _ job queued tries =>
    have herase := World.work_erase settings sid queued
    cases hstarts : job.starts sid with
    | true =>
      have hless := Proc.work_ofJob tries hstarts
      change ((s.world.queue.erase job).map (Job.work settings sid)).sum + _ ≤ _ ∧ ∀ job', _ → _ →
        ((s.world.queue.erase job).map (Job.work settings sid)).sum + _ < _
      exact ⟨by omega, fun _ _ _ => by omega⟩
    | false =>
      have hzero := other hstarts
      change ((s.world.queue.erase job).map (Job.work settings sid)).sum + _ ≤ _ ∧ _
      refine ⟨by omega, fun job' hjob hstarts' => ?_⟩
      cases hjob
      rw [hstarts] at hstarts'
      cases hstarts'

theorem work_step (hk : Provenance s) (hdrawn : sid ∈ s.drawn) (hfresh : Fresh s a t)
    (honce : DeliveredOnce sid s a t) (h : Stepped settings s t a) :
    t.work settings sid ≤ s.work settings sid ∧
      ∀ i, s.Owes sid i → a.Serves i → t.work settings sid < s.work settings sid := by
  have hawait : ∀ pid how choice proc, a = .await pid how choice → s.proc pid = some proc →
      t.work settings sid ≤ s.work settings sid ∧
        ∀ i, s.Owes sid i → a.Serves i → t.work settings sid < s.work settings sid := by
    rintro pid how choice proc rfl found
    have hwork : t.work settings sid + _ ≤ s.work settings sid := h.work_await hk found
    refine ⟨Nat.le_trans (Nat.le_add_right _ _) hwork, ?_⟩
    rintro (job | q)
    · rintro - ⟨_, hserves⟩
      cases hserves
    · rintro ⟨proc', found', hstarts⟩ ⟨_, _, hserves⟩
      cases hserves
      cases found.symm.trans found'
      rw [if_pos hstarts] at hwork
      omega
  cases h with
  | tick _ _ result =>
    subst result
    exact ⟨Nat.le_refl _, by rintro (_ | _) - ⟨_, hserves⟩ <;> simp at hserves⟩
  | died _ _ _ result =>
    subst result
    exact ⟨Nat.le_refl _, by rintro (_ | _) - ⟨_, hserves⟩ <;> simp at hserves⟩
  | exited _ _ _ result =>
    subst result
    exact ⟨Nat.le_refl _, by rintro (_ | _) - ⟨_, hserves⟩ <;> simp at hserves⟩
  | dropped pid job queued tries result =>
    subst result
    have herase := World.work_erase settings sid queued
    simp only [State.work, World.work] at herase ⊢
    refine ⟨by omega, ?_⟩
    rintro (job' | q)
    · rintro ⟨hstarts, -⟩ ⟨_, hserves⟩
      cases hserves
      have hpos := Job.work_pos settings sid hstarts
      omega
    · rintro - ⟨_, _, hserves⟩
      cases hserves
  | spawned pid proc world drawn spawn absent world_eq drawn_eq procs =>
    obtain ⟨hle, hless⟩ := spawn.work hdrawn hfresh honce
    obtain ⟨n, hs, ht⟩ := State.sum_frame (Proc.work settings sid) pid (s := s) (t := t) fun q hq => by
      rw [procs, if_neg (Ne.symm hq)]
    rw [absent] at hs
    rw [procs, if_pos rfl] at ht
    simp only [State.work, hs, ht, world_eq, Option.map_some, Option.map_none, Option.getD_some,
      Option.getD_none]
    refine ⟨by omega, ?_⟩
    rintro (job | q)
    · rintro ⟨hstarts, -⟩ ⟨q, rfl⟩
      have hpid : q = pid := by cases spawn; rfl
      have := hless job (by rw [hpid]) hstarts
      omega
    · rintro - ⟨how, choice, rfl⟩
      cases spawn
  | resumed _ _ _ _ _ _ found => exact hawait _ _ _ _ rfl found
  | ended _ _ _ _ _ _ found => exact hawait _ _ _ _ rfl found
  | killed _ _ _ _ _ found => exact hawait _ _ _ _ rfl found

theorem owes_kept (h : Stepped settings s t a) {i : Job ⊕ Nat} (howes : s.Owes sid i)
    (hnot : ¬a.Serves i) : t.Owes sid i := by
  rcases i with job | pid
  · obtain ⟨hstarts, hjob⟩ := howes
    refine ⟨hstarts, ?_⟩
    cases h with
    | tick _ _ result => subst result; exact hjob
    | died _ _ _ result => subst result; exact hjob
    | exited _ _ _ result => subst result; exact hjob
    | dropped pid job' _ _ result =>
      subst result
      have hne : job ≠ job' := fun heq => hnot ⟨pid, heq ▸ rfl⟩
      exact (List.mem_erase_of_ne hne).mpr hjob
    | spawned pid proc world drawn spawn absent world_eq =>
      rw [world_eq]
      cases spawn with
      | deliver _ job' =>
        have hne : job ≠ job' := fun heq => hnot ⟨pid, heq ▸ rfl⟩
        exact (List.mem_erase_of_ne hne).mpr hjob
      | _ => exact hjob
    | resumed _ how choice proc _ _ found _ _ world_eq =>
      rw [world_eq]
      exact World.mem_queue_mono proc.actor how choice proc.request hjob
    | ended _ how choice proc _ _ found _ _ world_eq =>
      rw [world_eq]
      exact World.mem_queue_settle (World.mem_queue_mono proc.actor how choice proc.request hjob)
    | killed _ effect requeue choice proc found world_eq =>
      rw [world_eq]
      exact World.mem_queue_settle
        (World.mem_queue_mono proc.actor (.killed effect requeue) choice proc.request hjob)
  · obtain ⟨proc, found, hstarts⟩ := howes
    exact ⟨proc, h.proc_stays found fun how choice ha => hnot ⟨how, choice, ha⟩, hstarts⟩

theorem AttendedRow.owes (hs : AttendedRow sid s) {r : Sandbox} (hr : s.world.row sid = some r)
    (hstart : r.status ∈ startable) : ¬s.Workless settings sid := by
  intro hzero
  have hnone := State.workless_iff.mp hzero
  rcases hs r hr hstart with ⟨job, hjob, hstarts⟩ | ⟨pid, proc, found, hattends⟩
  · exact hnone (.inl job) ⟨hstarts, hjob⟩
  · refine hnone (.inr pid) ⟨proc, found, ?_⟩
    cases proc with
    | create c => exact (Bool.and_eq_true_iff.mp hattends).1
    | start d => exact (Bool.and_eq_true_iff.mp hattends).1
    | _ => cases hattends

end

end SandboxOrchestrator
