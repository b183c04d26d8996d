import SandboxOrchestrator.WorldLemmas
import SandboxOrchestrator.Handlers

/-!
# What one step can do

`Stepped` is the inversion of `step`: one constructor for each kind of action and for
each way a handler goes on, with the world and the handlers it leaves. Invariants are
proved by cases on it.
-/

namespace SandboxOrchestrator

set_option autoImplicit false

/-! ## Bookkeeping leaves rows and containers alone -/

@[simp] theorem World.record_row (w : World) (es : List Event) (sid : Uuid) :
    (w.record es).row sid = w.row sid := rfl

@[simp] theorem World.record_container (w : World) (es : List Event) (sid : Uuid) :
    (w.record es).container sid = w.container sid := rfl

@[simp] theorem World.record_queue (w : World) (es : List Event) : (w.record es).queue = w.queue := rfl

@[simp] theorem World.record_jobKeys (w : World) (es : List Event) :
    (w.record es).jobKeys = w.jobKeys := rfl

@[simp] theorem World.record_log (w : World) (es : List Event) : (w.record es).log = es ++ w.log := rfl

@[simp] theorem World.record_now (w : World) (es : List Event) : (w.record es).now = w.now := rfl

@[simp] theorem World.settleJob_row (w : World) (proc : Proc) (again : Bool) (sid : Uuid) :
    (w.settleJob proc again).row sid = w.row sid := by
  unfold settleJob
  split
  · rfl
  · split <;> rfl

@[simp] theorem World.settleJob_container (w : World) (proc : Proc) (again : Bool) (sid : Uuid) :
    (w.settleJob proc again).container sid = w.container sid := by
  unfold settleJob
  split
  · rfl
  · split <;> rfl

@[simp] theorem World.settleJob_log (w : World) (proc : Proc) (again : Bool) :
    (w.settleJob proc again).log = w.log := by
  unfold settleJob
  split
  · rfl
  · split <;> rfl

@[simp] theorem World.settleJob_now (w : World) (proc : Proc) (again : Bool) :
    (w.settleJob proc again).now = w.now := by
  unfold settleJob
  split
  · rfl
  · split <;> rfl

theorem World.settleJob_queue (w : World) (proc : Proc) (again : Bool) :
    (w.settleJob proc again).queue =
      match proc.job?, again with
      | some job, true => w.queue ++ [{ job with jobTry := job.jobTry + 1 }]
      | _, _ => w.queue := by
  unfold settleJob
  cases proc.job? <;> cases again <;> rfl

theorem World.settleJob_jobKeys (w : World) (proc : Proc) (again : Bool) :
    (w.settleJob proc again).jobKeys =
      match proc.job?, again with
      | some job, false => w.jobKeys.erase (job.task, job.sandboxId)
      | _, _ => w.jobKeys := by
  unfold settleJob
  cases proc.job? <;> cases again <;> rfl

/-! ## Handlers in flight -/

theorem State.proc_spawn {s t : State} {pid : Nat} {proc : Proc} (h : s.spawn pid proc = some t) :
    t.world = s.world ∧ t.drawn = s.drawn ∧ s.proc pid = none ∧
      ∀ q, t.proc q = if pid = q then some proc else s.proc q := by
  unfold State.spawn at h
  obtain ⟨procs, hp, rfl⟩ := Option.map_eq_some_iff.mp h
  refine ⟨rfl, rfl, by simp [State.proc, KeyedTable.find?_of_insert hp], fun q => ?_⟩
  simp only [State.proc, KeyedTable.find?_insert hp]
  split <;> rfl

theorem State.spawn_of_idle {s : State} (pid : Nat) (idle : s.proc pid = none) (proc : Proc) :
    ∃ t, s.spawn pid proc = some t := by
  refine Option.isSome_iff_exists.mp ?_
  rw [State.spawn, Option.isSome_map, Option.isSome_iff_ne_none, ne_eq,
    KeyedTable.insert_eq_none_iff]
  rintro (hkey | ⟨i, halt, -⟩)
  · rw [← Option.isSome_map (f := Prod.snd)] at hkey
    exact absurd idle (Option.isSome_iff_ne_none.mp hkey)
  · cases halt

theorem State.mem_procs_iff {s : State} {pid : Nat} {proc : Proc} :
    (pid, proc) ∈ s.procs.rows ↔ s.proc pid = some proc := by
  constructor
  · intro h
    exact Option.map_eq_some_iff.mpr ⟨_, s.procs.mem_rows_iff.mp h, rfl⟩
  · intro h
    obtain ⟨e, he, rfl⟩ := Option.map_eq_some_iff.mp h
    obtain ⟨hmem, rfl⟩ := s.procs.find?_eq_some_iff.mp he
    exact hmem

theorem State.idle_of_rows {s : State} (h : s.procs.rows = []) (p : Nat) : s.proc p = none := by
  simp [State.proc, KeyedTable.find?, h]

theorem State.proc_erase (s : State) (pid q : Nat) (w : World) :
    ({ s with world := w, procs := s.procs.erase pid } : State).proc q =
      if pid = q then none else s.proc q := by
  simp only [State.proc, KeyedTable.find?_erase]
  split <;> rfl

theorem State.proc_setProc {s : State} {pid : Nat} {old : Proc} (h : s.proc pid = some old)
    (new : Proc) (q : Nat) (w : World) :
    ({ s with world := w, procs := s.setProc pid new } : State).proc q =
      if pid = q then some new else s.proc q := by
  have hfind : (s.setProc pid new).find? q =
      (s.procs.find? q).map fun e => if decide (e.1 = pid) then (e.1, new) else e :=
    KeyedTable.find?_update s.procs (fun e => decide (e.1 = pid)) (fun e => (e.1, new))
      (fun _ => rfl) (fun _ => rfl) q
  obtain ⟨e, he, -⟩ := Option.map_eq_some_iff.mp h
  simp only [State.proc, hfind]
  cases hq : s.procs.find? q with
  | none =>
    have hne : pid ≠ q := by
      rintro rfl
      rw [hq] at he
      cases he
    simp [hne]
  | some f =>
    have hf : f.1 = q := KeyedTable.key_of_find? hq
    by_cases hpq : pid = q
    · simp [hf, hpq]
    · simp [hf, hpq, Ne.symm hpq]

theorem State.rows_perm {s t : State} {pid : Nat} (h : ∀ q, q ≠ pid → t.proc q = s.proc q) :
    t.procs.rows.Perm (((t.proc pid).map fun x => (pid, x)).toList ++
      s.procs.rows.filter fun e => decide (e.1 ≠ pid)) := by
  refine t.procs.rows_perm ?_ ?_
  · have hrest := (List.Nodup.of_map _ s.procs.keysNodup).filter fun e => decide (e.1 ≠ pid)
    cases t.proc pid with
    | none => exact hrest
    | some x => exact List.nodup_cons.mpr ⟨by simp, hrest⟩
  · rintro ⟨q, x⟩
    rw [← KeyedTable.mem_rows_iff, State.mem_procs_iff, List.mem_append, List.mem_filter,
      State.mem_procs_iff]
    by_cases hq : q = pid
    · subst hq
      simp
    · simp [hq, h q hq, Ne.symm hq]

/-- The actions that start a handler, with the world they leave. -/
inductive Spawned (settings : Settings) (s : State) :
    Action → Nat → Proc → World → List Uuid → Prop where
  | post (pid : Nat) (body : SandboxCreate) (key : Option IdempotencyKey) (sid : Uuid) :
      Spawned settings s (.post pid body key sid) pid (.create (.start body key sid)) s.world
        (sid :: s.drawn)
  | delete (pid : Nat) (sid : Uuid) :
      Spawned settings s (.delete pid sid) pid (.delete ⟨sid, .get⟩) s.world s.drawn
  | put (pid : Nat) (p : PutRollout) : Spawned settings s (.put pid p) pid (.put p) s.world s.drawn
  | deliver (pid : Nat) (job : Job) (queued : job ∈ s.world.queue)
      (tries : job.jobTry ≤ settings.jobMaxTries) :
      Spawned settings s (.deliver pid job) pid (.ofJob job)
        { s.world with queue := s.world.queue.erase job } s.drawn
  | redeliver (pid : Nat) (job : Job)
      (placed : ∃ j, .placed j ∈ s.world.log ∧ j.task = job.task ∧ j.sandboxId = job.sandboxId) :
      Spawned settings s (.redeliver pid job) pid (.ofJob job) s.world s.drawn
  | sweep (pid : Nat) : Spawned settings s (.sweep pid) pid (.sweep .start) s.world s.drawn

inductive Stepped (settings : Settings) (s : State) (t : State) : Action → Prop where
  | tick (now : Time) (later : s.world.now ≤ now)
      (result : t = { s with world := { s.world with now := now } }) : Stepped settings s t (.tick now)
  | spawned {a : Action} (pid : Nat) (proc : Proc) (world : World) (drawn : List Uuid)
      (spawn : Spawned settings s a pid proc world drawn) (absent : s.proc pid = none)
      (world_eq : t.world = world) (drawn_eq : t.drawn = drawn)
      (procs : ∀ q, t.proc q = if pid = q then some proc else s.proc q) : Stepped settings s t a
  | dropped (pid : Nat) (job : Job) (queued : job ∈ s.world.queue)
      (tries : settings.jobMaxTries < job.jobTry)
      (result : t = { s with world := { s.world with
        queue := s.world.queue.erase job
        jobKeys := s.world.jobKeys.erase (job.task, job.sandboxId) } }) :
      Stepped settings s t (.deliver pid job)
  | died (sid : Uuid) (c : Container) (found : s.world.container sid = some c)
      (result : t = { s with world :=
        { s.world.removeContainer sid with log := .died sid :: s.world.log } }) :
      Stepped settings s t (.die sid)
  | exited (sid : Uuid) (c : Container) (found : s.world.container sid = some c)
      (result : t = { s with world := s.world.setContainer { c with running := false } }) :
      Stepped settings s t (.exit sid)
  | resumed (pid : Nat) (how : How) (choice : Choice) (proc proc' : Proc) (events : List Event)
      (found : s.proc pid = some proc) (lives : ∀ e r, how ≠ .killed e r)
      (resume : proc.resume settings s.world.now
        (s.world.reply proc.actor how choice proc.request) = some (events, .goto proc'))
      (world_eq : t.world = (s.worldAfter proc how choice).record events) (drawn_eq : t.drawn = s.drawn)
      (procs : ∀ q, t.proc q = if pid = q then some proc' else s.proc q) :
      Stepped settings s t (.await pid how choice)
  | ended (pid : Nat) (how : How) (choice : Choice) (proc : Proc) (outcome : End) (events : List Event)
      (found : s.proc pid = some proc) (lives : ∀ e r, how ≠ .killed e r)
      (resume : proc.resume settings s.world.now
        (s.world.reply proc.actor how choice proc.request) = some (events, .done outcome))
      (world_eq : t.world = ((s.worldAfter proc how choice).record
        (proc.ended outcome :: events)).settleJob proc (decide (outcome = .retry)))
      (drawn_eq : t.drawn = s.drawn)
      (procs : ∀ q, t.proc q = if pid = q then none else s.proc q) :
      Stepped settings s t (.await pid how choice)
  | killed (pid : Nat) (effect requeue : Bool) (choice : Choice) (proc : Proc)
      (found : s.proc pid = some proc)
      (world_eq : t.world = (s.worldAfter proc (.killed effect requeue) choice).settleJob proc requeue)
      (drawn_eq : t.drawn = s.drawn)
      (procs : ∀ q, t.proc q = if pid = q then none else s.proc q) :
      Stepped settings s t (.await pid (.killed effect requeue) choice)

theorem stepped_of_spawn {settings : Settings} {s t : State} {a : Action} {pid : Nat} {proc : Proc}
    {world : World} {drawn : List Uuid} (hs : Spawned settings s a pid proc world drawn)
    (h : ({ s with world := world, drawn := drawn } : State).spawn pid proc = some t) :
    Stepped settings s t a := by
  obtain ⟨hw, hd, ha, hp⟩ := State.proc_spawn h
  exact .spawned pid proc world drawn hs ha hw hd hp

theorem stepped_await {settings : Settings} {s t : State} {pid : Nat} {how : How} {choice : Choice}
    {proc : Proc} (found : s.proc pid = some proc)
    (h : s.await settings pid how choice proc = some t) :
    Stepped settings s t (.await pid how choice) := by
  by_cases hk : ∃ e r, how = .killed e r
  · obtain ⟨e, r, rfl⟩ := hk
    cases h
    exact .killed pid e r choice proc found rfl rfl fun q => s.proc_erase pid q _
  · have lives : ∀ e r, how ≠ .killed e r := fun e r he => hk ⟨e, r, he⟩
    unfold State.await at h
    split at h
    · exact absurd rfl (lives _ _)
    split at h
    · cases h
    · rename_i events proc' hr
      cases h
      exact .resumed pid how choice proc proc' events found lives hr rfl rfl
        fun q => State.proc_setProc found proc' q _
    · rename_i events outcome hr
      cases h
      exact .ended pid how choice proc outcome events found lives hr rfl rfl
        fun q => s.proc_erase pid q _

theorem stepped {settings : Settings} {s t : State} {a : Action} (h : step settings s a = some t) :
    Stepped settings s t a := by
  cases a with
  | tick now =>
    simp only [step] at h
    split at h
    · rename_i hle
      cases h
      exact .tick now hle rfl
    · cases h
  | post pid body key sid => exact stepped_of_spawn (.post pid body key sid) h
  | delete pid sid => exact stepped_of_spawn (.delete pid sid) h
  | put pid p => exact stepped_of_spawn (.put pid p) h
  | deliver pid job =>
    simp only [step] at h
    split at h
    · rename_i hq
      split at h
      · rename_i ht
        exact stepped_of_spawn (.deliver pid job hq ht) h
      · rename_i ht
        cases h
        exact .dropped pid job hq (by omega) rfl
    · cases h
  | redeliver pid job =>
    simp only [step] at h
    split at h
    · rename_i hp
      refine stepped_of_spawn (.redeliver pid job ?_) h
      obtain ⟨e, he, hm⟩ := List.any_eq_true.mp hp
      split at hm
      · rename_i j
        exact ⟨j, he, by simpa using hm⟩
      · cases hm
    · cases h
  | sweep pid => exact stepped_of_spawn (.sweep pid) h
  | await pid how choice =>
    obtain ⟨proc, found, h⟩ := Option.bind_eq_some_iff.mp h
    exact stepped_await found h
  | die sid =>
    simp only [step] at h
    split at h
    · rename_i c hc
      cases h
      exact .died sid c hc rfl
    · cases h
  | exit sid =>
    simp only [step] at h
    split at h
    · rename_i c hc
      cases h
      exact .exited sid c hc rfl
    · cases h

/-! ## A call that is known to go on -/

theorem await_goes {settings : Settings} {s : State} {pid : Nat} {how : How} {choice : Choice}
    {proc proc' : Proc} {events : List Event} (found : s.proc pid = some proc)
    (lives : ∀ e r, how ≠ .killed e r)
    (resume : proc.resume settings s.world.now
      (s.world.reply proc.actor how choice proc.request) = some (events, .goto proc')) :
    ∃ t, step settings s (.await pid how choice) = some t ∧
      t.world = (s.worldAfter proc how choice).record events ∧
      ∀ q, t.proc q = if pid = q then some proc' else s.proc q := by
  refine ⟨{ s with world := (s.worldAfter proc how choice).record events
                   procs := s.setProc pid proc' }, ?_, rfl, fun q => State.proc_setProc found proc' q _⟩
  simp only [step, found, Option.bind_some]
  unfold State.await
  split
  · exact absurd rfl (lives _ _)
  · rw [resume]

theorem await_ends {settings : Settings} {s : State} {pid : Nat} {how : How} {choice : Choice}
    {proc : Proc} {outcome : End} {events : List Event} (found : s.proc pid = some proc)
    (lives : ∀ e r, how ≠ .killed e r)
    (resume : proc.resume settings s.world.now
      (s.world.reply proc.actor how choice proc.request) = some (events, .done outcome)) :
    ∃ t, step settings s (.await pid how choice) = some t ∧
      t.world = ((s.worldAfter proc how choice).record
        (proc.ended outcome :: events)).settleJob proc (decide (outcome = .retry)) ∧
      ∀ q, t.proc q = if pid = q then none else s.proc q := by
  refine ⟨{ s with
      world := ((s.worldAfter proc how choice).record
        (proc.ended outcome :: events)).settleJob proc (decide (outcome = .retry))
      procs := s.procs.erase pid }, ?_, rfl, fun q => s.proc_erase pid q _⟩
  simp only [step, found, Option.bind_some]
  unfold State.await
  split
  · exact absurd rfl (lives _ _)
  · rw [resume]

/-! ## The events of a handler's own code -/

def Proc.emits : Proc → Event → Bool
  | .create _, .jobsEnqueued .. => true
  | .delete _, .jobsEnqueued .. => true
  | .start _, .jobs .startSandbox .. => true
  | .start _, .timeToRunning .. => true
  | .stop _, .jobs .stopSandbox .. => true
  | .sweep _, .reaped .. => true
  | .sweep _, .reconcileRuns _ => true
  | _, _ => false

theorem CreateSandbox.emits_of_resume {cap : Nat} {c : CreateSandbox} {reply : Reply}
    {events : List Event} {next : Next CreateSandbox} (h : c.resume cap reply = some (events, next)) :
    ∀ e ∈ events, (Proc.create c).emits e = true := by
  unfold resume at h
  split at h
  all_goals try split at h
  all_goals
    simp only [replayed, Option.map_eq_some_iff, Option.some.injEq, Prod.mk.injEq, reduceCtorEq] at h
  all_goals
    first
    | (obtain ⟨rfl, -⟩ := h; first | exact List.forall_mem_nil _ | exact List.forall_mem_singleton.mpr rfl)
    | (obtain ⟨-, -, rfl, -⟩ := h; exact List.forall_mem_nil _)

theorem DeleteSandbox.emits_of_resume {d : DeleteSandbox} {reply : Reply} {events : List Event}
    {next : Next DeleteSandbox} (h : d.resume reply = some (events, next)) :
    ∀ e ∈ events, (Proc.delete d).emits e = true := by
  unfold resume at h
  split at h
  all_goals try split at h
  all_goals
    simp only [Option.map_eq_some_iff, Option.some.injEq, Prod.mk.injEq, reduceCtorEq] at h
  all_goals
    first
    | (obtain ⟨rfl, -⟩ := h; first | exact List.forall_mem_nil _ | exact List.forall_mem_singleton.mpr rfl)
    | (obtain ⟨-, -, rfl, -⟩ := h; exact List.forall_mem_nil _)

theorem PutRollout.emits_of_resume {p : PutRollout} {reply : Reply} {events : List Event}
    {next : Next PutRollout} (h : p.resume reply = some (events, next)) :
    ∀ e ∈ events, (Proc.put p).emits e = true := by
  unfold resume at h
  split at h
  all_goals simp only [Option.some.injEq, Prod.mk.injEq, reduceCtorEq] at h
  all_goals
    obtain ⟨rfl, -⟩ := h
    exact List.forall_mem_nil _

theorem StartSandbox.emits_of_counts {d : StartSandbox} {o : Option JobOutcome} {events : List Event}
    (h : d.Counts o events) : ∀ e ∈ events, (Proc.start d).emits e = true := by
  intro e he
  obtain _ | o := o
  · rw [h] at he
    cases he
  · cases o with
    | success =>
      obtain ⟨waited, rfl⟩ := h
      rcases List.mem_pair.mp he with rfl | rfl <;> rfl
    | _ =>
      rw [h] at he
      rw [List.mem_singleton.mp he]
      rfl

theorem StartSandbox.emits_of_resume {settings : Settings} {now : Time} {d : StartSandbox}
    {reply : Reply} {events : List Event} {next : Next StartSandbox}
    (h : d.resume settings now reply = some (events, next)) :
    ∀ e ∈ events, (Proc.start d).emits e = true := by
  cases next with
  | goto d' =>
    obtain ⟨-, -, rfl, -⟩ := goes_of_resume h
    exact List.forall_mem_nil _
  | done outcome =>
    obtain ⟨o, hcounts, -⟩ := ends_of_resume h
    exact emits_of_counts hcounts

theorem StopSandbox.emits_of_resume {settings : Settings} {d : StopSandbox} {reply : Reply}
    {events : List Event} {next : Next StopSandbox} (h : d.resume settings reply = some (events, next)) :
    ∀ e ∈ events, (Proc.stop d).emits e = true := by
  unfold resume at h
  split at h
  all_goals try split at h
  all_goals simp only [Option.some.injEq, Prod.mk.injEq, reduceCtorEq] at h
  all_goals
    obtain ⟨rfl, -⟩ := h
    first | exact List.forall_mem_nil _ | exact List.forall_mem_singleton.mpr rfl

theorem ReconcileSandboxes.emits_of_resume {p : ReconcileSandboxes} {reply : Reply}
    {events : List Event} {next : Next ReconcileSandboxes} (h : p.resume reply = some (events, next)) :
    ∀ e ∈ events, (Proc.sweep p).emits e = true := by
  unfold resume at h
  split at h
  all_goals simp only [count, Option.some.injEq, Prod.mk.injEq, reduceCtorEq] at h
  all_goals
    obtain ⟨rfl, -⟩ := h
    first | exact List.forall_mem_nil _ | exact List.forall_mem_singleton.mpr rfl

theorem Proc.resume_emits {settings : Settings} {now : Time} {proc : Proc} {reply : Reply}
    {events : List Event} {next : Next Proc}
    (h : proc.resume settings now reply = some (events, next)) :
    ∀ e ∈ events, proc.emits e = true := by
  cases proc with
  | create c =>
    obtain ⟨⟨es, next'⟩, hx, hx'⟩ := Option.map_eq_some_iff.mp h
    cases hx'
    exact CreateSandbox.emits_of_resume hx
  | delete d =>
    obtain ⟨⟨es, next'⟩, hx, hx'⟩ := Option.map_eq_some_iff.mp h
    cases hx'
    exact DeleteSandbox.emits_of_resume hx
  | put p =>
    obtain ⟨⟨es, next'⟩, hx, hx'⟩ := Option.map_eq_some_iff.mp h
    cases hx'
    exact PutRollout.emits_of_resume hx
  | start d =>
    obtain ⟨⟨es, next'⟩, hx, hx'⟩ := Option.map_eq_some_iff.mp h
    cases hx'
    exact StartSandbox.emits_of_resume hx
  | stop d =>
    obtain ⟨⟨es, next'⟩, hx, hx'⟩ := Option.map_eq_some_iff.mp h
    cases hx'
    exact StopSandbox.emits_of_resume hx
  | sweep p =>
    obtain ⟨⟨es, next'⟩, hx, hx'⟩ := Option.map_eq_some_iff.mp h
    cases hx'
    exact ReconcileSandboxes.emits_of_resume hx

theorem Proc.byCall_of_emits {proc : Proc} {e : Event} (h : proc.emits e = true) :
    e.byCall = false := by
  cases proc <;> cases e <;> first | rfl | simp_all [Proc.emits]

@[simp] theorem Proc.ended_byCall (proc : Proc) (outcome : End) :
    (proc.ended outcome).byCall = false := by cases proc <;> rfl

/-! ## Where a handler in flight comes from -/

theorem Proc.ofJob_start {job : Job} (h : job.task = .startSandbox) :
    Proc.ofJob job = .start (.start job.sandboxId job.jobTry job.queue) := by
  simp only [Proc.ofJob, h]

theorem Spawned.of_create {settings : Settings} {s : State} {a : Action} {pid : Nat}
    {c : CreateSandbox} {w : World} {drawn : List Uuid}
    (h : Spawned settings s a pid (.create c) w drawn) :
    ∃ body key sid, a = .post pid body key sid ∧ c = .start body key sid ∧ drawn = sid :: s.drawn := by
  generalize hp : Proc.create c = proc at h
  cases h with
  | post _ body key sid => cases hp; exact ⟨body, key, sid, rfl, rfl, rfl⟩
  | deliver _ job => obtain ⟨_ | _, _⟩ := job <;> cases hp
  | redeliver _ job => obtain ⟨_ | _, _⟩ := job <;> cases hp
  | _ => cases hp

theorem Spawned.of_start {settings : Settings} {s : State} {a : Action} {pid : Nat}
    {d : StartSandbox} {w : World} {drawn : List Uuid}
    (h : Spawned settings s a pid (.start d) w drawn) :
    ∃ job, (a = .deliver pid job ∨ a = .redeliver pid job) ∧ job.task = .startSandbox ∧
      d = .start job.sandboxId job.jobTry job.queue := by
  generalize hp : Proc.start d = proc at h
  cases h with
  | deliver _ job => obtain ⟨_ | _, _⟩ := job <;> cases hp; exact ⟨_, .inl rfl, rfl, rfl⟩
  | redeliver _ job => obtain ⟨_ | _, _⟩ := job <;> cases hp; exact ⟨_, .inr rfl, rfl, rfl⟩
  | _ => cases hp

theorem Spawned.of_delete {settings : Settings} {s : State} {a : Action} {pid : Nat}
    {d : DeleteSandbox} {w : World} {drawn : List Uuid}
    (h : Spawned settings s a pid (.delete d) w drawn) :
    a = .delete pid d.sandboxId ∧ d.pc = .get := by
  generalize hp : Proc.delete d = proc at h
  cases h with
  | delete _ sid => cases hp; exact ⟨rfl, rfl⟩
  | deliver _ job => obtain ⟨_ | _, _⟩ := job <;> cases hp
  | redeliver _ job => obtain ⟨_ | _, _⟩ := job <;> cases hp
  | _ => cases hp

theorem Spawned.of_sweep {settings : Settings} {s : State} {a : Action} {pid : Nat}
    {p : ReconcileSandboxes} {w : World} {drawn : List Uuid}
    (h : Spawned settings s a pid (.sweep p) w drawn) : a = .sweep pid ∧ p = .start := by
  generalize hp : Proc.sweep p = proc at h
  cases h with
  | sweep => cases hp; exact ⟨rfl, rfl⟩
  | deliver _ job => obtain ⟨_ | _, _⟩ := job <;> cases hp
  | redeliver _ job => obtain ⟨_ | _, _⟩ := job <;> cases hp
  | _ => cases hp

/-- A handler of the state after a step was there before, or was started by the step, or
is the one whose call resolved. -/
inductive Came (settings : Settings) (s t : State) (a : Action) (pid : Nat) (proc : Proc) : Prop where
  | stayed (found : s.proc pid = some proc) (other : ∀ how choice, a ≠ .await pid how choice)
  | spawned (world : World) (drawn : List Uuid) (spawn : Spawned settings s a pid proc world drawn)
      (absent : s.proc pid = none) (world_eq : t.world = world) (drawn_eq : t.drawn = drawn)
  | resumed (how : How) (choice : Choice) (old : Proc) (events : List Event)
      (isAwait : a = .await pid how choice) (found : s.proc pid = some old)
      (lives : ∀ e r, how ≠ .killed e r)
      (goes : old.Goes settings (s.world.reply old.actor how choice old.request) proc)
      (world_eq : t.world = (s.worldAfter old how choice).record events)

theorem Stepped.came {settings : Settings} {s t : State} {a : Action} (h : Stepped settings s t a)
    {pid : Nat} {proc : Proc} (hp : t.proc pid = some proc) : Came settings s t a pid proc := by
  cases h with
  | tick _ _ result => subst result; exact .stayed hp (by simp)
  | dropped _ _ _ _ result => subst result; exact .stayed hp (by simp)
  | died _ _ _ result => subst result; exact .stayed hp (by simp)
  | exited _ _ _ result => subst result; exact .stayed hp (by simp)
  | spawned q new world drawn spawn absent world_eq drawn_eq procs =>
    rw [procs] at hp
    split at hp
    · rename_i hq
      subst hq
      cases hp
      exact .spawned world drawn spawn absent world_eq drawn_eq
    · exact .stayed hp fun how choice ha => by subst ha; cases spawn
  | resumed q how choice old new events found lives resume world_eq _ procs =>
    rw [procs] at hp
    split at hp
    · rename_i hq
      subst hq
      cases hp
      exact .resumed how choice old events rfl found lives (Proc.goes_of_resume resume) world_eq
    · rename_i hq
      exact .stayed hp fun how' choice' ha => hq (by cases ha; rfl)
  | ended q how choice old outcome events found lives resume _ _ procs =>
    rw [procs] at hp
    split at hp
    · cases hp
    · rename_i hq
      exact .stayed hp fun how' choice' ha => hq (by cases ha; rfl)
  | killed q e r choice old found _ _ procs =>
    rw [procs] at hp
    split at hp
    · cases hp
    · rename_i hq
      exact .stayed hp fun how' choice' ha => hq (by cases ha; rfl)

theorem Stepped.proc_stays {settings : Settings} {s t : State} {a : Action}
    (h : Stepped settings s t a) {pid : Nat} {proc : Proc} (hp : s.proc pid = some proc)
    (hother : ∀ how choice, a ≠ .await pid how choice) : t.proc pid = some proc := by
  cases h with
  | tick _ _ result => subst result; exact hp
  | dropped _ _ _ _ result => subst result; exact hp
  | died _ _ _ result => subst result; exact hp
  | exited _ _ _ result => subst result; exact hp
  | spawned q new world drawn spawn absent _ _ procs =>
    rw [procs, if_neg]
    · exact hp
    · rintro rfl
      cases absent.symm.trans hp
  | resumed q how choice _ _ _ _ _ _ _ _ procs =>
    rw [procs, if_neg fun hq => hother how choice (by rw [hq])]
    exact hp
  | ended q how choice _ _ _ _ _ _ _ _ procs =>
    rw [procs, if_neg fun hq => hother how choice (by rw [hq])]
    exact hp
  | killed q e r choice _ _ _ _ procs =>
    rw [procs, if_neg fun hq => hother _ choice (by rw [hq])]
    exact hp

theorem Stepped.awaited {settings : Settings} {s t : State} {pid : Nat} {how : How} {choice : Choice}
    (h : Stepped settings s t (.await pid how choice)) : ∃ proc, s.proc pid = some proc := by
  cases h with
  | resumed _ _ _ proc _ _ found => exact ⟨proc, found⟩
  | ended _ _ _ proc _ _ found => exact ⟨proc, found⟩
  | killed _ _ _ _ proc found => exact ⟨proc, found⟩
  | spawned _ _ _ _ spawn => cases spawn

theorem Stepped.beside {settings : Settings} {s t : State} {pid : Nat} {how : How} {choice : Choice}
    (h : Stepped settings s t (.await pid how choice)) :
    (∀ q, q ≠ pid → t.proc q = s.proc q) ∧ t.world.now = s.world.now := by
  cases h with
  | resumed _ _ _ old _ _ _ _ _ world_eq _ procs =>
    refine ⟨fun q hq => by rw [procs, if_neg (Ne.symm hq)], ?_⟩
    rw [world_eq, World.record_now]
    exact s.world.now_after ..
  | ended _ _ _ old _ _ _ _ _ world_eq _ procs =>
    refine ⟨fun q hq => by rw [procs, if_neg (Ne.symm hq)], ?_⟩
    rw [world_eq, World.settleJob_now, World.record_now]
    exact s.world.now_after ..
  | killed _ _ _ _ old _ world_eq _ procs =>
    refine ⟨fun q hq => by rw [procs, if_neg (Ne.symm hq)], ?_⟩
    rw [world_eq, World.settleJob_now]
    exact s.world.now_after ..
  | spawned _ _ _ _ spawn => cases spawn

theorem Stepped.now_le {settings : Settings} {s t : State} {a : Action}
    (h : Stepped settings s t a) : s.world.now ≤ t.world.now := by
  have hawait : ∀ pid how choice, a = .await pid how choice → s.world.now ≤ t.world.now := by
    rintro pid how choice rfl
    exact Int.le_of_eq h.beside.2.symm
  cases h with
  | tick now later result => subst result; exact later
  | spawned pid proc world drawn spawn absent world_eq =>
    rw [world_eq]
    cases spawn <;> exact Int.le_refl _
  | dropped _ _ _ _ result => subst result; exact Int.le_refl _
  | died _ _ _ result => subst result; exact Int.le_refl _
  | exited _ _ _ result => subst result; exact Int.le_refl _
  | _ => exact hawait _ _ _ rfl

theorem Stepped.dies {settings : Settings} {s t : State} {pid : Nat} {effect requeue : Bool}
    {choice : Choice} (h : Stepped settings s t (.await pid (.killed effect requeue) choice)) :
    t.proc pid = none := by
  cases h with
  | killed _ _ _ _ _ _ _ _ procs => rw [procs, if_pos rfl]
  | resumed _ _ _ _ _ _ _ lives => exact absurd rfl (lives effect requeue)
  | ended _ _ _ _ _ _ _ lives => exact absurd rfl (lives effect requeue)
  | spawned _ _ _ _ spawn => cases spawn

theorem Stepped.called {settings : Settings} {s t : State} {pid : Nat} {how : How} {choice : Choice}
    (h : Stepped settings s t (.await pid how choice)) {proc : Proc} (hp : s.proc pid = some proc) :
    (∀ sid, t.world.row sid = (s.worldAfter proc how choice).row sid) ∧
      ∀ sid, t.world.container sid = (s.worldAfter proc how choice).container sid := by
  cases h with
  | resumed _ _ _ old _ _ found _ _ world_eq =>
    cases hp.symm.trans found
    simp [world_eq]
  | ended _ _ _ old _ _ found _ _ world_eq =>
    cases hp.symm.trans found
    simp [world_eq]
  | killed _ _ _ _ old found world_eq =>
    cases hp.symm.trans found
    simp [world_eq]
  | spawned _ _ _ _ spawn => cases spawn

/-- A handler that lives goes on with the reply of its call, or ends with it. -/
theorem Stepped.lived {settings : Settings} {s t : State} {pid : Nat} {how : How} {choice : Choice}
    (h : Stepped settings s t (.await pid how choice)) (lives : ∀ e r, how ≠ .killed e r) {proc : Proc}
    (hp : s.proc pid = some proc) :
    (∃ proc', proc.Goes settings (s.world.reply proc.actor how choice proc.request) proc' ∧
        t.proc pid = some proc') ∨
      ∃ outcome, proc.Ends settings (s.world.reply proc.actor how choice proc.request) outcome ∧
        t.proc pid = none := by
  cases h with
  | resumed _ _ _ old new events found lives resume _ _ procs =>
    cases hp.symm.trans found
    exact .inl ⟨new, Proc.goes_of_resume resume, by rw [procs, if_pos rfl]⟩
  | ended _ _ _ old outcome events found lives resume _ _ procs =>
    cases hp.symm.trans found
    exact .inr ⟨outcome, Proc.ends_of_resume resume, by rw [procs, if_pos rfl]⟩
  | killed _ e r => exact absurd rfl (lives e r)
  | spawned _ _ _ _ spawn => cases spawn

theorem Stepped.ok {settings : Settings} {s t : State} {pid : Nat} {choice : Choice}
    (h : Stepped settings s t (.await pid .ok choice)) {proc : Proc} (hp : s.proc pid = some proc) :
    (∃ proc', proc.Goes settings (s.world.perform proc.actor choice proc.request).2 proc' ∧
        t.proc pid = some proc') ∨
      ∃ outcome, proc.Ends settings (s.world.perform proc.actor choice proc.request).2 outcome ∧
        t.proc pid = none :=
  h.lived (by simp) hp

theorem Stepped.drawn_mono {settings : Settings} {s t : State} {a : Action}
    (h : Stepped settings s t a) {sid : Uuid} (hd : sid ∈ s.drawn) : sid ∈ t.drawn := by
  cases h with
  | tick _ _ result => subst result; exact hd
  | spawned pid proc world drawn spawn absent world_eq drawn_eq =>
    rw [drawn_eq]
    cases spawn with
    | post => exact List.mem_cons_of_mem _ hd
    | _ => exact hd
  | dropped _ _ _ _ result => subst result; exact hd
  | died _ _ _ result => subst result; exact hd
  | exited _ _ _ result => subst result; exact hd
  | resumed _ _ _ _ _ _ _ _ _ _ drawn_eq => exact drawn_eq ▸ hd
  | ended _ _ _ _ _ _ _ _ _ _ drawn_eq => exact drawn_eq ▸ hd
  | killed _ _ _ _ _ _ _ drawn_eq => exact drawn_eq ▸ hd

/-! ## Rows and containers over one step -/

/-- A step leaves a row alone, or it is a call of some handler that takes effect on it. -/
theorem Stepped.row {settings : Settings} {s t : State} {a : Action} (h : Stepped settings s t a)
    (sid : Uuid) :
    t.world.row sid = s.world.row sid ∨
      ∃ pid how choice proc, a = .await pid how choice ∧ s.proc pid = some proc ∧
        RowChange s.world proc.request sid (t.world.row sid) := by
  cases h with
  | tick _ _ result => subst result; exact .inl rfl
  | spawned pid proc world drawn spawn absent world_eq =>
    left
    rw [world_eq]
    cases spawn <;> rfl
  | dropped _ _ _ _ result => subst result; exact .inl rfl
  | died _ _ _ result => subst result; exact .inl rfl
  | exited _ _ _ result => subst result; exact .inl rfl
  | resumed pid how choice proc _ _ found _ _ world_eq =>
    refine .inr ⟨pid, how, choice, proc, rfl, found, ?_⟩
    rw [world_eq, World.record_row]
    exact rowChange_after ..
  | ended pid how choice proc _ _ found _ _ world_eq =>
    refine .inr ⟨pid, how, choice, proc, rfl, found, ?_⟩
    rw [world_eq, World.settleJob_row, World.record_row]
    exact rowChange_after ..
  | killed pid e r choice proc found world_eq =>
    refine .inr ⟨pid, _, choice, proc, rfl, found, ?_⟩
    rw [world_eq, World.settleJob_row]
    exact rowChange_after ..

/-- A step leaves a container in place or out of place, or it is a call of some handler
that takes effect on it, or the container is lost from outside. -/
theorem Stepped.container {settings : Settings} {s t : State} {a : Action}
    (h : Stepped settings s t a) (sid : Uuid) :
    (t.world.container sid).isSome = (s.world.container sid).isSome ∨
      (a = .die sid ∧ .died sid ∈ t.world.log ∧ t.world.container sid = none) ∨
      ∃ pid how choice proc, a = .await pid how choice ∧ s.proc pid = some proc ∧
        ContainerChange s.world proc.request sid (t.world.container sid) := by
  cases h with
  | tick _ _ result => subst result; exact .inl rfl
  | spawned pid proc world drawn spawn absent world_eq =>
    left
    rw [world_eq]
    cases spawn <;> rfl
  | dropped _ _ _ _ result => subst result; exact .inl rfl
  | died id c found result =>
    subst result
    have hc : ({ s.world.removeContainer id with log := .died id :: s.world.log } : World).container
        sid = if id = sid then none else s.world.container sid := s.world.container_removeContainer id sid
    by_cases hid : id = sid
    · subst hid
      exact .inr (.inl ⟨rfl, by simp, by simpa using hc⟩)
    · exact .inl (by simp [hc, hid])
  | exited id c found result =>
    subst result
    left
    rw [World.container_setContainer]
    simp
  | resumed pid how choice proc _ _ found _ _ world_eq =>
    refine .inr (.inr ⟨pid, how, choice, proc, rfl, found, ?_⟩)
    rw [world_eq, World.record_container]
    exact containerChange_after ..
  | ended pid how choice proc _ _ found _ _ world_eq =>
    refine .inr (.inr ⟨pid, how, choice, proc, rfl, found, ?_⟩)
    rw [world_eq, World.settleJob_container, World.record_container]
    exact containerChange_after ..
  | killed pid e r choice proc found world_eq =>
    refine .inr (.inr ⟨pid, _, choice, proc, rfl, found, ?_⟩)
    rw [world_eq, World.settleJob_container]
    exact containerChange_after ..

/-! ## Jobs over one step -/

theorem Stepped.mem_queue {settings : Settings} {s t : State} {a : Action}
    (h : Stepped settings s t a) {job : Job} (hj : job ∈ t.world.queue) :
    job ∈ s.world.queue ∨
      ∃ pid how choice proc, a = .await pid how choice ∧ s.proc pid = some proc ∧
        (proc.request = .enqueue job ∨
          ∃ old, proc.job? = some old ∧ job = { old with jobTry := old.jobTry + 1 }) := by
  have hafter : ∀ {proc : Proc} {how : How} {choice : Choice},
      job ∈ (s.worldAfter proc how choice).queue → job ∈ s.world.queue ∨ proc.request = .enqueue job :=
    fun hq => World.mem_queue_after hq
  have hsettle : ∀ {w : World} {proc : Proc} {again : Bool}, job ∈ (w.settleJob proc again).queue →
      job ∈ w.queue ∨ ∃ old, proc.job? = some old ∧ job = { old with jobTry := old.jobTry + 1 } := by
    intro w proc again hq
    rw [World.settleJob_queue] at hq
    split at hq
    · rename_i old hold
      exact (List.mem_append.mp hq).imp_right fun hn => ⟨old, hold, List.mem_singleton.mp hn⟩
    · exact .inl hq
  cases h with
  | tick _ _ result => subst result; exact .inl hj
  | spawned pid proc world drawn spawn absent world_eq =>
    left
    rw [world_eq] at hj
    cases spawn with
    | deliver => exact List.mem_of_mem_erase hj
    | _ => exact hj
  | dropped _ _ _ _ result => subst result; exact .inl (List.mem_of_mem_erase hj)
  | died _ _ _ result => subst result; exact .inl hj
  | exited _ _ _ result => subst result; exact .inl hj
  | resumed pid how choice proc _ _ found _ _ world_eq =>
    rw [world_eq, World.record_queue] at hj
    exact (hafter hj).imp_right fun hq => ⟨pid, how, choice, proc, rfl, found, .inl hq⟩
  | ended pid how choice proc _ _ found _ _ world_eq =>
    rw [world_eq] at hj
    rcases hsettle hj with hj | hold
    · exact (hafter hj).imp_right fun hq => ⟨pid, how, choice, proc, rfl, found, .inl hq⟩
    · exact .inr ⟨pid, how, choice, proc, rfl, found, .inr hold⟩
  | killed pid e r choice proc found world_eq =>
    rw [world_eq] at hj
    rcases hsettle hj with hj | hold
    · exact (hafter hj).imp_right fun hq => ⟨pid, _, choice, proc, rfl, found, .inl hq⟩
    · exact .inr ⟨pid, _, choice, proc, rfl, found, .inr hold⟩

/-! ## The record over one step -/

theorem Spawned.log {settings : Settings} {s : State} {a : Action} {pid : Nat} {proc : Proc}
    {world : World} {drawn : List Uuid} (h : Spawned settings s a pid proc world drawn) :
    world.log = s.world.log := by cases h <;> rfl

/-- How the record and the rows change together: not at all, by the loss of a container, or
by a call and, after it, what the resumed handler emits and how it ended. -/
inductive LogChange (s t : State) (a : Action) : Prop where
  | same (log_eq : t.world.log = s.world.log) (rows : ∀ sid, t.world.row sid = s.world.row sid)
  | died (sid : Uuid) (log_eq : t.world.log = .died sid :: s.world.log)
      (rows : ∀ id, t.world.row id = s.world.row id)
  | called (pid : Nat) (how : How) (choice : Choice) (proc : Proc) (own : List Event)
      (isAwait : a = .await pid how choice) (found : s.proc pid = some proc)
      (own_byCall : ∀ e ∈ own, e.byCall = false)
      (log_eq : t.world.log = own ++ (s.worldAfter proc how choice).log)
      (rows : ∀ sid, t.world.row sid = (s.worldAfter proc how choice).row sid)

theorem Stepped.logChange {settings : Settings} {s t : State} {a : Action}
    (h : Stepped settings s t a) : LogChange s t a := by
  cases h with
  | tick _ _ result => subst result; exact .same rfl fun _ => rfl
  | spawned pid proc world drawn spawn absent world_eq =>
    refine .same (world_eq ▸ spawn.log) fun sid => ?_
    rw [world_eq]
    cases spawn <;> rfl
  | dropped _ _ _ _ result => subst result; exact .same rfl fun _ => rfl
  | died sid _ _ result => subst result; exact .died sid rfl fun _ => rfl
  | exited _ _ _ result => subst result; exact .same rfl fun _ => rfl
  | resumed pid how choice proc proc' events found lives resume world_eq =>
    refine .called pid how choice proc events rfl found ?_ (by rw [world_eq, World.record_log])
      (by simp [world_eq])
    exact fun e he => Proc.byCall_of_emits (Proc.resume_emits resume e he)
  | ended pid how choice proc outcome events found lives resume world_eq =>
    refine .called pid how choice proc (proc.ended outcome :: events) rfl found ?_
      (by rw [world_eq, World.settleJob_log, World.record_log]) (by simp [world_eq])
    intro e he
    rcases List.mem_cons.mp he with rfl | he
    · exact Proc.ended_byCall proc outcome
    · exact Proc.byCall_of_emits (Proc.resume_emits resume e he)
  | killed pid e r choice proc found world_eq =>
    exact .called pid _ choice proc [] rfl found (by simp) (by simp [world_eq]) (by simp [world_eq])

theorem LogChange.mem {s t : State} {a : Action} (h : LogChange s t a) {e : Event}
    (hcall : e.byCall = true) (he : e ∈ t.world.log) :
    e ∈ s.world.log ∨
      ∃ pid how choice proc, a = .await pid how choice ∧ s.proc pid = some proc ∧
        ((∃ job, proc.request = .enqueue job ∧ e = .placed job) ∨
          ∃ r v, s.world.row r.id = some r ∧ proc.request.writes r = some v ∧
            t.world.row r.id = some (v.apply s.world.now r) ∧
            e = .wrote proc.actor r.id r.status v.status s.world.now) := by
  cases h with
  | same log_eq => exact .inl (log_eq ▸ he)
  | died sid log_eq =>
    rw [log_eq] at he
    rcases List.mem_cons.mp he with rfl | he
    · cases hcall
    · exact .inl he
  | called pid how choice proc own isAwait found own_byCall log_eq rows =>
    rw [log_eq] at he
    rcases List.mem_append.mp he with he | he
    · rw [own_byCall e he] at hcall
      cases hcall
    · refine (World.mem_log_after_iff he).imp_right fun hq =>
        ⟨pid, how, choice, proc, isAwait, found, hq.imp_right fun ⟨r, v, hr, hw, hrow, he⟩ => ?_⟩
      exact ⟨r, v, hr, hw, (rows r.id).trans hrow, he⟩

theorem LogChange.mono {s t : State} {a : Action} (h : LogChange s t a) {e : Event}
    (he : e ∈ s.world.log) : e ∈ t.world.log := by
  cases h with
  | same log_eq => exact log_eq ▸ he
  | died sid log_eq => exact log_eq ▸ List.mem_cons_of_mem _ he
  | called pid how choice proc own isAwait found own_byCall log_eq =>
    rw [log_eq]
    exact List.mem_append_right _ (World.mem_log_after he)

def Event.ofEnd : Event → Bool
  | .created .. => true
  | .deleted .. => true
  | .weightSet .. => true
  | .worked .. => true
  | .reconciled _ => true
  | _ => false

theorem Event.not_byCall_of_ofEnd {e : Event} (h : e.ofEnd = true) : e.byCall = false := by
  cases e <;> first | rfl | cases h

theorem Proc.not_emits_of_ofEnd {proc : Proc} {e : Event} (h : e.ofEnd = true) :
    proc.emits e = false := by
  cases proc <;> cases e <;> first | rfl | cases h

/-- An event that no call leaves and that is new on the record was emitted by the handler the
step resumed, or records how it ended. -/
theorem Stepped.mem_log_of_own {settings : Settings} {s t : State} {a : Action}
    (h : Stepped settings s t a) {e : Event} (hcall : e.byCall = false) (hdied : ∀ sid, e ≠ .died sid)
    (he : e ∈ t.world.log) :
    e ∈ s.world.log ∨
      ∃ pid how choice proc events next, a = .await pid how choice ∧ s.proc pid = some proc ∧
        (∀ e r, how ≠ .killed e r) ∧
        proc.resume settings s.world.now (s.world.reply proc.actor how choice proc.request) =
          some (events, next) ∧
        (e ∈ events ∨ ∃ outcome, next = .done outcome ∧ t.proc pid = none ∧ e = proc.ended outcome) := by
  have hafter : ∀ {proc : Proc} {how : How} {choice : Choice},
      e ∈ (s.worldAfter proc how choice).log → e ∈ s.world.log := by
    intro proc how choice hm
    obtain ⟨es, hlog, hes⟩ := s.world.after_log proc.actor how choice proc.request
    rw [State.worldAfter, hlog] at hm
    rcases List.mem_append.mp hm with hm | hm
    · cases hcall.symm.trans (hes e hm)
    · exact hm
  cases h with
  | tick _ _ result => subst result; exact .inl he
  | spawned pid proc world drawn spawn absent world_eq => rw [world_eq, spawn.log] at he; exact .inl he
  | dropped _ _ _ _ result => subst result; exact .inl he
  | died sid _ _ result =>
    subst result
    rcases List.mem_cons.mp he with he | he
    · exact absurd he (hdied sid)
    · exact .inl he
  | exited _ _ _ result => subst result; exact .inl he
  | resumed pid how choice proc proc' events found lives resume world_eq =>
    rw [world_eq, World.record_log] at he
    rcases List.mem_append.mp he with he | he
    · exact .inr ⟨pid, how, choice, proc, events, _, rfl, found, lives, resume, .inl he⟩
    · exact .inl (hafter he)
  | ended pid how choice proc outcome events found lives resume world_eq _ procs =>
    rw [world_eq, World.settleJob_log, World.record_log] at he
    rcases List.mem_append.mp he with he | he
    · refine .inr ⟨pid, how, choice, proc, events, _, rfl, found, lives, resume, ?_⟩
      rcases List.mem_cons.mp he with he | he
      · exact .inr ⟨outcome, rfl, by simp [procs], he⟩
      · exact .inl he
    · exact .inl (hafter he)
  | killed pid e' r choice proc found world_eq =>
    rw [world_eq, World.settleJob_log] at he
    exact .inl (hafter he)

theorem Stepped.mem_log_of_end {settings : Settings} {s t : State} {a : Action}
    (h : Stepped settings s t a) {e : Event} (hend : e.ofEnd = true) (he : e ∈ t.world.log) :
    e ∈ s.world.log ∨
      ∃ pid how choice proc outcome, a = .await pid how choice ∧ s.proc pid = some proc ∧
        (∀ e r, how ≠ .killed e r) ∧ t.proc pid = none ∧
        proc.Ends settings (s.world.reply proc.actor how choice proc.request) outcome ∧
        e = proc.ended outcome := by
  have hdied : ∀ sid, e ≠ .died sid := by
    rintro sid rfl
    cases hend
  refine (h.mem_log_of_own (Event.not_byCall_of_ofEnd hend) hdied he).imp_right ?_
  rintro ⟨pid, how, choice, proc, events, next, rfl, found, lives, resume,
    hown | ⟨outcome, rfl, hgone, hended⟩⟩
  · have hemits := Proc.resume_emits resume e hown
    rw [Proc.not_emits_of_ofEnd hend] at hemits
    cases hemits
  · exact ⟨pid, how, choice, proc, outcome, rfl, found, lives, hgone, Proc.ends_of_resume resume, hended⟩

theorem Stepped.countP {settings : Settings} {s t : State} {a : Action} (h : Stepped settings s t a)
    (p : Event → Bool) (hcall : ∀ e, e.byCall = true → p e = false)
    (hdied : ∀ sid, p (.died sid) = false) (hended : ∀ proc outcome, p (Proc.ended outcome proc) = false) :
    t.world.log.countP p = s.world.log.countP p ∨
      ∃ pid how choice proc events next, a = .await pid how choice ∧ s.proc pid = some proc ∧
        (∀ e r, how ≠ .killed e r) ∧
        proc.resume settings s.world.now (s.world.reply proc.actor how choice proc.request) =
          some (events, next) ∧
        t.world.log.countP p = events.countP p + s.world.log.countP p ∧
        ∀ sid, t.world.row sid = (s.worldAfter proc how choice).row sid := by
  have hafter : ∀ proc how choice,
      (s.worldAfter proc how choice).log.countP p = s.world.log.countP p :=
    fun proc how choice => s.world.countP_after_own proc.actor how choice proc.request hcall
  cases h with
  | tick _ _ result => subst result; exact .inl rfl
  | spawned pid proc world drawn spawn absent world_eq => left; rw [world_eq, spawn.log]
  | dropped _ _ _ _ result => subst result; exact .inl rfl
  | died sid _ _ result => subst result; exact .inl (by simp [hdied])
  | exited _ _ _ result => subst result; exact .inl rfl
  | resumed pid how choice proc proc' events found lives resume world_eq =>
    refine .inr ⟨pid, how, choice, proc, events, _, rfl, found, lives, resume, ?_, ?_⟩
    · simp [world_eq, hafter]
    · simp [world_eq]
  | ended pid how choice proc outcome events found lives resume world_eq =>
    refine .inr ⟨pid, how, choice, proc, events, _, rfl, found, lives, resume, ?_, ?_⟩
    · simp [world_eq, hafter, hended]
    · simp [world_eq]
  | killed pid e r choice proc found world_eq =>
    left
    rw [world_eq, World.settleJob_log, hafter]

end SandboxOrchestrator
