import SandboxOrchestrator.Attended
import SandboxOrchestrator.ExpiryChecks
import SandboxOrchestrator.SweepOverlap
import SandboxOrchestrator.Threads

/-!
# Rows nobody attends

Nothing sweeps a `queued` or `starting` row without a live job: the reaper reconciles
containers and `running` or `stopping` rows. Such a row stays as it is through every run
until somebody deletes it, and holds its place under the cap for as long, if nothing that
may still write it or make its container was in flight.
-/

namespace SandboxOrchestrator

set_option autoImplicit false

def Proc.mayWrite (sid : Uuid) : Proc → Bool
  | .create c => decide (c.sandboxId = sid) && c.committed
  | .delete d => decide (d.sandboxId = sid)
  | .start d => decide (d.sandboxId = sid)
  | .sweep p => decide (sid ∈ p.pc.ahead.map (·.sandboxId))
  | _ => false

/-- The row `r` is to be started and nobody is left who would: it has no container, no start job,
delivery or POST, and no DELETE or sweep in flight has it in hand. -/
structure Abandoned (sid : Uuid) (r : Sandbox) (s : State) : Prop where
  row : s.world.row sid = some r
  startable : r.status ∈ startable
  queue : ∀ job ∈ s.world.queue, job.starts sid = false
  procs : ∀ pid proc, s.proc pid = some proc → proc.mayWrite sid = false
  container : s.world.container sid = none

def Threaded.LaunchesOther (sid : Uuid) (s : Threaded) : Prop :=
  ∀ th ∈ s.threads, th.launches = true → th.sandboxId ≠ sid

/-- Nobody deletes the sandbox, and its job is not delivered once more. -/
def LeavesAlone (sid : Uuid) (_ : State) (a : Action) (_ : State) : Prop :=
  (∀ pid, a ≠ .delete pid sid) ∧ ∀ pid job, a = .redeliver pid job → job.starts sid = false

variable {settings : Settings} {sid : Uuid} {r : Sandbox} {s t : State} {a : Action}

theorem Proc.mayWrite_of_job {proc : Proc} {job : Job} (h : proc.job? = some job)
    (hstarts : job.starts sid = true) : proc.mayWrite sid = true := by
  have hkey := of_decide_eq_true hstarts
  cases proc with
  | start d =>
    cases h
    cases hkey
    exact decide_eq_true rfl
  | stop d =>
    cases h
    cases hkey
  | _ => cases h

theorem Proc.mayWrite_of_writes {proc : Proc} {v : Values} (hk : proc.Known s.world)
    (hst : r.status ∈ SandboxOrchestrator.startable) (h : proc.request.writes r = some v) :
    proc.mayWrite r.id = true := by
  simp only [SandboxOrchestrator.startable, List.mem_cons, List.not_mem_nil, or_false] at hst
  cases Proc.writes_of h with
  | markFailed body key sid' r₀ e hid =>
    obtain ⟨⟨hdrafted, -⟩, -⟩ := hk
    simpa [mayWrite, CreateSandbox.committed] using (hid.trans hdrafted).symm
  | settle n view c reason rest hid =>
    simp [mayWrite, SweepPc.ahead, hid]
  | finish _ _ status => rcases hst with h | h <;> cases h.symm.trans status
  | vanish _ _ _ status => rcases hst with h | h <;> cases h.symm.trans status
  | finishStops _ _ status => rcases hst with h | h <;> cases h.symm.trans status
  | _ => exact decide_eq_true rfl

theorem Abandoned.row_step (hs : Abandoned sid r s) (hk : Provenance s)
    (h : Stepped settings s t a) : t.world.row sid = some r := by
  rcases h.row sid with hsame | ⟨pid, how, choice, proc, -, found, hchange⟩
  · exact hsame.trans hs.row
  · generalize t.world.row sid = x at hchange
    cases hchange with
    | same => exact hs.row
    | inserted r₀ isInsert hid absent => cases hs.row.symm.trans absent
    | wrote r₀ v found' writes =>
      cases hs.row.symm.trans found'
      have hwrites := Proc.mayWrite_of_writes (hk.procs pid proc found) hs.startable writes
      rw [World.row_id hs.row, hs.procs pid proc found] at hwrites
      cases hwrites

theorem Abandoned.queue_step (hs : Abandoned sid r s) (hk : Provenance s)
    (h : Stepped settings s t a) {job : Job} (hjob : job ∈ t.world.queue) : job.starts sid = false := by
  cases hstarts : job.starts sid with
  | false => rfl
  | true =>
    have hkey := of_decide_eq_true hstarts
    rcases h.mem_queue hjob with hold | ⟨pid, how, choice, proc, -, found, hq | ⟨old, hold, rfl⟩⟩
    · exact hstarts.symm.trans (hs.queue job hold)
    · have hnone := hs.procs pid proc found
      have hstart : isStartOf sid (.placed job) = true := by
        simpa [isStartOf, Job.key] using hkey
      obtain ⟨c, r₀, rfl, hpc, hid⟩ := Proc.create_of_enqueue (hk.procs pid proc found) hq hstart
      simp [Proc.mayWrite, hid, CreateSandbox.committed, hpc] at hnone
    · exact (Proc.mayWrite_of_job hold hstarts).symm.trans (hs.procs pid proc found)

theorem Abandoned.procs_step (hs : Abandoned sid r s) (hk : Provenance s) (halone : LeavesAlone sid s a t)
    (h : Stepped settings s t a) {pid : Nat} {proc : Proc} (hp : t.proc pid = some proc) :
    proc.mayWrite sid = false := by
  have hcame := h.came hp
  cases proc with
  | create c =>
    cases hc : c.committed with
    | false => simp [Proc.mayWrite, hc]
    | true =>
      rcases hcame.committed hk hc with ⟨found, -⟩ | ⟨-, -, c₀, r₀, -, found, hpc, hid, -⟩ |
        ⟨-, -, -, -, -, -, -, hnone⟩
      · exact hs.procs pid _ found
      · have hold := hs.procs pid _ found
        simp only [Proc.mayWrite, CreateSandbox.committed_of_enqueue hpc, Bool.and_true] at hold
        simpa only [Proc.mayWrite, hc, Bool.and_true, ← hid] using hold
      · have hne : c.sandboxId ≠ sid := fun hid => by cases hs.row.symm.trans (hid ▸ hnone)
        simp [Proc.mayWrite, hne]
  | delete d =>
    cases hcame with
    | stayed found => exact hs.procs pid _ found
    | spawned world drawn spawn =>
      obtain ⟨rfl, hd⟩ := spawn.of_delete
      have hne : d.sandboxId ≠ sid := fun hid => halone.1 pid (hid ▸ rfl)
      exact decide_eq_false hne
    | resumed how choice old events isAwait found lives goes =>
      cases goes with
      | delete d₀ => exact hs.procs pid (.delete d₀) found
  | start d =>
    cases hcame with
    | stayed found => exact hs.procs pid _ found
    | spawned world drawn spawn =>
      obtain ⟨job, ha, htask, rfl⟩ := spawn.of_start
      have hjob : job.starts sid = false := by
        rcases ha with rfl | rfl
        · generalize Proc.start _ = proc at spawn
          cases spawn with
          | deliver _ _ queued => exact hs.queue job queued
        · exact halone.2 pid job rfl
      refine decide_eq_false fun hid => ?_
      have hkey : job.key = (.startSandbox, sid) := Prod.ext htask hid
      rw [Job.starts, hkey, decide_eq_true rfl] at hjob
      cases hjob
    | resumed how choice old events isAwait found lives goes =>
      cases goes with
      | start d₀ => exact hs.procs pid (.start d₀) found
  | sweep p =>
    cases hcame with
    | stayed found => exact hs.procs pid _ found
    | spawned world drawn spawn =>
      obtain ⟨-, rfl⟩ := spawn.of_sweep
      rfl
    | resumed how choice old events isAwait found lives goes =>
      generalize hreply : s.world.reply old.actor how choice old.request = reply at goes
      cases goes with
      | sweep p₀ _ _ goes =>
        refine decide_eq_false fun howes => ?_
        rcases ahead_of_goes goes howes with hold | ⟨running, cs, hpc, rfl, hlisted⟩
        · exact absurd hold (of_decide_eq_false (hs.procs pid _ found))
        · obtain ⟨c, hc, hid⟩ := List.mem_map.mp hlisted
          simp only [Proc.request, ReconcileSandboxes.request, hpc] at hreply
          obtain ⟨c₀, hc₀, rfl⟩ := World.container_of_listed lives hreply hc
          obtain rfl : c₀.sandboxId = sid := hid
          cases hs.container.symm.trans hc₀
  | _ => rfl

theorem Abandoned.container_step (hs : Abandoned sid r s) (h : Stepped settings s t a) :
    t.world.container sid = none := by
  rcases h.container sid with hsame | ⟨-, -, hnone⟩ | ⟨pid, how, choice, proc, -, found, hchange⟩
  · rw [hs.container] at hsame
    exact Option.isNone_iff_eq_none.mp (by simpa using hsame)
  · exact hnone
  · generalize t.world.container sid = x at hchange
    cases hchange with
    | same => exact hs.container
    | removed cause => rfl
    | created time isCreate absent =>
      obtain ⟨d, rfl, hid⟩ := Proc.start_of_create isCreate
      have hnone := hs.procs pid _ found
      simp [Proc.mayWrite, hid] at hnone
    | started n port c isStart found' => cases hs.container.symm.trans found'

theorem abandoned_step (hk : Provenance s) (hs : Abandoned sid r s) (halone : LeavesAlone sid s a t)
    (h : step settings s a = some t) : Abandoned sid r t where
  row := hs.row_step hk (stepped h)
  startable := hs.startable
  queue _ hjob := hs.queue_step hk (stepped h) hjob
  procs _ _ hp := hs.procs_step hk halone (stepped h) hp
  container := hs.container_step (stepped h)

/-! ## A call of a thread -/

section

variable {s t : Threaded} {a : ThreadedAction}

theorem abandoned_thread {th : Thread} (hs : Abandoned sid r s.state) (hother : s.LaunchesOther sid)
    (hth : th ∈ s.threads) (how : How) (choice : Choice) :
    Abandoned sid r { s.state with world := th.after s.state.world how choice } where
  row := (th.row_after s.state.world how choice sid).trans hs.row
  startable := hs.startable
  queue job hjob := hs.queue job (th.queue_after s.state.world how choice ▸ hjob)
  procs := hs.procs
  container := by
    refine Thread.container_none (fun hcreates => hother th hth ?_) hs.container
    obtain ⟨-, hcreates⟩ := Bool.and_eq_true_iff.mp hcreates
    cases th with
    | ensureContainer => rfl
    | _ => cases hcreates

theorem launchesOther_step (hs : Abandoned sid r s.state) (hother : s.LaunchesOther sid)
    (h : s.step settings a = some t) : t.LaunchesOther sid := by
  intro th hth hlaunches
  cases th with
  | ensureContainer id expiresAt pc =>
    rcases Threaded.mem_threads h hth with hold | ⟨pid, how, proc, -, hp, hthread⟩ |
      ⟨th₀, reply, hold, hnext⟩
    · exact hother _ hold hlaunches
    · obtain ⟨d, -, rfl, hid, -⟩ := Proc.thread_launch hthread
      have hmay := hs.procs pid _ hp
      simp only [Proc.mayWrite, decide_eq_false_iff_not, hid] at hmay
      exact hmay
    · obtain ⟨pc₀, rfl⟩ := Thread.resume_launch hnext
      exact hother (.ensureContainer id expiresAt pc₀) hold rfl
  | _ => cases hlaunches

end

/-- A row nobody attends, and that no sweep or DELETE in flight has in hand and no launch left over
is for, stays exactly as it is, and without a container, in every run in which nobody deletes it
and its job is not delivered once more: no sweep settles it, its TTL included, and it counts
against the cap for as long. -/
theorem abandoned_forever (settings : Settings) (now : Time) (containers : Containers)
    (nextObject : Nat) (before after : List ThreadedAction) (s t : Threaded) (sid : Uuid) (r : Sandbox)
    (hbefore : (Threaded.init now containers nextObject).run settings before = some s)
    (hs : Abandoned sid r s.state) (hother : s.LaunchesOther sid)
    (hafter : s.run settings after = some t)
    (halone : s.Along settings (OnBase (LeavesAlone sid)) after) :
    t.state.world.row sid = some r ∧ t.state.world.container sid = none ∧
      1 ≤ t.state.world.sandboxes.rows.countP fun r => decide (r.status ∈ activeStatuses) := by
  have hknown : Provenance s.state := LabelledRuns.always (I := fun u : Threaded => Provenance u.state)
    (fun _ _ _ hu h => provenance_threaded hu h) (provenance_init ..) hbefore
  obtain ⟨-, ht, -⟩ := LabelledRuns.invariant
    (I := fun u : Threaded => Provenance u.state ∧ Abandoned sid r u.state ∧ u.LaunchesOther sid)
    (fun u a v hu ha h => by
      refine ⟨provenance_threaded hu.1 h, ?_, launchesOther_step hu.2.1 hu.2.2 h⟩
      cases threadedStep h with
      | base b isBase step => exact abandoned_step hu.1 hu.2.1 (ha b isBase) step
      | thread i how choice th isThread found result =>
        rw [result]
        exact abandoned_thread hu.2.1 hu.2.2 (List.mem_of_getElem? found) how choice)
    ⟨hknown, hs, hother⟩ halone hafter
  refine ⟨ht.row, ht.container, ?_⟩
  have hid := World.row_id ht.row
  have hmem : r ∈ t.state.world.sandboxes.rows := World.mem_rows_iff.mpr (hid ▸ ht.row)
  have hactive : r.status ∈ activeStatuses := by
    rw [mem_activeStatuses, (mem_startable r.status).mp ht.startable]
    exact Nat.zero_le 2
  exact List.countP_pos_iff.mpr ⟨r, hmem, decide_eq_true hactive⟩

/-- A POST killed between its commit and its enqueue; the TTL passes and a sweep runs. -/
theorem abandoned_forever_unqueued : ∃ s t r,
    (Threaded.init 0 KeyedTable.empty 0).run ⟨2, 4, "localhost"⟩
        (steps (posted 0 1 ++ [.await 0 (.killed false false) {}])) = some s ∧
      s.run ⟨2, 4, "localhost"⟩ (steps (.tick 90000000 :: .sweep 1 :: List.replicate 5 (.ok 1))) =
        some t ∧
      t.state.world.row 1 = some r ∧ r.status = .queued ∧ r.expiresAt ≤ t.state.world.now := by
  have hrun : ((Threaded.init 0 KeyedTable.empty 0).run ⟨2, 4, "localhost"⟩
      (steps (posted 0 1 ++ [.await 0 (.killed false false) {}]))).any (fun s =>
        (s.state.world.row 1).any (fun r => decide (r.status = .queued)) &&
          decide (s.state.world.queue = []) && decide (s.state.procs.rows = []) &&
          decide (s.state.world.container 1 = none) && decide (s.threads = []) &&
          (s.run ⟨2, 4, "localhost"⟩
            (steps (.tick 90000000 :: .sweep 1 :: List.replicate 5 (.ok 1)))).any
            fun t => (t.state.world.row 1).any fun r => decide (r.expiresAt ≤ t.state.world.now)) =
      true := by
    decide
  obtain ⟨s, hs, hp⟩ := LabelledRuns.exists_run hrun
  simp only [Bool.and_eq_true, decide_eq_true_eq, Option.any_eq_true] at hp
  obtain ⟨⟨⟨⟨⟨⟨r, hr, hqueued⟩, hqueue⟩, hrows⟩, hcontainer⟩, hthreads⟩, t, ht, r', hr', hpast⟩ := hp
  have idle := State.idle_of_rows hrows
  have habandoned : Abandoned 1 r s.state := by
    refine ⟨hr, by rw [hqueued]; decide, ?_, ?_, hcontainer⟩
    · simp [hqueue]
    · simp [idle]
  have halone : s.Along ⟨2, 4, "localhost"⟩ (OnBase (LeavesAlone 1))
      (steps (.tick 90000000 :: .sweep 1 :: List.replicate 5 (.ok 1))) :=
    Threaded.along_steps (LabelledRuns.along_of_mem (p := fun a => LeavesAlone 1 s.state a s.state)
      (by simp [LeavesAlone, Action.ok]) s.state) s.threads
  obtain ⟨hkept, -, -⟩ := abandoned_forever _ _ _ _ _ _ s t 1 r hs habandoned
    (by simp [Threaded.LaunchesOther, hthreads]) ht halone
  cases hkept.symm.trans hr'
  exact ⟨s, t, r, hs, ht, hkept, hqueued, hpast⟩

end SandboxOrchestrator
