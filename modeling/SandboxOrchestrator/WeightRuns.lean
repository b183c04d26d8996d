import SandboxOrchestrator.Provenance
import SandboxOrchestrator.Rollout

/-!
# Weights over a run

What routing by a stored weight gives over a whole run: a weight that is only raised
keeps every sandbox of the canary with the canary, every reader sees the last SET, and a
canary pool that was emptied at weight 0 stays empty.
-/

namespace SandboxOrchestrator

set_option autoImplicit false

theorem route_canary_mono {sid : Uuid} {v w : Int} (h : route sid v = .canary) (hvw : v ≤ w) :
    route sid w = .canary := by
  rw [route_canary_iff] at h ⊢
  omega

theorem pool_of_read {w : World} {actor : Actor} {how : How} {choice : Choice} {sid : Uuid}
    {pool : Deployment} (lives : ∀ e r, how ≠ .killed e r)
    (h : pickDeployment sid (w.reply actor how choice .getWeight) = some pool) :
    (how = .ok ∧ pool = route sid (clampWeight w.weight)) ∨ (how.isRaise = true ∧ pool = .stable) := by
  cases how with
  | ok => exact .inl ⟨rfl, (Option.some.inj h).symm⟩
  | raises e b => exact .inr ⟨rfl, (Option.some.inj h).symm⟩
  | killed e r => exact absurd rfl (lives e r)

/-! ## Raising -/

def Raises (x : State × Rollout) (_ : Action) (y : State × Rollout) : Prop :=
  clampWeight x.1.world.weight ≤ clampWeight y.1.world.weight

instance (x : State × Rollout) (a : Action) (y : State × Rollout) : Decidable (Raises x a y) :=
  inferInstanceAs (Decidable (_ ≤ _))

/-- The job goes to the canary if the start job of its sandbox did, unless its request could
not read the weight. -/
def StaysCanary (x : State × Rollout) (a : Action) : Prop :=
  ∀ pid how choice job r, a = .await pid how choice → x.1.places pid how job →
    x.1.world.row job.sandboxId = some r → r.deployment = .canary →
    job.queue = .canary ∨ x.2.misread pid = true

/-- Every pool that was picked canary would be picked canary again. -/
structure Growing (x : State × Rollout) : Prop where
  known : Provenance x.1
  rows : ∀ sid r, x.1.world.row sid = some r → r.deployment = .canary →
    route sid (clampWeight x.1.world.weight) = .canary
  held : ∀ pid proc sid, x.1.proc pid = some proc → proc.picked = some (sid, .canary) →
    route sid (clampWeight x.1.world.weight) = .canary
  stops : ∀ pid sid r₀, x.1.proc pid = some (.delete ⟨sid, .enqueue r₀ .stable⟩) →
    x.2.misread pid = false → ∃ r, x.1.world.row sid = some r ∧ r.deployment = .stable

theorem growing_init (now : Time) (containers : Containers) (nextObject : Nat) :
    Growing (State.init now containers nextObject, ⟨none, [], fun _ => false⟩) where
  known := provenance_init now containers nextObject
  rows _ _ h := by cases h
  held _ _ _ h := by cases h
  stops _ _ _ h := by cases h

section

variable {settings : Settings} {x : State × Rollout} {t : State} {a : Action}

theorem Growing.rows_step (hx : Growing x) (hst : Stepped settings x.1 t a)
    (hw : clampWeight x.1.world.weight ≤ clampWeight t.world.weight) {sid : Uuid} {r : Sandbox}
    (hr : t.world.row sid = some r) (hd : r.deployment = .canary) :
    route sid (clampWeight t.world.weight) = .canary := by
  refine route_canary_mono ?_ hw
  rcases hst.row sid with hsame | ⟨pid, how, choice, proc, -, found, hchange⟩
  · exact hx.rows sid r (hsame ▸ hr) hd
  · rw [hr] at hchange
    generalize hy : some r = y at hchange
    cases hchange with
    | same => exact hx.rows sid r hy.symm hd
    | wrote r₀ v found' writes =>
      cases hy
      exact hx.rows sid r₀ found' hd
    | inserted r₀ isInsert id absent =>
      cases hy
      have hpicked : proc.picked = some (sid, .canary) := by
        cases Proc.asks_of isInsert
        rw [← id, ← show r₀.deployment = .canary from hd]
        rfl
      exact hx.held pid proc sid found hpicked

theorem Growing.held_step (hx : Growing x) (hst : Stepped settings x.1 t a)
    (hw : clampWeight x.1.world.weight ≤ clampWeight t.world.weight) {pid : Nat} {proc : Proc}
    {sid : Uuid} (hp : t.proc pid = some proc) (hpicked : proc.picked = some (sid, .canary)) :
    route sid (clampWeight t.world.weight) = .canary := by
  refine route_canary_mono ?_ hw
  rcases held_after x.2 hst hp hpicked with ⟨old, hold, hpicked', -⟩ |
    ⟨how, choice, old, -, -, -, -, hpick, lives⟩
  · exact hx.held pid old sid hold hpicked'
  · rcases pool_of_read lives hpick with ⟨-, hroute⟩ | ⟨-, hstable⟩
    · exact hroute.symm
    · cases hstable

theorem Growing.stops_step (hx : Growing x) (hst : Stepped settings x.1 t a) {pid : Nat} {sid : Uuid}
    {r₀ : Sandbox} (hp : t.proc pid = some (.delete ⟨sid, .enqueue r₀ .stable⟩))
    (hmis : (x.2.after x.1 a).misread pid = false) :
    ∃ r, t.world.row sid = some r ∧ r.deployment = .stable := by
  suffices hold : ∃ r, x.1.world.row sid = some r ∧ r.deployment = .stable by
    obtain ⟨r, hr, hd⟩ := hold
    obtain ⟨r', hr', hf⟩ := hst.forward sid r hr
    exact ⟨r', hr', hf.deployment.trans hd⟩
  have hwatch := x.2.misread_after x.1 a pid
  cases hst.came hp with
  | stayed found other =>
    rcases hwatch with ⟨hkept, -⟩ | ⟨how, choice, old, ha, -⟩
    · exact hx.stops pid sid r₀ found (hkept ▸ hmis)
    · exact absurd ha (other how choice)
  | spawned world drawn spawn => cases (spawn.of_delete).2
  | resumed how choice old events isAwait found lives goes =>
    subst isAwait
    generalize hreply : x.1.world.reply old.actor how choice old.request = reply at goes
    cases goes with
    | delete d reply pc goes =>
      obtain ⟨sid, pc₀⟩ := d
      cases goes with
      | picked r reply dep pick =>
        rcases hwatch with ⟨-, hnot⟩ | ⟨how', choice', old', ha, -, -, hraise⟩
        · cases hnot how choice _ rfl found
        · cases ha
          subst hreply
          rcases pool_of_read lives pick with ⟨-, hroute⟩ | ⟨hraised, -⟩
          · obtain ⟨r', hr', -⟩ : x.1.world.Reached sid 2 := hx.known.procs pid _ found
            refine ⟨r', hr', ?_⟩
            cases hd : r'.deployment with
            | stable => rfl
            | canary => cases hroute.trans (hx.rows sid r' hr' hd)
          · rw [hmis, hraised] at hraise
            cases hraise

end

theorem growing_step {settings : Settings} {x y : State × Rollout} {a : Action} (hx : Growing x)
    (hw : Raises x a y) (h : stepRollout settings x a = some y) : Growing y := by
  obtain ⟨t, hstep, rfl⟩ := Option.map_eq_some_iff.mp h
  have hst := stepped hstep
  exact ⟨provenance_step hx.known hstep, fun _ _ hr hd => hx.rows_step hst hw hr hd,
    fun _ _ _ hp hpicked => hx.held_step hst hw hp hpicked,
    fun _ _ _ hp hmis => hx.stops_step hst hp hmis⟩

/-- In every run in which the weight is never lowered: once the start job of a sandbox went to
the canary, so does every later job of it whose request can read the weight. -/
theorem canary_stays (settings : Settings) (now : Time) (containers : Containers)
    (nextObject : Nat) (actions : List Action)
    (h : LabelledRuns.Along (stepRollout settings) Raises
      (State.init now containers nextObject, ⟨none, [], fun _ => false⟩) actions) :
    LabelledRuns.Along (stepRollout settings) (fun x a _ => StaysCanary x a)
      (State.init now containers nextObject, ⟨none, [], fun _ => false⟩) actions := by
  refine LabelledRuns.along_of_invariant (I := Growing) ?_ ?_ (growing_init ..) h
  · exact fun x a y hx hw hxy => growing_step hx hw hxy
  · rintro x a y hx - - pid how choice job r - ⟨-, ⟨proc, hp, hq⟩, -⟩ hr hd
    have hknown := hx.known.procs pid proc hp
    cases Proc.asks_of hq with
    | enqueueStart body key sid sandbox =>
      obtain ⟨-, r', hr', -, hdep, -⟩ := hknown
      cases hr.symm.trans hr'
      exact .inl (hdep.symm.trans hd)
    | enqueueStop sid r₀ pool =>
      cases pool with
      | canary => exact .inl rfl
      | stable =>
        cases hmis : x.2.misread pid with
        | true => exact .inr rfl
        | false =>
          obtain ⟨r', hr', hdep⟩ := hx.stops pid sid r₀ hp hmis
          cases hr.symm.trans hr'
          cases hd.symm.trans hdep

/-- The weight is raised twice around a POST and a DELETE of one sandbox; the run reaches its
end. -/
theorem canary_stays_raised :
    LabelledRuns.Along (stepRollout ⟨3, 4, "localhost"⟩) (fun x a _ => StaysCanary x a)
        (State.init 0 KeyedTable.empty 0, ⟨none, [], fun _ => false⟩)
        ([.put 0 ⟨99, by decide⟩, .ok 0, .post 1 oneMinute none 1] ++ List.replicate 5 (.ok 1) ++
          [.put 2 ⟨100, by decide⟩, .ok 2, .delete 3 1] ++ List.replicate 5 (.ok 3)) ∧
      (LabelledRuns.run (stepRollout ⟨3, 4, "localhost"⟩)
        (State.init 0 KeyedTable.empty 0, ⟨none, [], fun _ => false⟩)
        ([.put 0 ⟨99, by decide⟩, .ok 0, .post 1 oneMinute none 1] ++ List.replicate 5 (.ok 1) ++
          [.put 2 ⟨100, by decide⟩, .ok 2, .delete 3 1] ++ List.replicate 5 (.ok 3))).isSome :=
  ⟨canary_stays _ 0 _ 0 _ (LabelledRuns.along_of_check (by decide +kernel)), by decide +kernel⟩

/-! ## Emptying the canary -/

/-- The runbook's `ZUNIONSTORE` and `DEL`: the queued jobs of the canary pool become jobs of the
stable pool, under the ids they have. -/
def State.moveCanaryJobs (s : State) : State :=
  { s with world := { s.world with
      queue := s.world.queue.map fun job => { job with queue := .stable } } }

/-- Nothing queued or in flight will run on the canary, and nothing sends work there. -/
structure Drained (s : State) : Prop where
  queue : ∀ job ∈ s.world.queue, job.queue = .stable
  deliveries : ∀ pid proc job, s.proc pid = some proc → proc.job? = some job → job.queue = .stable
  held : ∀ pid proc sid pool, s.proc pid = some proc → proc.picked = some (sid, pool) → pool = .stable
  puts : ∀ pid p, s.proc pid ≠ some (.put p)
  weight : clampWeight s.world.weight = 0

/-- No PUT begins, and no job that once was accepted is delivered again by the canary pool. -/
def LeavesDrained (_ : State) (a : Action) (_ : State) : Prop :=
  (∀ pid p, a ≠ .put pid p) ∧ ∀ pid job, a = .redeliver pid job → job.queue = .stable

section

variable {settings : Settings} {s t : State} {a : Action}

theorem Drained.queue_step (hs : Drained s) (hst : Stepped settings s t a) {job : Job}
    (hj : job ∈ t.world.queue) : job.queue = .stable := by
  rcases hst.mem_queue hj with hold | ⟨pid, how, choice, proc, -, found, hq | ⟨old, hold, rfl⟩⟩
  · exact hs.queue job hold
  · exact hs.held pid proc _ _ found (Proc.picked_of_enqueue hq)
  · exact hs.deliveries pid proc old found hold

theorem Drained.deliveries_step (hs : Drained s) (hst : Stepped settings s t a)
    (hleaves : LeavesDrained s a t) {pid : Nat} {proc : Proc} {job : Job}
    (hp : t.proc pid = some proc) (hj : proc.job? = some job) : job.queue = .stable := by
  cases hst.came hp with
  | stayed found => exact hs.deliveries pid proc job found hj
  | spawned world drawn spawn =>
    cases spawn with
    | deliver _ queued hmem =>
      cases Proc.job_ofJob.symm.trans hj
      exact hs.queue _ hmem
    | redeliver _ again =>
      cases Proc.job_ofJob.symm.trans hj
      exact hleaves.2 pid _ rfl
    | _ => cases hj
  | resumed how choice old events isAwait found lives goes =>
    exact hs.deliveries pid old job found (goes.job_eq.symm.trans hj)

theorem Drained.held_step (hs : Drained s) (hst : Stepped settings s t a) {pid : Nat} {proc : Proc}
    {sid : Uuid} {pool : Deployment} (hp : t.proc pid = some proc)
    (hpicked : proc.picked = some (sid, pool)) : pool = .stable := by
  rcases held_after ⟨none, [], fun _ => false⟩ hst hp hpicked with ⟨old, hold, hpicked', -⟩ |
    ⟨how, choice, old, -, -, -, -, hpick, lives⟩
  · exact hs.held pid old sid pool hold hpicked'
  · rcases pool_of_read lives hpick with ⟨-, hroute⟩ | ⟨-, hstable⟩
    · rw [hroute, hs.weight]
      exact route_zero sid
    · exact hstable

theorem Drained.puts_step (hs : Drained s) (hst : Stepped settings s t a)
    (hleaves : LeavesDrained s a t) (pid : Nat) (p : PutRollout) : t.proc pid ≠ some (.put p) := by
  intro hp
  cases hst.came hp with
  | stayed found => exact hs.puts pid p found
  | spawned world drawn spawn =>
    generalize hproc : Proc.put p = proc at spawn
    cases spawn with
    | put _ p' => exact hleaves.1 pid p' rfl
    | deliver _ job => obtain ⟨_ | _, _⟩ := job <;> cases hproc
    | redeliver _ job => obtain ⟨_ | _, _⟩ := job <;> cases hproc
    | _ => cases hproc
  | resumed how choice old events isAwait found lives goes => cases goes

theorem drained_step (hs : Drained s) (hleaves : LeavesDrained s a t)
    (h : step settings s a = some t) : Drained t where
  queue _ hj := hs.queue_step (stepped h) hj
  deliveries _ _ _ hp hj := hs.deliveries_step (stepped h) hleaves hp hj
  held _ _ _ _ hp hpicked := hs.held_step (stepped h) hp hpicked
  puts pid p := hs.puts_step (stepped h) hleaves pid p
  weight := by
    rcases (stepped h).weight with hsame | ⟨pid, how, choice, p, -, hp, -⟩
    · rw [hsame, hs.weight]
    · exact absurd hp (hs.puts pid p)

end

/-- Once the weight reads 0, no PUT is in flight, no POST or DELETE in flight holds the canary
and no delivery in flight is one of the canary pool, moving the queued jobs empties the canary
of sandbox jobs for good: until the next PUT, and while no job it had is delivered to it once
more, none is queued for it and none runs on it, and every moved job is one the stable pool can
take. -/
theorem canary_drained (settings : Settings) (s t : State) (actions : List Action)
    (weight : clampWeight s.world.weight = 0) (puts : ∀ pid p, s.proc pid ≠ some (.put p))
    (held : ∀ pid proc sid pool, s.proc pid = some proc → proc.picked = some (sid, pool) →
      pool = .stable)
    (deliveries : ∀ pid proc job, s.proc pid = some proc → proc.job? = some job →
      job.queue = .stable)
    (hrun : run settings s.moveCanaryJobs actions = some t)
    (hleaves : Along settings LeavesDrained s.moveCanaryJobs actions) :
    (∀ job ∈ t.world.queue, job.queue = .stable) ∧
      (∀ pid proc job, t.proc pid = some proc → proc.job? = some job → job.queue = .stable) ∧
      ∀ job ∈ s.world.queue, ∀ pid, s.proc pid = none →
        (step settings s.moveCanaryJobs (.deliver pid { job with queue := .stable })).isSome := by
  have hstart : Drained s.moveCanaryJobs := by
    refine ⟨fun job hj => ?_, deliveries, held, puts, weight⟩
    obtain ⟨old, -, rfl⟩ := List.mem_map.mp hj
    rfl
  have hend : Drained t := LabelledRuns.invariant (P := LeavesDrained)
    (fun s a t hs hl (h : step settings s a = some t) => drained_step hs hl h) hstart hleaves hrun
  refine ⟨hend.queue, hend.deliveries, fun job hj pid idle => ?_⟩
  have hmem : ({ job with queue := .stable } : Job) ∈ s.moveCanaryJobs.world.queue :=
    List.mem_map.mpr ⟨job, hj, rfl⟩
  simp only [step, if_pos hmem]
  split
  · refine Option.isSome_iff_exists.mpr (State.spawn_of_idle pid ?_ _)
    exact idle
  · rfl

/-- A sandbox is posted to the canary and the weight is set back to 0. -/
def rolledBack : List Action :=
  [.put 0 ⟨100, by decide⟩, .ok 0, .post 1 oneMinute none 1] ++ List.replicate 5 (.ok 1)

theorem canary_drained_rolled_back : ∃ s t : State,
    ⟨.startSandbox, 1, .canary, 1⟩ ∈ s.world.queue ∧
      run ⟨3, 4, "localhost"⟩ s.moveCanaryJobs
        (.deliver 3 ⟨.startSandbox, 1, .stable, 1⟩ :: List.replicate 9 (.ok 3)) = some t ∧
      ∀ job ∈ t.world.queue, job.queue = .stable := by
  have hrun : (run ⟨3, 4, "localhost"⟩ (State.init 0 KeyedTable.empty 0)
      (rolledBack ++ [.put 2 ⟨0, by decide⟩, .ok 2])).any (fun s =>
        decide (clampWeight s.world.weight = 0) && decide (s.procs.rows = []) &&
          decide (⟨.startSandbox, 1, .canary, 1⟩ ∈ s.world.queue) &&
          (run ⟨3, 4, "localhost"⟩ s.moveCanaryJobs
            (.deliver 3 ⟨.startSandbox, 1, .stable, 1⟩ :: List.replicate 9 (.ok 3))).isSome) = true := by
    decide +kernel
  obtain ⟨s, -, hp⟩ := LabelledRuns.exists_run hrun
  simp only [Bool.and_eq_true, decide_eq_true_eq, Option.isSome_iff_exists] at hp
  obtain ⟨⟨⟨weight, hrows⟩, hqueued⟩, t, ht⟩ := hp
  have idle := State.idle_of_rows hrows
  have hleaves : Along ⟨3, 4, "localhost"⟩ LeavesDrained s.moveCanaryJobs
      (.deliver 3 ⟨.startSandbox, 1, .stable, 1⟩ :: List.replicate 9 (.ok 3)) :=
    LabelledRuns.along_of_mem (p := fun a => LeavesDrained s a s) (by simp [LeavesDrained, Action.ok]) _
  refine ⟨s, t, hqueued, ht, (canary_drained _ s t _ weight ?_ ?_ ?_ ht hleaves).1⟩
  · simp [idle]
  · simp [idle]
  · simp [idle]

end SandboxOrchestrator
