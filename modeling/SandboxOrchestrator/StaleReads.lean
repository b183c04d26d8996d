import SandboxOrchestrator.Provenance
import SandboxOrchestrator.SweepReads

/-!
# Removals decided on stale reads

A stop job was queued and a sweep read its statuses some time ago. What they say stays
right in one direction: the row has only moved forward since. `before` are the containers
of the daemon that were there before the program; no row has their ids.
-/

namespace SandboxOrchestrator

set_option autoImplicit false

/-- The container is not of this program, or its sandbox has a row. -/
def World.Owned (before : Containers) (w : World) (sid : Uuid) : Prop :=
  (before.find? sid).isSome ∨ w.Reached sid 0

/-- The containers and statuses a sweep has read are right about the rows. -/
structure ReadRight (before : Containers) (w : World) (cs : List RuntimeSandbox)
    (statuses : List (Uuid × SandboxStatus)) : Prop where
  reached : ∀ sid st, statuses.lookup sid = some st → w.Reached sid st.rank
  missing : ∀ c ∈ cs, statuses.lookup c.sandboxId = none → (before.find? c.sandboxId).isSome

/-- The containers the first loop has left, with the one in hand. -/
def SweepPc.left : SweepPc → List RuntimeSandbox
  | .remove _ c _ rest => c :: rest
  | .settle _ _ _ rest => rest
  | _ => []

structure SweepPc.Right (before : Containers) (w : World) (pc : SweepPc) : Prop where
  listed : ∀ running cs, pc = .statuses running cs → ∀ c ∈ cs, w.Owned before c.sandboxId
  read : ∀ running cs rows, pc = .clock running cs rows → ReadRight before w cs rows
  view : ∀ v, pc.view = some v → ReadRight before w v.containers v.statuses
  left : ∀ v, pc.view = some v → ∀ c ∈ pc.left, c ∈ v.containers
  reason : ∀ v c reason rest, pc = .remove v c reason rest → v.reason c = some reason

/-- No row and no POST in flight has the id of a container that was there before. -/
structure IdsNew (before : Containers) (s : State) : Prop where
  rows : ∀ sid, (before.find? sid).isSome → s.world.row sid = none
  drafts : ∀ pid c, s.proc pid = some (.create c) → before.find? c.sandboxId = none

structure StaleSafe (before : Containers) (s : State) : Prop extends IdsNew before s where
  containers : ∀ sid, (s.world.container sid).isSome → s.world.Owned before sid
  sweeps : ∀ pid p, s.proc pid = some (.sweep p) → p.pc.Right before s.world
  found : ∀ sid, .worked .startSandbox sid (.returned "missing") ∉ s.world.log

/-- The POST of the step, if it is one, draws no id of a container that was there before. -/
def NewIds (before : Containers) (_ : State) (a : Action) (_ : State) : Prop :=
  (a.draws.all fun sid => (before.find? sid).isNone) = true

instance (before : Containers) (s : State) (a : Action) (t : State) : Decidable (NewIds before s a t) :=
  inferInstanceAs (Decidable (_ = true))

theorem idsNew_init (now : Time) (before : Containers) (nextObject : Nat) :
    IdsNew before (State.init now before nextObject) where
  rows _ _ := rfl
  drafts _ _ h := by cases h

theorem staleSafe_init (now : Time) (before : Containers) (nextObject : Nat) :
    StaleSafe before (State.init now before nextObject) where
  toIdsNew := idsNew_init now before nextObject
  containers _ h := .inl h
  sweeps _ _ h := by cases h
  found _ h := by cases h

/-! ## What was read stays right -/

variable {before : Containers} {w w' : World}

theorem World.Owned.forward {sid : Uuid} (h : w.Owned before sid) (hf : RowsForward w w') :
    w'.Owned before sid :=
  h.imp_right fun hr => hr.forward hf

theorem ReadRight.forward {cs : List RuntimeSandbox} {statuses : List (Uuid × SandboxStatus)}
    (h : ReadRight before w cs statuses) (hf : RowsForward w w') : ReadRight before w' cs statuses :=
  ⟨fun sid st hst => (h.reached sid st hst).forward hf, h.missing⟩

theorem SweepPc.Right.forward {pc : SweepPc} (h : pc.Right before w) (hf : RowsForward w w') :
    pc.Right before w' where
  listed running cs hpc c hc := (h.listed running cs hpc c hc).forward hf
  read running cs rows hpc := (h.read running cs rows hpc).forward hf
  view v hv := (h.view v hv).forward hf
  left := h.left
  reason := h.reason

/-- The loops go on with what was read. -/
theorem right_of_view {pc : SweepPc} {v : Snapshot} (hview : pc.view = some v)
    (hv : ReadRight before w v.containers v.statuses) (hleft : ∀ c ∈ pc.left, c ∈ v.containers)
    (hreason : ∀ v c reason rest, pc = .remove v c reason rest → v.reason c = some reason) :
    pc.Right before w where
  listed running cs hpc := by
    subst hpc
    cases hview
  read running cs rows hpc := by
    subst hpc
    cases hview
  view v' hv' := by
    cases hview.symm.trans hv'
    exact hv
  left v' hv' := by
    cases hview.symm.trans hv'
    exact hleft
  reason := hreason

theorem nextMissing_left (v : Snapshot) (l : List Uuid) :
    (ReconcileSandboxes.nextMissing v l).left = [] := by
  cases l <;> rfl

theorem nextMissing_ne_remove (v : Snapshot) (l : List Uuid) (v' : Snapshot) (c : RuntimeSandbox)
    (reason : ReapReason) (rest : List RuntimeSandbox) :
    ReconcileSandboxes.nextMissing v l ≠ .remove v' c reason rest := by
  cases l <;> simp [ReconcileSandboxes.nextMissing]

theorem right_nextMissing {v : Snapshot} (hv : ReadRight before w v.containers v.statuses)
    (l : List Uuid) : (ReconcileSandboxes.nextMissing v l).Right before w :=
  right_of_view (nextMissing_view v l) hv (by simp [nextMissing_left])
    fun v' c reason rest hpc => absurd hpc (nextMissing_ne_remove v l v' c reason rest)

theorem right_nextContainer {v : Snapshot} (hv : ReadRight before w v.containers v.statuses)
    {cs : List RuntimeSandbox} (hcs : ∀ c ∈ cs, c ∈ v.containers) :
    (ReconcileSandboxes.nextContainer v cs).Right before w := by
  rcases nextContainer_cases v cs with ⟨hnext, -⟩ | ⟨_, c, reason, rest, rfl, -, hreason, hnext⟩
  · rw [hnext]
    exact right_nextMissing hv v.missing
  · rw [hnext]
    refine right_of_view rfl hv (fun c' hc' => hcs c' (List.mem_append_right _ hc'))
      fun v' c' reason' rest hpc => ?_
    cases hpc
    exact hreason

/-! ## A sweep reads -/

theorem ReconcileSandboxes.right_goes {p p' : ReconcileSandboxes} {how : How} {choice : Choice}
    (hc : ∀ sid, (w.container sid).isSome → w.Owned before sid) (hp : p.pc.Right before w)
    (lives : ∀ e r, how ≠ .killed e r)
    (h : p.Goes (w.reply .reconcileSandboxes how choice p.request) p') : p'.pc.Right before w := by
  generalize hq : w.reply _ how choice _ = reply at h
  cases h with
  | snapshot n running =>
    exact ⟨fun _ _ h => (by cases h), fun _ _ _ h => (by cases h), fun _ h => (by cases h),
      fun _ h => (by cases h), fun _ _ _ _ h => (by cases h)⟩
  | listed n running cs =>
    obtain ⟨-, hreply⟩ := World.after_of_reply lives hq (by simp)
    have hcs : w.containers.rows.map Container.seen = cs := by
      simpa [request, World.perform] using hreply
    refine ⟨fun running' cs' h c hmem => ?_, fun _ _ _ h => (by cases h), fun _ h => (by cases h),
      fun _ h => (by cases h), fun _ _ _ _ h => (by cases h)⟩
    cases h
    rw [← hcs] at hmem
    obtain ⟨c', hc', rfl⟩ := List.mem_map.mp hmem
    have hfound := World.mem_containers_iff.mp hc'
    exact hc _ (by simp [Container.seen, hfound])
  | read n running cs rows =>
    obtain ⟨-, hreply⟩ := World.after_of_reply lives hq (by simp)
    have hrows : (w.sandboxes.rows.filter fun r =>
        decide (r.id ∈ cs.map (·.sandboxId))).map (fun r => (r.id, r.status)) = rows := by
      simpa [request, World.perform] using hreply
    have hlisted := hp.listed running cs rfl
    refine ⟨fun _ _ h => (by cases h), fun running' cs' rows' h => ?_, fun _ h => (by cases h),
      fun _ h => (by cases h), fun _ _ _ _ h => (by cases h)⟩
    cases h
    refine ⟨fun sid st hst => ?_, fun c hmem hnone => ?_⟩
    · rw [← hrows] at hst
      have hmem : sid ∈ cs.map (·.sandboxId) := by
        by_contra hnot
        rw [lookup_rows_none w _ sid hnot] at hst
        cases hst
      rw [lookup_rows w _ sid hmem] at hst
      obtain ⟨r, hr, rfl⟩ := World.status_eq_some.mp hst
      exact ⟨r, hr, Nat.le_refl _⟩
    · rw [← hrows, lookup_rows w _ _ (List.mem_map_of_mem hmem)] at hnone
      refine (hlisted c hmem).resolve_right ?_
      rintro ⟨r, hr, -⟩
      rw [World.status, hr] at hnone
      cases hnone
  | clocked n running cs rows now => exact right_nextContainer (hp.read running cs rows rfl) fun c hc => hc
  | removed n v c reason rest b =>
    exact right_of_view rfl (hp.view v rfl)
      (fun c' hc' => hp.left v rfl c' (List.mem_cons_of_mem _ hc')) fun _ _ _ _ h => (by cases h)
  | settled n v c reason rest b => exact right_nextContainer (hp.view v rfl) (hp.left v rfl)
  | vanished n v sid rest => exact right_nextMissing (hp.view v rfl) rest
  | kept n v sid rest => exact right_nextMissing (hp.view v rfl) rest

/-! ## One step -/

theorem StartSandbox.not_missing {d : StartSandbox} {how : How} {choice : Choice} {outcome : End}
    {counted : Option JobOutcome} (known : w.Reached d.sandboxId 0)
    (lives : ∀ e r, how ≠ .killed e r)
    (h : d.Ends d.pc (w.reply .startSandbox how choice d.request) counted outcome) :
    outcome ≠ .returned "missing" := by
  rintro rfl
  generalize hq : w.reply _ how choice _ = reply at h
  obtain ⟨sid, jobTry, pool, pc₀⟩ := d
  generalize hr : End.returned "missing" = result at h
  cases h with
  | missing =>
    obtain ⟨-, hreply⟩ := World.after_of_reply lives hq (by simp)
    have hrow : w.row sid = none := by simpa [request, World.perform] using hreply
    obtain ⟨r, hr, -⟩ := known
    cases hrow.symm.trans hr
  | settled r st =>
    have hvalue : "missing" = r.status.value := End.returned.inj hr
    revert hvalue
    cases r.status <;> decide
  | raised => cases hr
  | retried => cases hr
  | _ => exact absurd hr (by decide)

section

variable {settings : Settings} {s t : State} {a : Action}

theorem IdsNew.rows_step (hs : IdsNew before s) (hp : Provenance s)
    (hst : Stepped settings s t a) {sid : Uuid} (hsid : (before.find? sid).isSome) :
    t.world.row sid = none := by
  have hnone := hs.rows sid hsid
  rcases hst.row sid with hsame | ⟨pid, how, choice, proc, -, found, hchange⟩
  · exact hsame.trans hnone
  · generalize hx : t.world.row sid = x at hchange
    cases hchange with
    | same => exact hnone
    | wrote r v hr => cases hnone.symm.trans hr
    | inserted r isInsert id =>
      obtain ⟨c, rfl, -, hid, -⟩ := Proc.drafted_of_insert (hp.procs pid proc found) isInsert
      have hdraft := hs.drafts pid c found
      rw [← hid, id] at hdraft
      rw [hdraft] at hsid
      cases hsid

theorem IdsNew.drafts_step (hs : IdsNew before s) (ha : NewIds before s a t)
    (hst : Stepped settings s t a) {pid : Nat} {c : CreateSandbox}
    (hc : t.proc pid = some (.create c)) : before.find? c.sandboxId = none := by
  cases hst.came hc with
  | stayed found => exact hs.drafts pid c found
  | spawned world drawn spawn =>
    obtain ⟨body, key, sid, rfl, rfl, -⟩ := spawn.of_create
    have hnone : before.find? sid = none := by simpa [NewIds, Action.draws] using ha
    exact hnone
  | resumed how choice old events isAwait found lives goes =>
    generalize s.world.reply _ how choice _ = reply at goes
    cases goes with
    | create c₀ reply pc goes => exact hs.drafts pid c₀ found

theorem idsNew_step (hp : Provenance s) (hs : IdsNew before s) (ha : NewIds before s a t)
    (h : step settings s a = some t) : IdsNew before t where
  rows _ hsid := hs.rows_step hp (stepped h) hsid
  drafts _ _ hc := hs.drafts_step ha (stepped h) hc

theorem StaleSafe.containers_step (hs : StaleSafe before s) (hp : Provenance s)
    (hst : Stepped settings s t a) {sid : Uuid} (hsid : (t.world.container sid).isSome) :
    t.world.Owned before sid := by
  rcases hst.container sid with hsame | ⟨-, -, hnone⟩ | ⟨pid, how, choice, proc, -, found, hchange⟩
  · exact (hs.containers sid (hsame ▸ hsid)).forward hst.forward
  · rw [hnone] at hsid
    cases hsid
  · generalize hx : t.world.container sid = x at hchange hsid
    cases hchange with
    | same => exact (hs.containers sid hsid).forward hst.forward
    | removed cause => cases hsid
    | created time isCreate absent =>
      obtain ⟨d, rfl, rfl, -⟩ := Proc.start_of_create isCreate
      exact .inr (World.Reached.forward (hp.procs pid _ found) hst.forward)
    | started n port c isStart hc => exact (hs.containers sid (by simp [hc])).forward hst.forward

theorem StaleSafe.sweeps_step (hs : StaleSafe before s) (hst : Stepped settings s t a) {pid : Nat}
    {p : ReconcileSandboxes} (hproc : t.proc pid = some (.sweep p)) : p.pc.Right before t.world := by
  cases hst.came hproc with
  | stayed found => exact (hs.sweeps pid p found).forward hst.forward
  | spawned world drawn spawn =>
    obtain ⟨-, rfl⟩ := spawn.of_sweep
    exact ⟨fun _ _ h => (by cases h), fun _ _ _ h => (by cases h), fun _ h => (by cases h),
      fun _ h => (by cases h), fun _ _ _ _ h => (by cases h)⟩
  | resumed how choice old events isAwait found lives goes =>
    generalize hreply : s.world.reply _ how choice _ = reply at goes
    cases goes with
    | sweep p₀ reply p' goes =>
      rw [← hreply] at goes
      exact (ReconcileSandboxes.right_goes hs.containers (hs.sweeps pid p₀ found) lives
        goes).forward hst.forward

theorem StaleSafe.found_step (hs : StaleSafe before s) (hp : Provenance s)
    (hst : Stepped settings s t a) (sid : Uuid) :
    .worked .startSandbox sid (.returned "missing") ∉ t.world.log := by
  intro hlog
  rcases hst.mem_log_of_end rfl hlog with
    hold | ⟨pid, how, choice, proc, outcome, rfl, found, lives, -, ends, he⟩
  · exact hs.found sid hold
  · have hknown := hp.procs pid proc found
    cases ends with
    | start d reply counted outcome ends =>
      cases he
      exact StartSandbox.not_missing hknown lives ends rfl
    | _ => cases he

theorem staleSafe_step (hp : Provenance s) (hs : StaleSafe before s) (ha : NewIds before s a t)
    (h : step settings s a = some t) : StaleSafe before t where
  toIdsNew := idsNew_step hp hs.toIdsNew ha h
  containers _ hsid := hs.containers_step hp (stepped h) hsid
  sweeps _ _ hproc := hs.sweeps_step (stepped h) hproc
  found := hs.found_step hp (stepped h)

end

/-! ## Every run -/

/-- The row of the job exists, and no container is wanted for it if the job is a stop. -/
def Job.Tracked (job : Job) (w : World) : Prop :=
  ∃ st, w.status job.sandboxId = some st ∧ (job.task = .stopSandbox → st ∈ noContainerWanted)

theorem Job.Known.tracked {job : Job} (h : job.Known w) : job.Tracked w := by
  obtain ⟨task, sid, queue, jobTry⟩ := job
  obtain ⟨r, hr, hrank⟩ := h
  refine ⟨r.status, World.status_eq_some.mpr ⟨r, hr, rfl⟩, fun htask => ?_⟩
  obtain rfl : task = .stopSandbox := htask
  exact (mem_noContainerWanted _).mpr hrank

/-- The sandbox whose container the next call removes for something read or queued earlier:
a stop job, or a sweep that found the container to be an orphan. -/
def Proc.removesStale : Proc → Option Uuid
  | .stop ⟨sid, _, _, .remove⟩ => some sid
  | .sweep ⟨_, .remove _ c .orphan _⟩ => some c.sandboxId
  | _ => none

theorem Snapshot.orphan_of_reason {v : Snapshot} {c : RuntimeSandbox} (h : v.reason c = some .orphan) :
    v.statuses.lookup c.sandboxId = none ∨
      ∃ st ∈ noContainerWanted, v.statuses.lookup c.sandboxId = some st := by
  unfold Snapshot.reason Snapshot.status at h
  split at h
  · cases h
  · split at h
    · rename_i hnone
      exact .inl hnone
    · rename_i st hst
      split at h
      · rename_i hmem
        exact .inr ⟨st, hmem, hst⟩
      · cases h

theorem StaleSafe.unwanted {s : State} (hp : Provenance s) (hs : StaleSafe before s) {pid : Nat}
    {proc : Proc} {sid : Uuid} (found : s.proc pid = some proc) (h : proc.removesStale = some sid) :
    ∀ st ∈ wanted, s.world.status sid ≠ some st := by
  intro st hwanted hst
  rw [mem_wanted] at hwanted
  obtain ⟨r, hr, rfl⟩ := World.status_eq_some.mp hst
  unfold Proc.removesStale at h
  split at h
  · cases h
    have hreached : s.world.Reached sid 2 := hp.procs pid _ found
    have hrank := hreached.of_row hr
    omega
  · rename_i n v c rest
    cases h
    have hright := hs.sweeps pid _ found
    have hview := hright.view v rfl
    rcases Snapshot.orphan_of_reason (hright.reason v c _ rest rfl) with hnone | ⟨st, hmem, hlook⟩
    · have hbefore := hview.missing c (hright.left v rfl c List.mem_cons_self) hnone
      cases (hs.rows _ hbefore).symm.trans hr
    · have hrank := (hview.reached _ st hlook).of_row hr
      rw [mem_noContainerWanted] at hmem
      omega
  · cases h

/-- In every reachable state: the jobs queued or running and the containers of the program
have a row, a stop has one past `running`; where a stop job or a sweep that holds a container
for an orphan is about to remove it, the row is not wanted now; and no start delivery has
ever missed its row. -/
theorem stale_reads_safe (settings : Settings) (now : Time) (before : Containers) (nextObject : Nat)
    (as : List Action) (t : State)
    (ids : Along settings (NewIds before) (State.init now before nextObject) as)
    (h : run settings (State.init now before nextObject) as = some t) :
    (∀ job ∈ t.world.queue, job.Tracked t.world) ∧
      (∀ pid proc job, t.proc pid = some proc → proc.job? = some job → job.Tracked t.world) ∧
      (∀ sid, (t.world.container sid).isSome → before.find? sid = none →
        (t.world.row sid).isSome) ∧
      (∀ pid proc sid, t.proc pid = some proc → proc.removesStale = some sid →
        ∀ st ∈ wanted, t.world.status sid ≠ some st) ∧
      ∀ sid, .worked .startSandbox sid (.returned "missing") ∉ t.world.log := by
  obtain ⟨hp, hs⟩ := LabelledRuns.invariant (I := fun u => Provenance u ∧ StaleSafe before u)
    (P := NewIds before)
    (fun _ _ _ hu ha hstep => ⟨provenance_step hu.1 hstep, staleSafe_step hu.1 hu.2 ha hstep⟩)
    ⟨provenance_init .., staleSafe_init ..⟩ ids h
  refine ⟨fun job hj => (hp.queue job hj).tracked, fun pid proc job found hj => ?_,
    fun sid hc hbefore => ?_, fun pid proc sid found => hs.unwanted hp found, hs.found⟩
  · exact (Proc.known_job (hp.procs pid proc found) hj).tracked
  · rcases hs.containers sid hc with hin | ⟨r, hr, -⟩
    · rw [hbefore] at hin
      cases hin
    · rw [hr]
      rfl

/-- A container that nobody knows, found by a sweep while a sandbox is starting. -/
theorem stale_reads_safe_orphan : ∃ t n v c rest,
    run ⟨3, 4, "localhost"⟩
        (State.init 0 ⟨[⟨5, 1000000, 0, true, some 4000⟩], by decide, by decide⟩ 1)
        (posted 0 1 ++ [.ok 0, .sweep 1, .ok 1, .ok 1, .ok 1, .ok 1]) = some t ∧
      t.proc 1 = some (.sweep ⟨n, .remove v c .orphan rest⟩) ∧
      ∀ st ∈ wanted, t.world.status c.sandboxId ≠ some st := by
  have hrun : (run ⟨3, 4, "localhost"⟩
      (State.init 0 ⟨[⟨5, 1000000, 0, true, some 4000⟩], by decide, by decide⟩ 1)
      (posted 0 1 ++ [.ok 0, .sweep 1, .ok 1, .ok 1, .ok 1, .ok 1])).any
      (fun t => decide (t.proc 1 = some (.sweep
        ⟨{}, .remove ⟨[], [⟨5, 1000000⟩], [], 0⟩ ⟨5, 1000000⟩ .orphan []⟩))) = true := by decide
  obtain ⟨t, ht, hp⟩ := LabelledRuns.exists_run hrun
  have hproc := of_decide_eq_true hp
  refine ⟨t, _, _, _, _, ht, hproc, ?_⟩
  exact (stale_reads_safe _ 0 _ 1 _ t (LabelledRuns.along_of_check (by decide)) ht).2.2.2.1 1 _ _
    hproc rfl

end SandboxOrchestrator
