import SandboxOrchestrator.Apart
import SandboxOrchestrator.Reports

/-!
# A delivery that is alone

One start delivery whose database calls and removals succeed, with nothing else going on.
`Trying` follows its row and its container from call to call; `Tried` is what it leaves.
-/

namespace SandboxOrchestrator

set_option autoImplicit false

def jobsSeries (task : Task) (o : JobOutcome) (pool : Deployment) : Event → Bool
  | .jobs task' o' pool' _ => decide (task = task') && decide (o = o') && decide (pool = pool')
  | _ => false

def World.jobsTotal (w : World) (task : Task) (o : JobOutcome) (pool : Deployment) : Nat :=
  w.log.countP (jobsSeries task o pool)

/-! ## How a launch comes out -/

/-- The calls of a launch that found no container whose 409 it catches: create and start. -/
def catches (passed : Fin 5) (e : Exc) : Bool :=
  (decide (passed = 1) || decide (passed = 2)) && e.isConflict

/-- How a launch comes out: ready on a published port, or broken at the call after the
first `passed`, which raises with or without effect. -/
inductive LaunchOutcome where
  | ready (hostPort : Nat)
  | broken (passed : Fin 5) (e : Exc) (effect : Bool) (uncaught : catches passed e = false)
  deriving DecidableEq

namespace LaunchOutcome

def isReady : LaunchOutcome → Bool
  | .ready _ => true
  | .broken .. => false

/-- A launch that finds no container makes five calls. -/
def awaits (pid : Nat) : LaunchOutcome → List Action
  | .ready hostPort => List.replicate 5 (.await pid .ok { hostPort := hostPort })
  | .broken passed e effect _ =>
    List.replicate passed (.ok pid) ++ [.await pid (.raises e effect) {}]

/-- The calls after the launch: the last compare-and-set, with a `_discard` before it if
the launch broke. -/
def settles (pid : Nat) : LaunchOutcome → List Action
  | .ready _ => [.ok pid]
  | .broken .. => [.ok pid, .ok pid]

end LaunchOutcome

/-! ## One call of a delivery that is alone -/

/-- The delivery `d` runs as `pid`; its row and container are `r` and `c`, and apart from
these it has changed nothing since `b`. -/
structure Trying (b : State) (pid : Nat) (d : StartSandbox) (r : Sandbox) (c : Option Container)
    (s : State) : Prop where
  proc : s.proc pid = some (.start d)
  others : ∀ q, q ≠ pid → s.proc q = b.proc q
  row : s.world.row d.sandboxId = some r
  container : s.world.container d.sandboxId = c
  now : s.world.now = b.world.now
  queue : s.world.queue = b.world.queue
  jobs : ∀ task o pool, s.world.jobsTotal task o pool = b.world.jobsTotal task o pool

structure Tried (b : State) (pid : Nat) (job : Job) (o : JobOutcome) (r : Sandbox)
    (c : Option Container) (t : State) : Prop where
  idle : t.proc pid = none
  others : ∀ q, q ≠ pid → t.proc q = b.proc q
  row : t.world.row job.sandboxId = some r
  container : t.world.container job.sandboxId = c
  now : t.world.now = b.world.now
  queue : t.world.queue =
    if o = .retry then b.world.queue ++ [{ job with jobTry := job.jobTry + 1 }] else b.world.queue
  jobs : ∀ task o' pool, t.world.jobsTotal task o' pool = b.world.jobsTotal task o' pool +
    if task = .startSandbox ∧ o' = o ∧ pool = job.queue then 1 else 0

variable (settings : Settings) {b s : State} {pid : Nat} {d : StartSandbox} {r : Sandbox}
  {c : Option Container}

theorem StartSandbox.request_ne_enqueue (d : StartSandbox) (job : Job) : d.request ≠ .enqueue job := by
  unfold StartSandbox.request
  split <;> simp

theorem jobsSeries_of_byCall {task : Task} {o : JobOutcome} {pool : Deployment} {e : Event}
    (h : e.byCall = true) : jobsSeries task o pool e = false := by
  cases e <;> first | rfl | cases h

theorem World.jobsTotal_after (w : World) (actor : Actor) (how : How) (choice : Choice) (q : Request)
    (task : Task) (o : JobOutcome) (pool : Deployment) :
    (w.after actor how choice q).jobsTotal task o pool = w.jobsTotal task o pool :=
  w.countP_after_own actor how choice q fun _ => jobsSeries_of_byCall

theorem StartSandbox.Counts.countP_series {d : StartSandbox} {o : JobOutcome} {events : List Event}
    (h : d.Counts (some o) events) (task : Task) (o' : JobOutcome) (pool : Deployment) :
    events.countP (jobsSeries task o' pool) =
      if task = .startSandbox ∧ o' = o ∧ pool = d.pool then 1 else 0 := by
  have hone : ∀ rest : List Event, rest.countP (jobsSeries task o' pool) = 0 →
      (.jobs .startSandbox o d.pool d.sandboxId :: rest : List Event).countP
        (jobsSeries task o' pool) =
          if task = .startSandbox ∧ o' = o ∧ pool = d.pool then 1 else 0 := by
    intro rest hrest
    rw [List.countP_cons, hrest, Nat.zero_add]
    congr 1
    simp [jobsSeries, and_assoc]
  cases o with
  | success =>
    obtain ⟨waited, rfl⟩ := h
    exact hone _ rfl
  | _ => exact h ▸ hone [] rfl

theorem Trying.goes (h : Trying b pid d r c s) (how : How) (choice : Choice) (pc : StartPc)
    {r' : Sandbox} {c' : Option Container} (lives : ∀ e q, how ≠ .killed e q)
    (resume : d.resume settings s.world.now (s.world.reply .startSandbox how choice d.request) =
      some ([], .goto { d with pc := pc }))
    (row : (s.world.after .startSandbox how choice d.request).row d.sandboxId = some r')
    (container : (s.world.after .startSandbox how choice d.request).container d.sandboxId = c') :
    ∃ t, step settings s (.await pid how choice) = some t ∧
      Trying b pid { d with pc := pc } r' c' t := by
  have hproc : (Proc.start d).resume settings s.world.now
      (s.world.reply .startSandbox how choice d.request) =
        some ([], .goto (.start { d with pc := pc })) := by
    simp only [Proc.resume, resume]
    rfl
  obtain ⟨t, ht, hw, hprocs⟩ := await_goes h.proc lives hproc
  have hlog : t.world.log = (s.world.after .startSandbox how choice d.request).log := by rw [hw]; rfl
  refine ⟨t, ht, (hprocs pid).trans (if_pos rfl), fun q hq => ?_, ?_, ?_, ?_, ?_, fun task o pool => ?_⟩
  · rw [hprocs, if_neg (Ne.symm hq), h.others q hq]
  · rw [hw]
    exact row
  · rw [hw]
    exact container
  · rw [hw, ← h.now]
    exact s.world.now_after ..
  · rw [hw, ← h.queue]
    exact (World.queue_after d.request_ne_enqueue).1
  · rw [← h.jobs, World.jobsTotal, hlog]
    exact s.world.jobsTotal_after ..

theorem Trying.ends (h : Trying b pid d r c s) {o : JobOutcome} {choice : Choice}
    {events : List Event} {r' : Sandbox} {c' : Option Container}
    (resume : d.resume settings s.world.now (s.world.perform .startSandbox choice d.request).2 =
      some (events, .done o.ending))
    (counts : d.Counts (some o) events)
    (row : (s.world.perform .startSandbox choice d.request).1.row d.sandboxId = some r')
    (container : (s.world.perform .startSandbox choice d.request).1.container d.sandboxId = c') :
    ∃ t, step settings s (.await pid .ok choice) = some t ∧
      Tried b pid ⟨.startSandbox, d.sandboxId, d.pool, d.jobTry⟩ o r' c' t := by
  have hproc : (Proc.start d).resume settings s.world.now
      (s.world.reply .startSandbox .ok choice d.request) = some (events, .done o.ending) := by
    simp only [Proc.resume, World.reply, resume]
    rfl
  have hretry : decide (o.ending = .retry) = decide (o = .retry) := by cases o <;> rfl
  obtain ⟨t, ht, hw, hprocs⟩ := await_ends h.proc (by simp) hproc
  refine ⟨t, ht, (hprocs pid).trans (if_pos rfl), fun q hq => ?_, ?_, ?_, ?_, ?_,
    fun task o' pool => ?_⟩
  · rw [hprocs, if_neg (Ne.symm hq), h.others q hq]
  · rw [hw, World.settleJob_row]
    exact row
  · rw [hw, World.settleJob_container]
    exact container
  · rw [hw, World.settleJob_now, ← h.now]
    exact s.world.now_after .startSandbox .ok choice d.request
  · have hqueue : (s.world.after .startSandbox .ok choice d.request).queue = b.world.queue :=
      (World.queue_after d.request_ne_enqueue).1.trans h.queue
    rw [hw, World.settleJob_queue, hretry]
    cases o <;> simp [Proc.job?, hqueue, State.worldAfter, Proc.actor, Proc.request]
  · have hlog : t.world.log = (Proc.start d).ended o.ending :: events ++
        (s.world.after .startSandbox .ok choice d.request).log := by
      rw [hw, World.settleJob_log]
      rfl
    have hended : jobsSeries task o' pool ((Proc.start d).ended o.ending) = false := rfl
    have hafter := s.world.jobsTotal_after .startSandbox .ok choice d.request task o' pool
    rw [World.jobsTotal, hlog, List.cons_append, List.countP_cons_of_neg (by simp [hended]),
      List.countP_append, counts.countP_series, Nat.add_comm, ← h.jobs, ← hafter]
    rfl

/-! ## The calls of a try -/

variable {sid : Uuid} {i : Nat} {pool : Deployment}

theorem Trying.get (h : Trying b pid ⟨sid, i, pool, .get⟩ r c s) (hst : r.status ∈ startable) :
    ∃ t, step settings s (.ok pid) = some t ∧ Trying b pid ⟨sid, i, pool, .expiryCheck r⟩ r c t := by
  refine h.goes settings .ok {} _ (by simp) ?_ h.row h.container
  have hreply : s.world.reply .startSandbox .ok {} (.get sid) = .row (some r) := congrArg Reply.row h.row
  rw [StartSandbox.request, hreply]
  exact if_pos hst

theorem Trying.late {r₀ : Sandbox} (h : Trying b pid ⟨sid, i, pool, .expiryCheck r₀⟩ r c s)
    (past : r₀.expiresAt ≤ b.world.now) :
    ∃ t, step settings s (.ok pid) = some t ∧ Trying b pid ⟨sid, i, pool, .expire⟩ r c t := by
  refine h.goes settings .ok {} _ (by simp) ?_ h.row h.container
  rw [← h.now] at past
  exact if_pos past

theorem Trying.inTime {r₀ : Sandbox} (h : Trying b pid ⟨sid, i, pool, .expiryCheck r₀⟩ r c s)
    (ahead : ¬r₀.expiresAt ≤ b.world.now) :
    ∃ t, step settings s (.ok pid) = some t ∧ Trying b pid ⟨sid, i, pool, .pickUp r₀⟩ r c t := by
  refine h.goes settings .ok {} _ (by simp) ?_ h.row h.container
  rw [← h.now] at ahead
  exact if_neg ahead

theorem World.transition_found {w : World} (actor : Actor) {from_ : List SandboxStatus} (v : Values)
    (hrow : w.row sid = some r) (hst : r.status ∈ from_) :
    (w.transition actor sid from_ v).2 = .changed true ∧
      (w.transition actor sid from_ v).1.row sid = some (v.apply w.now r) := by
  simpa [hst] using World.transition_of_row actor from_ v hrow

theorem Trying.pickUp {r₀ : Sandbox} (h : Trying b pid ⟨sid, i, pool, .pickUp r₀⟩ r c s)
    (hst : r.status ∈ startable) :
    ∃ t, step settings s (.ok pid) = some t ∧ Trying b pid ⟨sid, i, pool, .inspect r₀⟩
      { r with status := .starting, attempts := i, updatedAt := b.world.now } c t := by
  obtain ⟨hreply, hrow⟩ := World.transition_found .startSandbox
    { status := .starting, attempts := some i } h.row hst
  refine h.goes settings .ok {} _ (by simp) ?_ ?_ h.container
  · change StartSandbox.resume settings s.world.now _
      (s.world.transition .startSandbox sid startable { status := .starting, attempts := some i }).2 = _
    rw [hreply]
    rfl
  · rw [← h.now]
    exact hrow

/-! ### The launch -/

theorem World.create_absent {w : World} (actor : Actor) (choice : Choice) (expiresAt : Time)
    (absent : w.container sid = none) :
    (w.perform actor choice (.create sid expiresAt)).2 = .objectId w.nextObject ∧
      (w.perform actor choice (.create sid expiresAt)).1.container sid =
        some ⟨sid, labelExpiry expiresAt, w.nextObject, false, none⟩ ∧
      ∀ id, (w.perform actor choice (.create sid expiresAt)).1.row id = w.row id := by
  simp only [World.perform, World.createContainer]
  split
  · rename_i cs hcs
    refine ⟨rfl, ?_, fun _ => rfl⟩
    exact (KeyedTable.find?_insert hcs sid).trans (if_pos rfl)
  · rename_i hnone
    rcases (KeyedTable.insert_eq_none_iff _ _).mp hnone with hk | ⟨i, hi, -⟩
    · exact absurd absent (Option.isSome_iff_ne_none.mp hk)
    · cases hi

theorem World.object_of_container {w : World} {c : Container} (h : w.container sid = some c) :
    w.object sid c.objectId = some c := by
  simp [World.object, h]

theorem World.start_found {w : World} (actor : Actor) (choice : Choice) {c : Container}
    (h : w.container sid = some c) :
    (w.perform actor choice (.startObject sid c.objectId)).2 = .done ∧
      (w.perform actor choice (.startObject sid c.objectId)).1.container sid =
        some { c with running := true, hostPort := some choice.hostPort } ∧
      ∀ id, (w.perform actor choice (.startObject sid c.objectId)).1.row id = w.row id := by
  simp only [World.perform, World.object_of_container h]
  refine ⟨trivial, ?_, fun _ => rfl⟩
  rw [World.container_setContainer, h, Option.map_some, if_pos rfl]

/-- Where a launch that found no container stands after `m` calls, and what container there
is then. -/
inductive LaunchStage (settings : Settings) (sid : Uuid) (r : Sandbox) (p : Nat) :
    Nat → StartPc → Option Container → Prop where
  | inspect : LaunchStage settings sid r p 0 (.inspect r) none
  | create : LaunchStage settings sid r p 1 (.create r) none
  | startObject (n : Nat) : LaunchStage settings sid r p 2 (.startObject r n)
      (some ⟨sid, labelExpiry r.expiresAt, n, false, none⟩)
  | reload (n : Nat) : LaunchStage settings sid r p 3 (.reload r n)
      (some ⟨sid, labelExpiry r.expiresAt, n, true, some p⟩)
  | waitReady (n : Nat) : LaunchStage settings sid r p 4 (.waitReady r p)
      (some ⟨sid, labelExpiry r.expiresAt, n, true, some p⟩)
  | succeed (n : Nat) : LaunchStage settings sid r p 5 (.succeed r (launchUrl settings p))
      (some ⟨sid, labelExpiry r.expiresAt, n, true, some p⟩)

theorem LaunchStage.launching {r₀ : Sandbox} {p m : Nat} {pc : StartPc}
    (h : LaunchStage settings sid r₀ p m pc c) (hm : m < 5) : pc.launching = true := by
  cases h <;> first | rfl | exact absurd hm (Nat.lt_irrefl 5)

theorem LaunchStage.raises {r₀ : Sandbox} {p : Nat} {passed : Fin 5} {pc : StartPc} {now : Time} {e : Exc}
    (h : LaunchStage settings sid r₀ p passed pc c) (uncaught : catches passed e = false) :
    StartSandbox.resume settings now ⟨sid, i, pool, pc⟩ (.raised e) =
      some ([], .goto ⟨sid, i, pool, .discardBroken e.reason⟩) := by
  have hrun : ∀ pc', (passed = 1 ∨ passed = 2) →
      StartSandbox.runFailed ⟨sid, i, pool, pc'⟩ r₀ e = ⟨sid, i, pool, .discardBroken e.reason⟩ := by
    intro pc' hp
    have hno : e.isConflict = false := by
      rcases hp with rfl | rfl <;> exact uncaught
    simp [StartSandbox.runFailed, hno]
  generalize hm : (passed : Nat) = m at h
  cases h with
  | create => exact congrArg (fun d => some ([], Next.goto d)) (hrun _ (.inl (Fin.ext hm)))
  | startObject n => exact congrArg (fun d => some ([], Next.goto d)) (hrun _ (.inr (Fin.ext hm)))
  | succeed => exact absurd passed.isLt (by omega)
  | _ => rfl

theorem Trying.launch {r₀ : Sandbox} {p m : Nat} {pc : StartPc}
    (h : Trying b pid ⟨sid, i, pool, pc⟩ r c s) (hl : LaunchStage settings sid r₀ p m pc c)
    (hm : m < 5) :
    ∃ t pc' c', step settings s (.await pid .ok { hostPort := p }) = some t ∧
      LaunchStage settings sid r₀ p (m + 1) pc' c' ∧ Trying b pid ⟨sid, i, pool, pc'⟩ r c' t := by
  cases hl with
  | inspect =>
    have hc : s.world.container sid = none := h.container
    obtain ⟨t, ht, h'⟩ := h.goes settings .ok { hostPort := p }
      (.create r₀) (by simp)
      (by simp only [StartSandbox.request, World.reply, World.perform, hc]; rfl)
      h.row h.container
    exact ⟨t, _, _, ht, .create, h'⟩
  | create =>
    obtain ⟨hreply, hc, hrow⟩ := World.create_absent .startSandbox
      { hostPort := p } r₀.expiresAt h.container
    obtain ⟨t, ht, h'⟩ := h.goes settings .ok { hostPort := p }
      (.startObject r₀ s.world.nextObject) (by simp)
      (by simp only [StartSandbox.request, World.reply]; rw [hreply]; rfl)
      ((hrow _).trans h.row) hc
    exact ⟨t, _, _, ht, .startObject _, h'⟩
  | startObject n =>
    obtain ⟨hreply, hc, hrow⟩ := World.start_found .startSandbox
      { hostPort := p } h.container
    obtain ⟨t, ht, h'⟩ := h.goes settings .ok { hostPort := p }
      (.reload r₀ n) (by simp)
      (by simp only [StartSandbox.request, World.reply]; rw [hreply]; rfl)
      ((hrow _).trans h.row) hc
    exact ⟨t, _, _, ht, .reload _, h'⟩
  | reload n =>
    have hobject := World.object_of_container h.container
    have hperform : s.world.perform .startSandbox { hostPort := p } (.reload sid n) =
        (s.world, .port (some p)) := by
      simp only [World.perform]
      rw [hobject]
    obtain ⟨t, ht, h'⟩ := h.goes settings .ok { hostPort := p }
      (.waitReady r₀ p) (by simp)
      (by simp only [StartSandbox.request, World.reply, hperform]; rfl)
      (by simpa [World.after, How.effect, StartSandbox.request, hperform] using h.row)
      (by simpa [World.after, How.effect, StartSandbox.request, hperform] using h.container)
    exact ⟨t, _, _, ht, .waitReady _, h'⟩
  | waitReady n =>
    obtain ⟨t, ht, h'⟩ := h.goes settings .ok { hostPort := p }
      (.succeed r₀ (launchUrl settings p)) (by simp) rfl h.row h.container
    exact ⟨t, _, _, ht, .succeed _, h'⟩
  | succeed => omega

theorem Trying.launches {r₀ : Sandbox} {p : Nat} (h : Trying b pid ⟨sid, i, pool, .inspect r₀⟩ r none s)
    (m : Nat) (hm : m ≤ 5) :
    ∃ t pc c, run settings s (List.replicate m (.await pid .ok { hostPort := p })) = some t ∧
      LaunchStage settings sid r₀ p m pc c ∧ Trying b pid ⟨sid, i, pool, pc⟩ r c t := by
  induction m with
  | zero => exact ⟨s, _, _, rfl, .inspect, h⟩
  | succ m ih =>
    obtain ⟨t, pc, c, ht, hl, h'⟩ := ih (by omega)
    obtain ⟨u, pc', c', hu, hl', h''⟩ := h'.launch settings hl (by omega)
    rw [List.replicate_succ']
    exact ⟨u, pc', c', LabelledRuns.run_snoc ht hu, hl', h''⟩

theorem StartSandbox.row_of_launching (hpc : d.pc.launching = true) (w : World) (how : How)
    (choice : Choice) (id : Uuid) : (w.after .startSandbox how choice d.request).row id = w.row id := by
  have hchange := rowChange_after w .startSandbox how choice d.request id
  obtain ⟨sid, i, pool, pc⟩ := d
  generalize (w.after .startSandbox how choice _).row id = x at hchange ⊢
  cases hchange with
  | same => rfl
  | wrote r v found writes => cases pc <;> first | cases writes | cases hpc
  | inserted r isInsert => cases pc <;> cases isInsert

theorem Trying.breaks {r₀ : Sandbox} {p : Nat} {passed : Fin 5} {pc : StartPc}
    (h : Trying b pid ⟨sid, i, pool, pc⟩ r c s) (hl : LaunchStage settings sid r₀ p passed pc c)
    (e : Exc) (uncaught : catches passed e = false) (effect : Bool) (choice : Choice) :
    ∃ t c', step settings s (.await pid (.raises e effect) choice) = some t ∧
      Trying b pid ⟨sid, i, pool, .discardBroken e.reason⟩ r c' t := by
  have hrow := (StartSandbox.row_of_launching (d := ⟨sid, i, pool, pc⟩)
    (hl.launching settings passed.isLt) s.world (.raises e effect) choice sid).trans h.row
  obtain ⟨t, ht, h'⟩ := h.goes settings (.raises e effect) choice
    (.discardBroken e.reason) (by simp) (hl.raises settings uncaught) hrow rfl
  exact ⟨t, _, ht, h'⟩

theorem Trying.discard {reason : String} (h : Trying b pid ⟨sid, i, pool, .discardBroken reason⟩ r c s) :
    ∃ t, step settings s (.ok pid) = some t ∧
      Trying b pid ((⟨sid, i, pool, .discardBroken reason⟩ : StartSandbox).afterDiscard settings reason)
        r none t := by
  refine h.goes settings .ok {} _ (by simp) rfl h.row ?_
  exact (World.container_removeContainer ..).trans (if_pos rfl)

/-! ### The end -/

theorem Trying.writes (h : Trying b pid d r c s) {o : JobOutcome} {from_ : List SandboxStatus}
    {v : Values} {events : List Event} (request : d.request = .transition d.sandboxId from_ v)
    (hst : r.status ∈ from_)
    (resume : d.resume settings s.world.now (.changed true) = some (events, .done o.ending))
    (counts : d.Counts (some o) events) :
    ∃ t, step settings s (.ok pid) = some t ∧
      Tried b pid ⟨.startSandbox, d.sandboxId, d.pool, d.jobTry⟩ o (v.apply b.world.now r) c t := by
  obtain ⟨hreply, hrow⟩ := World.transition_found .startSandbox v h.row hst
  refine h.ends settings ?_ counts ?_ ?_
  · rw [request]
    change d.resume settings s.world.now (s.world.transition .startSandbox d.sandboxId from_ v).2 = _
    rw [hreply, resume]
  · rw [request, ← h.now]
    exact hrow
  · rw [request]
    exact h.container

theorem Trying.expires (h : Trying b pid (.start sid i pool) r c s) (hst : r.status ∈ startable)
    (past : r.expiresAt ≤ b.world.now) :
    ∃ t, run settings s [.ok pid, .ok pid, .ok pid] = some t ∧
      Tried b pid ⟨.startSandbox, sid, pool, i⟩ .expired
        { r with status := .stopped, error := some "expired", updatedAt := b.world.now } c t := by
  obtain ⟨s₁, h₁, hget⟩ := h.get settings hst
  obtain ⟨s₂, h₂, hlate⟩ := hget.late settings past
  obtain ⟨t, ht, htried⟩ := hlate.writes settings (o := .expired) rfl hst rfl rfl
  refine ⟨t, ?_, htried⟩
  simp only [run, LabelledRuns.run, h₁, h₂, ht, Option.bind_some]

theorem Trying.picked (h : Trying b pid (.start sid i pool) r c s) (hst : r.status ∈ startable)
    (ahead : ¬r.expiresAt ≤ b.world.now) :
    ∃ t, run settings s [.ok pid, .ok pid, .ok pid] = some t ∧
      Trying b pid ⟨sid, i, pool, .inspect r⟩
        { r with status := .starting, attempts := i, updatedAt := b.world.now } c t := by
  obtain ⟨s₁, h₁, hget⟩ := h.get settings hst
  obtain ⟨s₂, h₂, hinTime⟩ := hget.inTime settings ahead
  obtain ⟨t, ht, hpicked⟩ := hinTime.pickUp settings hst
  refine ⟨t, ?_, hpicked⟩
  simp only [run, LabelledRuns.run, h₁, h₂, ht, Option.bind_some]

theorem Trying.ready {r₀ : Sandbox} (h : Trying b pid ⟨sid, i, pool, .inspect r₀⟩ r none s)
    (hst : r.status = .starting) (p : Nat) :
    ∃ t n, run settings s ((LaunchOutcome.ready p).awaits pid ++ (LaunchOutcome.ready p).settles pid) =
        some t ∧
      Tried b pid ⟨.startSandbox, sid, pool, i⟩ .success
        { r with
          status := .running
          url := some (launchUrl settings p)
          error := none
          updatedAt := b.world.now }
        (some ⟨sid, labelExpiry r₀.expiresAt, n, true, some p⟩) t := by
  obtain ⟨s₁, pc, c, h₁, hl, hlaunched⟩ := h.launches settings 5 (by omega)
  cases hl with
  | succeed n =>
    obtain ⟨t, ht, htried⟩ := hlaunched.writes settings (o := .success) rfl
      (by simp [hst]) rfl ⟨_, rfl⟩
    exact ⟨t, n, LabelledRuns.run_snoc h₁ ht, htried⟩

theorem Trying.broken {r₀ : Sandbox} (h : Trying b pid ⟨sid, i, pool, .inspect r₀⟩ r none s)
    (hst : r.status = .starting) (passed : Fin 5) (e : Exc) (effect : Bool)
    (uncaught : catches passed e = false) :
    ∃ t, run settings s ((LaunchOutcome.broken passed e effect uncaught).awaits pid ++
        (LaunchOutcome.broken passed e effect uncaught).settles pid) = some t ∧
      Tried b pid ⟨.startSandbox, sid, pool, i⟩ (if i < settings.jobMaxTries then .retry else .failed)
        { r with
          status := if i < settings.jobMaxTries then .queued else .failed
          error := some e.reason
          updatedAt := b.world.now } none t := by
  obtain ⟨s₁, pc, c, h₁, hl, hlaunched⟩ :=
    h.launches settings (p := 0) passed (by omega)
  obtain ⟨s₂, c', h₂, hbroken⟩ := hlaunched.breaks settings hl e uncaught effect {}
  obtain ⟨s₃, h₃, hdiscarded⟩ := hbroken.discard settings
  have hlast : ∃ t, step settings s₃ (.ok pid) = some t ∧
      Tried b pid ⟨.startSandbox, sid, pool, i⟩ (if i < settings.jobMaxTries then .retry else .failed)
        { r with
          status := if i < settings.jobMaxTries then .queued else .failed
          error := some e.reason
          updatedAt := b.world.now } none t := by
    unfold StartSandbox.afterDiscard at hdiscarded
    by_cases htries : i < settings.jobMaxTries
    · simp only [if_pos htries] at hdiscarded ⊢
      exact hdiscarded.writes settings (o := .retry) rfl (by simp [hst]) rfl rfl
    · simp only [if_neg htries] at hdiscarded ⊢
      exact hdiscarded.writes settings (o := .failed) rfl (by simp [hst]) rfl rfl
  obtain ⟨t, ht, htried⟩ := hlast
  have hthree : run settings s₁ [.await pid (.raises e effect) {}, .ok pid, .ok pid] = some t := by
    simp only [run, LabelledRuns.run, h₂, h₃, ht, Option.bind_some]
  refine ⟨t, ?_, htried⟩
  rw [LaunchOutcome.awaits, LaunchOutcome.settles, List.append_assoc]
  exact LabelledRuns.run_trans h₁ hthree

end SandboxOrchestrator
