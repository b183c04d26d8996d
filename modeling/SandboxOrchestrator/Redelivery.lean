import SandboxOrchestrator.Threads

/-!
# Overlapping deliveries of one start job

`starting` is itself startable, so a second delivery passes the guard while the first is
still launching, and its discard takes the container from under the other's `running`
row. A thread that a launch or a discard has left over can do the same without a second
delivery. As long as no delivery picks the sandbox up while another is past its pick-up, and
no such thread takes the container of a running row, `running` means that it is there.
-/

namespace SandboxOrchestrator

set_option autoImplicit false

def Action.ofStarts : Action → Bool
  | .tick _ => true
  | .deliver _ job => decide (job.task = .startSandbox)
  | .redeliver _ job => decide (job.task = .startSandbox)
  | .await _ _ _ => true
  | _ => false

/-- Nothing happens but deliveries of start jobs and the passing of time. -/
def StartsOnly (_ : State) (a : Action) (_ : State) : Prop := a.ofStarts = true

instance (s : State) (a : Action) (t : State) : Decidable (StartsOnly s a t) :=
  inferInstanceAs (Decidable (_ = true))

/-- A delivery picks the sandbox up only when no other delivery is past its own pick-up. -/
def PicksUpAlone (sid : Uuid) (s : State) (a : Action) (_ : State) : Prop :=
  picksUp sid s a = true → ∀ e ∈ s.procs.rows, e.2.inSection sid = false

instance (sid : Uuid) (s : State) (a : Action) (t : State) : Decidable (PicksUpAlone sid s a t) :=
  inferInstanceAs (Decidable (_ = true → _))

/-- The container of a running row is there and stays there. -/
def RunningKept (sid : Uuid) (s : Threaded) (_ : ThreadedAction) (t : Threaded) : Prop :=
  s.state.world.status sid = some .running →
    (s.state.world.container sid).isSome ∧ (t.state.world.container sid).isSome

structure Launching (sid : Uuid) (s : State) : Prop where
  only : ∀ p proc, s.proc p = some proc → ∃ d, proc = .start d
  solo : ∀ p q x y, s.proc p = some x → s.proc q = some y → x.inSection sid = true →
    y.inSection sid = true → p = q
  held : ∀ p d, s.proc p = some (.start d) → d.sandboxId = sid → d.pc.holding = true →
    (s.world.container sid).isSome
  running : s.world.status sid = some .running → (s.world.container sid).isSome ∧
    ∀ p x, s.proc p = some x → x.inSection sid = false

theorem Launching.removes {sid : Uuid} {s : State} (hs : Launching sid s) {p : Nat} {x : Proc}
    (hp : s.proc p = some x) (hx : x.removes = some sid) : x.inSection sid = true := by
  obtain ⟨d, rfl⟩ := hs.only p x hp
  simp only [Proc.removes, Option.ite_none_right_eq_some, Option.some.injEq] at hx
  exact Proc.inSection_iff.mpr ⟨d, rfl, hx.2, StartPc.section_of_removing hx.1⟩

/-- No delivery takes the container from under a running row. -/
theorem Launching.kept {settings : Settings} {sid : Uuid} {s t : State} {a : Action}
    (hs : Launching sid s) (honly : StartsOnly s a t) (h : Stepped settings s t a)
    (hrun : s.world.status sid = some .running) : (t.world.container sid).isSome := by
  obtain ⟨hc, hno⟩ := hs.running hrun
  rcases h.container_kept hc with hkept | ⟨rfl, -⟩ | ⟨q, how, choice, x, -, hq, hx⟩
  · exact hkept
  · cases honly
  · simpa [hno q x hq] using hs.removes hq hx

/-! ## One step -/

section

variable {settings : Settings} {sid : Uuid} {s t : State} {a : Action}

theorem Launching.only_step (hs : Launching sid s) (honly : StartsOnly s a t)
    (hst : Stepped settings s t a) {p : Nat} {proc : Proc} (hp : t.proc p = some proc) :
    ∃ d, proc = .start d := by
  cases hst.came hp with
  | stayed found => exact hs.only p proc found
  | spawned world drawn spawn =>
    cases spawn with
    | deliver _ job => exact ⟨_, Proc.ofJob_start (of_decide_eq_true honly)⟩
    | redeliver _ job => exact ⟨_, Proc.ofJob_start (of_decide_eq_true honly)⟩
    | _ => cases honly
  | resumed how choice old events isAwait found lives goes =>
    obtain ⟨d, rfl⟩ := hs.only p old found
    cases goes with
    | start d reply pc goes => exact ⟨_, rfl⟩

theorem Launching.solo_step (hs : Launching sid s) (halone : PicksUpAlone sid s a t)
    (hst : Stepped settings s t a) {p q : Nat} {x y : Proc} (hp : t.proc p = some x)
    (hq : t.proc q = some y) (hx : x.inSection sid = true) (hy : y.inSection sid = true) : p = q := by
  rcases (hst.came hp).inSection hx with ⟨x', hp', hx'⟩ | ⟨hpick, choice, ha⟩ <;>
  rcases (hst.came hq).inSection hy with ⟨y', hq', hy'⟩ | ⟨hpick', choice', ha'⟩
  · exact hs.solo p q x' y' hp' hq' hx' hy'
  · have := halone hpick' (p, x') (State.mem_procs_iff.mpr hp')
    simp [hx'] at this
  · have := halone hpick (q, y') (State.mem_procs_iff.mpr hq')
    simp [hy'] at this
  · cases ha.symm.trans ha'
    rfl

theorem Launching.held_step (hs : Launching sid s) (honly : StartsOnly s a t)
    (hst : Stepped settings s t a) {p : Nat} {d : StartSandbox} (hp : t.proc p = some (.start d))
    (hid : d.sandboxId = sid) (hd : d.pc.holding = true) : (t.world.container sid).isSome := by
  have hsec : d.pc.section = true := StartPc.section_of_holding hd
  cases hst.came hp with
  | stayed found other =>
    rcases hst.container_kept (hs.held p d found hid hd) with
      hkept | ⟨ha, -⟩ | ⟨q, how, choice, x, ha, hq, hx⟩
    · exact hkept
    · subst ha
      cases honly
    · obtain rfl := hs.solo p q _ x found hq (Proc.inSection_iff.mpr ⟨d, rfl, hid, hsec⟩)
        (hs.removes hq hx)
      exact absurd ha (other _ _)
  | spawned world drawn spawn =>
    obtain ⟨job, -, -, rfl⟩ := spawn.of_start
    cases hd
  | resumed how choice old events isAwait found lives goes world_eq =>
    obtain ⟨d₀, pc, rfl, rfl, hgoes⟩ := goes.of_start
    obtain rfl : d₀.sandboxId = sid := hid
    rw [world_eq, World.record_container]
    rcases StartSandbox.holding_goes lives hgoes hd with hsome | ⟨hold, hsame⟩
    · exact hsome
    · exact hsame.trans (hs.held p d₀ found rfl hold)

theorem Launching.running_step (hs : Launching sid s) (honly : StartsOnly s a t)
    (hst : Stepped settings s t a) (hrun : t.world.status sid = some .running) :
    (t.world.container sid).isSome ∧
      ∀ p x, t.proc p = some x → x.inSection sid = false := by
  have hins : ∀ p x r, s.proc p = some x → x.request = .insert r → r.status ≠ .running := by
    intro p x r hp hr
    obtain ⟨d, rfl⟩ := hs.only p x hp
    cases Proc.asks_of hr
  rcases hst.running hins hrun with
    hold | ⟨-, pid, how, choice, d, r, url, rfl, hp, hid, hpc, hend⟩
  · refine ⟨hs.kept honly hst hold, fun p x hp => ?_⟩
    by_contra hx
    rcases (hst.came hp).inSection (by simpa using hx) with ⟨x', hp', hx'⟩ | ⟨hpick, -⟩
    · simp [(hs.running hold).2 p x' hp'] at hx'
    · obtain ⟨r, hr, hstart⟩ := picksUp_status hpick
      simp_all [World.status, startable]
  · have hsec : (Proc.start d).inSection sid = true :=
      Proc.inSection_iff.mpr ⟨d, rfl, hid, by simp [hpc, StartPc.section]⟩
    refine ⟨?_, fun p x hpx => ?_⟩
    · rcases hst.container_kept (hs.held pid d hp hid (by simp [hpc, StartPc.holding])) with
        hkept | ⟨ha, -⟩ | ⟨q, how', choice', x, ha, hq, hx⟩
      · exact hkept
      · cases ha
      · cases ha
        cases hp.symm.trans hq
        simp [Proc.removes, hpc, StartPc.removing] at hx
    · by_contra hx
      rcases (hst.came hpx).inSection (by simpa using hx) with ⟨x', hp', hx'⟩ | ⟨hpick, -⟩
      · obtain rfl := hs.solo p pid x' _ hp' hp hx' hsec
        cases hend.symm.trans hpx
      · obtain ⟨id, jobTry, pool, pc⟩ := d
        subst hpc
        cases how <;> simp [picksUp, hp] at hpick

theorem launching_step (hs : Launching sid s) (honly : StartsOnly s a t) (halone : PicksUpAlone sid s a t)
    (h : step settings s a = some t) : Launching sid t where
  only _ _ hp := hs.only_step honly (stepped h) hp
  solo _ _ _ _ hp hq hx hy := hs.solo_step halone (stepped h) hp hq hx hy
  held _ _ hp hid hd := hs.held_step honly (stepped h) hp hid hd
  running := hs.running_step honly (stepped h)

end

/-! ## A call of a thread -/

section

variable {settings : Settings} {sid : Uuid} {s t : Threaded} {i : Nat} {how : How} {choice : Choice}
  {th : Thread}

theorem Launching.kept_thread (hs : Launching sid s.state)
    (hspares : SparesRunning sid s (.thread i how choice) t) (found : s.threads[i]? = some th)
    (hrun : s.state.world.status sid = some .running) :
    ((th.after s.state.world how choice).container sid).isSome :=
  Thread.container_kept (hspares.spares found (.inl hrun)) (hs.running hrun).1

theorem launching_thread (hs : Launching sid s.state)
    (hspares : SparesRunning sid s (.thread i how choice) t) (found : s.threads[i]? = some th) :
    Launching sid { s.state with world := th.after s.state.world how choice } where
  only := hs.only
  solo := hs.solo
  held p d hp hid hd := by
    have hholds : (Proc.start d).holds sid = true := by simp [Proc.holds, hid, hd]
    exact Thread.container_kept (hspares.spares found (.inr ⟨p, _, hp, hholds⟩))
      (hs.held p d hp hid hd)
  running hrun := by
    have hrun' : s.state.world.status sid = some .running :=
      (th.status_after s.state.world how choice sid).symm.trans hrun
    exact ⟨hs.kept_thread hspares found hrun', (hs.running hrun').2⟩

end

/-- Only deliveries of start jobs run, no pick-up overlaps another delivery, and no thread takes
the container of a running row. -/
def Sound (sid : Uuid) (s : Threaded) (a : ThreadedAction) (t : Threaded) : Prop :=
  OnBase (fun s a t => StartsOnly s a t ∧ PicksUpAlone sid s a t) s a t ∧ SparesRunning sid s a t

instance (sid : Uuid) (s : Threaded) (a : ThreadedAction) (t : Threaded) :
    Decidable (Sound sid s a t) :=
  inferInstanceAs (Decidable (_ ∧ _))

/-- From a queued sandbox with no handler in flight, whatever threads were left over: when no
delivery picks it up while another is past its own pick-up, and no thread takes the container
while the row runs or a delivery that has read the port is yet to write it, then whatever the
launches do and whichever deliveries are killed, its container is there in every state with a
running row, and no step removes it. -/
theorem redelivery_keeps_running (settings : Settings) (sid : Uuid) (s t : Threaded)
    (as : List ThreadedAction) (hidle : ∀ p, s.state.proc p = none)
    (hqueued : s.state.world.status sid = some .queued) (hsteps : s.Along settings (Sound sid) as)
    (h : s.run settings as = some t) :
    (t.state.world.status sid = some .running → (t.state.world.container sid).isSome) ∧
      s.Along settings (RunningKept sid) as := by
  have hinit : Launching sid s.state :=
    ⟨fun p _ hp => by simp [hidle p] at hp, fun p _ _ _ hp => by simp [hidle p] at hp,
      fun p _ hp => by simp [hidle p] at hp, fun hrun => by simp [hqueued] at hrun⟩
  refine ⟨fun hrun => ?_, ?_⟩
  · have hlast : Launching sid t.state := Threaded.invariant
      (fun _ _ _ hs hP ht => launching_step hs hP.1 hP.2 ht)
      (fun _ _ _ _ _ _ hs hQ found => launching_thread hs hQ found) hinit hsteps h
    exact (hlast.running hrun).1
  · refine LabelledRuns.along_of_invariant (I := fun u : Threaded => Launching sid u.state)
      (fun u b v hu hP hv => ?_) (fun u b v hu hP hv hrun => ?_) hinit hsteps
    · cases threadedStep hv with
      | base b' isBase step => exact launching_step hu (hP.1 b' isBase).1 (hP.1 b' isBase).2 step
      | thread i how choice th isThread found result =>
        subst isThread
        rw [result]
        exact launching_thread hu hP.2 found
    · refine ⟨(hu.running hrun).1, ?_⟩
      cases threadedStep hv with
      | base b' isBase step => exact hu.kept (hP.1 b' isBase).1 (stepped step) hrun
      | thread i how choice th isThread found result =>
        subst isThread
        rw [result]
        exact hu.kept_thread hP.2 found hrun

/-- The launch of the first try times out and its thread goes on; the second try makes the row
`running`, and then the thread finds the container it would have made. -/
def outlived : List ThreadedAction :=
  [.step (.deliver 1 ⟨.startSandbox, 1, .stable, 1⟩), .step (.ok 1), .step (.ok 1), .step (.ok 1),
    .leave 1 (.raises ⟨"TimeoutError", ""⟩ false), .step (.ok 1), .step (.ok 1),
    .step (.deliver 2 ⟨.startSandbox, 1, .stable, 2⟩)] ++ List.replicate 9 (.step (.ok 2)) ++
    [.thread 0 .ok {}, .thread 0 .ok {}]

theorem redelivery_keeps_running_outlived : ∃ s t,
    (Threaded.init 0 KeyedTable.empty 0).run ⟨2, 4, "localhost"⟩
        (steps (posted 0 1 ++ [.ok 0])) = some s ∧
      s.run ⟨2, 4, "localhost"⟩ outlived = some t ∧
      t.state.world.status 1 = some .running ∧ (t.state.world.container 1).isSome := by
  have hrun : ((Threaded.init 0 KeyedTable.empty 0).run ⟨2, 4, "localhost"⟩
      (steps (posted 0 1 ++ [.ok 0]))).any (fun s => decide (s.state.procs.rows = []) &&
        decide (s.state.world.status 1 = some .queued) &&
        LabelledRuns.check (Threaded.step ⟨2, 4, "localhost"⟩) (Sound 1) s outlived &&
        (s.run ⟨2, 4, "localhost"⟩ outlived).any fun t =>
          decide (t.state.world.status 1 = some .running)) = true := by decide
  obtain ⟨s, hs, hp⟩ := LabelledRuns.exists_run hrun
  simp only [Bool.and_eq_true, decide_eq_true_eq, Option.any_eq_true] at hp
  obtain ⟨⟨⟨hidle, hqueued⟩, hcheck⟩, t, ht, hrunning⟩ := hp
  exact ⟨s, t, hs, ht, hrunning, (redelivery_keeps_running _ 1 s t _ (State.idle_of_rows hidle) hqueued
    (LabelledRuns.along_of_check hcheck) ht).1 hrunning⟩

/-- Both deliveries are past their pick-up before the first one launches. -/
def overlapping : List Action :=
  [.deliver 1 ⟨.startSandbox, 1, .stable, 1⟩, .redeliver 2 ⟨.startSandbox, 1, .stable, 1⟩,
    .ok 1, .ok 1, .ok 1, .ok 2, .ok 2, .ok 2] ++ List.replicate 6 (.ok 1) ++
    [.ok 2, .ok 2, .fails 2, .ok 2]

/-- The first delivery has the sandbox running; then the second one cannot reach it and
discards the container. -/
theorem redelivery_removes_running : ∃ s t,
    run ⟨2, 4, "localhost"⟩ (State.init 0 KeyedTable.empty 0) (posted 0 1 ++ [.ok 0]) = some s ∧
      (∀ p, s.proc p = none) ∧ s.world.status 1 = some .queued ∧
      Along ⟨2, 4, "localhost"⟩ StartsOnly s overlapping ∧
      run ⟨2, 4, "localhost"⟩ s overlapping = some t ∧
      t.world.status 1 = some .running ∧ t.world.container 1 = none := by
  have hrun : (run ⟨2, 4, "localhost"⟩ (State.init 0 KeyedTable.empty 0) (posted 0 1 ++ [.ok 0])).any
      (fun s => decide (s.procs.rows = []) && decide (s.world.status 1 = some .queued) &&
        LabelledRuns.check (step ⟨2, 4, "localhost"⟩) StartsOnly s overlapping &&
        (run ⟨2, 4, "localhost"⟩ s overlapping).any fun t =>
          decide (t.world.status 1 = some .running) && decide (t.world.container 1 = none)) = true := by
    decide
  obtain ⟨s, hs, hp⟩ := LabelledRuns.exists_run hrun
  simp only [Bool.and_eq_true, decide_eq_true_eq, Option.any_eq_true] at hp
  obtain ⟨⟨⟨hidle, hqueued⟩, hcheck⟩, t, ht, hrunning, hgone⟩ := hp
  exact ⟨s, t, hs, State.idle_of_rows hidle, hqueued, LabelledRuns.along_of_check hcheck, ht,
    hrunning, hgone⟩

end SandboxOrchestrator
