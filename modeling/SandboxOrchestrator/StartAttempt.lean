import SandboxOrchestrator.Reports

/-!
# No start attempt ends silently

"A sandbox must never be left in starting or missing from jobs_total": the `except` branch
around the launch keeps this for a launch that fails. The database calls of the delivery
stand outside of it, and one that raises ends the delivery at once.
-/

namespace SandboxOrchestrator

set_option autoImplicit false

open LabelledRuns (tally)

def StartPc.excepting : StartPc → Bool
  | .discardBroken _ => true
  | .retry _ => true
  | .fail _ => true
  | _ => false

/-- In the step the launch of the delivery that runs as `pid` raises or times out. -/
def launchFails (pid : Nat) (s : State) (_ : Action) (t : State) : Bool :=
  match s.proc pid, t.proc pid with
  | some (.start d), some (.start d') => d.pc.launching && d'.pc.excepting
  | _, _ => false

/-- A delivery of the job has just raised `Retry`: the job is back in its queue, and has a
try left. -/
def Job.RunsAgain (settings : Settings) (job : Job) (t : State) : Prop :=
  t.world.log.head? = some (.worked job.task job.sandboxId .retry) ∧
    { job with jobTry := job.jobTry + 1 } ∈ t.world.queue ∧ job.jobTry + 1 ≤ settings.jobMaxTries

def Job.Raised (job : Job) (t : State) : Prop :=
  ∃ e, t.world.log.head? = some (.worked job.task job.sandboxId (.raised e))

def World.Settled (w : World) (sid : Uuid) : Prop :=
  ∀ st, w.status sid = some st → st ∉ startable

/-- Another handler has moved the row since the delivery took it: the retry finds it no
longer `starting`, the failure finds it queued again, or it is startable again while the
delivery discards the container it does not want. -/
def StartSandbox.Overtaken (d : StartSandbox) (w : World) : Prop :=
  match d.pc with
  | .retry _ => w.status d.sandboxId ≠ some .starting
  | .fail _ => w.status d.sandboxId = some .queued
  | .discardUnwanted => ¬w.Settled d.sandboxId
  | _ => False

variable {settings : Settings} {d : StartSandbox} {w : World} {how : How} {choice : Choice}

/-! ## While it runs -/

theorem inFlight_step {sid : Uuid} {pid : Nat} {s t : State} {a : Action}
    (found : s.proc pid = some (.start d)) (flight : inFlight sid pid s a t = true)
    (h : step settings s a = some t) :
    ∃ pc, t.proc pid = some (.start { d with pc := pc }) ∧
      (pc = d.pc ∨ ∃ reply, d.Goes settings d.pc reply pc) := by
  obtain ⟨d', hd', -⟩ := inFlight_iff.mp flight
  cases (stepped h).came hd' with
  | stayed found' =>
    cases found.symm.trans found'
    exact ⟨d.pc, hd', .inl rfl⟩
  | spawned world drawn spawn absent =>
    rw [found] at absent
    cases absent
  | resumed how choice old events _ found' lives goes =>
    cases found.symm.trans found'
    cases goes with
    | start _ _ pc goes => exact ⟨pc, hd', .inr ⟨_, goes⟩⟩

/-- The delivery of `job` is in flight, and is about to retry only if a try is left. -/
def Job.Attempted (settings : Settings) (job : Job) (pid : Nat) (s : State) : Prop :=
  ∃ pc, s.proc pid = some (.start ⟨job.sandboxId, job.jobTry, job.queue, pc⟩) ∧
    ∀ reason, pc = .retry reason → job.jobTry < settings.jobMaxTries

def Excepting (pid : Nat) (s : State) : Prop :=
  ∃ d, s.proc pid = some (.start d) ∧ d.pc.excepting = true

theorem excepting_iff {pid : Nat} {s : State} (found : s.proc pid = some (.start d)) :
    Excepting pid s ↔ d.pc.excepting = true := by
  constructor
  · rintro ⟨d', found', h⟩
    cases found.symm.trans found'
    exact h
  · exact fun h => ⟨d, found, h⟩

theorem attempted_step {job : Job} {pid : Nat} {s t : State} {a : Action}
    (hs : job.Attempted settings pid s) (flight : inFlight job.sandboxId pid s a t = true)
    (h : step settings s a = some t) : job.Attempted settings pid t := by
  obtain ⟨pc, found, htries⟩ := hs
  obtain ⟨pc', found', hsame | ⟨reply, goes⟩⟩ := inFlight_step found flight h
  · exact ⟨pc', found', hsame ▸ htries⟩
  · refine ⟨pc', found', fun reason hpc => ?_⟩
    cases goes with
    | retrying _ _ _ tries => exact tries
    | _ => cases hpc

theorem excepting_step {job : Job} {pid : Nat} {s t : State} {a : Action}
    (hs : job.Attempted settings pid s) (flight : inFlight job.sandboxId pid s a t = true)
    (h : step settings s a = some t) :
    Excepting pid t ↔ Excepting pid s ∨ launchFails pid s a t = true := by
  obtain ⟨pc, found, -⟩ := hs
  obtain ⟨pc', found', hgoes⟩ := inFlight_step found flight h
  rw [excepting_iff found, excepting_iff found']
  simp only [launchFails, found, found', Bool.and_eq_true]
  rcases hgoes with hsame | ⟨reply, goes⟩
  · subst hsame
    cases pc' <;> simp [StartPc.excepting, StartPc.launching]
  · cases goes with
    | launchFailed _ _ e launching => simp [StartPc.excepting, launching]
    | _ => simp [StartPc.excepting, StartPc.launching]

/-! ## How it ends -/

theorem World.settled_of_row {sid : Uuid} {r : Sandbox} (hrow : w.row sid = some r) :
    w.Settled sid ↔ r.status ∉ startable := by
  simp [World.Settled, World.status, hrow]

theorem StartSandbox.visible_of_ends {counted : Option JobOutcome} {outcome : End}
    (hrow : (w.row d.sandboxId).isSome) (lives : ∀ e r, how ≠ .killed e r)
    (ends : d.Ends d.pc (w.reply .startSandbox how choice d.request) counted outcome) :
    ((outcome = .retry ∨ (w.after .startSandbox how choice d.request).Settled d.sandboxId) ∧
      (d.pc.excepting = true ∨ (∃ e, outcome = .raised e) →
        counted = some .retry ∨ counted = some .failed)) ↔
    (how = .ok ∨ d.pc.handles = true) ∧ ¬d.Overtaken w := by
  obtain ⟨r, hr⟩ := Option.isSome_iff_exists.mp hrow
  have hstatus : w.status d.sandboxId = some r.status := by rw [World.status, hr]; rfl
  generalize hq : w.reply _ how choice _ = reply at ends
  obtain ⟨sid, i, pool, pc⟩ := d
  have hset := fun from_ v => World.transition_of_row .startSandbox from_ v hr
  cases ends with
  | missing =>
    obtain rfl := World.ok_of_reply lives hq (by simp)
    have hnone : w.row sid = none := by simpa [request, World.reply, World.perform] using hq
    cases hr.symm.trans hnone
  | settled r' st =>
    obtain rfl := World.ok_of_reply lives hq (by simp)
    have hsame : w.row sid = some r' := by simpa [request, World.reply, World.perform] using hq
    refine iff_of_true ⟨.inr ?_, by simp [StartPc.excepting]⟩ ⟨.inl rfl, by simp [Overtaken]⟩
    exact (World.settled_of_row hsame).mpr st
  | expired b =>
    obtain rfl := World.ok_of_reply lives hq (by simp)
    refine iff_of_true ⟨.inr ?_, by simp [StartPc.excepting]⟩ ⟨.inl rfl, by simp [Overtaken]⟩
    refine (World.settled_of_row (hset startable _).2).mpr ?_
    split
    · simp [startable]
    · assumption
  | overtaken r' =>
    obtain rfl := World.ok_of_reply lives hq (by simp)
    refine iff_of_true ⟨.inr ?_, by simp [StartPc.excepting]⟩ ⟨.inl rfl, by simp [Overtaken]⟩
    have hnot : r.status ∉ startable := by
      simpa using (hset startable _).1.symm.trans hq
    refine (World.settled_of_row (hset startable _).2).mpr ?_
    rw [if_neg hnot]
    exact hnot
  | retried reason =>
    obtain rfl := World.ok_of_reply lives hq (by simp)
    have hst : r.status = .starting := by
      simpa using (hset [.starting] _).1.symm.trans hq
    refine iff_of_true ⟨.inl rfl, fun _ => .inl rfl⟩ ⟨.inl rfl, ?_⟩
    simp [Overtaken, hstatus, hst]
  | cancelled reason =>
    obtain rfl := World.ok_of_reply lives hq (by simp)
    have hst : r.status ≠ .starting := by
      simpa using (hset [.starting] _).1.symm.trans hq
    refine iff_of_false (fun h => ?_) (fun h => h.2 ?_)
    · simpa using h.2 (.inl rfl)
    · simp [Overtaken, hstatus, hst]
  | failed reason b =>
    obtain rfl := World.ok_of_reply lives hq (by simp)
    have hsettled := World.settled_of_row (hset [.starting]
      { status := .failed, error := some (some reason) }).2
    constructor
    · rintro ⟨hretry | h, -⟩
      · cases hretry
      · refine ⟨.inl rfl, fun hqueued => ?_⟩
        have hst : r.status = .queued := by simpa [Overtaken, hstatus] using hqueued
        exact hsettled.mp h (by simp [hst, startable])
    · rintro ⟨-, hnot⟩
      refine ⟨.inr (hsettled.mpr ?_), fun _ => .inr rfl⟩
      have hst : r.status ≠ .queued := by simpa [Overtaken, hstatus] using hnot
      split
      · simp [startable]
      · simp_all [startable]
  | running r' url =>
    obtain rfl := World.ok_of_reply lives hq (by simp)
    have hst : r.status = .starting := by
      simpa using (hset [.starting] _).1.symm.trans hq
    refine iff_of_true ⟨.inr ?_, by simp [StartPc.excepting]⟩ ⟨.inl rfl, by simp [Overtaken]⟩
    refine (World.settled_of_row (hset [.starting] _).2).mpr ?_
    simp [hst, startable]
  | discarded reply discarded =>
    have hkept : (w.after .startSandbox how choice (.remove sid)).Settled sid ↔ w.Settled sid := by
      unfold World.Settled
      rw [World.status_after (fun _ => rfl) (by simp)]
    simp [StartPc.excepting, StartPc.handles, Overtaken, request, hkept]
  | raised pc e other =>
    refine iff_of_false (fun h => ?_) (fun h => ?_)
    · simpa using h.2 (.inr ⟨e, rfl⟩)
    · obtain rfl : how = .ok := h.1.resolve_right (by simp [other])
      exact World.perform_ne_raised _ _ _ _ _ hq

/-! ## A whole delivery -/

/-- A delivery of a start job on a row that exists, from its first call to its end, with any
handlers beside it and nothing that kills it: its job runs again or its row is settled, and
a failed attempt is counted, if and only if its last call is not a database call that
raises, and no other handler has moved the row under it. -/
theorem start_attempt_visible_iff (settings : Settings) (sid : Uuid) (i : Nat) (pool : Deployment)
    (pid : Nat) (s₀ s t : State) (bs : List Action) (how : How) (choice : Choice) (d : StartSandbox)
    (begins : s₀.proc pid = some (.start (.start sid i pool))) (row : (s₀.world.row sid).isSome)
    (hrun : run settings s₀ bs = some s)
    (flight : Along settings (fun u a v => inFlight sid pid u a v = true) s₀ bs)
    (found : s.proc pid = some (.start d)) (lives : ∀ e r, how ≠ .killed e r)
    (last : step settings s (.await pid how choice) = some t) (ended : t.proc pid = none) :
    ((Job.RunsAgain settings ⟨.startSandbox, sid, pool, i⟩ t ∨ t.world.Settled sid) ∧
      (0 < tally (step settings) (launchFails pid) s₀ (bs ++ [.await pid how choice]) ∨
          Job.Raised ⟨.startSandbox, sid, pool, i⟩ t →
        0 < tally (step settings) (ownReport pid .retry) s₀ (bs ++ [.await pid how choice]) ∨
          0 < tally (step settings) (ownReport pid .failed) s₀ (bs ++ [.await pid how choice]))) ↔
    (how = .ok ∨ d.pc.handles = true) ∧ ¬d.Overtaken s.world := by
  let job : Job := ⟨.startSandbox, sid, pool, i⟩
  have hkept : ∀ (u : State) a v, job.Attempted settings pid u → inFlight sid pid u a v = true →
      step settings u a = some v → job.Attempted settings pid v :=
    fun u a v hu hP h => attempted_step hu hP h
  have hbegins : job.Attempted settings pid s₀ := ⟨.get, begins, by simp⟩
  obtain ⟨pc, found', htries⟩ := LabelledRuns.invariant hkept hbegins flight hrun
  cases found.symm.trans found'
  have hrow : (s.world.row sid).isSome := by
    obtain ⟨r, hr⟩ := Option.isSome_iff_exists.mp row
    obtain ⟨r', hr', -⟩ := run_forward hrun _ r hr
    rw [hr']
    rfl
  obtain ⟨counted, outcome, ends, hlog, hreport, hqueue⟩ := ended_step found lives ended last
  have hlaunch : 0 < tally (step settings) (launchFails pid) s₀ (bs ++ [.await pid how choice]) ↔
      pc.excepting = true := by
    have hnone : launchFails pid s (.await pid how choice) t = false := by
      simp [launchFails, found, ended]
    have hbefore : ¬Excepting pid s₀ := by
      rw [excepting_iff begins]
      simp [StartSandbox.start, StartPc.excepting]
    rw [LabelledRuns.tally_snoc hrun last, hnone, if_neg (by simp), Nat.add_zero,
      ← excepting_iff found, LabelledRuns.tally_pos_iff (p := launchFails pid) hkept
        (fun u a v hu hP h => excepting_step hu hP h) hbegins flight hrun]
    exact (or_iff_right hbefore).symm
  have hcounted : ∀ o, 0 < tally (step settings) (ownReport pid o) s₀
      (bs ++ [.await pid how choice]) ↔ counted = some o := by
    intro o
    have hsilent : Along settings (fun u a v => ownReport pid o u a v = false) s₀ bs := by
      refine LabelledRuns.along_of_invariant hkept (fun u a v hu hP h => ?_) hbegins flight
      obtain ⟨pc', hpc', -⟩ := hu
      exact (silent_step hpc' hP h o).1
    rw [LabelledRuns.tally_snoc hrun last, hreport, LabelledRuns.tally_eq_zero hsilent]
    by_cases hc : counted = some o <;> simp [hc]
  have hagain : job.RunsAgain settings t ↔ outcome = .retry := by
    constructor
    · intro h
      simpa [hlog, job] using h.1
    · rintro rfl
      refine ⟨hlog, hqueue rfl, ?_⟩
      generalize s.world.reply _ how choice _ = reply at ends
      cases ends with
      | retried reason => exact htries reason rfl
  have hraised : job.Raised t ↔ ∃ e, outcome = .raised e := by
    simp [Job.Raised, hlog, job]
  have hsettled : t.world.Settled sid ↔ (s.world.after .startSandbox how choice
      (StartSandbox.request ⟨sid, i, pool, pc⟩)).Settled sid := by
    unfold World.Settled World.status
    rw [((stepped last).called found).1 sid]
    rfl
  rw [hagain, hraised, hsettled, hlaunch, hcounted, hcounted]
  exact StartSandbox.visible_of_ends hrow lives ends

/-- The launch of the first of two tries fails, and the delivery requeues its job. -/
theorem start_attempt_retried : ∃ s₀ t,
    run ⟨2, 4, "localhost"⟩ (State.init 0 KeyedTable.empty 0)
        (posted 0 1 ++ [.ok 0, .deliver 1 ⟨.startSandbox, 1, .stable, 1⟩]) = some s₀ ∧
      run ⟨2, 4, "localhost"⟩ s₀ ([.ok 1, .ok 1, .ok 1, .fails 1, .ok 1] ++ [.ok 1]) = some t ∧
      (Job.RunsAgain ⟨2, 4, "localhost"⟩ ⟨.startSandbox, 1, .stable, 1⟩ t ∨
        t.world.Settled 1) := by
  have hrun : (run ⟨2, 4, "localhost"⟩ (State.init 0 KeyedTable.empty 0)
      (posted 0 1 ++ [.ok 0, .deliver 1 ⟨.startSandbox, 1, .stable, 1⟩])).any (fun s₀ =>
        decide (s₀.proc 1 = some (.start (.start 1 1 .stable))) &&
        (s₀.world.row 1).isSome &&
        LabelledRuns.check (step ⟨2, 4, "localhost"⟩) (fun u a v => inFlight 1 1 u a v = true) s₀
          [.ok 1, .ok 1, .ok 1, .fails 1, .ok 1] &&
        (run ⟨2, 4, "localhost"⟩ s₀ [.ok 1, .ok 1, .ok 1, .fails 1, .ok 1]).any fun s =>
          decide (s.proc 1 = some (.start ⟨1, 1, .stable, .retry "ConnectionError: "⟩)) &&
          decide (s.world.status 1 = some .starting) &&
          (step ⟨2, 4, "localhost"⟩ s (.ok 1)).any fun t => (t.proc 1).isNone) = true := by decide
  obtain ⟨s₀, hs₀, hp⟩ := LabelledRuns.exists_run hrun
  simp only [Bool.and_eq_true] at hp
  obtain ⟨⟨⟨hbegins, hrow⟩, hflight⟩, hend⟩ := hp
  obtain ⟨s, hs, hend⟩ := LabelledRuns.exists_run hend
  simp only [Bool.and_eq_true, decide_eq_true_eq] at hend
  obtain ⟨⟨hd, hstarting⟩, hend⟩ := hend
  obtain ⟨t, ht, hended⟩ := (Option.any_eq_true _ _).mp hend
  refine ⟨s₀, t, hs₀, LabelledRuns.run_snoc hs ht, ?_⟩
  exact ((start_attempt_visible_iff _ 1 1 .stable 1 s₀ s t _ .ok {} _ (of_decide_eq_true hbegins) hrow
    hs (LabelledRuns.along_of_check hflight) hd (by simp) ht
    (Option.isNone_iff_eq_none.mp hended)).mpr
      ⟨.inl rfl, not_not_intro hstarting⟩).1

/-- The launch fails, its container is discarded, and the write back to `queued` raises: the
delivery ends with the row `starting`, no job anywhere, and nothing counted. -/
theorem start_attempt_silent : ∃ s₀ t,
    run ⟨2, 4, "localhost"⟩ (State.init 0 KeyedTable.empty 0)
        (posted 0 1 ++ [.ok 0, .deliver 1 ⟨.startSandbox, 1, .stable, 1⟩]) = some s₀ ∧
      run ⟨2, 4, "localhost"⟩ s₀ [.ok 1, .ok 1, .ok 1, .fails 1, .ok 1, .fails 1] = some t ∧
      0 < tally (step ⟨2, 4, "localhost"⟩) (launchFails 1) s₀
        [.ok 1, .ok 1, .ok 1, .fails 1, .ok 1, .fails 1] ∧
      t.procs.rows = [] ∧ t.world.queue = [] ∧ t.world.status 1 = some .starting ∧
      t.world.log.head? = some (.worked .startSandbox 1 (.raised ⟨"ConnectionError", ""⟩)) ∧
      ∀ o, t.world.log.countP (isJob o 1) = 0 := by
  have hrun : (run ⟨2, 4, "localhost"⟩ (State.init 0 KeyedTable.empty 0)
      (posted 0 1 ++ [.ok 0, .deliver 1 ⟨.startSandbox, 1, .stable, 1⟩])).any (fun s₀ =>
        decide (0 < tally (step ⟨2, 4, "localhost"⟩) (launchFails 1) s₀
          [.ok 1, .ok 1, .ok 1, .fails 1, .ok 1, .fails 1]) &&
        (run ⟨2, 4, "localhost"⟩ s₀ [.ok 1, .ok 1, .ok 1, .fails 1, .ok 1, .fails 1]).any fun t =>
          decide (t.procs.rows = []) && decide (t.world.queue = []) &&
          decide (t.world.status 1 = some .starting) &&
          decide (t.world.log.head? =
            some (.worked .startSandbox 1 (.raised ⟨"ConnectionError", ""⟩))) &&
          [.success, .retry, .failed, .expired].all fun o =>
            decide (t.world.log.countP (isJob o 1) = 0)) = true := by decide
  obtain ⟨s₀, hs₀, hp⟩ := LabelledRuns.exists_run hrun
  simp only [Bool.and_eq_true, decide_eq_true_eq] at hp
  obtain ⟨hfails, hend⟩ := hp
  obtain ⟨t, ht, hend⟩ := LabelledRuns.exists_run hend
  simp only [Bool.and_eq_true, decide_eq_true_eq] at hend
  obtain ⟨⟨⟨⟨hprocs, hqueue⟩, hstatus⟩, hlog⟩, hcounts⟩ := hend
  refine ⟨s₀, t, hs₀, ht, hfails, hprocs, hqueue, hstatus, hlog, fun o => ?_⟩
  refine of_decide_eq_true (List.all_eq_true.mp hcounts o ?_)
  cases o <;> simp

end SandboxOrchestrator
