import SandboxOrchestrator.EndlessRuns

/-!
# What is accepted is decided, and settled

Where workers take their jobs and calls resolve, a sandbox whose job is not lost leaves
`queued` and `starting` for good. Where sweeps succeed again and again it is then settled,
and the cap gets its place back.
-/

namespace SandboxOrchestrator

set_option autoImplicit false

/-! ## Every endless run -/

section

variable {settings : Settings} {now : Time} {containers : Containers} {nextObject : Nat} {sid : Uuid}
  {x : EndlessRun settings}

structure StartKeeps (sid : Uuid) (s : State) : Prop where
  grounded : Grounded s
  ids : FreshIds s
  keys : KeysPlaced s
  attended : AttendedRow sid s

theorem startKeeps_step {s t : State} {a : Action} (hs : StartKeeps sid s) (hf : Fresh s a t)
    (hn : NotLost settings sid s a t) (h : step settings s a = some t) : StartKeeps sid t where
  grounded := grounded_step hs.grounded h
  ids := freshIds_step hs.grounded.provenance hs.ids hf h
  keys := keysPlaced_step hs.keys h
  attended := attendedRow_step hs.grounded.provenance hs.grounded.posting hs.keys hs.attended hn h

theorem StartKept.keeps (hx : StartKept sid x)
    (hinit : x.state 0 = State.init now containers nextObject) (n : Nat) :
    StartKeeps sid (x.state n) := by
  refine x.invariant (P := fun s a t => Fresh s a t ∧ NotLost settings sid s a t)
    (fun _ _ _ hs hP h => startKeeps_step hs hP.1 hP.2 h) ?_
    (fun m _ => ⟨hx.fresh m, hx.kept m⟩) (Nat.zero_le n)
  rw [hinit]
  exact ⟨grounded_init .., freshIds_init .., fun _ h => (by cases h), fun _ h => by cases h⟩

theorem StartKept.workless (hx : StartKept sid x)
    (hinit : x.state 0 = State.init now containers nextObject) (hcalls : CallsResolve x)
    (hjobs : JobsTaken x) {n : Nat} {r : Sandbox} (hr : (x.state n).world.row sid = some r) :
    ∃ m, n ≤ m ∧ ∀ k, m ≤ k → (x.state k).Workless settings sid := by
  obtain ⟨n₀, honce⟩ := hx.once
  have hdrawn : ∀ m, n ≤ m → sid ∈ (x.state m).drawn := by
    intro m hm
    exact x.invariant (I := fun s => sid ∈ s.drawn) (P := fun _ _ _ => True)
      (fun _ _ _ hs _ h => (stepped h).drawn_mono hs) ((hx.keeps hinit n).ids.row sid r hr)
      (fun _ _ => trivial) hm
  have hstep : ∀ m, max n n₀ ≤ m → (x.state (m + 1)).work settings sid ≤ (x.state m).work settings sid ∧
      ∀ i, (x.state m).Owes sid i → (x.action m).Serves i →
        (x.state (m + 1)).work settings sid < (x.state m).work settings sid := by
    intro m hm
    exact work_step (hx.keeps hinit m).grounded.provenance
      (hdrawn m (Nat.le_trans (Nat.le_max_left n n₀) hm)) (hx.fresh m)
      (honce m (Nat.le_trans (Nat.le_max_right n n₀) hm)) (stepped (x.steps m))
  have hfair : x.Fair (State.Owes sid) Action.Serves := by
    rintro m (job | pid) howes
    · exact hjobs m job fun k hk => (howes k hk).2
    · refine hcalls m pid fun k hk => ?_
      obtain ⟨proc, found, -⟩ := howes k hk
      exact found ▸ rfl
  have hlive : ∀ m, max n n₀ ≤ m → ¬(x.state m).Workless settings sid →
      ∃ i, (x.state m).Owes sid i := by
    intro m _ hwork
    by_contra hnone
    exact hwork (State.workless_iff.mpr fun i howes => hnone ⟨i, howes⟩)
  have hdesc : ∀ m, max n n₀ ≤ m → ¬(x.state m).Workless settings sid →
      LabelledRuns.InfiniteRun.Descends (State.Workless settings sid) (State.Owes sid) Action.Serves
        (State.work settings sid) (x.state m) (x.action m) (x.state (m + 1)) :=
    fun m hm _ =>
      { keeps := fun i howes hnot => .inr (owes_kept (stepped (x.steps m)) howes hnot)
        falls := fun i howes hserves => .inr ((hstep m hm).2 i howes hserves)
        le := .inr (hstep m hm).1 }
  obtain ⟨m, hm, hzero⟩ := hfair.eventually x hlive hdesc
  refine ⟨m, Nat.le_trans (Nat.le_max_left n n₀) hm, fun k hk => ?_⟩
  induction k, hk using Nat.le_induction with
  | base => exact hzero
  | succ k hk ih =>
    exact Nat.eq_zero_of_le_zero (Nat.le_trans (hstep k (Nat.le_trans hm hk)).1 (Nat.le_of_eq ih))

theorem rows_forward (x : EndlessRun settings) {n k : Nat} (h : n ≤ k) :
    RowsForward (x.state n).world (x.state k).world ∧ (x.state n).world.now ≤ (x.state k).world.now := by
  refine x.invariant (I := fun s => RowsForward (x.state n).world s.world ∧
      (x.state n).world.now ≤ s.world.now) (P := fun _ _ _ => True)
    (fun _ _ _ hs _ h => ⟨hs.1.trans (stepped h).forward, Int.le_trans hs.2 (stepped h).now_le⟩)
    ⟨.refl _, Int.le_refl _⟩ (fun _ _ => trivial) h

theorem StartKept.decided (hx : StartKept sid x)
    (hinit : x.state 0 = State.init now containers nextObject) (hcalls : CallsResolve x)
    (hjobs : JobsTaken x) {n : Nat} {r : Sandbox} (hr : (x.state n).world.row sid = some r) :
    ∃ m, n ≤ m ∧ ∀ k, m ≤ k → (x.state k).Workless settings sid ∧ (x.state k).world.Reached sid 1 := by
  obtain ⟨m, hm, hzero⟩ := hx.workless hinit hcalls hjobs hr
  refine ⟨m, hm, fun k hk => ⟨hzero k hk, ?_⟩⟩
  obtain ⟨r', hr', -⟩ := (rows_forward x (Nat.le_trans hm hk)).1 sid r hr
  refine ⟨r', hr', Nat.pos_of_ne_zero fun hrank => ?_⟩
  exact (hx.keeps hinit k).attended.owes hr' ((mem_startable r'.status).mpr hrank) (hzero k hk)

theorem newIds_of_fresh (hinit : x.state 0 = State.init now containers nextObject)
    (hfresh : x.Always Fresh) : x.Always (NewIds containers) := by
  intro n
  have hdrawn : ∀ sid, (containers.find? sid).isSome → sid ∈ (x.state n).drawn := by
    refine x.invariant (I := fun s => ∀ sid, (containers.find? sid).isSome → sid ∈ s.drawn)
      (P := fun _ _ _ => True) (fun _ _ _ hs _ h sid hsid => (stepped h).drawn_mono (hs sid hsid)) ?_
      (fun _ _ => trivial) (Nat.zero_le n)
    intro sid hsid
    rw [hinit]
    obtain ⟨c, hc⟩ := Option.isSome_iff_exists.mp hsid
    obtain ⟨hmem, rfl⟩ := containers.find?_eq_some_iff.mp hc
    exact List.mem_map_of_mem hmem
  have hn := hfresh n
  unfold Fresh at hn
  unfold NewIds
  cases hdraws : (x.action n).draws with
  | none => rfl
  | some sid =>
    rw [hdraws, Option.all_some, decide_eq_true_eq] at hn
    rw [Option.all_some, Option.isNone_iff_eq_none, ← Option.not_isSome_iff_eq_none]
    exact fun hsome => hn (hdrawn sid hsome)

end

/-- In every endless run in which workers take their jobs and calls resolve, however handlers
overlap, fail and are killed: a sandbox whose start job is not lost and from some point on not
delivered once more is in the end running, on its way down or settled, and no job, delivery or
POST is left that would start it. -/
theorem start_decided (settings : Settings) (now : Time) (containers : Containers) (nextObject : Nat)
    (x : EndlessRun settings) (hinit : x.state 0 = State.init now containers nextObject) (sid : Uuid)
    (hx : StartKept sid x) (hcalls : CallsResolve x) (hjobs : JobsTaken x) (n : Nat) (r : Sandbox)
    (hr : (x.state n).world.row sid = some r) :
    ∃ m, n ≤ m ∧ ∀ k, m ≤ k → (∀ i, ¬(x.state k).Owes sid i) ∧
      ∃ r', (x.state k).world.row sid = some r' ∧ r'.status ∉ startable := by
  obtain ⟨m, hm, hdecided⟩ := hx.decided hinit hcalls hjobs hr
  refine ⟨m, hm, fun k hk => ?_⟩
  obtain ⟨hzero, r', hr', hrank⟩ := hdecided k hk
  refine ⟨State.workless_iff.mp hzero, r', hr', fun hstart => ?_⟩
  rw [(mem_startable r'.status).mp hstart] at hrank
  omega

/-- A launch that fails, and its retry. -/
theorem start_decided_retried : ∃ (x : EndlessRun ⟨2, 4, "localhost"⟩) (n m : Nat), n ≤ m ∧
    ∀ k, m ≤ k → (∀ i, ¬(x.state k).Owes 1 i) ∧
      ∃ r, (x.state k).world.row 1 = some r ∧ r.status ∉ startable := by
  have hrun : (run ⟨2, 4, "localhost"⟩ (State.init 0 KeyedTable.empty 0) (posted 0 1 ++ failedOnce)).any
      (fun s => decide (s.procs.rows = []) && decide (s.world.queue = []) &&
        (s.world.row 1).isSome) = true := by decide
  obtain ⟨s, hs, hp⟩ := LabelledRuns.exists_run hrun
  simp only [Bool.and_eq_true, decide_eq_true_eq, Option.isSome_iff_exists] at hp
  obtain ⟨⟨hidle, hqueue⟩, r, hr⟩ := hp
  obtain ⟨x, hinit, hlast, hx, hcalls, hjobs, -⟩ := @exists_sweeping _ _ _ _ _ 1 _ hs
    (LabelledRuns.along_of_check (by decide)) (LabelledRuns.along_of_check (by decide)) hidle hqueue
  obtain ⟨m, hm, hdecided⟩ := start_decided _ _ _ _ x hinit 1 hx hcalls hjobs _ r (hlast ▸ hr)
  exact ⟨x, _, m, hm, hdecided⟩

/-! ## Sweeps -/

section

variable {settings : Settings} {x : EndlessRun settings}

/-- Such a sweep is over at some point, and its calls up to there succeed. -/
theorem SweepsSucceed.done (hsweeps : SweepsSucceed x) (hcalls : CallsResolve x) (n : Nat) :
    ∃ m pid k, n ≤ m ∧ (x.state m).proc pid = some (.sweep .start) ∧
      (x.state (m + k)).proc pid = none ∧
      ∀ j, m ≤ j → j < m + k → Succeeds pid (x.state j) (x.action j) (x.state (j + 1)) := by
  classical
  obtain ⟨m, pid, hm, hstart, hsucceeds⟩ := hsweeps n
  have hends : ∃ k, (x.state (m + k)).proc pid = none := by
    obtain ⟨k, hk, hnone⟩ := hcalls.ends m pid
    exact ⟨k - m, by rw [Nat.add_sub_cancel' hk]; exact hnone⟩
  refine ⟨m, pid, Nat.find hends, hm, hstart, Nat.find_spec hends, fun j hj hlt => ?_⟩
  refine hsucceeds j hj fun i hi hij hnone => ?_
  refine Nat.find_min hends (m := i - m) (by omega) ?_
  rw [Nat.add_sub_cancel' hi]
  exact hnone

end

/-- With sweeps that succeed again and again and a clock that goes on, such a sandbox is settled in
the end, its TTL over or not at first, its stop job lost or not, and again and again there is
a moment in which it has no container. -/
theorem sandboxes_settle (settings : Settings) (now : Time) (containers : Containers)
    (nextObject : Nat) (x : EndlessRun settings)
    (hinit : x.state 0 = State.init now containers nextObject) (sid : Uuid) (hx : StartKept sid x)
    (hcalls : CallsResolve x) (hjobs : JobsTaken x) (hclock : ClockGoesOn x)
    (hsweeps : SweepsSucceed x) (n : Nat) (r : Sandbox) (hr : (x.state n).world.row sid = some r) :
    (∃ m, n ≤ m ∧ ∀ k, m ≤ k →
        ∃ r', (x.state k).world.row sid = some r' ∧ r'.status ∉ activeStatuses) ∧
      ∀ m, ∃ k, m ≤ k ∧ (x.state k).world.container sid = none := by
  have hids := newIds_of_fresh hinit hx.fresh
  have hsweepable : ∀ k, Sweepable containers (x.state k) := fun k =>
    x.invariant (P := NewIds containers) (fun _ _ _ hs ha h => sweepable_step hs ha h)
      (hinit ▸ sweepable_init now containers nextObject) (fun m _ => hids m) (Nat.zero_le k)
  obtain ⟨m₁, hm₁, hdecided⟩ := hx.decided hinit hcalls hjobs hr
  obtain ⟨m₂, hpast⟩ := hclock (labelExpiry r.expiresAt)
  have hover : ∀ k, n ≤ k → m₂ ≤ k → (x.state k).world.Condemned containers sid := by
    intro k hn hk
    obtain ⟨r', hr', hfr⟩ := (rows_forward x hn).1 sid r hr
    refine .inl (.inr ⟨r', hr', ?_⟩)
    rw [hfr.expiresAt]
    exact Int.le_trans hpast (rows_forward x hk).2
  -- every sweep from then on settles the row and meets a moment without a container
  have hsweep : ∀ m, ∃ k first, m ≤ first ∧ m₁ ≤ k ∧ (x.state first).world.container sid = none ∧
      (x.state k).world.Reached sid 3 := by
    intro m
    obtain ⟨j, pid, k, hj, hstart, hdone, hsucceeds⟩ := hsweeps.done hcalls (max m (max m₁ m₂))
    have hrun := x.run_segment j k
    have halong : Along settings (fun u a v => NewIds containers u a v ∧ Succeeds pid u a v)
        (x.state j) (x.segment j k) :=
      x.along_segment.mpr fun i hi hlt => ⟨hids i, hsucceeds i hi hlt⟩
    have hcondemned := hover j (by omega) (by omega)
    obtain ⟨first, rest, u, hsplit, hu, hgone⟩ :=
      uncontained_of_sweep (hsweepable j) hstart hcondemned hrun halong hdone
    have hsettled := settled_of_sweep (hsweepable j) hstart hcondemned hrun halong hdone
      (hdecided j (by omega)).2
    cases (x.run_of_segment hsplit).symm.trans hu
    exact ⟨j + k, j + first.length, by omega, by omega, hgone, hsettled⟩
  constructor
  · obtain ⟨k, first, -, hk, -, hsettled⟩ := hsweep 0
    refine ⟨k, Nat.le_trans hm₁ hk, fun i hi => ?_⟩
    have hreached := hsettled.forward (rows_forward x hi).1
    obtain ⟨r', hr', -⟩ := id hreached
    exact ⟨r', hr', hreached.inactive hr'⟩
  · intro m
    obtain ⟨k, first, hm, -, hgone, -⟩ := hsweep m
    exact ⟨first, hm, hgone⟩

/-- A sandbox that is running, and nobody who would stop it. -/
theorem sandboxes_settle_running : ∃ (x : EndlessRun ⟨3, 4, "localhost"⟩) (n : Nat) (r : Sandbox),
    (x.state n).world.row 1 = some r ∧ r.status = .running ∧
      (∃ m, n ≤ m ∧ ∀ k, m ≤ k →
        ∃ r', (x.state k).world.row 1 = some r' ∧ r'.status ∉ activeStatuses) ∧
      ∀ m, ∃ k, m ≤ k ∧ (x.state k).world.container 1 = none := by
  have hrun : (run ⟨3, 4, "localhost"⟩ (State.init 0 KeyedTable.empty 0)
      (posted 0 1 ++ .ok 0 :: started 1 1)).any (fun s => decide (s.procs.rows = []) &&
        decide (s.world.queue = []) && (s.world.row 1).any fun r => decide (r.status = .running)) =
      true := by decide
  obtain ⟨s, hs, hp⟩ := LabelledRuns.exists_run hrun
  simp only [Bool.and_eq_true, decide_eq_true_eq, Option.any_eq_true] at hp
  obtain ⟨⟨hidle, hqueue⟩, r, hr, hrunning⟩ := hp
  obtain ⟨x, hinit, hlast, hx, hcalls, hjobs, hclock, hsweeps⟩ := @exists_sweeping _ _ _ _ _ 1 _ hs
    (LabelledRuns.along_of_check (by decide)) (LabelledRuns.along_of_check (by decide)) hidle hqueue
  have hrow := hlast ▸ hr
  obtain ⟨hsettled, hgone⟩ := sandboxes_settle _ _ _ _ x hinit 1 hx hcalls hjobs hclock hsweeps _ r hrow
  exact ⟨x, _, r, hrow, hrunning, hsettled, hgone⟩

end SandboxOrchestrator
