import SandboxOrchestrator.NoResurrection
import SandboxOrchestrator.Provenance

/-!
# A stop, once answered, is durable

A DELETE answers from three views of the row. Whichever it answers from, the row is past
`running` by then, and from there no delivery that begins finds it startable.
-/

namespace SandboxOrchestrator

set_option autoImplicit false

/-- The answers of a DELETE that promise the stop: 202 and 503. -/
def Response.promisesStop : Response → Bool
  | .sandbox _ => true
  | .unavailable => true
  | _ => false

/-- What such an answer says about the row, and what holds of it. -/
def Response.Keeps (resp : Response) (w : World) (sid : Uuid) : Prop :=
  (∀ r, resp = .sandbox r → r.status ∈ noContainerWanted) ∧ w.Reached sid 2

/-- The row a DELETE read on its way to the enqueue, which it will answer with. -/
def DeletePc.carried : DeletePc → Option Sandbox
  | .pick r => some r
  | .enqueue r _ => some r
  | _ => none

structure StopsKept (s : State) : Prop where
  carried : ∀ pid d r, s.proc pid = some (.delete d) → d.pc.carried = some r → r.status = .stopping
  answered : ∀ sid resp, .deleted sid (.answered resp) ∈ s.world.log → resp.promisesStop = true →
    resp.Keeps s.world sid

theorem stopsKept_init (now : Time) (containers : Containers) (nextObject : Nat) :
    StopsKept (State.init now containers nextObject) where
  carried _ _ _ h := by cases h
  answered _ _ h := by cases h

theorem DeleteSandbox.carried_goes {d : DeleteSandbox} {reply : Reply} {pc : DeletePc}
    (hd : ∀ r, d.pc.carried = some r → r.status = .stopping) (h : d.Goes d.pc reply pc) :
    ∀ r, pc.carried = some r → r.status = .stopping := by
  intro r hr
  generalize hpc : d.pc = pc₀ at h
  rw [hpc] at hd
  cases h with
  | active _ _ => cases hr
  | marked _ => cases hr
  | stopping r' st =>
    cases hr
    exact st
  | picked r' _ dep _ => exact hd r hr

theorem DeleteSandbox.keeps_of_ends {d : DeleteSandbox} {w : World} {how : How} {choice : Choice}
    {resp : Response} (known : d.Known w)
    (hd : ∀ r, d.pc.carried = some r → r.status = .stopping) (lives : ∀ e r, how ≠ .killed e r)
    (h : d.Ends d.pc (w.reply .deleteSandbox how choice d.request) (.answered resp))
    (hresp : resp.promisesStop = true) : resp.Keeps w d.sandboxId := by
  generalize hq : w.reply _ how choice _ = reply at h
  obtain ⟨sid, pc₀⟩ := d
  have hread : ∀ r, (DeleteSandbox.mk sid pc₀).request = .get sid → reply = .row (some r) →
      w.row sid = some r := by
    rintro r hget rfl
    rw [hget] at hq
    obtain ⟨-, hreply⟩ := World.after_of_reply lives hq (by simp)
    simpa [World.perform] using hreply
  cases h with
  | unknown => cases hresp
  | settled r st =>
    have hrow := hread r rfl rfl
    rw [mem_activeStatuses] at st
    have hrank : 2 ≤ r.status.rank := by omega
    refine ⟨fun r' hr' => ?_, r, hrow, hrank⟩
    cases hr'
    exact (mem_noContainerWanted _).mpr hrank
  | settledMeanwhile r st =>
    have hrow := hread r rfl rfl
    refine ⟨fun r' hr' => ?_, known⟩
    cases hr'
    exact (mem_noContainerWanted _).mpr (World.Reached.of_row known hrow)
  | enqueued r dep b =>
    refine ⟨fun r' hr' => ?_, known⟩
    cases hr'
    rw [hd r rfl]
    decide
  | unavailable r dep e =>
    exact ⟨fun r' hr' => (by cases hr'), known⟩

theorem Response.Keeps.forward {resp : Response} {w w' : World} {sid : Uuid} (h : resp.Keeps w sid)
    (hf : RowsForward w w') : resp.Keeps w' sid :=
  ⟨h.1, h.2.forward hf⟩

theorem stopsKept_step {settings : Settings} {s t : State} {a : Action} (hp : Provenance s)
    (hs : StopsKept s) (h : step settings s a = some t) : StopsKept t := by
  have hst := stepped h
  refine ⟨fun pid d r hd hr => ?_, fun sid resp hlog hresp => ?_⟩
  · cases hst.came hd with
    | stayed found => exact hs.carried pid d r found hr
    | spawned world drawn spawn =>
      rw [spawn.of_delete.2] at hr
      cases hr
    | resumed how choice old events isAwait found lives goes =>
      generalize hreply : s.world.reply _ how choice _ = reply at goes
      cases goes with
      | delete d₀ reply pc goes =>
        exact DeleteSandbox.carried_goes (fun r₀ => hs.carried pid d₀ r₀ found) goes r hr
  · rcases hst.mem_log_of_end rfl hlog with
      hold | ⟨pid, how, choice, proc, outcome, rfl, found, lives, -, ends, he⟩
    · exact (hs.answered sid resp hold hresp).forward hst.forward
    · have hknown := hp.procs pid proc found
      cases ends with
      | delete d reply outcome ends =>
        cases he
        have hkeeps := DeleteSandbox.keeps_of_ends hknown
          (fun r => hs.carried pid d r found) lives ends hresp
        exact hkeeps.forward hst.forward
      | _ => cases he

/-! ## Deliveries that begin later -/

/-- The step starts a delivery of the sandbox as handler `pid`. -/
def Begins (sid : Uuid) (pid : Nat) (s t : State) : Prop :=
  s.proc pid = none ∧ ∃ d, t.proc pid = some (.start d) ∧ d.sandboxId = sid

/-- No delivery of the sandbox that runs as `pid` is launching. -/
def NotLaunching (sid : Uuid) (pid : Nat) (s : State) : Prop :=
  ∀ d, s.proc pid = some (.start d) → d.sandboxId = sid → d.pc.launching = false

/-- The row is past `running`, and the deliveries that ran as `pid` since then are still
at their first call. -/
structure Barred (sid : Uuid) (pid : Nat) (s : State) : Prop where
  reached : s.world.Reached sid 2
  early : ∀ d, s.proc pid = some (.start d) → d.sandboxId = sid → d.pc = .get

theorem Barred.notLaunching {sid : Uuid} {pid : Nat} {s : State} (h : Barred sid pid s) :
    NotLaunching sid pid s := by
  intro d hd hid
  rw [h.early d hd hid]
  rfl

theorem barred_step {settings : Settings} {sid : Uuid} {pid : Nat} {s t : State} {a : Action}
    (hs : Barred sid pid s) (h : step settings s a = some t) : Barred sid pid t := by
  have hst := stepped h
  refine ⟨hs.reached.forward hst.forward, fun d hd hid => ?_⟩
  cases hst.came hd with
  | stayed found => exact hs.early d found hid
  | spawned world drawn spawn =>
    obtain ⟨job, -, -, rfl⟩ := spawn.of_start
    rfl
  | resumed how choice old events isAwait found lives goes =>
    exfalso
    generalize hreply : s.world.reply _ how choice _ = reply at goes
    cases goes with
    | start d₀ reply pc goes =>
      obtain rfl : d₀.sandboxId = sid := hid
      have hpc := hs.early d₀ found rfl
      have hget : d₀.request = .get d₀.sandboxId := by simp [StartSandbox.request, hpc]
      rw [Proc.request, hget] at hreply
      rw [hpc] at goes
      cases goes with
      | startable r st =>
        obtain ⟨-, hrow⟩ := World.after_of_reply lives hreply (by simp)
        have hrow : s.world.row d₀.sandboxId = some r := by simpa [World.perform] using hrow
        have hrank := hs.reached.of_row hrow
        rw [mem_startable] at st
        omega
      | launchFailed _ _ _ launching => cases launching

theorem Begins.barred {settings : Settings} {sid : Uuid} {pid : Nat} {s t : State} {a : Action}
    (hb : Begins sid pid s t) (hreached : s.world.Reached sid 2) (h : step settings s a = some t) :
    Barred sid pid t := by
  have hst := stepped h
  obtain ⟨hnone, -⟩ := hb
  refine ⟨hreached.forward hst.forward, fun d hd _ => ?_⟩
  cases hst.came hd with
  | stayed found => cases hnone.symm.trans found
  | spawned world drawn spawn =>
    obtain ⟨job, -, -, rfl⟩ := spawn.of_start
    rfl
  | resumed how choice old events isAwait found => cases hnone.symm.trans found

/-! ## Every run -/

theorem stopsKept_run {settings : Settings} {now : Time} {containers : Containers} {nextObject : Nat}
    {s : State} {as : List Action}
    (h : run settings (State.init now containers nextObject) as = some s) : StopsKept s :=
  (LabelledRuns.always (I := fun u => Provenance u ∧ StopsKept u)
    (fun _ _ _ hu hstep => ⟨provenance_step hu.1 hstep, stopsKept_step hu.1 hu.2 hstep⟩)
    ⟨provenance_init .., stopsKept_init ..⟩ h).2

/-- Once a DELETE has answered 202 or 503, whatever overlaps, fails or is killed: the
status it returned is one in which no container is wanted, the row is in such a status in
every later state and never enters `running`, and no delivery that begins later launches. -/
theorem stop_is_durable (settings : Settings) (now : Time) (containers : Containers)
    (nextObject : Nat) (as bs : List Action) (s t : State)
    (hs : run settings (State.init now containers nextObject) as = some s)
    (ht : run settings s bs = some t) (sid : Uuid) (resp : Response)
    (promise : resp.promisesStop = true) (answered : .deleted sid (.answered resp) ∈ s.world.log) :
    (∀ r, resp = .sandbox r → r.status ∈ noContainerWanted) ∧
      (∃ st ∈ noContainerWanted, t.world.status sid = some st) ∧
      Along settings (fun u a v => entersRunning sid u a v = false) s bs ∧
      ∀ cs a ds m m', bs = cs ++ a :: ds → run settings s cs = some m →
        step settings m a = some m' → ∀ pid, Begins sid pid m m' →
          Along settings (fun _ _ v => NotLaunching sid pid v) m' ds := by
  obtain ⟨hshown, hreached⟩ := (stopsKept_run hs).answered sid resp answered promise
  refine ⟨hshown, ?_, ?_, ?_⟩
  · obtain ⟨r, hr, hrank⟩ := hreached.forward (run_forward ht)
    exact ⟨r.status, (mem_noContainerWanted _).mpr hrank, World.status_eq_some.mpr ⟨r, hr, rfl⟩⟩
  · refine LabelledRuns.along_of_invariant (I := fun u => u.world.Reached sid 2)
      (P := fun _ _ _ => True) ?_ ?_ hreached (LabelledRuns.Along.of_forall (fun _ _ _ _ => trivial) _ _)
    · exact fun u a v hu _ h => World.Reached.forward hu (stepped h).forward
    · exact fun u a v hu _ h => not_entersRunning_of_reached h (hu.mono (by decide))
  · intro cs a ds m m' _ hm ha pid hbegins
    have hbarred := hbegins.barred (hreached.forward (run_forward hm)) ha
    refine LabelledRuns.along_of_invariant (I := Barred sid pid)
      (P := fun _ _ _ => True) ?_ ?_ hbarred (LabelledRuns.Along.of_forall (fun _ _ _ _ => trivial) _ _)
    · exact fun u b v hu _ h => barred_step hu h
    · exact fun u b v hu _ h => (barred_step hu h).notLaunching

/-- A client stops its queued sandbox while the start job waits; the job is delivered
afterwards. -/
theorem stop_is_durable_queued : ∃ s t,
    run ⟨3, 4, "localhost"⟩ (State.init 0 KeyedTable.empty 0)
        (posted 0 1 ++ [.ok 0, .delete 1 1, .ok 1, .ok 1, .ok 1, .fails 1, .ok 1]) = some s ∧
      run ⟨3, 4, "localhost"⟩ s [.deliver 2 ⟨.startSandbox, 1, .stable, 1⟩, .ok 2] = some t ∧
      ∃ st ∈ noContainerWanted, t.world.status 1 = some st := by
  have hrun : (run ⟨3, 4, "localhost"⟩ (State.init 0 KeyedTable.empty 0)
      (posted 0 1 ++ [.ok 0, .delete 1 1, .ok 1, .ok 1, .ok 1, .fails 1, .ok 1])).any
      (fun s => (s.world.log.any fun e =>
          match e with
          | .deleted sid (.answered (.sandbox _)) => decide (sid = 1)
          | _ => false) &&
        (run ⟨3, 4, "localhost"⟩ s [.deliver 2 ⟨.startSandbox, 1, .stable, 1⟩, .ok 2]).isSome) =
          true := by decide
  obtain ⟨s, hs, hp⟩ := LabelledRuns.exists_run hrun
  obtain ⟨hlog, ht⟩ := Bool.and_eq_true_iff.mp hp
  obtain ⟨e, he, hm⟩ := List.any_eq_true.mp hlog
  obtain ⟨t, ht⟩ := Option.isSome_iff_exists.mp ht
  refine ⟨s, t, hs, ht, ?_⟩
  split at hm
  · obtain rfl := of_decide_eq_true hm
    exact (stop_is_durable _ 0 _ 0 _ _ s t hs ht 1 _ rfl he).2.1
  · cases hm

end SandboxOrchestrator
