import SandboxOrchestrator.Lifecycle

/-!
# No resurrection

The rank of a row never goes down, whatever overlaps, fails or is killed. So a row
enters `running` at most once, and its start is reported as a success at most once.
-/

namespace SandboxOrchestrator

set_option autoImplicit false

open LabelledRuns (tally)

def entersRunning (sid : Uuid) (s : State) (_ : Action) (t : State) : Bool :=
  decide (s.world.status sid ≠ some .running) && decide (t.world.status sid = some .running)

def isSuccess (sid : Uuid) : Event → Bool
  | .jobs .startSandbox .success _ id => decide (id = sid)
  | _ => false

def isTimeToRunning (sid : Uuid) : Event → Bool
  | .timeToRunning _ id _ => decide (id = sid)
  | _ => false

/-- No row enters `running` from a rank that is not lower. -/
theorem not_entersRunning_of_reached {settings : Settings} {sid : Uuid} {s t : State} {a : Action}
    (h : step settings s a = some t) (hs : s.world.Reached sid 1) : entersRunning sid s a t = false := by
  obtain ⟨r, hr, hn⟩ := hs
  obtain ⟨r', hr', hf⟩ := (stepped h).forward sid r hr
  have hrank := hf.rank
  cases hst : r.status <;> cases hst' : r'.status <;>
    simp_all [entersRunning, World.status, SandboxStatus.rank]

theorem entersRunning_le_one (settings : Settings) (sid : Uuid) (s : State) (as : List Action) :
    tally (step settings) (entersRunning sid) s as ≤ 1 := by
  refine LabelledRuns.tally_le_one (p := entersRunning sid) (D := fun s => s.world.Reached sid 1) ?_ ?_
    (fun _ _ _ h hs => not_entersRunning_of_reached h hs) s as
  · intro s a t _ hp
    simp only [entersRunning, Bool.and_eq_true, decide_eq_true_eq] at hp
    obtain ⟨r, hr, hst⟩ := World.status_eq_some.mp hp.2
    exact ⟨r, hr, by simp [hst, SandboxStatus.rank]⟩
  · exact fun s a t h hs => World.Reached.forward hs (stepped h).forward

/-! ## Success is reported at most once -/

theorem StartSandbox.resume_events {settings : Settings} {now : Time} {d : StartSandbox}
    {reply : Reply} {events : List Event} {next : Next StartSandbox}
    (h : d.resume settings now reply = some (events, next)) :
    (∀ e ∈ events, ∃ outcome, outcome ≠ .success ∧
      e = .jobs .startSandbox outcome d.pool d.sandboxId) ∨
    ∃ sandbox url, d.pc = .succeed sandbox url ∧ reply = .changed true ∧
      events = [.jobs .startSandbox .success d.pool d.sandboxId,
        .timeToRunning d.pool d.sandboxId (now - sandbox.createdAt)] := by
  cases next with
  | goto d' =>
    obtain ⟨-, -, rfl, -⟩ := goes_of_resume h
    exact .inl (by simp)
  | done result =>
    obtain ⟨counted, hcounts, hends⟩ := ends_of_resume h
    obtain _ | outcome := counted
    · rw [hcounts]
      exact .inl (by simp)
    · by_cases hsuccess : outcome = .success
      · subst hsuccess
        right
        obtain ⟨sid, jobTry, pool, pc⟩ := d
        cases hends with
        | running r url =>
          cases h
          exact ⟨r, url, rfl, rfl, rfl⟩
      · left
        have hevents : events = [.jobs .startSandbox outcome d.pool d.sandboxId] := by
          cases outcome <;> first | exact hcounts | exact absurd rfl hsuccess
        intro e he
        rw [hevents] at he
        exact ⟨outcome, hsuccess, List.mem_singleton.mp he⟩

def Event.ofStart : Event → Bool
  | .jobs .startSandbox _ _ _ => true
  | .timeToRunning _ _ _ => true
  | _ => false

theorem Proc.resume_ofStart {settings : Settings} {now : Time} {proc : Proc} {reply : Reply}
    {events : List Event} {next : Next Proc}
    (h : proc.resume settings now reply = some (events, next)) (hs : ∀ d, proc ≠ .start d) :
    ∀ e ∈ events, e.ofStart = false := by
  intro e he
  have hemits := Proc.resume_emits h e he
  cases proc with
  | start d => exact absurd rfl (hs d)
  | stop d =>
    cases e with
    | jobs task => cases task <;> simp_all [Proc.emits, Event.ofStart]
    | _ => simp_all [Proc.emits]
  | _ => cases e <;> simp_all [Proc.emits, Event.ofStart]

theorem isSuccess_of_not_ofStart (sid : Uuid) {e : Event} (h : e.ofStart = false) :
    isSuccess sid e = false ∧ isTimeToRunning sid e = false := by
  cases e with
  | jobs task outcome pool id => cases task <;> simp_all [Event.ofStart, isSuccess, isTimeToRunning]
  | timeToRunning => cases h
  | _ => exact ⟨rfl, rfl⟩

/-- A report that only the success branch for `sid` makes, once. -/
structure SuccessReport (sid : Uuid) (p : Event → Bool) : Prop where
  success : ∀ pool waited,
    [.jobs .startSandbox .success pool sid, .timeToRunning pool sid waited].countP p ≤ 1
  other : ∀ id pool waited, id ≠ sid →
    [.jobs .startSandbox .success pool id, .timeToRunning pool id waited].countP p = 0
  outcome : ∀ o pool id, o ≠ .success → p (.jobs .startSandbox o pool id) = false
  ofStart : ∀ e, e.ofStart = false → p e = false

theorem successReport_isSuccess (sid : Uuid) : SuccessReport sid (isSuccess sid) where
  success pool waited := by simp [isSuccess]
  other id pool waited h := by simp [isSuccess, h]
  outcome o pool id h := by cases o <;> simp_all [isSuccess]
  ofStart e h := (isSuccess_of_not_ofStart sid h).1

theorem successReport_isTimeToRunning (sid : Uuid) : SuccessReport sid (isTimeToRunning sid) where
  success pool waited := by simp [isTimeToRunning]
  other id pool waited h := by simp [isTimeToRunning, h]
  outcome o pool id h := rfl
  ofStart e h := (isSuccess_of_not_ofStart sid h).2

/-- The handlers' own code reports at most one success, and only for a row that ran. -/
def ReportedOnce (sid : Uuid) (p : Event → Bool) (s : State) : Prop :=
  s.world.log.countP p ≤ 1 ∧ (0 < s.world.log.countP p → s.world.Reached sid 1)

theorem reportedOnce_step {settings : Settings} {sid : Uuid} {p : Event → Bool} {s t : State}
    {a : Action} (hp : SuccessReport sid p) (h : step settings s a = some t)
    (hs : ReportedOnce sid p s) : ReportedOnce sid p t := by
  have hst := stepped h
  have keeps : t.world.log.countP p = s.world.log.countP p → ReportedOnce sid p t :=
    fun hc => ⟨hc ▸ hs.1, fun h0 => (hs.2 (hc ▸ h0)).forward hst.forward⟩
  have hcall : ∀ e : Event, e.byCall = true → p e = false :=
    fun e he => hp.ofStart e (by cases e <;> simp_all [Event.byCall, Event.ofStart])
  have hended : ∀ proc outcome, p (Proc.ended outcome proc) = false :=
    fun proc outcome => hp.ofStart _ (by cases proc <;> rfl)
  rcases hst.countP p hcall (fun id => hp.ofStart _ rfl) hended with
    hc | ⟨pid, how, choice, proc, events, next, rfl, -, lives, hres, hc, hrow⟩
  · exact keeps hc
  by_cases hstart : ∃ d, proc = .start d
  · obtain ⟨d, rfl⟩ := hstart
    obtain ⟨⟨es, next'⟩, hres', hx⟩ := Option.map_eq_some_iff.mp hres
    cases hx
    have hc : t.world.log.countP p = es.countP p + s.world.log.countP p := hc
    rcases StartSandbox.resume_events hres' with hnone | ⟨sandbox, url, hpc, hreply, hes⟩
    · have hzero : es.countP p = 0 := by
        rw [List.countP_eq_zero]
        intro e he
        obtain ⟨o, ho, rfl⟩ := hnone e he
        simp [hp.outcome o _ _ ho]
      exact keeps (by rw [hc, hzero, Nat.zero_add])
    · by_cases hid : d.sandboxId = sid
      · subst hid
        have hq : (Proc.start d).request = .transition d.sandboxId [.starting]
            { status := .running, url := some (some url), error := some none } := by
          simp [Proc.request, StartSandbox.request, hpc]
        rw [hq] at hreply
        obtain ⟨r, hr, hstatus, hafter⟩ := World.changed_true lives hreply
        have hzero : s.world.log.countP p = 0 := by
          by_contra hne
          obtain ⟨r', hr', hrank⟩ := hs.2 (Nat.pos_of_ne_zero hne)
          obtain rfl : r = r' := Option.some.inj (hr.symm.trans hr')
          simp_all [SandboxStatus.rank]
        have hone := hp.success d.pool (s.world.now - sandbox.createdAt)
        have hrow := hrow d.sandboxId
        rw [State.worldAfter, hq] at hrow
        exact ⟨by rw [hc, hzero, hes]; exact hone, fun _ => ⟨_, hrow.trans hafter, Nat.le_refl 1⟩⟩
      · have hzero := hp.other d.sandboxId d.pool (s.world.now - sandbox.createdAt) hid
        exact keeps (by rw [hc, hes, hzero, Nat.zero_add])
  · have hnone := Proc.resume_ofStart hres fun d hd => hstart ⟨d, hd⟩
    have hzero : events.countP p = 0 := by
      rw [List.countP_eq_zero]
      exact fun e he => by simp [hp.ofStart e (hnone e he)]
    exact keeps (by omega)

theorem reportedOnce_run {settings : Settings} {sid : Uuid} {p : Event → Bool}
    (hp : SuccessReport sid p) {s t : State} {as : List Action}
    (hs : ReportedOnce sid p s) (h : run settings s as = some t) : ReportedOnce sid p t :=
  LabelledRuns.always (fun _ _ _ hm ht => reportedOnce_step hp ht hm) hs h

/-! ## Every run -/

def RanksKept (s : State) (_ : Action) (t : State) : Prop :=
  ∀ sid r, s.world.row sid = some r →
    ∃ r', t.world.row sid = some r' ∧ r.status.rank ≤ r'.status.rank

/-- In every run, whatever overlaps, fails or is killed: no step lowers a rank, so a row
that is stopping, stopped or failed stays one of these; it enters `running` at most once
and its start is reported at most once. -/
theorem no_resurrection (settings : Settings) (now : Time) (containers : Containers)
    (nextObject : Nat) (as bs : List Action) (s t : State)
    (hs : run settings (State.init now containers nextObject) as = some s)
    (ht : run settings s bs = some t) (sid : Uuid) :
    Along settings RanksKept (State.init now containers nextObject) (as ++ bs) ∧
      ((∃ st ∈ noContainerWanted, s.world.status sid = some st) →
        ∃ st ∈ noContainerWanted, t.world.status sid = some st) ∧
      tally (step settings) (entersRunning sid) (State.init now containers nextObject) (as ++ bs) ≤ 1 ∧
      t.world.log.countP (isSuccess sid) ≤ 1 ∧ t.world.log.countP (isTimeToRunning sid) ≤ 1 := by
  have hinit : ∀ p, ReportedOnce sid p (State.init now containers nextObject) :=
    fun p => ⟨Nat.zero_le 1, fun h => absurd h (Nat.lt_irrefl 0)⟩
  have hrun : run settings (State.init now containers nextObject) (as ++ bs) = some t := by
    simp [run, LabelledRuns.run_append, hs, ht]
  refine ⟨?_, ?_, entersRunning_le_one settings sid _ _, ?_, ?_⟩
  · refine LabelledRuns.Along.of_forall (fun s a t h id r hr => ?_) _ _
    obtain ⟨r', hr', hf⟩ := (stepped h).forward id r hr
    exact ⟨r', hr', hf.rank⟩
  · rintro ⟨st, hst, hrow⟩
    obtain ⟨r, hr, rfl⟩ := World.status_eq_some.mp hrow
    obtain ⟨r', hr', hrank⟩ := World.Reached.forward ⟨r, hr, (mem_noContainerWanted _).mp hst⟩
      (run_forward ht)
    exact ⟨_, (mem_noContainerWanted _).mpr hrank, World.status_eq_some.mpr ⟨r', hr', rfl⟩⟩
  · exact (reportedOnce_run (successReport_isSuccess sid) (hinit _) hrun).1
  · exact (reportedOnce_run (successReport_isTimeToRunning sid) (hinit _) hrun).1

/-- A sandbox that ran, was stopped by its client and then swept. -/
theorem no_resurrection_stopping : ∃ s t,
    run ⟨1, 4, "localhost"⟩ (State.init 0 KeyedTable.empty 0)
        (posted 0 1 ++ .ok 0 :: started 1 1 ++ [.delete 2 1, .ok 2, .ok 2]) = some s ∧
      run ⟨1, 4, "localhost"⟩ s [.sweep 3, .ok 3, .ok 3] = some t ∧
      s.world.status 1 = some .stopping ∧ ∃ st ∈ noContainerWanted, t.world.status 1 = some st := by
  have hrun : (run ⟨1, 4, "localhost"⟩ (State.init 0 KeyedTable.empty 0)
      (posted 0 1 ++ .ok 0 :: started 1 1 ++ [.delete 2 1, .ok 2, .ok 2])).any
      (fun s => decide (s.world.status 1 = some .stopping) &&
        (run ⟨1, 4, "localhost"⟩ s [.sweep 3, .ok 3, .ok 3]).isSome) = true := by decide
  obtain ⟨s, hs, hp⟩ := LabelledRuns.exists_run hrun
  simp only [Bool.and_eq_true, decide_eq_true_eq] at hp
  obtain ⟨t, ht⟩ := Option.isSome_iff_exists.mp hp.2
  exact ⟨s, t, hs, ht, hp.1,
    (no_resurrection _ 0 _ 0 _ _ s t hs ht 1).2.1 ⟨.stopping, by decide, hp.1⟩⟩

end SandboxOrchestrator
