import SandboxOrchestrator.Lifecycle

/-!
# What a start delivery reports

A delivery counts its outcome in `jobs_total` and ends with it. The outcome is meant to be
the compare-and-set it made. Two branches, the expiry and the last failure, drop the
answer of their compare-and-set and report it made whether or not it was.
-/

namespace SandboxOrchestrator

set_option autoImplicit false

open LabelledRuns (tally)

def JobOutcome.target : JobOutcome → SandboxStatus
  | .success => .running
  | .retry => .queued
  | .failed => .failed
  | .expired => .stopped

def JobOutcome.ending : JobOutcome → End
  | .success => .returned "running"
  | .retry => .retry
  | .failed => .returned "failed"
  | .expired => .returned "expired"

theorem JobOutcome.target_injective {o o' : JobOutcome} (h : o.target = o'.target) : o = o' := by
  cases o <;> cases o' <;> first | rfl | cases h

/-- The status the next call of the delivery moves its row to, if it is a compare-and-set
that finds the row. -/
def StartSandbox.moves? (d : StartSandbox) (w : World) : Option SandboxStatus :=
  match d.request with
  | .transition sid from_ v =>
    if (w.status sid).any fun st => decide (st ∈ from_) then some v.status else none
  | _ => none

/-- The next call of the delivery is one of the two compare-and-sets whose answer is
dropped, and it does not find the row. -/
def StartSandbox.LosesUnseen (d : StartSandbox) (w : World) : Prop :=
  (d.pc = .expire ∨ ∃ reason, d.pc = .fail reason) ∧ d.moves? w = none

def isJob (o : JobOutcome) (sid : Uuid) : Event → Bool
  | .jobs .startSandbox o' _ id => decide (o' = o) && decide (id = sid)
  | _ => false

/-- In the step the delivery that runs as `pid` moves its row to `st`. -/
def ownMove (pid : Nat) (st : SandboxStatus) (s : State) (a : Action) (_ : State) : Bool :=
  match a, s.proc pid with
  | .await p how _, some (.start d) =>
    decide (p = pid) && how.effect && decide (d.moves? s.world = some st)
  | _, _ => false

/-- In the step the delivery that runs as `pid` counts the outcome. -/
def ownReport (pid : Nat) (o : JobOutcome) (s : State) (a : Action) (t : State) : Bool :=
  match a, s.proc pid with
  | .await p _ _, some (.start d) =>
    decide (p = pid) && decide (s.world.log.countP (isJob o d.sandboxId) <
      t.world.log.countP (isJob o d.sandboxId))
  | _, _ => false

/-- After the step the delivery of `sid` is in flight as `pid`. -/
def inFlight (sid : Uuid) (pid : Nat) (_ : State) (_ : Action) (t : State) : Bool :=
  match t.proc pid with
  | some (.start d) => decide (d.sandboxId = sid)
  | _ => false

theorem inFlight_iff {sid : Uuid} {pid : Nat} {s t : State} {a : Action} :
    inFlight sid pid s a t = true ↔ ∃ d, t.proc pid = some (.start d) ∧ d.sandboxId = sid := by
  unfold inFlight
  split
  · rename_i d hd
    simp [hd]
  · rename_i hnot
    simp only [Bool.false_eq_true, false_iff, not_exists, not_and]
    exact fun d hd => absurd hd (hnot d)

/-- A call of the delivery that resolves in the step succeeds, unless it is one of the launch
or of `_discard`: these may also raise. -/
def dbSucceeds (pid : Nat) (s : State) (a : Action) (_ : State) : Bool :=
  match a, s.proc pid with
  | .await p how _, some (.start d) =>
    decide (p ≠ pid) ||
      match how with
      | .ok => true
      | .raises _ _ => d.pc.handles
      | .killed _ _ => false
  | _, _ => true

/-! ## One call of the delivery -/

variable {settings : Settings} {d : StartSandbox} {w : World} {how : How} {choice : Choice}

theorem StartSandbox.moves?_eq_some {sid : Uuid} {from_ : List SandboxStatus} {v : Values}
    {st : SandboxStatus} (hq : d.request = .transition sid from_ v) :
    d.moves? w = some st ↔ (∃ r, w.row sid = some r ∧ r.status ∈ from_) ∧ v.status = st := by
  unfold moves?
  rw [hq]
  simp [World.status, Option.any_eq_true]

theorem StartSandbox.moves?_of_changed {sid : Uuid} {from_ : List SandboxStatus} {v : Values} {b : Bool}
    (lives : ∀ e r, how ≠ .killed e r) (hq : d.request = .transition sid from_ v)
    (h : w.reply .startSandbox how choice d.request = .changed b) :
    d.moves? w = if b then some v.status else none := by
  rw [hq] at h
  cases b with
  | true =>
    obtain ⟨r, hr, hst, -⟩ := World.changed_true lives h
    exact (StartSandbox.moves?_eq_some hq).mpr ⟨⟨r, hr, hst⟩, rfl⟩
  | false =>
    cases hm : d.moves? w with
    | none => rfl
    | some st =>
      obtain ⟨⟨r, hr, hst⟩, -⟩ := (StartSandbox.moves?_eq_some hq).mp hm
      exact absurd hst (World.changed_false lives h hr)

theorem StartSandbox.moves?_of_goes {pc : StartPc} (lives : ∀ e r, how ≠ .killed e r)
    (h : d.Goes settings d.pc (w.reply .startSandbox how choice d.request) pc) (o : JobOutcome) :
    d.moves? w ≠ some o.target := by
  generalize hq : w.reply _ how choice _ = reply at h
  obtain ⟨sid, jobTry, pool, pc₀⟩ := d
  cases h with
  | pickedUp r =>
    rw [StartSandbox.moves?_of_changed lives rfl hq]
    cases o <;> simp [JobOutcome.target]
  | unwanted r url =>
    rw [StartSandbox.moves?_of_changed lives rfl hq]
    simp
  | launchFailed _ _ e launching =>
    cases pc₀ <;> first | simp [moves?, request]; done | cases launching
  | _ => simp [moves?, request]

theorem StartSandbox.moves?_of_ends {counted : Option JobOutcome} {outcome : End}
    (hrow : (w.row d.sandboxId).isSome) (lives : ∀ e r, how ≠ .killed e r)
    (hdb : how = .ok ∨ d.pc.handles = true)
    (h : d.Ends d.pc (w.reply .startSandbox how choice d.request) counted outcome) :
    (∀ o, counted = some o → outcome = o.ending) ∧
      ((¬d.LosesUnseen w ∧ d.moves? w = counted.map JobOutcome.target) ∨
        (d.LosesUnseen w ∧ counted.isSome)) := by
  generalize hq : w.reply _ how choice _ = reply at h
  obtain ⟨sid, jobTry, pool, pc₀⟩ := d
  cases h with
  | missing =>
    obtain ⟨-, hreply⟩ := World.after_of_reply lives hq (by simp)
    have hnone : w.row sid = none := by simpa [request, World.perform] using hreply
    rw [hnone] at hrow
    cases hrow
  | settled r st => exact ⟨by simp, .inl ⟨by simp [LosesUnseen], by simp [moves?, request]⟩⟩
  | expired b =>
    refine ⟨by simp [JobOutcome.ending], ?_⟩
    have hmoves := StartSandbox.moves?_of_changed lives rfl hq
    cases b with
    | true => exact .inl ⟨by simp [LosesUnseen, hmoves], hmoves⟩
    | false => exact .inr ⟨⟨.inl rfl, hmoves⟩, rfl⟩
  | overtaken r =>
    exact ⟨by simp, .inl ⟨by simp [LosesUnseen], StartSandbox.moves?_of_changed lives rfl hq⟩⟩
  | retried reason =>
    have hmoves := StartSandbox.moves?_of_changed lives rfl hq
    exact ⟨by simp [JobOutcome.ending], .inl ⟨by simp [LosesUnseen], hmoves⟩⟩
  | cancelled reason =>
    exact ⟨by simp, .inl ⟨by simp [LosesUnseen], StartSandbox.moves?_of_changed lives rfl hq⟩⟩
  | failed reason b =>
    refine ⟨by simp [JobOutcome.ending], ?_⟩
    have hmoves := StartSandbox.moves?_of_changed lives rfl hq
    cases b with
    | true => exact .inl ⟨by simp [LosesUnseen, hmoves], hmoves⟩
    | false => exact .inr ⟨⟨.inr ⟨reason, rfl⟩, hmoves⟩, rfl⟩
  | running r url =>
    have hmoves := StartSandbox.moves?_of_changed lives rfl hq
    exact ⟨by simp [JobOutcome.ending], .inl ⟨by simp [LosesUnseen], hmoves⟩⟩
  | discarded reply hdiscarded =>
    exact ⟨by simp, .inl ⟨by simp [LosesUnseen], by simp [moves?, request]⟩⟩
  | raised pc e other =>
    obtain rfl : how = .ok := hdb.resolve_right (by simp [other])
    exact (World.perform_ne_raised _ _ _ _ _ hq).elim

theorem isJob_byCall (o : JobOutcome) (sid : Uuid) {e : Event} (h : e.byCall = true) :
    isJob o sid e = false := by
  cases e <;> first | rfl | cases h

theorem StartSandbox.Counts.countP {counted : Option JobOutcome} {events : List Event}
    (h : d.Counts counted events) (o : JobOutcome) :
    events.countP (isJob o d.sandboxId) = if counted = some o then 1 else 0 := by
  cases counted with
  | none =>
    obtain rfl : events = [] := h
    rfl
  | some o' =>
    cases o' with
    | success =>
      obtain ⟨waited, rfl⟩ := h
      cases o <;> simp [isJob]
    | retry =>
      obtain rfl : events = _ := h
      cases o <;> simp [isJob]
    | failed =>
      obtain rfl : events = _ := h
      cases o <;> simp [isJob]
    | expired =>
      obtain rfl : events = _ := h
      cases o <;> simp [isJob]

/-! ## One step -/

theorem dbSucceeds_call {pid : Nat} {s t : State} (found : s.proc pid = some (.start d))
    (h : dbSucceeds pid s (.await pid how choice) t = true) :
    (∀ e r, how ≠ .killed e r) ∧ (how = .ok ∨ d.pc.handles = true) := by
  simp only [dbSucceeds, found, ne_eq, not_true_eq_false, decide_false, Bool.false_or] at h
  cases how with
  | ok => exact ⟨by simp, .inl rfl⟩
  | raises e b => exact ⟨by simp, .inr h⟩
  | killed e r => cases h

/-- While the delivery stays in flight it neither reports nor moves its row to what an
outcome reports. -/
theorem silent_step {sid : Uuid} {pid : Nat} {s t : State} {a : Action} {d₀ : StartSandbox}
    (found : s.proc pid = some (.start d₀)) (ht : inFlight sid pid s a t = true)
    (h : step settings s a = some t) (o : JobOutcome) :
    ownReport pid o s a t = false ∧ ownMove pid o.target s a t = false := by
  by_cases ha : ∃ how choice, a = .await pid how choice
  · obtain ⟨how, choice, rfl⟩ := ha
    obtain ⟨d', hd', -⟩ := inFlight_iff.mp ht
    cases stepped h with
    | resumed _ _ _ proc proc' events found' lives resume world_eq _ procs =>
      cases found.symm.trans found'
      obtain ⟨⟨es, next⟩, hres, hx⟩ := Option.map_eq_some_iff.mp resume
      cases next with
      | done outcome => cases hx
      | goto d₁ =>
        cases hx
        obtain ⟨pc, -, rfl, goes⟩ := StartSandbox.goes_of_resume hres
        have hmoves := StartSandbox.moves?_of_goes lives goes o
        constructor
        · have hcount : t.world.log.countP (isJob o d₀.sandboxId) =
              s.world.log.countP (isJob o d₀.sandboxId) := by
            rw [world_eq, World.record_log, List.nil_append]
            exact s.world.countP_after_own _ _ _ _ fun e he => isJob_byCall o _ he
          simp [ownReport, found, hcount]
        · simp [ownMove, found, hmoves]
    | ended _ _ _ _ _ _ _ _ _ _ _ procs =>
      rw [procs, if_pos rfl] at hd'
      cases hd'
    | killed _ _ _ _ _ _ _ _ procs =>
      rw [procs, if_pos rfl] at hd'
      cases hd'
    | spawned _ _ _ _ spawn => cases spawn
  · simp only [not_exists] at ha
    cases a with
    | await p how choice =>
      have hp : p ≠ pid := fun hp => ha how choice (by rw [hp])
      simp [ownReport, ownMove, found, hp]
    | _ => simp [ownReport, ownMove]

theorem ended_step {pid : Nat} {s t : State} (found : s.proc pid = some (.start d))
    (lives : ∀ e r, how ≠ .killed e r) (ended : t.proc pid = none)
    (h : step settings s (.await pid how choice) = some t) :
    ∃ counted outcome,
      d.Ends d.pc (s.world.reply .startSandbox how choice d.request) counted outcome ∧
      t.world.log.head? = some (.worked .startSandbox d.sandboxId outcome) ∧
      (∀ o, ownReport pid o s (.await pid how choice) t = decide (counted = some o)) ∧
      (outcome = .retry →
        ⟨.startSandbox, d.sandboxId, d.pool, d.jobTry + 1⟩ ∈ t.world.queue) := by
  cases stepped h with
  | ended _ _ _ proc outcome events found' _ resume world_eq =>
    cases found.symm.trans found'
    obtain ⟨⟨es, next⟩, hres, hx⟩ := Option.map_eq_some_iff.mp resume
    cases next with
    | goto d₁ => cases hx
    | done outcome' =>
      cases hx
      obtain ⟨counted, hcounts, ends⟩ := StartSandbox.ends_of_resume hres
      have hlog : t.world.log = .worked .startSandbox d.sandboxId outcome :: es ++
          (s.worldAfter (.start d) how choice).log := by
        rw [world_eq, World.settleJob_log, World.record_log]
        rfl
      refine ⟨counted, outcome, ends, by rw [hlog]; rfl, fun o => ?_, ?_⟩
      · have hcount : t.world.log.countP (isJob o d.sandboxId) =
            (if counted = some o then 1 else 0) + s.world.log.countP (isJob o d.sandboxId) := by
          rw [hlog, List.countP_append, List.countP_cons, hcounts.countP o, State.worldAfter,
            World.countP_after_own _ _ _ _ _ fun e he => isJob_byCall o _ he]
          rfl
        simp only [ownReport, found, hcount, decide_true, Bool.true_and]
        by_cases hc : counted = some o <;> simp [hc]
      · rintro rfl
        rw [world_eq, World.settleJob_queue]
        simp [Proc.job?]
  | resumed _ _ _ _ _ _ _ _ _ _ _ procs =>
    rw [procs, if_pos rfl] at ended
    cases ended
  | killed _ e r => exact absurd rfl (lives e r)
  | spawned _ _ _ _ spawn => cases spawn

/-- The step that ends a delivery whose last call succeeds. -/
theorem ending_step {pid : Nat} {s t : State} (found : s.proc pid = some (.start d))
    (hrow : (s.world.row d.sandboxId).isSome)
    (hdb : dbSucceeds pid s (.await pid how choice) t = true) (ended : t.proc pid = none)
    (h : step settings s (.await pid how choice) = some t) :
    ∃ counted outcome, t.world.log.head? = some (.worked .startSandbox d.sandboxId outcome) ∧
      (∀ o, ownReport pid o s (.await pid how choice) t = decide (counted = some o)) ∧
      (∀ o : JobOutcome, ownMove pid o.target s (.await pid how choice) t =
        decide (d.moves? s.world = some o.target)) ∧
      (∀ o, counted = some o → outcome = o.ending) ∧
      ((¬d.LosesUnseen s.world ∧ d.moves? s.world = counted.map JobOutcome.target) ∨
        (d.LosesUnseen s.world ∧ counted.isSome)) := by
  obtain ⟨lives, hcall⟩ := dbSucceeds_call found hdb
  obtain ⟨counted, outcome, ends, hlog, hreport, -⟩ := ended_step found lives ended h
  obtain ⟨hending, hmoves⟩ := StartSandbox.moves?_of_ends hrow lives hcall ends
  refine ⟨counted, outcome, hlog, hreport, fun o => ?_, hending, hmoves⟩
  have heffect : d.moves? s.world = some o.target → how.effect = true := by
    intro hm
    rcases hcall with rfl | hhandles
    · rfl
    · obtain ⟨sid, jobTry, pool, pc⟩ := d
      cases pc <;> first
        | cases hhandles; done
        | simp [StartSandbox.moves?, StartSandbox.request] at hm
  by_cases hm : d.moves? s.world = some o.target
  · simp [ownMove, found, hm, heffect hm]
  · simp [ownMove, found, hm]

/-! ## A whole delivery -/

/-- A delivery on a row that exists, from any of its calls to its end, with any handlers
beside it: it counts an outcome exactly if its own compare-and-set made the move of that
outcome, and then ends with it, if and only if its last call is not a compare-and-set to
`stopped` or `failed` that finds the row in another status. -/
theorem start_reports_iff (settings : Settings) (sid : Uuid) (pid : Nat) (s₀ s t : State)
    (bs : List Action) (how : How) (choice : Choice) (d₀ d : StartSandbox)
    (begins : s₀.proc pid = some (.start d₀)) (row : (s₀.world.row sid).isSome)
    (hrun : run settings s₀ bs = some s)
    (flight : Along settings (fun u a v => inFlight sid pid u a v = true) s₀ bs)
    (found : s.proc pid = some (.start d)) (hid : d.sandboxId = sid)
    (db : Along settings (fun u a v => dbSucceeds pid u a v = true) s₀ (bs ++ [.await pid how choice]))
    (last : step settings s (.await pid how choice) = some t) (ended : t.proc pid = none) :
    (∀ o : JobOutcome,
      (0 < tally (step settings) (ownReport pid o) s₀ (bs ++ [.await pid how choice]) ↔
        0 < tally (step settings) (ownMove pid o.target) s₀ (bs ++ [.await pid how choice])) ∧
      (0 < tally (step settings) (ownMove pid o.target) s₀ (bs ++ [.await pid how choice]) →
        t.world.log.head? = some (.worked .startSandbox sid o.ending))) ↔
    ¬d.LosesUnseen s.world := by
  subst hid
  obtain ⟨hbs, hlast⟩ := (LabelledRuns.along_append hrun).mp db
  have hdb : dbSucceeds pid s (.await pid how choice) t = true :=
    ((LabelledRuns.along_cons last).mp hlast).1
  have hrow : (s.world.row d.sandboxId).isSome := by
    obtain ⟨r, hr⟩ := Option.isSome_iff_exists.mp row
    obtain ⟨r', hr', -⟩ := run_forward hrun _ r hr
    rw [hr']
    rfl
  have hsilent : ∀ o, Along settings (fun u a v => ownReport pid o u a v = false ∧
      ownMove pid o.target u a v = false) s₀ bs := by
    intro o
    refine LabelledRuns.along_of_invariant (I := fun u => ∃ d', u.proc pid = some (.start d'))
      (fun u a v _ hP _ => ?_) (fun u a v hu hP h => ?_) ⟨d₀, begins⟩ (flight.and hbs)
    · obtain ⟨d', hd', -⟩ := inFlight_iff.mp hP.1
      exact ⟨d', hd'⟩
    · obtain ⟨d', hd'⟩ := hu
      exact silent_step hd' hP.1 h o
  obtain ⟨counted, outcome, hlog, hreport, hmove, hending, hends⟩ :=
    ending_step found hrow hdb ended last
  have hreports : ∀ o, 0 < tally (step settings) (ownReport pid o) s₀ (bs ++ [.await pid how choice]) ↔
      counted = some o := by
    intro o
    rw [LabelledRuns.tally_snoc hrun last, hreport,
      LabelledRuns.tally_eq_zero ((hsilent o).mono fun _ _ _ h => h.1)]
    by_cases hc : counted = some o <;> simp [hc]
  have hmoves : ∀ o : JobOutcome,
      0 < tally (step settings) (ownMove pid o.target) s₀ (bs ++ [.await pid how choice]) ↔
        d.moves? s.world = some o.target := by
    intro o
    rw [LabelledRuns.tally_snoc hrun last, hmove,
      LabelledRuns.tally_eq_zero ((hsilent o).mono fun _ _ _ h => h.2)]
    by_cases hc : d.moves? s.world = some o.target <;> simp [hc]
  simp only [hreports, hmoves, hlog]
  rcases hends with ⟨hnot, hmade⟩ | ⟨hloses, hsome⟩
  · refine iff_of_true (fun o => ?_) hnot
    have hiff : counted = some o ↔ d.moves? s.world = some o.target := by
      rw [hmade, Option.map_eq_some_iff]
      constructor
      · exact fun hc => ⟨o, hc, rfl⟩
      · rintro ⟨o', hc, htarget⟩
        rw [hc, JobOutcome.target_injective htarget]
    refine ⟨hiff, fun hm => ?_⟩
    rw [hending o (hiff.mpr hm)]
  · refine iff_of_false (fun h => ?_) (not_not_intro hloses)
    obtain ⟨o, hc⟩ := Option.isSome_iff_exists.mp hsome
    have hm := (h o).1.mp hc
    rw [hloses.2] at hm
    cases hm

def postedRow : Sandbox := ⟨1, .http, .queued, none, none, 0, .stable, 60000000, none, 0, 0⟩

/-- A start that has no setback. -/
theorem start_reports_success : ∃ s₀ t,
    run ⟨1, 4, "localhost"⟩ (State.init 0 KeyedTable.empty 0)
        (posted 0 1 ++ [.ok 0, .deliver 1 ⟨.startSandbox, 1, .stable, 1⟩]) = some s₀ ∧
      run ⟨1, 4, "localhost"⟩ s₀ (List.replicate 8 (.ok 1) ++ [.ok 1]) = some t ∧
      (0 < tally (step ⟨1, 4, "localhost"⟩) (ownReport 1 .success) s₀
          (List.replicate 8 (.ok 1) ++ [.ok 1]) ↔
        0 < tally (step ⟨1, 4, "localhost"⟩) (ownMove 1 .running) s₀
          (List.replicate 8 (.ok 1) ++ [.ok 1])) := by
  have hrun : (run ⟨1, 4, "localhost"⟩ (State.init 0 KeyedTable.empty 0)
      (posted 0 1 ++ [.ok 0, .deliver 1 ⟨.startSandbox, 1, .stable, 1⟩])).any (fun s₀ =>
        decide (s₀.proc 1 = some (.start (.start 1 1 .stable))) &&
        (s₀.world.row 1).isSome &&
        LabelledRuns.check (step ⟨1, 4, "localhost"⟩) (fun u a v => inFlight 1 1 u a v = true) s₀
          (List.replicate 8 (.ok 1)) &&
        LabelledRuns.check (step ⟨1, 4, "localhost"⟩) (fun u a v => dbSucceeds 1 u a v = true) s₀
          (List.replicate 8 (.ok 1) ++ [.ok 1]) &&
        (run ⟨1, 4, "localhost"⟩ s₀ (List.replicate 8 (.ok 1))).any fun s =>
          decide (s.proc 1 = some (.start ⟨1, 1, .stable, .succeed postedRow "http://localhost:0"⟩)) &&
          (step ⟨1, 4, "localhost"⟩ s (.ok 1)).any fun t => (t.proc 1).isNone) = true := by decide
  obtain ⟨s₀, hs₀, hp⟩ := LabelledRuns.exists_run hrun
  simp only [Bool.and_eq_true] at hp
  obtain ⟨⟨⟨⟨hbegins, hrow⟩, hflight⟩, hdb⟩, hend⟩ := hp
  obtain ⟨s, hs, hend⟩ := LabelledRuns.exists_run hend
  obtain ⟨hlast, hend⟩ := Bool.and_eq_true_iff.mp hend
  obtain ⟨t, ht, hended⟩ := (Option.any_eq_true _ _).mp hend
  have hd₀ := of_decide_eq_true hbegins
  have hd := of_decide_eq_true hlast
  refine ⟨s₀, t, hs₀, LabelledRuns.run_snoc hs ht, ?_⟩
  exact ((start_reports_iff _ 1 1 s₀ s t _ .ok {} _ _ hd₀ hrow hs
    (LabelledRuns.along_of_check hflight) hd rfl (LabelledRuns.along_of_check hdb) ht
    (Option.isNone_iff_eq_none.mp hended)).mpr (by simp [StartSandbox.LosesUnseen]) .success).1

/-- The launch of the only try fails, and the client stops the sandbox before the failure is
written: the delivery counts and returns a failure that it did not make. -/
theorem start_reports_lost_failure : ∃ s₀ t,
    run ⟨1, 4, "localhost"⟩ (State.init 0 KeyedTable.empty 0)
        (posted 0 1 ++ [.ok 0, .deliver 1 ⟨.startSandbox, 1, .stable, 1⟩]) = some s₀ ∧
      run ⟨1, 4, "localhost"⟩ s₀
        [.ok 1, .ok 1, .ok 1, .fails 1, .ok 1, .delete 2 1, .ok 2, .ok 2, .ok 1] = some t ∧
      t.world.log.head? = some (.worked .startSandbox 1 (.returned "failed")) ∧
      0 < tally (step ⟨1, 4, "localhost"⟩) (ownReport 1 .failed) s₀
        [.ok 1, .ok 1, .ok 1, .fails 1, .ok 1, .delete 2 1, .ok 2, .ok 2, .ok 1] ∧
      tally (step ⟨1, 4, "localhost"⟩) (ownMove 1 .failed) s₀
        [.ok 1, .ok 1, .ok 1, .fails 1, .ok 1, .delete 2 1, .ok 2, .ok 2, .ok 1] = 0 ∧
      t.world.status 1 = some .stopping := by
  have hrun : (run ⟨1, 4, "localhost"⟩ (State.init 0 KeyedTable.empty 0)
      (posted 0 1 ++ [.ok 0, .deliver 1 ⟨.startSandbox, 1, .stable, 1⟩])).any (fun s₀ =>
        decide (0 < tally (step ⟨1, 4, "localhost"⟩) (ownReport 1 .failed) s₀
          [.ok 1, .ok 1, .ok 1, .fails 1, .ok 1, .delete 2 1, .ok 2, .ok 2, .ok 1]) &&
        decide (tally (step ⟨1, 4, "localhost"⟩) (ownMove 1 .failed) s₀
          [.ok 1, .ok 1, .ok 1, .fails 1, .ok 1, .delete 2 1, .ok 2, .ok 2, .ok 1] = 0) &&
        (run ⟨1, 4, "localhost"⟩ s₀
          [.ok 1, .ok 1, .ok 1, .fails 1, .ok 1, .delete 2 1, .ok 2, .ok 2, .ok 1]).any fun t =>
            decide (t.world.log.head? = some (.worked .startSandbox 1 (.returned "failed"))) &&
            decide (t.world.status 1 = some .stopping)) = true := by decide
  obtain ⟨s₀, hs₀, hp⟩ := LabelledRuns.exists_run hrun
  simp only [Bool.and_eq_true, decide_eq_true_eq] at hp
  obtain ⟨⟨hreport, hmove⟩, hend⟩ := hp
  obtain ⟨t, ht, hend⟩ := LabelledRuns.exists_run hend
  simp only [Bool.and_eq_true, decide_eq_true_eq] at hend
  exact ⟨s₀, t, hs₀, ht, hend.1, hreport, hmove, hend.2⟩

end SandboxOrchestrator
