import SandboxOrchestrator.Ledger

/-!
# What the counters of the API and the worker stand for

`sandboxes_reaped_total` is what the sweeps returned and what those in flight have counted,
`jobs_enqueued_total` is what clients were answered, and the retries and expiries of
`jobs_total` are how the handlers ended. Each is a ledger.
-/

namespace SandboxOrchestrator

set_option autoImplicit false

/-! ## `sandboxes_reaped_total` -/

def Reaped.get (n : Reaped) : ReapReason → Nat
  | .expired => n.expired
  | .orphan => n.orphan
  | .vanished => n.vanished

theorem Reaped.get_count (n : Reaped) (reason reason' : ReapReason) :
    (n.count reason').get reason = n.get reason + if reason' = reason then 1 else 0 := by
  cases reason <;> cases reason' <;> rfl

def reapedFor (reason : ReapReason) : Event → Nat
  | .reaped r _ => if r = reason then 1 else 0
  | _ => 0

def sweptFor (reason : ReapReason) : Event → Nat
  | .reconciled (.swept n) => n.get reason
  | _ => 0

def Proc.reapedSoFar (reason : ReapReason) : Proc → Nat
  | .sweep p => p.reaped.get reason
  | _ => 0

theorem ReconcileSandboxes.reaped_goes {p p' : ReconcileSandboxes} {reply : Reply}
    {events : List Event} (reason : ReapReason) (h : p.resume reply = some (events, .goto p')) :
    (events.map (reapedFor reason)).sum + p.reaped.get reason = p'.reaped.get reason := by
  unfold resume at h
  split at h
  all_goals
    simp only [count, Option.some.injEq, Prod.mk.injEq, Next.goto.injEq, reduceCtorEq,
      and_false] at h
  all_goals
    obtain ⟨rfl, rfl⟩ := h
    simp [reapedFor, Reaped.get_count, Nat.add_comm]

theorem ReconcileSandboxes.reaped_done {p : ReconcileSandboxes} {reply : Reply}
    {events : List Event} {outcome : End} (reason : ReapReason)
    (h : p.resume reply = some (events, .done outcome)) :
    (events.map (reapedFor reason)).sum + p.reaped.get reason =
      sweptFor reason (.reconciled outcome) := by
  unfold resume at h
  split at h
  all_goals
    simp only [count, Option.some.injEq, Prod.mk.injEq, Next.done.injEq, reduceCtorEq,
      and_false] at h
  all_goals
    obtain ⟨rfl, rfl⟩ := h
    simp [reapedFor, sweptFor]

theorem reapedFor_of_emits {proc : Proc} {e : Event} (reason : ReapReason)
    (hproc : ∀ p, proc ≠ .sweep p) (h : proc.emits e = true) : reapedFor reason e = 0 := by
  cases proc with
  | sweep p => exact absurd rfl (hproc p)
  | _ => cases e <;> first | rfl | cases h

def reapedLedger (reason : ReapReason) : Ledger where
  counts := reapedFor reason
  ends := sweptFor reason
  credit := Proc.reapedSoFar reason
  sound _ := True
  counts_own e h := by cases e <;> first | rfl | cases h
  ends_own e h := by cases e <;> first | rfl | cases h
  opens h := by
    refine ⟨trivial, ?_⟩
    cases h with
    | deliver pid job => obtain ⟨task, sid, queue, jobTry⟩ := job; cases task <;> rfl
    | redeliver pid job => obtain ⟨task, sid, queue, jobTry⟩ := job; cases task <;> rfl
    | sweep => cases reason <;> rfl
    | _ => rfl
  goes {settings now proc proc' reply events} _ h := by
    refine ⟨trivial, ?_⟩
    have hother : (∀ p, proc ≠ .sweep p) → (events.map (reapedFor reason)).sum = 0 :=
      fun hproc => Ledger.sum_eq_zero fun e he =>
        reapedFor_of_emits reason hproc (Proc.resume_emits h e he)
    have hgoes := Proc.goes_of_resume h
    cases hgoes with
    | sweep p reply p' goes =>
      obtain ⟨⟨es, next⟩, hx, hx'⟩ := Option.map_eq_some_iff.mp h
      cases next <;> cases hx'
      exact ReconcileSandboxes.reaped_goes reason hx
    | _ => rw [hother (by simp)]; rfl
  done {settings now proc reply events outcome} _ h := by
    have hother : (∀ p, proc ≠ .sweep p) → (events.map (reapedFor reason)).sum = 0 :=
      fun hproc => Ledger.sum_eq_zero fun e he =>
        reapedFor_of_emits reason hproc (Proc.resume_emits h e he)
    cases proc with
    | sweep p =>
      obtain ⟨⟨es, next⟩, hx, hx'⟩ := Option.map_eq_some_iff.mp h
      cases next <;> cases hx'
      exact ReconcileSandboxes.reaped_done reason hx
    | _ => rw [hother (by simp)]; rfl

/-! ## `jobs_enqueued_total` -/

def Event.enqueueLabel : Event → Option (Task × EnqueueOutcome)
  | .jobsEnqueued task outcome _ => some (task, outcome)
  | _ => none

def Event.answerLabel : Event → Option (Task × EnqueueOutcome)
  | .created _ _ (.answered (.accepted a)) =>
    some (.startSandbox, if a.replayed then .deduplicated else .enqueued)
  | .deleted _ (.answered (.sandbox r)) =>
    if r.status = .stopping then some (.stopSandbox, .enqueued) else none
  | .deleted _ (.answered .unavailable) => some (.stopSandbox, .error)
  | _ => none

def enqueuedAs (label : Task × EnqueueOutcome) (e : Event) : Nat :=
  if e.enqueueLabel = some label then 1 else 0

def answeredAs (label : Task × EnqueueOutcome) (e : Event) : Nat :=
  if e.answerLabel = some label then 1 else 0

section

variable {label : Task × EnqueueOutcome} {reply : Reply} {events : List Event} {outcome : End}

theorem CreateSandbox.enqueued_goes {cap : Nat} {c c' : CreateSandbox}
    (hlabel : label ≠ (.startSandbox, .error)) (h : c.resume cap reply = some (events, .goto c')) :
    (events.map (enqueuedAs label)).sum = 0 := by
  unfold resume at h
  split at h
  all_goals try split at h
  all_goals
    simp only [replayed, Option.map_eq_some_iff, Option.some.injEq, Prod.mk.injEq, Next.goto.injEq,
      reduceCtorEq, and_false] at h
  all_goals
    first
    | (obtain ⟨rfl, -⟩ := h; simp [enqueuedAs, Event.enqueueLabel, Ne.symm hlabel])
    | (obtain ⟨-, -, rfl, -⟩ := h; rfl)

theorem CreateSandbox.enqueued_done {cap : Nat} {c : CreateSandbox}
    (h : c.resume cap reply = some (events, .done outcome)) :
    (events.map (enqueuedAs label)).sum = answeredAs label (.created c.key c.sandboxId outcome) := by
  unfold resume at h
  split at h
  all_goals try split at h
  all_goals
    simp only [replayed, Option.map_eq_some_iff, Option.some.injEq, Prod.mk.injEq, Next.done.injEq,
      reduceCtorEq, and_false, exists_false] at h
  all_goals
    obtain ⟨rfl, rfl⟩ := h
    simp [enqueuedAs, answeredAs, Event.enqueueLabel, Event.answerLabel, accepted]

/-- The row a DELETE has read back and will answer with is `stopping`. -/
def DeletePc.Stopping (pc : DeletePc) : Prop := ∀ r, pc.sandbox? = some r → r.status = .stopping

theorem DeleteSandbox.enqueued_goes {d d' : DeleteSandbox} (hd : d.pc.Stopping)
    (h : d.resume reply = some (events, .goto d')) :
    d'.pc.Stopping ∧ (events.map (enqueuedAs label)).sum = 0 := by
  obtain ⟨pc, rfl, hgoes⟩ := goes_of_resume h
  constructor
  · intro r hr
    generalize hpc : d.pc = pc₀ at hgoes hd
    cases hgoes with
    | active => cases hr
    | marked => cases hr
    | stopping r' st => cases hr; exact st
    | picked r' reply dep pick => cases hr; exact hd r rfl
  · unfold resume at h
    split at h
    all_goals try split at h
    all_goals
      simp only [Option.map_eq_some_iff, Option.some.injEq, Prod.mk.injEq, Next.goto.injEq,
        reduceCtorEq, and_false] at h
    all_goals
      first
      | (obtain ⟨rfl, -⟩ := h; rfl)
      | (obtain ⟨-, -, rfl, -⟩ := h; rfl)

theorem DeleteSandbox.enqueued_done {d : DeleteSandbox} (hd : d.pc.Stopping)
    (h : d.resume reply = some (events, .done outcome)) :
    (events.map (enqueuedAs label)).sum = answeredAs label (.deleted d.sandboxId outcome) := by
  unfold resume at h
  split at h
  all_goals try split at h
  all_goals
    simp only [Option.map_eq_some_iff, Option.some.injEq, Prod.mk.injEq, Next.done.injEq,
      reduceCtorEq, and_false, exists_false] at h
  all_goals
    obtain ⟨rfl, rfl⟩ := h
    simp only [answeredAs, Event.answerLabel]
  · simp
  · rename_i r _ hsettled
    have hne : r.status ≠ .stopping := fun hstopping => hsettled (by rw [hstopping]; decide)
    simp [hne]
  · rename_i hne
    simp [hne]
  · simp
  · rename_i r dep _ hpc
    have hstopping : r.status = .stopping := hd r (by rw [hpc]; rfl)
    simp [enqueuedAs, Event.enqueueLabel, hstopping]
  · simp [enqueuedAs, Event.enqueueLabel]
  · simp

end

theorem enqueuedAs_of_emits {proc : Proc} {e : Event} (label : Task × EnqueueOutcome)
    (hcreate : ∀ c, proc ≠ .create c) (hdelete : ∀ d, proc ≠ .delete d)
    (h : proc.emits e = true) : enqueuedAs label e = 0 := by
  cases proc with
  | create c => exact absurd rfl (hcreate c)
  | delete d => exact absurd rfl (hdelete d)
  | _ => cases e <;> first | rfl | cases h

def enqueueLedger (label : Task × EnqueueOutcome) (hlabel : label ≠ (.startSandbox, .error)) :
    Ledger where
  counts := enqueuedAs label
  ends := answeredAs label
  credit _ := 0
  sound proc := ∀ d, proc = .delete d → d.pc.Stopping
  counts_own e h := by cases e <;> first | rfl | cases h
  ends_own e h := by cases e <;> first | rfl | cases h
  opens h := by
    refine ⟨?_, rfl⟩
    rintro d rfl
    obtain ⟨-, hpc⟩ := h.of_delete
    intro r hr
    rw [hpc] at hr
    cases hr
  goes {settings now proc proc' reply events} hs h := by
    have hother := fun hc hd => Ledger.sum_eq_zero fun e he =>
      @enqueuedAs_of_emits proc e label hc hd (Proc.resume_emits h e he)
    have hgoes := Proc.goes_of_resume h
    cases hgoes with
    | create c reply pc goes =>
      obtain ⟨⟨es, next⟩, hx, hx'⟩ := Option.map_eq_some_iff.mp h
      cases next <;> cases hx'
      exact ⟨by simp, CreateSandbox.enqueued_goes hlabel hx⟩
    | delete d reply pc goes =>
      obtain ⟨⟨es, next⟩, hx, hx'⟩ := Option.map_eq_some_iff.mp h
      cases next <;> cases hx'
      obtain ⟨hstopping, hsum⟩ := DeleteSandbox.enqueued_goes (hs d rfl) hx
      refine ⟨?_, hsum⟩
      rintro d' ⟨⟩
      exact hstopping
    | _ => exact ⟨by simp, by rw [hother (by simp) (by simp)]⟩
  done {settings now proc reply events outcome} hs h := by
    have hother := fun hc hd => Ledger.sum_eq_zero fun e he =>
      @enqueuedAs_of_emits proc e label hc hd (Proc.resume_emits h e he)
    cases proc with
    | create c =>
      obtain ⟨⟨es, next⟩, hx, hx'⟩ := Option.map_eq_some_iff.mp h
      cases next <;> cases hx'
      exact CreateSandbox.enqueued_done hx
    | delete d =>
      obtain ⟨⟨es, next⟩, hx, hx'⟩ := Option.map_eq_some_iff.mp h
      cases next <;> cases hx'
      exact DeleteSandbox.enqueued_done (hs d rfl) hx
    | _ => rw [hother (by simp) (by simp)]; rfl

/-! ## `jobs_total` -/

def Event.jobLabel : Event → Option (Task × JobOutcome)
  | .jobs task outcome _ _ => some (task, outcome)
  | _ => none

/-- The labels a job's end stands for. A start that returns "running" or "failed" may only have
found its row so. -/
def Event.resultLabel : Event → Option (Task × JobOutcome)
  | .worked task _ .retry => some (task, .retry)
  | .worked .startSandbox _ (.returned result) =>
    if result = "expired" then some (.startSandbox, .expired) else none
  | .worked .stopSandbox _ (.returned result) =>
    if result = "stopped" then some (.stopSandbox, .success)
    else if result = "failed" then some (.stopSandbox, .failed)
    else none
  | _ => none

def jobsAs (label : Task × JobOutcome) (e : Event) : Nat := if e.jobLabel = some label then 1 else 0

def resultAs (label : Task × JobOutcome) (e : Event) : Nat :=
  if e.resultLabel = some label then 1 else 0

section

variable {settings : Settings} {label : Task × JobOutcome} {reply : Reply} {events : List Event}
  {outcome : End}

theorem StartSandbox.jobs_done {now : Time} {d : StartSandbox}
    (hsuccess : label ≠ (.startSandbox, .success)) (hfailed : label ≠ (.startSandbox, .failed))
    (h : d.resume settings now reply = some (events, .done outcome)) :
    (events.map (jobsAs label)).sum = resultAs label (.worked .startSandbox d.sandboxId outcome) := by
  obtain ⟨o, hcounts, hends⟩ := ends_of_resume h
  generalize d.pc = pc at hends
  have hvalue : ∀ st : SandboxStatus, st.value ≠ "expired" := by
    intro st
    cases st <;> decide
  cases hends with
  | running r url =>
    obtain ⟨waited, rfl⟩ := hcounts
    simp [jobsAs, resultAs, Event.jobLabel, Event.resultLabel, Ne.symm hsuccess]
  | settled r st =>
    obtain rfl := hcounts
    simp [resultAs, Event.resultLabel, hvalue]
  | _ =>
    obtain rfl := hcounts
    simp [jobsAs, resultAs, Event.jobLabel, Event.resultLabel, Ne.symm hfailed]

theorem StopSandbox.jobs_goes {d d' : StopSandbox}
    (h : d.resume settings reply = some (events, .goto d')) :
    (events.map (jobsAs label)).sum = 0 := by
  unfold resume at h
  split at h
  all_goals try split at h
  all_goals
    simp only [Option.some.injEq, Prod.mk.injEq, Next.goto.injEq, reduceCtorEq, and_false] at h
  obtain ⟨rfl, -⟩ := h
  rfl

theorem StopSandbox.jobs_done {d : StopSandbox}
    (h : d.resume settings reply = some (events, .done outcome)) :
    (events.map (jobsAs label)).sum = resultAs label (.worked .stopSandbox d.sandboxId outcome) := by
  unfold resume at h
  split at h
  all_goals try split at h
  all_goals
    simp only [Option.some.injEq, Prod.mk.injEq, Next.done.injEq, reduceCtorEq, and_false] at h
  all_goals
    obtain ⟨rfl, rfl⟩ := h
    simp [jobsAs, resultAs, Event.jobLabel, Event.resultLabel]

end

theorem jobsAs_of_emits {proc : Proc} {e : Event} (label : Task × JobOutcome)
    (hstart : ∀ d, proc ≠ .start d) (hstop : ∀ d, proc ≠ .stop d) (h : proc.emits e = true) :
    jobsAs label e = 0 := by
  cases proc with
  | start d => exact absurd rfl (hstart d)
  | stop d => exact absurd rfl (hstop d)
  | _ => cases e <;> first | rfl | cases h

def jobsLedger (label : Task × JobOutcome) (hsuccess : label ≠ (.startSandbox, .success))
    (hfailed : label ≠ (.startSandbox, .failed)) : Ledger where
  counts := jobsAs label
  ends := resultAs label
  credit _ := 0
  sound _ := True
  counts_own e h := by cases e <;> first | rfl | cases h
  ends_own e h := by cases e <;> first | rfl | cases h
  opens _ := ⟨trivial, rfl⟩
  goes {settings now proc proc' reply events} _ h := by
    refine ⟨trivial, ?_⟩
    have hother := fun hd hd' => Ledger.sum_eq_zero fun e he =>
      @jobsAs_of_emits proc e label hd hd' (Proc.resume_emits h e he)
    have hgoes := Proc.goes_of_resume h
    cases hgoes with
    | start d reply pc goes =>
      obtain ⟨⟨es, next⟩, hx, hx'⟩ := Option.map_eq_some_iff.mp h
      cases next <;> cases hx'
      obtain ⟨-, -, rfl, -⟩ := StartSandbox.goes_of_resume hx
      rfl
    | stop d reply pc goes =>
      obtain ⟨⟨es, next⟩, hx, hx'⟩ := Option.map_eq_some_iff.mp h
      cases next <;> cases hx'
      exact StopSandbox.jobs_goes hx
    | _ => rw [hother (by simp) (by simp)]
  done {settings now proc reply events outcome} _ h := by
    have hother := fun hd hd' => Ledger.sum_eq_zero fun e he =>
      @jobsAs_of_emits proc e label hd hd' (Proc.resume_emits h e he)
    cases proc with
    | start d =>
      obtain ⟨⟨es, next⟩, hx, hx'⟩ := Option.map_eq_some_iff.mp h
      cases next <;> cases hx'
      exact StartSandbox.jobs_done hsuccess hfailed hx
    | stop d =>
      obtain ⟨⟨es, next⟩, hx, hx'⟩ := Option.map_eq_some_iff.mp h
      cases next <;> cases hx'
      exact StopSandbox.jobs_done hx
    | _ => rw [hother (by simp) (by simp)]; rfl

/-! ## Every run -/

theorem World.total_indicator (p : Event → Prop) [DecidablePred p] (w : World) :
    w.total (fun e => if p e then 1 else 0) = w.log.countP fun e => decide (p e) := by
  unfold total
  induction w.log with
  | nil => rfl
  | cons e log ih =>
    rw [List.map_cons, List.sum_cons, ih, List.countP_cons, Nat.add_comm]
    simp only [decide_eq_true_eq]

def isReaped (reason : ReapReason) : Event → Bool
  | .reaped r _ => decide (r = reason)
  | _ => false

theorem World.total_reapedFor (w : World) (reason : ReapReason) :
    w.total (reapedFor reason) = w.log.countP (isReaped reason) := by
  have hfor : reapedFor reason = fun e => if isReaped reason e = true then 1 else 0 := by
    funext e
    cases e <;> simp [reapedFor, isReaped]
  rw [hfor, World.total_indicator]
  simp only [Bool.decide_eq_true]

def SweepsLive (s : State) (a : Action) (_ : State) : Prop :=
  match a with
  | .await pid (.killed _ _) _ => ∀ proc, s.proc pid = some proc → ∀ p, proc ≠ .sweep p
  | _ => True

theorem SweepsLive.spares {reason : ReapReason} {s t : State} {a : Action} (h : SweepsLive s a t) :
    (reapedLedger reason).Spares s a t := by
  unfold Ledger.Spares Ledger.lost
  split
  · rename_i pid effect requeue choice
    cases hp : s.proc pid with
    | none => rfl
    | some proc =>
      have hne := h proc hp
      cases proc with
      | sweep p => exact absurd rfl (hne p)
      | _ => rfl
  · rfl

/-- In every run `sandboxes_reaped_total` is never behind what the sweeps returned and what those
in flight have counted, and it is exactly that while no sweep is killed. -/
theorem reaped_balances (settings : Settings) (now : Time) (containers : Containers)
    (nextObject : Nat) (actions : List Action) (s : State)
    (h : run settings (State.init now containers nextObject) actions = some s)
    (reason : ReapReason) :
    s.world.total (sweptFor reason) + s.credit (Proc.reapedSoFar reason) ≤
        s.world.log.countP (isReaped reason) ∧
      (Along settings SweepsLive (State.init now containers nextObject) actions →
        s.world.log.countP (isReaped reason) =
          s.world.total (sweptFor reason) + s.credit (Proc.reapedSoFar reason)) := by
  have hle := (reapedLedger reason).balance_le h
  have heq := (reapedLedger reason).balance h
  change _ ≤ s.world.total (reapedFor reason) at hle
  change _ → s.world.total (reapedFor reason) = _ at heq
  rw [World.total_reapedFor] at hle heq
  exact ⟨hle, fun hlive => heq (hlive.mono fun _ _ _ => SweepsLive.spares)⟩

/-- A sweep that removes one container without a row, and is still to end. -/
def orphanCounted : List Action := .sweep 0 :: List.replicate 6 (.ok 0)

theorem reaped_balances_orphan : ∃ s : State,
    s.world.log.countP (isReaped .orphan) = 1 ∧ s.world.total (sweptFor .orphan) = 0 ∧
      s.credit (Proc.reapedSoFar .orphan) = 1 := by
  have hrun : (run ⟨4, 4, "localhost"⟩
      (State.init 0 ((KeyedTable.empty.insert ⟨7, 60000000, 0, true, none⟩).getD KeyedTable.empty) 1)
      orphanCounted).any (fun s => decide (s.world.log.countP (isReaped .orphan) = 1) &&
        decide (s.world.total (sweptFor .orphan) = 0)) = true := by decide
  obtain ⟨s, hs, hp⟩ := LabelledRuns.exists_run hrun
  simp only [Bool.and_eq_true, decide_eq_true_eq] at hp
  obtain ⟨hone, hzero⟩ := hp
  have hlive : Along ⟨4, 4, "localhost"⟩ SweepsLive (State.init 0
      ((KeyedTable.empty.insert ⟨7, 60000000, 0, true, none⟩).getD KeyedTable.empty) 1) orphanCounted :=
    (LabelledRuns.along_of_mem (p := fun a => ∀ pid e r choice, a ≠ .await pid (.killed e r) choice)
      (by simp [orphanCounted, Action.ok]) _).mono fun s a t ha => by
        unfold SweepsLive
        split
        · exact absurd rfl (ha _ _ _ _)
        · trivial
  have hbalance := (reaped_balances _ 0 _ 1 orphanCounted s hs .orphan).2 hlive
  refine ⟨s, hone, hzero, ?_⟩
  omega

/-- In every run, for each pair of labels but the start's "error": `jobs_enqueued_total` is the
number of answers that say so. A POST accepted anew is "enqueued", one that replays its key is
"deduplicated", a DELETE answered with a `stopping` row is "enqueued", and its 503 is "error". -/
theorem enqueued_balances (settings : Settings) (now : Time) (containers : Containers)
    (nextObject : Nat) (actions : List Action) (s : State)
    (h : run settings (State.init now containers nextObject) actions = some s)
    (label : Task × EnqueueOutcome) (hlabel : label ≠ (.startSandbox, .error)) :
    s.world.log.countP (fun e => decide (e.enqueueLabel = some label)) =
      s.world.log.countP fun e => decide (e.answerLabel = some label) := by
  have hbalance : s.world.total (enqueuedAs label) = s.world.total (answeredAs label) :=
    (enqueueLedger label hlabel).balance_of_no_credit (fun _ => rfl) h
  unfold enqueuedAs answeredAs at hbalance
  rwa [World.total_indicator, World.total_indicator] at hbalance

theorem enqueued_balances_deleted : ∃ s : State,
    s.world.log.countP (fun e => decide (e.enqueueLabel = some (.stopSandbox, .enqueued))) = 1 := by
  have hrun : (run ⟨1, 4, "localhost"⟩ (State.init 0 KeyedTable.empty 0) postedThenDeleted).any
      (fun s => decide (s.world.log.countP
        (fun e => decide (e.answerLabel = some (.stopSandbox, .enqueued))) = 1)) = true := by decide
  obtain ⟨s, hs, hone⟩ := LabelledRuns.exists_run hrun
  exact ⟨s, (enqueued_balances _ 0 _ 0 _ s hs (.stopSandbox, .enqueued) (by decide)).trans
    (of_decide_eq_true hone)⟩

/-- In every run, for each pair of labels but the start's "success" and "failed": `jobs_total` is
the number of deliveries that ended so. -/
theorem jobs_balances (settings : Settings) (now : Time) (containers : Containers)
    (nextObject : Nat) (actions : List Action) (s : State)
    (h : run settings (State.init now containers nextObject) actions = some s)
    (label : Task × JobOutcome) (hsuccess : label ≠ (.startSandbox, .success))
    (hfailed : label ≠ (.startSandbox, .failed)) :
    s.world.log.countP (fun e => decide (e.jobLabel = some label)) =
      s.world.log.countP fun e => decide (e.resultLabel = some label) := by
  have hbalance : s.world.total (jobsAs label) = s.world.total (resultAs label) :=
    (jobsLedger label hsuccess hfailed).balance_of_no_credit (fun _ => rfl) h
  unfold jobsAs resultAs at hbalance
  rwa [World.total_indicator, World.total_indicator] at hbalance

/-- A launch that fails once is one retry. -/
theorem jobs_balances_retried : ∃ s : State,
    s.world.log.countP (fun e => decide (e.jobLabel = some (.startSandbox, .retry))) = 1 := by
  have hrun : (run ⟨2, 4, "localhost"⟩ (State.init 0 KeyedTable.empty 0)
      (posted 0 1 ++ failedOnce.take 8)).any (fun s => decide (s.world.log.countP
        (fun e => decide (e.resultLabel = some (.startSandbox, .retry))) = 1)) = true := by decide
  obtain ⟨s, hs, hone⟩ := LabelledRuns.exists_run hrun
  exact ⟨s, (jobs_balances _ 0 _ 0 _ s hs (.startSandbox, .retry) (by decide) (by decide)).trans
    (of_decide_eq_true hone)⟩

end SandboxOrchestrator
