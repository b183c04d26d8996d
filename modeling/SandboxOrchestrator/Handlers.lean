import SandboxOrchestrator.System

/-!
# How a handler goes on

`resume` read as a relation: `Goes` lists every reply that takes a handler from one await
to the next, `Ends` every reply that ends it, one constructor for each branch of the
source. Invariants are proved by cases on them.
-/

namespace SandboxOrchestrator

set_option autoImplicit false

/-! ## `POST /sandboxes` -/

namespace CreateSandbox

inductive Goes (cap : Nat) (c : CreateSandbox) : CreatePc → Reply → CreatePc → Prop where
  | unknownKey : Goes cap c .replay (.row none) .capacity
  | admitted (active : Nat) (room : active < cap) : Goes cap c .capacity (.count active) .pick
  | picked (reply : Reply) (d : Deployment) (pick : pickDeployment c.sandboxId reply = some d) :
      Goes cap c .pick reply (.stamp d)
  | stamped (d : Deployment) (now : Time) : Goes cap c (.stamp d) (.time now) (.insert (c.draft d now))
  | inserted (r : Sandbox) : Goes cap c (.insert r) .inserted (.enqueue r)
  | lost (r : Sandbox) (keyed : c.key.isSome) : Goes cap c (.insert r) .integrityError .lostInsert
  | enqueueFailed (r : Sandbox) (e : Exc) : Goes cap c (.enqueue r) (.raised e) (.enqueueFailed r e)

inductive Ends (cap : Nat) (c : CreateSandbox) : CreatePc → Reply → End → Prop where
  | replayed (r : Sandbox) :
      Ends cap c .replay (.row (some r)) (.answered (.accepted (accepted r true)))
  | refused (active : Nat) (full : cap ≤ active) :
      Ends cap c .capacity (.count active) (.answered .capacityReached)
  | taken (r : Sandbox) (keyless : c.key.isSome = false) :
      Ends cap c (.insert r) .integrityError .integrityError
  | replayedWinner (r : Sandbox) :
      Ends cap c .lostInsert (.row (some r)) (.answered (.accepted (accepted r true)))
  | noWinner : Ends cap c .lostInsert (.row none) .integrityError
  | enqueued (r : Sandbox) (b : Bool) :
      Ends cap c (.enqueue r) (.enqueued b) (.answered (.accepted (accepted r false)))
  | unavailable (r : Sandbox) (e : Exc) :
      Ends cap c (.enqueueFailed r e) .done (.answered .unavailable)
  | raised (pc : CreatePc) (e : Exc) : Ends cap c pc (.raised e) (.raised e)

variable {cap : Nat} {c : CreateSandbox} {reply : Reply} {events : List Event}

theorem goes_of_resume {c' : CreateSandbox} (h : c.resume cap reply = some (events, .goto c')) :
    ∃ pc, c' = { c with pc := pc } ∧ Goes cap c c.pc reply pc := by
  unfold resume at h
  split at h
  all_goals try split at h
  all_goals
    simp only [replayed, Option.map_eq_some_iff, Option.some.injEq, Prod.mk.injEq, Next.goto.injEq,
      reduceCtorEq, and_false] at h
  · obtain ⟨-, rfl⟩ := h
    exact ⟨_, rfl, by rw [‹c.pc = _›]; exact .unknownKey⟩
  · obtain ⟨-, rfl⟩ := h
    exact ⟨_, rfl, by rw [‹c.pc = _›]; exact .admitted _ (by omega)⟩
  · obtain ⟨d, hd, -, rfl⟩ := h
    exact ⟨_, rfl, by rw [‹c.pc = _›]; exact .picked _ d hd⟩
  · obtain ⟨-, rfl⟩ := h
    exact ⟨_, rfl, by rw [‹c.pc = _›]; exact .stamped _ _⟩
  · obtain ⟨-, rfl⟩ := h
    exact ⟨_, rfl, by rw [‹c.pc = _›]; exact .inserted _⟩
  · obtain ⟨-, rfl⟩ := h
    exact ⟨_, rfl, by rw [‹c.pc = _›]; exact .lost _ ‹_›⟩
  · obtain ⟨-, rfl⟩ := h
    exact ⟨_, rfl, by rw [‹c.pc = _›]; exact .enqueueFailed _ _⟩

theorem ends_of_resume {outcome : End} (h : c.resume cap reply = some (events, .done outcome)) :
    Ends cap c c.pc reply outcome := by
  unfold resume at h
  split at h
  all_goals try split at h
  all_goals
    simp only [replayed, Option.map_eq_some_iff, Option.some.injEq, Prod.mk.injEq, Next.done.injEq,
      reduceCtorEq, and_false, exists_false] at h
  all_goals
    obtain ⟨-, rfl⟩ := h
    try rw [‹c.pc = _›]
  · exact .replayed _
  · exact .refused _ ‹_›
  · exact .taken _ (by simpa using ‹¬c.key.isSome = true›)
  · exact .replayedWinner _
  · exact .noWinner
  · exact .enqueued _ _
  · exact .unavailable _ _
  · exact .raised _ _

end CreateSandbox

/-! ## `DELETE /sandboxes/{id}` -/

def DeletePc.passes : DeletePc → Bool
  | .get => true
  | .mark => true
  | .refresh => true
  | _ => false

namespace DeleteSandbox

inductive Goes (d : DeleteSandbox) : DeletePc → Reply → DeletePc → Prop where
  | active (r : Sandbox) (st : r.status ∈ activeStatuses) : Goes d .get (.row (some r)) .mark
  | marked (b : Bool) : Goes d .mark (.changed b) .refresh
  | stopping (r : Sandbox) (st : r.status = .stopping) : Goes d .refresh (.row (some r)) (.pick r)
  | picked (r : Sandbox) (reply : Reply) (dep : Deployment)
      (pick : pickDeployment d.sandboxId reply = some dep) : Goes d (.pick r) reply (.enqueue r dep)

inductive Ends (d : DeleteSandbox) : DeletePc → Reply → End → Prop where
  | unknown : Ends d .get (.row none) (.answered .notFound)
  | settled (r : Sandbox) (st : r.status ∉ activeStatuses) :
      Ends d .get (.row (some r)) (.answered (.sandbox r))
  | settledMeanwhile (r : Sandbox) (st : r.status ≠ .stopping) :
      Ends d .refresh (.row (some r)) (.answered (.sandbox r))
  | deleted : Ends d .refresh (.row none) (.raised ⟨"InvalidRequestError", "could not refresh instance"⟩)
  | enqueued (r : Sandbox) (dep : Deployment) (b : Bool) :
      Ends d (.enqueue r dep) (.enqueued b) (.answered (.sandbox r))
  | unavailable (r : Sandbox) (dep : Deployment) (e : Exc) :
      Ends d (.enqueue r dep) (.raised e) (.answered .unavailable)
  | raised (pc : DeletePc) (e : Exc) (passes : pc.passes = true) : Ends d pc (.raised e) (.raised e)

variable {d : DeleteSandbox} {reply : Reply} {events : List Event}

theorem goes_of_resume {d' : DeleteSandbox} (h : d.resume reply = some (events, .goto d')) :
    ∃ pc, d' = { d with pc := pc } ∧ Goes d d.pc reply pc := by
  unfold resume at h
  split at h
  all_goals try split at h
  all_goals
    simp only [Option.map_eq_some_iff, Option.some.injEq, Prod.mk.injEq, Next.goto.injEq,
      reduceCtorEq, and_false] at h
  · obtain ⟨-, rfl⟩ := h
    exact ⟨_, rfl, by rw [‹d.pc = _›]; exact .active _ ‹_›⟩
  · obtain ⟨-, rfl⟩ := h
    exact ⟨_, rfl, by rw [‹d.pc = _›]; exact .marked _⟩
  · obtain ⟨-, rfl⟩ := h
    exact ⟨_, rfl, by rw [‹d.pc = _›]; exact .stopping _ ‹_›⟩
  · obtain ⟨dep, hdep, -, rfl⟩ := h
    exact ⟨_, rfl, by rw [‹d.pc = _›]; exact .picked _ _ dep hdep⟩

theorem ends_of_resume {outcome : End} (h : d.resume reply = some (events, .done outcome)) :
    Ends d d.pc reply outcome := by
  unfold resume at h
  split at h
  all_goals try split at h
  all_goals
    simp only [Option.map_eq_some_iff, Option.some.injEq, Prod.mk.injEq, Next.done.injEq,
      reduceCtorEq, and_false, exists_false] at h
  all_goals
    obtain ⟨-, rfl⟩ := h
    try rw [‹d.pc = _›]
  · exact .unknown
  · exact .settled _ ‹_›
  · exact .settledMeanwhile _ ‹_›
  · exact .deleted
  · exact .enqueued _ _ _
  · exact .unavailable _ _ _
  · refine .raised _ _ ?_
    cases hpc : d.pc <;> first | rfl | simp_all

end DeleteSandbox

/-! ## `start_sandbox` -/

/-- The awaits inside `_launch`: an exception of any of them goes to the failure branch. -/
def StartPc.launching : StartPc → Bool
  | .inspect _ => true
  | .removeLeftover _ _ => true
  | .create _ => true
  | .conflict _ => true
  | .startObject _ _ => true
  | .reload _ _ => true
  | .waitReady _ _ => true
  | _ => false

/-- The awaits whose exception the delivery handles: those of the launch and of `_discard`. -/
def StartPc.handles (pc : StartPc) : Bool := pc.launching ||
  match pc with
  | .discardBroken _ => true
  | .discardUnwanted => true
  | _ => false

def Reply.discarded : Reply → Bool
  | .removed _ => true
  | .raised _ => true
  | _ => false

namespace StartSandbox

inductive Goes (settings : Settings) (d : StartSandbox) : StartPc → Reply → StartPc → Prop where
  | startable (r : Sandbox) (st : r.status ∈ startable) :
      Goes settings d .get (.row (some r)) (.expiryCheck r)
  | late (r : Sandbox) (t : Time) (past : r.expiresAt ≤ t) :
      Goes settings d (.expiryCheck r) (.time t) .expire
  | inTime (r : Sandbox) (t : Time) (ahead : t < r.expiresAt) :
      Goes settings d (.expiryCheck r) (.time t) (.pickUp r)
  | pickedUp (r : Sandbox) : Goes settings d (.pickUp r) (.changed true) (.inspect r)
  | absent (r : Sandbox) : Goes settings d (.inspect r) (.object none) (.create r)
  | reuse (r : Sandbox) (n : Nat) : Goes settings d (.inspect r) (.object (some (n, true))) (.reload r n)
  | leftover (r : Sandbox) (n : Nat) :
      Goes settings d (.inspect r) (.object (some (n, false))) (.removeLeftover r n)
  | cleared (r : Sandbox) (n : Nat) : Goes settings d (.removeLeftover r n) .done (.create r)
  | created (r : Sandbox) (n : Nat) : Goes settings d (.create r) (.objectId n) (.startObject r n)
  | raced (r : Sandbox) : Goes settings d (.create r) .conflict (.conflict r)
  | createRefused (r : Sandbox) (e : Exc) (conflict : e.isConflict = true) :
      Goes settings d (.create r) (.raised e) (.conflict r)
  | startRefused (r : Sandbox) (n : Nat) (e : Exc) (conflict : e.isConflict = true) :
      Goes settings d (.startObject r n) (.raised e) (.conflict r)
  | reuseWinner (r : Sandbox) (n : Nat) (b : Bool) :
      Goes settings d (.conflict r) (.object (some (n, b))) (.reload r n)
  | started (r : Sandbox) (n : Nat) : Goes settings d (.startObject r n) .done (.reload r n)
  | bound (r : Sandbox) (n p : Nat) : Goes settings d (.reload r n) (.port (some p)) (.waitReady r p)
  | ready (r : Sandbox) (p : Nat) :
      Goes settings d (.waitReady r p) .done (.succeed r (launchUrl settings p))
  | launchFailed (pc : StartPc) (reply : Reply) (e : Exc) (launching : pc.launching = true) :
      Goes settings d pc reply (.discardBroken e.reason)
  | retrying (reason : String) (reply : Reply) (discarded : reply.discarded = true)
      (tries : d.jobTry < settings.jobMaxTries) :
      Goes settings d (.discardBroken reason) reply (.retry reason)
  | failing (reason : String) (reply : Reply) (discarded : reply.discarded = true)
      (tries : settings.jobMaxTries ≤ d.jobTry) :
      Goes settings d (.discardBroken reason) reply (.fail reason)
  | unwanted (r : Sandbox) (url : String) :
      Goes settings d (.succeed r url) (.changed false) .discardUnwanted

/-- With the outcome that the end counts in `jobs_total`, if it counts any. -/
inductive Ends (d : StartSandbox) : StartPc → Reply → Option JobOutcome → End → Prop where
  | missing : Ends d .get (.row none) (some .failed) (.returned "missing")
  | settled (r : Sandbox) (st : r.status ∉ startable) :
      Ends d .get (.row (some r)) none (.returned r.status.value)
  | expired (b : Bool) : Ends d .expire (.changed b) (some .expired) (.returned "expired")
  | overtaken (r : Sandbox) : Ends d (.pickUp r) (.changed false) none (.returned "cancelled")
  | retried (reason : String) : Ends d (.retry reason) (.changed true) (some .retry) .retry
  | cancelled (reason : String) : Ends d (.retry reason) (.changed false) none (.returned "cancelled")
  | failed (reason : String) (b : Bool) :
      Ends d (.fail reason) (.changed b) (some .failed) (.returned "failed")
  | running (r : Sandbox) (url : String) :
      Ends d (.succeed r url) (.changed true) (some .success) (.returned "running")
  | discarded (reply : Reply) (discarded : reply.discarded = true) :
      Ends d .discardUnwanted reply none (.returned "cancelled")
  | raised (pc : StartPc) (e : Exc) (other : pc.handles = false) :
      Ends d pc (.raised e) none (.raised e)

def Counts (d : StartSandbox) (outcome : Option JobOutcome) (events : List Event) : Prop :=
  match outcome with
  | none => events = []
  | some .success => ∃ waited, events = [.jobs .startSandbox .success d.pool d.sandboxId,
      .timeToRunning d.pool d.sandboxId waited]
  | some o => events = [.jobs .startSandbox o d.pool d.sandboxId]

variable {settings : Settings} {now : Time} {d : StartSandbox} {reply : Reply} {events : List Event}

theorem goes_of_resume {d' : StartSandbox}
    (h : d.resume settings now reply = some (events, .goto d')) :
    ∃ pc, d' = { d with pc := pc } ∧ events = [] ∧ Goes settings d d.pc reply pc := by
  unfold resume at h
  split at h
  all_goals try split at h
  all_goals
    simp only [StartSandbox.launchFailed, runFailed, afterDiscard, Option.some.injEq, Prod.mk.injEq,
      Next.goto.injEq, reduceCtorEq, and_false] at h
  all_goals
    obtain ⟨rfl, rfl⟩ := h
    refine ⟨_, rfl, rfl, ?_⟩
    rw [‹d.pc = _›]
  · exact .startable _ ‹_›
  · exact .late _ _ ‹_›
  · exact .inTime _ _ (Int.not_le.mp ‹_›)
  · exact .pickedUp _
  · exact .absent _
  · subst ‹_ = true›
    exact .reuse _ _
  · rename_i hb
    rw [Bool.not_eq_true] at hb
    subst hb
    exact .leftover _ _
  · exact .cleared _ _
  · exact .created _ _
  · exact .raced _
  · exact .reuseWinner _ _ _
  · exact .launchFailed _ _ _ rfl
  · exact .started _ _
  · exact .bound _ _ _
  · exact .launchFailed _ _ _ rfl
  · exact .ready _ _
  iterate 5 exact .launchFailed _ _ _ rfl
  · split
    · exact .createRefused _ _ ‹_›
    · exact .launchFailed _ _ _ rfl
  · exact .launchFailed _ _ _ rfl
  · split
    · exact .startRefused _ _ _ ‹_›
    · exact .launchFailed _ _ _ rfl
  iterate 2 exact .launchFailed _ _ _ rfl
  · split
    · exact .retrying _ _ rfl ‹_›
    · exact .failing _ _ rfl (Nat.not_lt.mp ‹_›)
  · split
    · exact .retrying _ _ rfl ‹_›
    · exact .failing _ _ rfl (Nat.not_lt.mp ‹_›)
  · exact .unwanted _ _

theorem ends_of_resume {outcome : End}
    (h : d.resume settings now reply = some (events, .done outcome)) :
    ∃ o, d.Counts o events ∧ Ends d d.pc reply o outcome := by
  unfold resume at h
  split at h
  all_goals try split at h
  all_goals
    simp only [StartSandbox.launchFailed, Option.some.injEq, Prod.mk.injEq, Next.done.injEq,
      reduceCtorEq, and_false] at h
  all_goals
    obtain ⟨rfl, rfl⟩ := h
    try rw [‹d.pc = _›]
  · exact ⟨some .failed, rfl, .missing⟩
  · exact ⟨none, rfl, .settled _ ‹_›⟩
  · exact ⟨some .expired, rfl, .expired _⟩
  · exact ⟨none, rfl, .overtaken _⟩
  · exact ⟨some .retry, rfl, .retried _⟩
  · exact ⟨none, rfl, .cancelled _⟩
  · exact ⟨some .failed, rfl, .failed _ _⟩
  · exact ⟨some .success, ⟨_, rfl⟩, .running _ _⟩
  · exact ⟨none, rfl, .discarded _ rfl⟩
  · exact ⟨none, rfl, .discarded _ rfl⟩
  · refine ⟨none, rfl, .raised _ _ ?_⟩
    cases hpc : d.pc <;> first | rfl | simp_all

end StartSandbox

/-! ## `stop_sandbox` -/

namespace StopSandbox

inductive Goes (d : StopSandbox) : StopPc → Reply → StopPc → Prop where
  | removed (b : Bool) : Goes d .remove (.removed b) .finish

inductive Ends (settings : Settings) (d : StopSandbox) : StopPc → Reply → End → Prop where
  | retried (e : Exc) (tries : d.jobTry < settings.jobMaxTries) :
      Ends settings d .remove (.raised e) .retry
  | failed (e : Exc) (tries : settings.jobMaxTries ≤ d.jobTry) :
      Ends settings d .remove (.raised e) (.returned "failed")
  | stopped (b : Bool) : Ends settings d .finish (.changed b) (.returned "stopped")
  | raised (e : Exc) : Ends settings d .finish (.raised e) (.raised e)

variable {settings : Settings} {d : StopSandbox} {reply : Reply} {events : List Event}

theorem goes_of_resume {d' : StopSandbox} (h : d.resume settings reply = some (events, .goto d')) :
    ∃ pc, d' = { d with pc := pc } ∧ Goes d d.pc reply pc := by
  unfold resume at h
  split at h
  all_goals try split at h
  all_goals
    simp only [Option.some.injEq, Prod.mk.injEq, Next.goto.injEq, reduceCtorEq, and_false] at h
  obtain ⟨-, rfl⟩ := h
  exact ⟨_, rfl, by rw [‹d.pc = _›]; exact .removed _⟩

theorem ends_of_resume {outcome : End} (h : d.resume settings reply = some (events, .done outcome)) :
    Ends settings d d.pc reply outcome := by
  unfold resume at h
  split at h
  all_goals try split at h
  all_goals
    simp only [Option.some.injEq, Prod.mk.injEq, Next.done.injEq, reduceCtorEq, and_false] at h
  all_goals
    obtain ⟨-, rfl⟩ := h
    rw [‹d.pc = _›]
  · exact .retried _ ‹_›
  · exact .failed _ (Nat.not_lt.mp ‹_›)
  · exact .stopped _
  · exact .raised _

end StopSandbox

/-! ## `reconcile_sandboxes` -/

namespace ReconcileSandboxes

inductive Goes : ReconcileSandboxes → Reply → ReconcileSandboxes → Prop where
  | snapshot (n : Reaped) (running : List Uuid) :
      Goes ⟨n, .snapshot⟩ (.ids running) ⟨n, .list running⟩
  | listed (n : Reaped) (running : List Uuid) (cs : List RuntimeSandbox) :
      Goes ⟨n, .list running⟩ (.containers cs) ⟨n, .statuses running cs⟩
  | read (n : Reaped) (running : List Uuid) (cs : List RuntimeSandbox)
      (rows : List (Uuid × SandboxStatus)) :
      Goes ⟨n, .statuses running cs⟩ (.statuses rows) ⟨n, .clock running cs rows⟩
  | clocked (n : Reaped) (running : List Uuid) (cs : List RuntimeSandbox)
      (rows : List (Uuid × SandboxStatus)) (now : Time) :
      Goes ⟨n, .clock running cs rows⟩ (.time now) ⟨n, nextContainer ⟨running, cs, rows, now⟩ cs⟩
  | removed (n : Reaped) (v : Snapshot) (c : RuntimeSandbox) (reason : ReapReason)
      (rest : List RuntimeSandbox) (b : Bool) :
      Goes ⟨n, .remove v c reason rest⟩ (.removed b) ⟨n, .settle v c reason rest⟩
  | settled (n : Reaped) (v : Snapshot) (c : RuntimeSandbox) (reason : ReapReason)
      (rest : List RuntimeSandbox) (b : Bool) :
      Goes ⟨n, .settle v c reason rest⟩ (.changed b) ⟨n.count reason, nextContainer v rest⟩
  | vanished (n : Reaped) (v : Snapshot) (sid : Uuid) (rest : List Uuid) :
      Goes ⟨n, .vanish v sid rest⟩ (.changed true) ⟨n.count .vanished, nextMissing v rest⟩
  | kept (n : Reaped) (v : Snapshot) (sid : Uuid) (rest : List Uuid) :
      Goes ⟨n, .vanish v sid rest⟩ (.changed false) ⟨n, nextMissing v rest⟩

inductive Ends : ReconcileSandboxes → Reply → End → Prop where
  | finished (n : Reaped) (v : Snapshot) : Ends ⟨n, .finishStops v⟩ .done (.swept n)
  | aborted (n : Reaped) (pc : SweepPc) (e : Exc) : Ends ⟨n, pc⟩ (.raised e) (.swept n)

variable {p : ReconcileSandboxes} {reply : Reply} {events : List Event}

theorem goes_of_resume {p' : ReconcileSandboxes} (h : p.resume reply = some (events, .goto p')) :
    Goes p reply p' := by
  obtain ⟨n, pc⟩ := p
  unfold resume at h
  split at h
  all_goals
    simp only [count, Option.some.injEq, Prod.mk.injEq, Next.goto.injEq, reduceCtorEq,
      and_false] at h
  all_goals
    obtain ⟨-, rfl⟩ := h
    subst ‹pc = _›
  · exact .snapshot _ _
  · exact .listed _ _ _
  · exact .read _ _ _ _
  · exact .clocked _ _ _ _ _
  · exact .removed _ _ _ _ _ _
  · exact .settled _ _ _ _ _ _
  · exact .vanished _ _ _ _
  · exact .kept _ _ _ _

theorem ends_of_resume {outcome : End} (h : p.resume reply = some (events, .done outcome)) :
    Ends p reply outcome := by
  obtain ⟨n, pc⟩ := p
  unfold resume at h
  split at h
  all_goals
    simp only [count, Option.some.injEq, Prod.mk.injEq, Next.done.injEq, reduceCtorEq,
      and_false] at h
  all_goals
    obtain ⟨-, rfl⟩ := h
  · subst ‹pc = _›
    exact .finished _ _
  · exact .aborted _ _ _

end ReconcileSandboxes

/-! ## Every handler -/

namespace Proc

inductive Goes (settings : Settings) : Proc → Reply → Proc → Prop where
  | create (c : CreateSandbox) (reply : Reply) (pc : CreatePc)
      (goes : c.Goes settings.sandboxMaxActive c.pc reply pc) :
      Goes settings (.create c) reply (.create { c with pc := pc })
  | delete (d : DeleteSandbox) (reply : Reply) (pc : DeletePc) (goes : d.Goes d.pc reply pc) :
      Goes settings (.delete d) reply (.delete { d with pc := pc })
  | start (d : StartSandbox) (reply : Reply) (pc : StartPc) (goes : d.Goes settings d.pc reply pc) :
      Goes settings (.start d) reply (.start { d with pc := pc })
  | stop (d : StopSandbox) (reply : Reply) (pc : StopPc) (goes : d.Goes d.pc reply pc) :
      Goes settings (.stop d) reply (.stop { d with pc := pc })
  | sweep (p : ReconcileSandboxes) (reply : Reply) (p' : ReconcileSandboxes)
      (goes : p.Goes reply p') : Goes settings (.sweep p) reply (.sweep p')

inductive Ends (settings : Settings) : Proc → Reply → End → Prop where
  | create (c : CreateSandbox) (reply : Reply) (outcome : End)
      (ends : c.Ends settings.sandboxMaxActive c.pc reply outcome) :
      Ends settings (.create c) reply outcome
  | delete (d : DeleteSandbox) (reply : Reply) (outcome : End) (ends : d.Ends d.pc reply outcome) :
      Ends settings (.delete d) reply outcome
  | put (p : PutRollout) (reply : Reply) (response : Response) :
      Ends settings (.put p) reply (.answered response)
  | start (d : StartSandbox) (reply : Reply) (counted : Option JobOutcome) (outcome : End)
      (ends : d.Ends d.pc reply counted outcome) : Ends settings (.start d) reply outcome
  | stop (d : StopSandbox) (reply : Reply) (outcome : End) (ends : d.Ends settings d.pc reply outcome) :
      Ends settings (.stop d) reply outcome
  | sweep (p : ReconcileSandboxes) (reply : Reply) (outcome : End) (ends : p.Ends reply outcome) :
      Ends settings (.sweep p) reply outcome

variable {settings : Settings} {now : Time} {proc : Proc} {reply : Reply} {events : List Event}

theorem goes_of_resume {proc' : Proc}
    (h : proc.resume settings now reply = some (events, .goto proc')) :
    Goes settings proc reply proc' := by
  cases proc with
  | create c =>
    obtain ⟨⟨es, next⟩, hx, hx'⟩ := Option.map_eq_some_iff.mp h
    cases next with
    | goto c' =>
      cases hx'
      obtain ⟨pc, rfl, hg⟩ := CreateSandbox.goes_of_resume hx
      exact .create c reply pc hg
    | done => cases hx'
  | delete d =>
    obtain ⟨⟨es, next⟩, hx, hx'⟩ := Option.map_eq_some_iff.mp h
    cases next with
    | goto d' =>
      cases hx'
      obtain ⟨pc, rfl, hg⟩ := DeleteSandbox.goes_of_resume hx
      exact .delete d reply pc hg
    | done => cases hx'
  | put p =>
    obtain ⟨⟨es, next⟩, hx, hx'⟩ := Option.map_eq_some_iff.mp h
    cases next with
    | goto p' =>
      unfold PutRollout.resume at hx
      split at hx <;> simp at hx
    | done => cases hx'
  | start d =>
    obtain ⟨⟨es, next⟩, hx, hx'⟩ := Option.map_eq_some_iff.mp h
    cases next with
    | goto d' =>
      cases hx'
      obtain ⟨pc, rfl, -, hg⟩ := StartSandbox.goes_of_resume hx
      exact .start d reply pc hg
    | done => cases hx'
  | stop d =>
    obtain ⟨⟨es, next⟩, hx, hx'⟩ := Option.map_eq_some_iff.mp h
    cases next with
    | goto d' =>
      cases hx'
      obtain ⟨pc, rfl, hg⟩ := StopSandbox.goes_of_resume hx
      exact .stop d reply pc hg
    | done => cases hx'
  | sweep p =>
    obtain ⟨⟨es, next⟩, hx, hx'⟩ := Option.map_eq_some_iff.mp h
    cases next with
    | goto p' =>
      cases hx'
      exact .sweep p reply p' (ReconcileSandboxes.goes_of_resume hx)
    | done => cases hx'

theorem ends_of_resume {outcome : End}
    (h : proc.resume settings now reply = some (events, .done outcome)) :
    Ends settings proc reply outcome := by
  cases proc with
  | create c =>
    obtain ⟨⟨es, next⟩, hx, hx'⟩ := Option.map_eq_some_iff.mp h
    cases next with
    | goto c' => cases hx'
    | done => cases hx'; exact .create c reply outcome (CreateSandbox.ends_of_resume hx)
  | delete d =>
    obtain ⟨⟨es, next⟩, hx, hx'⟩ := Option.map_eq_some_iff.mp h
    cases next with
    | goto d' => cases hx'
    | done => cases hx'; exact .delete d reply outcome (DeleteSandbox.ends_of_resume hx)
  | put p =>
    obtain ⟨⟨es, next⟩, hx, hx'⟩ := Option.map_eq_some_iff.mp h
    cases next with
    | goto p' => cases hx'
    | done =>
      cases hx'
      unfold PutRollout.resume at hx
      split at hx <;> simp only [Option.some.injEq, Prod.mk.injEq, Next.done.injEq, reduceCtorEq] at hx
      all_goals
        obtain ⟨-, rfl⟩ := hx
        exact .put p _ _
  | start d =>
    obtain ⟨⟨es, next⟩, hx, hx'⟩ := Option.map_eq_some_iff.mp h
    cases next with
    | goto d' => cases hx'
    | done =>
      cases hx'
      obtain ⟨o, -, he⟩ := StartSandbox.ends_of_resume hx
      exact .start d reply o outcome he
  | stop d =>
    obtain ⟨⟨es, next⟩, hx, hx'⟩ := Option.map_eq_some_iff.mp h
    cases next with
    | goto d' => cases hx'
    | done => cases hx'; exact .stop d reply outcome (StopSandbox.ends_of_resume hx)
  | sweep p =>
    obtain ⟨⟨es, next⟩, hx, hx'⟩ := Option.map_eq_some_iff.mp h
    cases next with
    | goto p' => cases hx'
    | done => cases hx'; exact .sweep p reply outcome (ReconcileSandboxes.ends_of_resume hx)

theorem Goes.of_create {old : Proc} {c : CreateSandbox} (h : Goes settings old reply (.create c)) :
    ∃ c₀ pc, old = .create c₀ ∧ c = { c₀ with pc := pc } ∧
      c₀.Goes settings.sandboxMaxActive c₀.pc reply pc := by
  cases h with
  | create c₀ reply pc goes => exact ⟨c₀, pc, rfl, rfl, goes⟩

theorem Goes.of_start {old : Proc} {d : StartSandbox} (h : Goes settings old reply (.start d)) :
    ∃ d₀ pc, old = .start d₀ ∧ d = { d₀ with pc := pc } ∧ d₀.Goes settings d₀.pc reply pc := by
  cases h with
  | start d₀ reply pc goes => exact ⟨d₀, pc, rfl, rfl, goes⟩

theorem Goes.of_sweep {old : Proc} {p : ReconcileSandboxes}
    (h : Goes settings old reply (.sweep p)) : ∃ p₀, old = .sweep p₀ ∧ p₀.Goes reply p := by
  cases h with
  | sweep p₀ reply p' goes => exact ⟨p₀, rfl, goes⟩

/-! ## What a handler asks for -/

inductive Asks : Proc → Request → Prop where
  | replay (body : SandboxCreate) (key : IdempotencyKey) (sid : Uuid) :
      Asks (.create ⟨body, some key, sid, .replay⟩) (.replay key)
  | noReplay (body : SandboxCreate) (sid : Uuid) :
      Asks (.create ⟨body, none, sid, .replay⟩) .countActive
  | capacity (body : SandboxCreate) (key : Option IdempotencyKey) (sid : Uuid) :
      Asks (.create ⟨body, key, sid, .capacity⟩) .countActive
  | pick (body : SandboxCreate) (key : Option IdempotencyKey) (sid : Uuid) :
      Asks (.create ⟨body, key, sid, .pick⟩) .getWeight
  | stamp (body : SandboxCreate) (key : Option IdempotencyKey) (sid : Uuid) (d : Deployment) :
      Asks (.create ⟨body, key, sid, .stamp d⟩) .clock
  | insert (body : SandboxCreate) (key : Option IdempotencyKey) (sid : Uuid) (r : Sandbox) :
      Asks (.create ⟨body, key, sid, .insert r⟩) (.insert r)
  | replayWinner (body : SandboxCreate) (key : IdempotencyKey) (sid : Uuid) :
      Asks (.create ⟨body, some key, sid, .lostInsert⟩) (.replay key)
  | noWinner (body : SandboxCreate) (sid : Uuid) :
      Asks (.create ⟨body, none, sid, .lostInsert⟩) .countActive
  | enqueueStart (body : SandboxCreate) (key : Option IdempotencyKey) (sid : Uuid) (r : Sandbox) :
      Asks (.create ⟨body, key, sid, .enqueue r⟩) (.enqueue (CreateSandbox.startJob r))
  | markFailed (body : SandboxCreate) (key : Option IdempotencyKey) (sid : Uuid) (r : Sandbox)
      (e : Exc) :
      Asks (.create ⟨body, key, sid, .enqueueFailed r e⟩) (.markFailed r.id ("enqueue: " ++ e.name))
  | getDeleted (sid : Uuid) : Asks (.delete ⟨sid, .get⟩) (.get sid)
  | mark (sid : Uuid) :
      Asks (.delete ⟨sid, .mark⟩) (.transition sid activeStatuses { status := .stopping })
  | refresh (sid : Uuid) : Asks (.delete ⟨sid, .refresh⟩) (.get sid)
  | pickStop (sid : Uuid) (r : Sandbox) : Asks (.delete ⟨sid, .pick r⟩) .getWeight
  | enqueueStop (sid : Uuid) (r : Sandbox) (d : Deployment) :
      Asks (.delete ⟨sid, .enqueue r d⟩) (.enqueue (DeleteSandbox.stopJob sid d))
  | setWeight (p : PutRollout) : Asks (.put p) (.setWeight p.canaryWeight)
  | getStarted (sid : Uuid) (jobTry : Nat) (pool : Deployment) :
      Asks (.start ⟨sid, jobTry, pool, .get⟩) (.get sid)
  | expiryCheck (sid : Uuid) (jobTry : Nat) (pool : Deployment) (r : Sandbox) :
      Asks (.start ⟨sid, jobTry, pool, .expiryCheck r⟩) .clock
  | expire (sid : Uuid) (jobTry : Nat) (pool : Deployment) :
      Asks (.start ⟨sid, jobTry, pool, .expire⟩)
        (.transition sid startable { status := .stopped, error := some (some "expired") })
  | pickUp (sid : Uuid) (jobTry : Nat) (pool : Deployment) (r : Sandbox) :
      Asks (.start ⟨sid, jobTry, pool, .pickUp r⟩)
        (.transition sid startable { status := .starting, attempts := some jobTry })
  | inspect (sid : Uuid) (jobTry : Nat) (pool : Deployment) (r : Sandbox) :
      Asks (.start ⟨sid, jobTry, pool, .inspect r⟩) (.inspect sid)
  | removeLeftover (sid : Uuid) (jobTry : Nat) (pool : Deployment) (r : Sandbox) (n : Nat) :
      Asks (.start ⟨sid, jobTry, pool, .removeLeftover r n⟩) (.removeObject sid n)
  | create (sid : Uuid) (jobTry : Nat) (pool : Deployment) (r : Sandbox) :
      Asks (.start ⟨sid, jobTry, pool, .create r⟩) (.create sid r.expiresAt)
  | conflict (sid : Uuid) (jobTry : Nat) (pool : Deployment) (r : Sandbox) :
      Asks (.start ⟨sid, jobTry, pool, .conflict r⟩) (.inspect sid)
  | startObject (sid : Uuid) (jobTry : Nat) (pool : Deployment) (r : Sandbox) (n : Nat) :
      Asks (.start ⟨sid, jobTry, pool, .startObject r n⟩) (.startObject sid n)
  | reload (sid : Uuid) (jobTry : Nat) (pool : Deployment) (r : Sandbox) (n : Nat) :
      Asks (.start ⟨sid, jobTry, pool, .reload r n⟩) (.reload sid n)
  | probe (sid : Uuid) (jobTry : Nat) (pool : Deployment) (r : Sandbox) (hostPort : Nat) :
      Asks (.start ⟨sid, jobTry, pool, .waitReady r hostPort⟩) .probe
  | discardBroken (sid : Uuid) (jobTry : Nat) (pool : Deployment) (reason : String) :
      Asks (.start ⟨sid, jobTry, pool, .discardBroken reason⟩) (.remove sid)
  | retry (sid : Uuid) (jobTry : Nat) (pool : Deployment) (reason : String) :
      Asks (.start ⟨sid, jobTry, pool, .retry reason⟩)
        (.transition sid [.starting] { status := .queued, error := some (some reason) })
  | fail (sid : Uuid) (jobTry : Nat) (pool : Deployment) (reason : String) :
      Asks (.start ⟨sid, jobTry, pool, .fail reason⟩)
        (.transition sid [.starting] { status := .failed, error := some (some reason) })
  | succeed (sid : Uuid) (jobTry : Nat) (pool : Deployment) (r : Sandbox) (url : String) :
      Asks (.start ⟨sid, jobTry, pool, .succeed r url⟩)
        (.transition sid [.starting]
          { status := .running, url := some (some url), error := some none })
  | discardUnwanted (sid : Uuid) (jobTry : Nat) (pool : Deployment) :
      Asks (.start ⟨sid, jobTry, pool, .discardUnwanted⟩) (.remove sid)
  | removeStopped (sid : Uuid) (jobTry : Nat) (pool : Deployment) :
      Asks (.stop ⟨sid, jobTry, pool, .remove⟩) (.remove sid)
  | finish (sid : Uuid) (jobTry : Nat) (pool : Deployment) :
      Asks (.stop ⟨sid, jobTry, pool, .finish⟩) (.transition sid [.stopping] { status := .stopped })
  | selectRunning (n : Reaped) : Asks (.sweep ⟨n, .snapshot⟩) .selectRunning
  | listSandboxes (n : Reaped) (running : List Uuid) : Asks (.sweep ⟨n, .list running⟩) .listSandboxes
  | selectStatuses (n : Reaped) (running : List Uuid) (cs : List RuntimeSandbox) :
      Asks (.sweep ⟨n, .statuses running cs⟩) (.selectStatuses (cs.map (·.sandboxId)))
  | clock (n : Reaped) (running : List Uuid) (cs : List RuntimeSandbox)
      (rows : List (Uuid × SandboxStatus)) : Asks (.sweep ⟨n, .clock running cs rows⟩) .clock
  | remove (n : Reaped) (v : Snapshot) (c : RuntimeSandbox) (reason : ReapReason)
      (rest : List RuntimeSandbox) : Asks (.sweep ⟨n, .remove v c reason rest⟩) (.remove c.sandboxId)
  | settle (n : Reaped) (v : Snapshot) (c : RuntimeSandbox) (reason : ReapReason)
      (rest : List RuntimeSandbox) :
      Asks (.sweep ⟨n, .settle v c reason rest⟩)
        (.transition c.sandboxId activeStatuses { status := .stopped })
  | vanish (n : Reaped) (v : Snapshot) (sid : Uuid) (rest : List Uuid) :
      Asks (.sweep ⟨n, .vanish v sid rest⟩)
        (.transition sid [.running]
          { status := .failed, error := some (some "container disappeared") })
  | finishStops (n : Reaped) (v : Snapshot) :
      Asks (.sweep ⟨n, .finishStops v⟩) (.finishStops v.live)

theorem asks (proc : Proc) : proc.Asks proc.request := by
  cases proc with
  | create c =>
    obtain ⟨body, key, sid, pc⟩ := c
    cases pc with
    | replay => cases key <;> constructor
    | lostInsert => cases key <;> constructor
    | _ => constructor
  | delete d =>
    obtain ⟨sid, pc⟩ := d
    cases pc <;> constructor
  | put p => exact .setWeight p
  | start d =>
    obtain ⟨sid, jobTry, pool, pc⟩ := d
    cases pc <;> constructor
  | stop d =>
    obtain ⟨sid, jobTry, pool, pc⟩ := d
    cases pc <;> constructor
  | sweep p =>
    obtain ⟨n, pc⟩ := p
    cases pc <;> constructor

theorem asks_of {proc : Proc} {request : Request} (h : proc.request = request) :
    proc.Asks request :=
  h ▸ proc.asks

/-! ## The job a delivery executes -/

theorem job_ofJob {job : Job} : (ofJob job).job? = some job := by
  obtain ⟨task, sid, queue, jobTry⟩ := job
  cases task <;> rfl

theorem Goes.job_eq {old : Proc} (h : Goes settings old reply proc) : proc.job? = old.job? := by
  cases h <;> rfl

end Proc

end SandboxOrchestrator
