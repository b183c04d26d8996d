import SandboxOrchestrator.Launch

/-!
# Handlers that do not overlap

The two disciplines under which the reaper can be trusted: one sweep at a time, each run
to its end, and one delivery of each start job at a time.
-/

namespace SandboxOrchestrator

set_option autoImplicit false

def Proc.isSweep : Proc → Bool
  | .sweep _ => true
  | _ => false

def Proc.startsOf (sid : Uuid) : Proc → Bool
  | .start d => decide (d.sandboxId = sid)
  | _ => false

/-- A sweep starts when no other is in flight, and all its calls succeed. -/
def sweepsApart (s : State) : Action → Bool
  | .sweep _ => s.procs.rows.all fun e => !e.2.isSweep
  | .await pid how _ =>
    match s.proc pid with
    | some proc => !proc.isSweep || decide (how = .ok)
    | none => true
  | _ => true

/-- A start job is delivered when no other delivery of it is in flight. -/
def startsApart (s : State) : Action → Bool
  | .deliver _ job =>
    decide (job.task = .stopSandbox) || s.procs.rows.all fun e => !e.2.startsOf job.sandboxId
  | .redeliver _ job =>
    decide (job.task = .stopSandbox) || s.procs.rows.all fun e => !e.2.startsOf job.sandboxId
  | _ => true

theorem Proc.isSweep_iff {proc : Proc} : proc.isSweep = true ↔ ∃ p, proc = .sweep p := by
  cases proc <;> simp [isSweep]

theorem Proc.startsOf_iff {sid : Uuid} {proc : Proc} :
    proc.startsOf sid = true ↔ ∃ d, proc = .start d ∧ d.sandboxId = sid := by
  cases proc <;> simp [startsOf]

theorem Proc.startsOf_of_inSection {sid : Uuid} {proc : Proc} (h : proc.inSection sid = true) :
    proc.startsOf sid = true := by
  obtain ⟨d, rfl, hid, -⟩ := inSection_iff.mp h
  exact startsOf_iff.mpr ⟨d, rfl, hid⟩

def SweepSole (s : State) : Prop :=
  ∀ p q x y, s.proc p = some x → s.proc q = some y → x.isSweep = true → y.isSweep = true → p = q

def StartSole (sid : Uuid) (s : State) : Prop :=
  ∀ p q x y, s.proc p = some x → s.proc q = some y → x.startsOf sid = true →
    y.startsOf sid = true → p = q

theorem Came.isSweep {settings : Settings} {s t : State} {a : Action} {p : Nat} {proc : Proc}
    (h : Came settings s t a p proc) (hs : proc.isSweep = true) :
    (∃ old, s.proc p = some old ∧ old.isSweep = true) ∨ a = .sweep p := by
  cases h with
  | stayed found => exact .inl ⟨proc, found, hs⟩
  | spawned world drawn spawn =>
    obtain ⟨q, rfl⟩ := Proc.isSweep_iff.mp hs
    exact .inr spawn.of_sweep.1
  | resumed how choice old events isAwait found lives goes =>
    cases goes with
    | sweep p reply p' goes => exact .inl ⟨_, found, rfl⟩
    | _ => cases hs

theorem Came.startsOf {settings : Settings} {s t : State} {a : Action} {sid : Uuid} {p : Nat}
    {proc : Proc} (h : Came settings s t a p proc) (hs : proc.startsOf sid = true) :
    (∃ old, s.proc p = some old ∧ old.startsOf sid = true) ∨
      ∃ job, (a = .deliver p job ∨ a = .redeliver p job) ∧ job.task = .startSandbox ∧
        job.sandboxId = sid := by
  cases h with
  | stayed found => exact .inl ⟨proc, found, hs⟩
  | spawned world drawn spawn =>
    obtain ⟨d, rfl, hid⟩ := Proc.startsOf_iff.mp hs
    obtain ⟨job, ha, htask, rfl⟩ := spawn.of_start
    exact .inr ⟨job, ha, htask, hid⟩
  | resumed how choice old events isAwait found lives goes =>
    cases goes with
    | start d reply pc goes => exact .inl ⟨_, found, hs⟩
    | _ => cases hs

theorem sweepSole_step {settings : Settings} {s t : State} {a : Action} (hs : SweepSole s)
    (ha : sweepsApart s a = true) (h : Stepped settings s t a) : SweepSole t := by
  have hnone : ∀ {p q x}, a = .sweep p → s.proc q = some x → x.isSweep = true → False := by
    rintro p q x rfl hq hx
    have := List.all_eq_true.mp ha (q, x) (State.mem_procs_iff.mpr hq)
    simp [hx] at this
  intro p q x y hp hq hx hy
  rcases (h.came hp).isSweep hx with ⟨x', hp', hx'⟩ | hpa <;>
  rcases (h.came hq).isSweep hy with ⟨y', hq', hy'⟩ | hqa
  · exact hs p q x' y' hp' hq' hx' hy'
  · exact (hnone hqa hp' hx').elim
  · exact (hnone hpa hq' hy').elim
  · cases hpa.symm.trans hqa
    rfl

theorem startSole_of_alone {settings : Settings} {sid : Uuid} {s t : State} {a : Action}
    (hs : StartSole sid s)
    (ha : ∀ p job, (a = .deliver p job ∨ a = .redeliver p job) → job.task = .startSandbox →
      job.sandboxId = sid → s.procs.rows.all (fun e => !e.2.startsOf sid) = true)
    (h : Stepped settings s t a) : StartSole sid t := by
  have hnone : ∀ {p q x job}, (a = .deliver p job ∨ a = .redeliver p job) →
      job.task = .startSandbox → job.sandboxId = sid → s.proc q = some x → x.startsOf sid = true →
      False := by
    intro p q x job hjob htask hid hq hx
    have := List.all_eq_true.mp (ha p job hjob htask hid) (q, x) (State.mem_procs_iff.mpr hq)
    simp [hx] at this
  intro p q x y hp hq hx hy
  rcases (h.came hp).startsOf hx with ⟨x', hp', hx'⟩ | ⟨job, hpa, htask, hid⟩ <;>
  rcases (h.came hq).startsOf hy with ⟨y', hq', hy'⟩ | ⟨job', hqa, htask', hid'⟩
  · exact hs p q x' y' hp' hq' hx' hy'
  · exact (hnone hqa htask' hid' hp' hx').elim
  · exact (hnone hpa htask hid hq' hy').elim
  · rcases hpa with rfl | rfl <;> rcases hqa with ha' | ha' <;> cases ha' <;> rfl

theorem startSole_step {settings : Settings} {sid : Uuid} {s t : State} {a : Action}
    (hs : StartSole sid s) (ha : startsApart s a = true) (h : Stepped settings s t a) :
    StartSole sid t := by
  refine startSole_of_alone hs (fun p job hjob htask hid => ?_) h
  subst hid
  rcases hjob with rfl | rfl <;> simpa [startsApart, htask] using ha

theorem ok_of_sweepsApart {s : State} {pid : Nat} {how : How} {choice : Choice}
    {p : ReconcileSandboxes} (h : sweepsApart s (.await pid how choice) = true)
    (hp : s.proc pid = some (.sweep p)) : how = .ok := by
  simpa [sweepsApart, hp, Proc.isSweep] using h

end SandboxOrchestrator
