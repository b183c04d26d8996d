import SandboxOrchestrator.AnswersKept
import SandboxOrchestrator.AuditTrail
import SandboxOrchestrator.NoResurrection

/-!
# What `sandbox_time_to_running_seconds` measures

A delivery observes it behind its RUNNING write, with the `created_at` it read before the
launch. However many tries and deliveries there were, that is the time from the row's
creation to the write that made it run.
-/

namespace SandboxOrchestrator

set_option autoImplicit false

open Trails

structure Measured (s : State) : Prop where
  reads : ∀ pid d r, s.proc pid = some (.start d) → d.pc.sandbox? = some r →
    s.world.Seen d.sandboxId r
  observed : ∀ pool sid waited, .timeToRunning pool sid waited ∈ s.world.log →
    ∃ r at_, s.world.row sid = some r ∧
      .wrote .startSandbox sid .starting .running at_ ∈ s.world.log ∧ waited = at_ - r.createdAt

theorem measured_init (now : Time) (containers : Containers) (nextObject : Nat) :
    Measured (State.init now containers nextObject) where
  reads _ _ _ h := by cases h
  observed _ _ _ h := by cases h

section

variable {settings : Settings} {s t : State} {a : Action}

theorem Measured.reads_step (hs : Measured s) (hst : Stepped settings s t a) {pid : Nat}
    {d : StartSandbox} {r : Sandbox} (hp : t.proc pid = some (.start d))
    (hr : d.pc.sandbox? = some r) : t.world.Seen d.sandboxId r := by
  have hf := hst.forward
  cases hst.came hp with
  | stayed found => exact (hs.reads pid d r found hr).forward hf
  | spawned world drawn spawn =>
    generalize hproc : Proc.start d = proc at spawn
    cases spawn with
    | deliver _ job =>
      obtain ⟨task, sid, queue, jobTry⟩ := job
      cases task <;> cases hproc
      cases hr
    | redeliver _ job =>
      obtain ⟨task, sid, queue, jobTry⟩ := job
      cases task <;> cases hproc
      cases hr
    | _ => cases hproc
  | resumed how choice old events isAwait found lives goes =>
    obtain ⟨d₀, pc, rfl, rfl, hgoes⟩ := goes.of_start
    rcases StartSandbox.sandbox_of_goes hgoes hr with hold | ⟨hpc, hreply⟩
    · exact (hs.reads pid d₀ r found hold).forward hf
    · have hrequest : (Proc.start d₀).request = .get d₀.sandboxId := by
        simp [Proc.request, StartSandbox.request, hpc]
      rw [hrequest] at hreply
      have hrow := World.row_of_get lives hreply
      exact World.Seen.forward ⟨r, hrow, .refl r⟩ hf

theorem World.wrote_of_changed {w : World} {actor : Actor} {how : How} {choice : Choice} {sid : Uuid}
    {from_ : List SandboxStatus} {v : Values} {r : Sandbox} (lives : ∀ e r, how ≠ .killed e r)
    (h : w.reply actor how choice (.transition sid from_ v) = .changed true)
    (hr : w.row sid = some r) (hst : r.status ∈ from_) :
    .wrote actor sid r.status v.status w.now ∈
      (w.after actor how choice (.transition sid from_ v)).log := by
  rw [(World.after_of_reply lives h (by simp)).1]
  change _ ∈ (w.update actor (guard sid from_) v).1.log
  refine List.mem_append_left _ (List.mem_map.mpr ⟨r, List.mem_filter.mpr ⟨?_, ?_⟩, ?_⟩)
  · rw [World.mem_rows_iff, World.row_id hr]
    exact hr
  · simp [guard, World.row_id hr, hst]
  · rw [World.row_id hr]

theorem Measured.observed_step (hs : Measured s) (hst : Stepped settings s t a) {pool : Deployment}
    {sid : Uuid} {waited : Time} (he : .timeToRunning pool sid waited ∈ t.world.log) :
    ∃ r at_, t.world.row sid = some r ∧
      .wrote .startSandbox sid .starting .running at_ ∈ t.world.log ∧ waited = at_ - r.createdAt := by
  rcases hst.mem_log_of_own rfl (by simp) he with
    hold | ⟨pid, how, choice, proc, events, next, rfl, found, lives, resume, hown | ⟨_, -, -, hend⟩⟩
  · obtain ⟨r, at_, hr, hwrote, hwaited⟩ := hs.observed pool sid waited hold
    obtain ⟨r', hr', hfr⟩ := hst.forward _ _ hr
    exact ⟨r', at_, hr', hst.logChange.mono hwrote, by rw [hwaited, hfr.created]⟩
  · cases proc with
    | start d =>
      obtain ⟨⟨es, next'⟩, hresume, hx⟩ := Option.map_eq_some_iff.mp resume
      obtain rfl : es = events := (Prod.mk.inj hx).1
      rcases StartSandbox.resume_events hresume with hother | ⟨sandbox, url, hpc, hreply, rfl⟩
      · obtain ⟨outcome, -, hjobs⟩ := hother _ hown
        cases hjobs
      · obtain ⟨rfl, rfl, rfl⟩ : pool = d.pool ∧ sid = d.sandboxId ∧
            waited = s.world.now - sandbox.createdAt := by simpa using hown
        obtain ⟨sid, jobTry, pool, pc⟩ := d
        obtain rfl := hpc
        obtain ⟨r, hr, hst', hafter⟩ := World.changed_true lives hreply
        have hstarting := List.mem_singleton.mp hst'
        have hwrote := World.wrote_of_changed lives hreply hr hst'
        rw [hstarting] at hwrote
        obtain ⟨r', hr', hfr⟩ := hs.reads pid _ sandbox found rfl
        cases hr.symm.trans hr'
        refine ⟨_, s.world.now, ((hst.called found).1 sid).trans hafter,
          hst.log_of_after found hwrote, ?_⟩
        change _ = s.world.now - r.createdAt
        rw [hfr.created]
    | _ =>
      have hemits := Proc.resume_emits resume _ hown
      cases hemits
  · cases proc <;> cases hend

theorem measured_step (hs : Measured s) (h : step settings s a = some t) : Measured t where
  reads _ _ _ hp hr := hs.reads_step (stepped h) hp hr
  observed _ _ _ he := hs.observed_step (stepped h) he

end

theorem mem_trail {sid : Uuid} {actor : Actor} {old new : SandboxStatus} {at_ : Time}
    {log : List Event} (h : .wrote actor sid old new at_ ∈ log) :
    ⟨actor, old, new, at_⟩ ∈ trail sid log :=
  List.mem_filterMap.mpr ⟨_, h, by simp [Event.write?]⟩

/-- After every run each observation of `sandbox_time_to_running_seconds` is the time from the
`created_at` of its sandbox's row to a committed write that took it from `starting` to `running`,
so it is not negative and no longer than the row has been there. -/
theorem time_to_running (settings : Settings) (now : Time) (containers : Containers)
    (nextObject : Nat) (actions : List Action) (s : State)
    (h : run settings (State.init now containers nextObject) actions = some s)
    (pool : Deployment) (sid : Uuid) (waited : Time)
    (he : .timeToRunning pool sid waited ∈ s.world.log) :
    ∃ r at_, s.world.row sid = some r ∧
      .wrote .startSandbox sid .starting .running at_ ∈ s.world.log ∧ waited = at_ - r.createdAt ∧
      0 ≤ waited ∧ r.createdAt + waited ≤ r.updatedAt ∧ r.updatedAt ≤ s.world.now := by
  obtain ⟨-, haudited, hmeasured⟩ : Provenance s ∧ Audited s ∧ Measured s :=
    LabelledRuns.always (I := fun s => Provenance s ∧ Audited s ∧ Measured s)
      (fun s a t hs (h : step settings s a = some t) =>
        ⟨provenance_step hs.1 h, audited_step hs.1 hs.2.1 h, measured_step hs.2.2 h⟩)
      ⟨provenance_init .., audited_init .., measured_init ..⟩ h
  obtain ⟨r, at_, hr, hwrote, rfl⟩ := hmeasured.observed pool sid waited he
  obtain ⟨htrail, hnow⟩ := haudited.rows sid r hr
  have htime : r.createdAt ≤ at_ ∧ at_ ≤ r.updatedAt := htrail.time_le (mem_trail hwrote)
  refine ⟨r, at_, hr, hwrote, rfl, ?_, ?_, hnow⟩
  · exact Int.sub_nonneg_of_le htime.1
  · rw [Int.add_comm, Int.sub_add_cancel]
    exact htime.2

/-- Five seconds in the queue are in the observation. -/
theorem time_to_running_queued : ∃ (s : State) (r : Sandbox) (at_ : Time),
    s.world.row 1 = some r ∧
      .wrote .startSandbox 1 .starting .running at_ ∈ s.world.log ∧ 5000000 = at_ - r.createdAt := by
  have hrun : (run ⟨3, 4, "localhost"⟩ (State.init 0 KeyedTable.empty 0)
      (posted 0 1 ++ .ok 0 :: .tick 5000000 :: started 1 1)).any
      (fun s => decide (.timeToRunning .stable 1 5000000 ∈ s.world.log)) = true := by decide
  obtain ⟨s, hs, he⟩ := LabelledRuns.exists_run hrun
  obtain ⟨r, at_, hr, hwrote, hwaited, -⟩ :=
    time_to_running _ 0 _ 0 _ s hs .stable 1 5000000 (of_decide_eq_true he)
  exact ⟨s, r, at_, hr, hwrote, hwaited⟩

end SandboxOrchestrator
