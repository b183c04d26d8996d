import SandboxOrchestrator.Posting

/-!
# The failure write of a POST

When the enqueue raises, `create_sandbox` fails its row without looking at the status. Redis
may have accepted the job all the same, so a worker, or a DELETE, can have moved the row by
then. The write spares them exactly when no such claim on the row stands: what matters is what
the other handlers did between the insert and the failure write.
-/

namespace SandboxOrchestrator

set_option autoImplicit false

def Proc.failing : Proc → Option Uuid
  | .create ⟨_, _, _, .enqueueFailed sandbox _⟩ => some sandbox.id
  | _ => none

def failureWrite (s : State) : Action → Option Uuid
  | .await pid how _ => if how.effect then (s.proc pid).bind Proc.failing else none
  | _ => none

/-- The failure write finds its row queued, and a terminal row is left as it is. -/
def SparesOthers (s : State) (a : Action) (t : State) : Prop :=
  (∀ sid ∈ failureWrite s a, s.world.status sid = some .queued) ∧
    ∀ sid r, s.world.row sid = some r → r.status ∈ [.stopped, .failed] → t.world.row sid = some r

/-- What a step writes into the status of the row, and who does. -/
def State.writes (s : State) (sid : Uuid) : Action → Option (Actor × SandboxStatus)
  | .await pid how _ =>
    if how.effect then
      (s.proc pid).bind fun proc => (s.world.row sid).bind fun r =>
        (proc.request.writes r).map fun v => (proc.actor, v.status)
    else none
  | _ => none

/-- The step takes the row from its POST: a DELETE marks it, a sweep writes it, or a start
delivery writes it and does not put it back for a retry. -/
def claims (sid : Uuid) (s : State) (a : Action) : Bool :=
  match s.writes sid a with
  | some (.deleteSandbox, _) => true
  | some (.reconcileSandboxes, _) => true
  | some (.startSandbox, new) => decide (new ≠ .queued)
  | _ => false

def givesBack (sid : Uuid) (s : State) (a : Action) : Bool :=
  decide (s.writes sid a = some (.startSandbox, .queued))

/-- A step of the run claims a row, and the failure write of its POST takes effect before a
retry write gives the row back. -/
def FailsClaimed (settings : Settings) (s : State) (as : List Action) : Prop :=
  ∃ sid before a between b after u v w x, as = before ++ a :: (between ++ b :: after) ∧
    run settings s before = some u ∧ claims sid u a = true ∧ step settings u a = some v ∧
    run settings v between = some w ∧ Along settings (fun s a _ => givesBack sid s a = false) v between ∧
    sid ∈ failureWrite w b ∧ step settings w b = some x

def Unqueued (sid : Uuid) (s : State) : Prop :=
  ∃ r, s.world.row sid = some r ∧ r.status ≠ .queued

theorem failing_of_failureWrite {s : State} {a : Action} {sid : Uuid}
    (h : sid ∈ failureWrite s a) : ∃ pid how choice c r e, a = .await pid how choice ∧
      how.effect = true ∧ s.proc pid = some (.create c) ∧ c.pc = .enqueueFailed r e ∧ r.id = sid := by
  cases a with
  | await pid how choice =>
    simp only [failureWrite, Option.mem_def, Option.ite_none_right_eq_some,
      Option.bind_eq_some_iff] at h
    obtain ⟨heffect, proc, found, hf⟩ := h
    unfold Proc.failing at hf
    split at hf
    · cases hf
      exact ⟨pid, how, choice, _, _, _, rfl, heffect, found, rfl, rfl⟩
    · cases hf
  | _ => cases h

section

variable {settings : Settings} {s t : State} {a : Action} {sid : Uuid}

theorem status_of_writes (h : step settings s a = some t) {r : Sandbox}
    (hr : s.world.row sid = some r) :
    t.world.status sid = some (((s.writes sid a).map Prod.snd).getD r.status) := by
  have hkept : (∀ pid how choice, a ≠ .await pid how choice) → t.world.row sid = s.world.row sid →
      t.world.status sid = some (((s.writes sid a).map Prod.snd).getD r.status) := by
    intro hnot hrow
    have hnone : s.writes sid a = none := by
      cases a with
      | await pid how choice => exact absurd rfl (hnot pid how choice)
      | _ => rfl
    simp [World.status, hrow, hr, hnone]
  have hcalled : ∀ {pid how choice proc}, a = .await pid how choice → s.proc pid = some proc →
      t.world.row sid = (s.worldAfter proc how choice).row sid →
      t.world.status sid = some (((s.writes sid a).map Prod.snd).getD r.status) := by
    rintro pid how choice proc rfl hp hrow
    rw [World.status, hrow, State.worldAfter, World.after]
    cases heffect : how.effect with
    | false => simp [hr, State.writes, heffect]
    | true =>
      rw [if_pos rfl, World.row_perform hr]
      cases hw : proc.request.writes r <;> simp [State.writes, heffect, hp, hr, hw]
  cases stepped h with
  | tick _ _ result => subst result; exact hkept (by simp) rfl
  | spawned pid proc world drawn spawn absent world_eq =>
    refine hkept (by rintro _ _ _ rfl; cases spawn) ?_
    rw [world_eq]
    cases spawn <;> rfl
  | dropped _ _ _ _ result => subst result; exact hkept (by simp) rfl
  | died _ _ _ result => subst result; exact hkept (by simp) rfl
  | exited _ _ _ result => subst result; exact hkept (by simp) rfl
  | resumed pid how choice proc proc' events found lives resume world_eq =>
    exact hcalled rfl found (by simp [world_eq])
  | ended pid how choice proc outcome events found lives resume world_eq =>
    exact hcalled rfl found (by simp [world_eq])
  | killed pid effect requeue choice proc found world_eq =>
    exact hcalled rfl found (by simp [world_eq])

theorem moves_of_writes {actor : Actor} {new : SandboxStatus} {r : Sandbox}
    (hr : s.world.row sid = some r) (h : s.writes sid a = some (actor, new)) :
    moves actor r.status new = true := by
  cases a with
  | await pid how choice =>
    simp only [State.writes, Option.ite_none_right_eq_some, Option.bind_eq_some_iff, hr,
      Option.map_eq_some_iff, Option.some.injEq, Prod.mk.injEq] at h
    obtain ⟨-, proc, -, r', rfl, v, hw, rfl, rfl⟩ := h
    exact Proc.writes_moves hw
  | _ => cases h

theorem unqueued_of_claims (h : step settings s a = some t) (hc : claims sid s a = true) :
    Unqueued sid t := by
  cases hw : s.writes sid a with
  | none => simp [claims, hw] at hc
  | some x =>
    obtain ⟨actor, new⟩ := x
    cases hr : s.world.row sid with
    | none => cases a <;> simp [State.writes, hr] at hw
    | some r =>
      have hm := moves_of_writes hr hw
      have hstatus := status_of_writes h hr
      rw [hw, Option.map_some, Option.getD_some] at hstatus
      obtain ⟨r', hr', rfl⟩ := World.status_eq_some.mp hstatus
      refine ⟨r', hr', fun hq => ?_⟩
      rw [hq] at hm
      cases actor <;> simp [claims, hw, hq, moves] at hc hm

theorem unqueued_step (h : step settings s a = some t) (hu : Unqueued sid s)
    (hnot : givesBack sid s a = false) : Unqueued sid t := by
  obtain ⟨r, hr, hne⟩ := hu
  have hstatus := status_of_writes h hr
  obtain ⟨r', hr', hr''⟩ := World.status_eq_some.mp hstatus
  refine ⟨r', hr', fun hq => ?_⟩
  rw [hq] at hr''
  cases hw : s.writes sid a with
  | none => exact hne (by simpa [hw] using hr''.symm)
  | some x =>
    obtain ⟨actor, new⟩ := x
    obtain rfl : SandboxStatus.queued = new := by simpa [hw] using hr''
    have hm := moves_of_writes hr hw
    cases actor <;> simp [moves] at hm
    simp [givesBack, hw] at hnot

theorem not_givesBack (h : step settings s a = some t) (hu : Unqueued sid t) :
    givesBack sid s a = false := by
  refine decide_eq_false fun hw => ?_
  cases hr : s.world.row sid with
  | none => cases a <;> simp [State.writes, hr] at hw
  | some r =>
    have hstatus := status_of_writes h hr
    obtain ⟨r', hr', hne⟩ := hu
    rw [hw, World.status, hr'] at hstatus
    exact hne (Option.some.inj hstatus)

/-- A step that takes a row out of the queue claims it, unless it fails it for its POST. -/
theorem claims_of_switch (hk : Provenance s) (h : step settings s a = some t)
    (hold : ¬Unqueued sid s) (hnew : Unqueued sid t) :
    claims sid s a = true ∨ ∃ old at_, .wrote .createSandbox sid old .failed at_ ∈ t.world.log := by
  obtain ⟨r, hr, hne⟩ := hnew
  have hchanged : t.world.row sid ≠ s.world.row sid := fun hrow => hold ⟨r, hrow.symm.trans hr, hne⟩
  cases (stepped h).logChange with
  | same log_eq rows => exact absurd (rows sid) hchanged
  | died id log_eq rows => exact absurd (rows sid) hchanged
  | called pid how choice proc own isAwait found own_byCall log_eq rows =>
    subst isAwait
    have heffect : how.effect = true := by
      by_contra hnot
      exact hchanged ((rows sid).trans (by rw [State.worldAfter, World.after, if_neg hnot]))
    cases recorded_after s.world proc.actor how choice proc.request sid with
    | same row _ => exact absurd ((rows sid).trans row) hchanged
    | wrote r₀ v found₀ writes row last =>
      have hqueued : r₀.status = .queued := by
        by_contra hnot
        exact hold ⟨r₀, found₀, hnot⟩
      have hwrites : s.writes sid (.await pid how choice) = some (proc.actor, v.status) := by
        simp [State.writes, heffect, found, found₀, writes]
      have hm := Proc.writes_moves writes
      have hleft : v.status ≠ .queued := by
        cases ((rows sid).trans row).symm.trans hr
        exact hne
      rw [hqueued] at hm
      cases hactor : proc.actor with
      | createSandbox =>
        obtain ⟨old, at_, he⟩ := exists_of_lastWrite last
        have hfailed : v.status = .failed := by simpa [hactor, moves] using hm
        rw [hactor, hfailed] at he
        refine .inr ⟨old, at_, ?_⟩
        rw [log_eq, State.worldAfter, hactor]
        exact List.mem_append_right _ he
      | _ => left; simp_all [claims, moves]
    | inserted r₀ isInsert id absent row =>
      have hknown := hk.procs pid proc found
      cases Proc.asks_of isInsert with
      | insert body key sid' r₀ =>
        obtain ⟨-, hqueued, -⟩ := hknown
        cases ((rows sid).trans row).symm.trans hr
        exact absurd hqueued hne

end

theorem terminal_kept {settings : Settings} {s t : State} {a : Action} (hs : Grounded s)
    (h : step settings s a = some t)
    (hq : ∀ sid ∈ failureWrite s a, s.world.status sid = some .queued) {sid : Uuid} {r : Sandbox}
    (hr : s.world.row sid = some r) (hst : r.status ∈ [.stopped, .failed]) :
    t.world.row sid = some r := by
  cases (stepped h).logChange with
  | same log_eq rows => exact (rows sid).trans hr
  | died id log_eq rows => exact (rows sid).trans hr
  | called pid how choice proc own isAwait found own_byCall log_eq rows =>
    rw [rows]
    by_cases heffect : how.effect = true
    · have hchange := rowChange_after s.world proc.actor how choice proc.request sid
      simp only [State.worldAfter]
      generalize (s.world.after proc.actor how choice proc.request).row sid = x at hchange ⊢
      cases hchange with
      | same => exact hr
      | wrote r' v found' writes =>
        obtain rfl := Option.some.inj (hr.symm.trans found')
        have hm := Proc.writes_moves writes
        have hactor : proc.actor = .createSandbox := by
          cases hact : proc.actor <;> rw [hact] at hm <;> cases hs' : r.status <;>
            simp_all [moves, startable, activeStatuses]
        have hk := hs.provenance.procs pid proc found
        obtain ⟨c, r', e, rfl, hpc, hid⟩ := Proc.create_of_writes hk writes hactor
        obtain ⟨body, key, sid', pc⟩ := c
        subst hpc
        obtain ⟨⟨hid', -⟩, -⟩ := hk
        have hfail : failureWrite s a = some sid := by
          simp only [failureWrite, isAwait, heffect, if_true, found, Option.bind_some, Proc.failing,
            Option.some.injEq]
          exact (hid'.trans hid).trans (World.row_id hr)
        obtain ⟨r'', hr'', hqueued⟩ := World.status_eq_some.mp (hq sid hfail)
        obtain rfl := Option.some.inj (hr.symm.trans hr'')
        simp [hqueued] at hst
      | inserted _ _ _ absent => cases hr.symm.trans absent
    · rw [State.worldAfter, World.after, if_neg heffect]
      exact hr

/-- The failure write of a row finds it queued unless a claim on it stands. -/
theorem queued_of_unclaimed {settings : Settings} {now : Time} {containers : Containers}
    {nextObject : Nat} {before after : List Action} {b : Action} {w x : State} {sid : Uuid}
    (hno : ¬FailsClaimed settings (State.init now containers nextObject) (before ++ b :: after))
    (hw : run settings (State.init now containers nextObject) before = some w)
    (hx : step settings w b = some x) (hfail : sid ∈ failureWrite w b) :
    w.world.status sid = some .queued := by
  have hgrounded : ∀ {as u}, run settings (State.init now containers nextObject) as = some u →
      Grounded u := LabelledRuns.always (I := Grounded) (fun _ _ _ hs h => grounded_step hs h)
    (grounded_init now containers nextObject)
  have hground := hgrounded hw
  obtain ⟨pid, how, choice, c, r, e, -, -, found, hpc, rfl⟩ := failing_of_failureWrite hfail
  have hk := hground.provenance.procs pid _ found
  simp only [Proc.Known, CreateSandbox.Known, hpc] at hk
  obtain ⟨⟨hid, -⟩, r', hr', -⟩ := hk
  by_contra hne
  have hunqueued : Unqueued r.id w := ⟨r', hr', fun hq => hne (World.status_eq_some.mpr ⟨r', hr', hq⟩)⟩
  have hfresh : ¬Unqueued r.id (State.init now containers nextObject) := by
    rintro ⟨_, h, -⟩
    cases h
  obtain ⟨first, a, between, u, v, rfl, hu, hold, ha, hv, hbetween, hstays⟩ :=
    LabelledRuns.exists_last_switch hfresh hw hunqueued
  rcases claims_of_switch (hgrounded hu).provenance ha hold hv with hclaims | ⟨old, at_, he⟩
  · refine hno ⟨r.id, first, a, between, b, after, u, v, w, x, by simp, hu, hclaims, ha, hbetween, ?_,
      hfail, hx⟩
    exact LabelledRuns.along_iff_forall.mpr fun as c bs y z has hy hz =>
      not_givesBack hz (LabelledRuns.along_iff_forall.mp hstays as c bs y z has hy hz)
  · have hlater : .wrote .createSandbox r.id old .failed at_ ∈ w.world.log :=
      LabelledRuns.always (I := fun s : State => .wrote .createSandbox r.id old .failed at_ ∈ s.world.log)
        (fun _ _ _ hm h => (stepped h).logChange.mono hm) he hbetween
    exact hground.posting.failed pid c old .failed at_ found
      (by simp [CreateSandbox.committed, hpc]) (hid ▸ hlater)

/-- In every run, every failure write finds its row queued and leaves terminal rows as they are
if and only if none comes while a claim on its row stands: no DELETE marks the row, no sweep
writes it and no start delivery picks it up without its retry write before the failure write. -/
theorem failure_write_spares_iff (settings : Settings) (now : Time) (containers : Containers)
    (nextObject : Nat) (as : List Action) :
    Along settings SparesOthers (State.init now containers nextObject) as ↔
      ¬FailsClaimed settings (State.init now containers nextObject) as := by
  constructor
  · rintro hspares ⟨sid, before, a, between, b, after, u, v, w, x, rfl, hu, hclaims, ha, hbetween,
      hstands, hfail, hx⟩
    have hunqueued : Unqueued sid w := LabelledRuns.invariant
      (fun _ _ _ hs hnot h => unqueued_step h hs hnot) (unqueued_of_claims ha hclaims) hstands hbetween
    have hrun : run settings (State.init now containers nextObject) (before ++ a :: between) = some w :=
      LabelledRuns.run_trans hu (LabelledRuns.run_cons_eq_some.mpr ⟨v, ha, hbetween⟩)
    obtain ⟨hqueued, -⟩ := LabelledRuns.along_iff_forall.mp hspares (before ++ a :: between) b after
      w x (by simp) hrun hx
    obtain ⟨r, hr, hq⟩ := World.status_eq_some.mp (hqueued sid hfail)
    obtain ⟨r', hr', hne⟩ := hunqueued
    cases hr.symm.trans hr'
    exact hne hq
  · refine fun hno => LabelledRuns.along_iff_forall.mpr ?_
    rintro before b after w x rfl hw hx
    have hground : Grounded w := LabelledRuns.always (I := Grounded)
      (fun _ _ _ hs h => grounded_step hs h) (grounded_init now containers nextObject) hw
    have hqueued : ∀ sid ∈ failureWrite w b, w.world.status sid = some .queued :=
      fun sid hfail => queued_of_unclaimed hno hw hx hfail
    exact ⟨hqueued, fun sid r hr hst => terminal_kept hground hx hqueued hr hst⟩

/-- Redis accepts the job, its reply is lost, a worker starts the sandbox, and then the
API fails the running row. -/
theorem failure_write_on_running :
    ∃ s t, run ⟨1, 4, "localhost"⟩ (State.init 0 KeyedTable.empty 0)
        (posted 0 1 ++ .timesOut 0 :: started 1 1) = some s ∧
      step ⟨1, 4, "localhost"⟩ s (.ok 0) = some t ∧ s.world.status 1 = some .running ∧
      t.world.status 1 = some .failed ∧ (t.world.container 1).isSome ∧ ¬SparesOthers s (.ok 0) t := by
  have hrun : (run ⟨1, 4, "localhost"⟩ (State.init 0 KeyedTable.empty 0)
      (posted 0 1 ++ .timesOut 0 :: started 1 1)).any
      (fun s => decide (s.world.status 1 = some .running) &&
        decide (failureWrite s (.ok 0) = some 1) &&
        (step ⟨1, 4, "localhost"⟩ s (.ok 0)).any fun t =>
          decide (t.world.status 1 = some .failed) && (t.world.container 1).isSome) = true := by
    decide
  obtain ⟨s, hs, hp⟩ := LabelledRuns.exists_run hrun
  simp only [Bool.and_eq_true, decide_eq_true_eq, Option.any_eq_true] at hp
  obtain ⟨⟨hrunning, hfail⟩, t, ht, hfailed, hc⟩ := hp
  refine ⟨s, t, hs, ht, hrunning, hfailed, hc, fun hspares => ?_⟩
  have hq := hspares.1 1 hfail
  rw [hrunning] at hq
  cases hq

end SandboxOrchestrator
