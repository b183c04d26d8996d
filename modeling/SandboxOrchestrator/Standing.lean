import SandboxOrchestrator.Sweep

/-!
# How a sandbox stands with the reaper

All that sweeps can tell of one sandbox: the status of its row, and whether its container
has expired. Each call of a sweep acts on it by `SweepPc.touch`, a sweep alone by `swept`,
and `Partly` lists what sweeps that overlap or are cut short can make of it.
-/

namespace SandboxOrchestrator

set_option autoImplicit false

structure Standing where
  status : Option SandboxStatus
  /-- `none` where there is no container. -/
  expired : Option Bool
  deriving DecidableEq

namespace Standing

def swept : Standing → Standing
  | ⟨none, _⟩ => ⟨none, none⟩
  | ⟨some .running, none⟩ => ⟨some .failed, none⟩
  | ⟨some .stopping, _⟩ => ⟨some .stopped, none⟩
  | ⟨some st, none⟩ => ⟨some st, none⟩
  | ⟨some st, some true⟩ => ⟨some (if st ∈ wanted then .stopped else st), none⟩
  | ⟨some st, some false⟩ => ⟨some st, if st ∈ wanted then some false else none⟩

/-- A sweep is to remove its container and then to write its row. -/
def due (x : Standing) : Bool :=
  decide (x.expired = some true) && x.status.any fun st => decide (st ∈ wanted)

/-- Its container is gone and its row not written; said of a sandbox that was due. -/
def halfReaped (x : Standing) : Bool :=
  decide (x.expired = none) && x.status.any fun st => decide (st ∈ wanted)

structure Partly (x₀ x : Standing) : Prop where
  status : x.status = x₀.status ∨ x.status = x₀.swept.status ∨
    x₀.due = true ∧ x.status = some .failed
  expired : x.expired = x₀.expired ∨ x.expired = none ∧ x₀.swept.expired = none

def Whole (x : Standing) : Prop := x.status ≠ some .failed ∧ x.halfReaped = false

variable {x₀ x : Standing}

theorem Partly.refl (x : Standing) : Partly x x := ⟨.inl rfl, .inl rfl⟩

theorem Partly.kept (h : Partly x₀ x) (hkept : x₀.swept.expired ≠ none) : x = x₀ := by
  obtain ⟨st₀, e₀⟩ := x₀
  obtain ⟨st, e⟩ := x
  obtain ⟨hst, he⟩ := h
  rcases st₀ with _ | st₀
  · exact absurd rfl hkept
  · cases st₀ <;> rcases e₀ with _ | _ | _ <;> simp_all [swept, wanted, due]

theorem Partly.removed (h : Partly x₀ x) (hgone : x₀.swept.expired = none) :
    Partly x₀ { x with expired := none } := ⟨h.status, .inr ⟨rfl, hgone⟩⟩

theorem Partly.stopped (h : Partly x₀ x) (hthere : x₀.expired ≠ none)
    (hgone : x₀.swept.expired = none) {st : SandboxStatus} (hst : x.status = some st)
    (hactive : st ∈ activeStatuses) : Partly x₀ { x with status := some .stopped } := by
  refine ⟨.inr (.inl ?_), h.expired⟩
  obtain ⟨st₀, e₀⟩ := x₀
  obtain ⟨hstatus, -⟩ := h
  rw [hst] at hstatus
  rcases st₀ with _ | st₀
  · simp [swept, due] at hstatus
  · cases st₀ <;> rcases e₀ with _ | _ | _ <;>
      simp_all [swept, wanted, due, activeStatuses]

theorem Partly.failed (h : Partly x₀ x) (hgone : x₀.swept.expired = none)
    (hst : x.status = some .running) : Partly x₀ { x with status := some .failed } := by
  refine ⟨?_, h.expired⟩
  obtain ⟨st₀, e₀⟩ := x₀
  obtain ⟨hstatus, -⟩ := h
  rw [hst] at hstatus
  rcases st₀ with _ | st₀
  · simp [swept, due] at hstatus
  · cases st₀ <;> rcases e₀ with _ | _ | _ <;> simp_all [swept, wanted, due]

theorem Partly.finished (h : Partly x₀ x) (hst : x.status = some .stopping) :
    Partly x₀ { x with status := some .stopped } := by
  refine ⟨.inr (.inl ?_), h.expired⟩
  obtain ⟨st₀, e₀⟩ := x₀
  obtain ⟨hstatus, -⟩ := h
  rw [hst] at hstatus
  rcases st₀ with _ | st₀
  · simp [swept, due] at hstatus
  · cases st₀ <;> rcases e₀ with _ | _ | _ <;> simp_all [swept, wanted, due]

/-- Where the sweeps so far have left off, a sweep alone removes what it would have removed
at first. -/
theorem Partly.swept_expired (h : Partly x₀ x) : x.swept.expired = x₀.swept.expired := by
  obtain ⟨st₀, e₀⟩ := x₀
  obtain ⟨st, e⟩ := x
  obtain ⟨hst, he⟩ := h
  rcases st₀ with _ | st₀
  · simp_all [swept, due]
  · cases st₀ <;> rcases e₀ with _ | _ | _ <;> simp_all [swept, wanted, due] <;>
      rcases hst with rfl | rfl | rfl <;> rcases he with rfl | rfl <;> rfl

/-- A sweep alone then writes what it would have written at first, if and only if a sandbox
that was due is whole. -/
theorem Partly.swept_status (h : Partly x₀ x) :
    x.swept.status = x₀.swept.status ↔ (x₀.due = true → x.Whole) := by
  obtain ⟨st₀, e₀⟩ := x₀
  obtain ⟨st, e⟩ := x
  obtain ⟨hst, he⟩ := h
  rcases st₀ with _ | st₀
  · simp_all [swept, due]
  · cases st₀ <;> rcases e₀ with _ | _ | _ <;> simp_all [swept, wanted, due, Whole, halfReaped] <;>
      rcases hst with rfl | rfl | rfl <;> rcases he with rfl | rfl <;> simp

end Standing

/-! ## The standing of a sandbox in the world -/

def World.standing (w : World) (sid : Uuid) : Standing :=
  ⟨w.status sid, (w.container sid).map fun c => decide (c.expiresAt ≤ w.now)⟩

theorem Swept.standing {w w' : World} (h : Swept w w') (sid : Uuid) :
    w'.standing sid = (w.standing sid).swept := by
  have hstatus : w'.status sid = (w.row sid).map fun r => (w.sweptRow r).status := by
    rw [World.status, h.rows, Option.map_map]
    rfl
  unfold World.standing
  rw [hstatus, h.containers, h.now, World.sweptContainer]
  cases hr : w.row sid with
  | none =>
    have hnone : w.status sid = none := by rw [World.status, hr]; rfl
    rw [hnone]
    cases w.container sid <;> simp [Standing.swept]
  | some r =>
    have hid := World.row_id hr
    subst hid
    have hsome : w.status r.id = some r.status := by rw [World.status, hr]; rfl
    rw [hsome, Option.map_some]
    unfold World.sweptRow
    cases hc : w.container r.id with
    | none => cases hst : r.status <;> simp [Standing.swept, hst]
    | some c =>
      by_cases hexpired : c.expiresAt ≤ w.now
      · cases hst : r.status <;>
          simp [Standing.swept, hst, hexpired, wanted]
      · cases hst : r.status <;>
          simp [Standing.swept, hst, hexpired, Int.not_le.mp hexpired, wanted]

/-- What the next call of a sweep does to the standing of a sandbox. -/
def SweepPc.touch (sid : Uuid) (x : Standing) : SweepPc → Standing
  | .remove _ c _ _ => if c.sandboxId = sid then { x with expired := none } else x
  | .settle _ c _ _ =>
    if c.sandboxId = sid ∧ x.status.any fun st => decide (st ∈ activeStatuses) then
      { x with status := some .stopped }
    else x
  | .vanish _ id _ =>
    if id = sid ∧ x.status = some .running then { x with status := some .failed } else x
  | .finishStops v =>
    if sid ∉ v.live ∧ x.status = some .stopping then { x with status := some .stopped } else x
  | _ => x

theorem World.status_transition (w : World) (id sid : Uuid) (from_ : List SandboxStatus) (v : Values) :
    (w.transition .reconcileSandboxes id from_ v).1.status sid =
      if id = sid ∧ (w.status sid).any (fun st => decide (st ∈ from_)) = true then some v.status
      else w.status sid := by
  unfold World.status
  rw [World.row_transition]
  cases hr : w.row sid with
  | none => simp
  | some r =>
    by_cases hid : sid = id
    · by_cases hst : r.status ∈ from_ <;> simp [casRow, hid, hst]
    · simp [hid, Ne.symm hid]

theorem World.standing_perform (w : World) (choice : Choice) (p : ReconcileSandboxes) (sid : Uuid) :
    (w.perform .reconcileSandboxes choice p.request).1.standing sid = p.pc.touch sid (w.standing sid) := by
  have hnow : (w.perform .reconcileSandboxes choice p.request).1.now = w.now :=
    w.now_after .reconcileSandboxes .ok choice p.request
  obtain ⟨n, pc⟩ := p
  unfold World.standing
  rw [hnow]
  cases pc with
  | remove v c reason rest =>
    have hcontainer : (w.removeContainer c.sandboxId).container sid = _ :=
      w.container_removeContainer c.sandboxId sid
    change Standing.mk (w.status sid) (((w.removeContainer c.sandboxId).container sid).map _) = _
    rw [hcontainer]
    by_cases hid : c.sandboxId = sid <;> simp [SweepPc.touch, hid]
  | settle v c reason rest =>
    change Standing.mk ((w.transition .reconcileSandboxes c.sandboxId activeStatuses stopValues).1.status
      sid) ((w.container sid).map _) = _
    rw [World.status_transition]
    simp only [SweepPc.touch]
    split <;> rfl
  | vanish v id rest =>
    change Standing.mk ((w.transition .reconcileSandboxes id [.running] vanishValues).1.status sid)
      ((w.container sid).map _) = _
    rw [World.status_transition]
    have hrunning : (w.status sid).any (fun st => decide (st ∈ [SandboxStatus.running])) = true ↔
        w.status sid = some .running := by
      cases w.status sid <;> simp
    simp only [hrunning, SweepPc.touch]
    split <;> rfl
  | finishStops v =>
    have hrow := w.row_finishStops choice v.live sid
    have hstatus : (w.perform .reconcileSandboxes choice (.finishStops v.live)).1.status sid =
        if sid ∉ v.live ∧ w.status sid = some .stopping then some .stopped else w.status sid := by
      unfold World.status
      rw [hrow]
      cases hr : w.row sid with
      | none => simp
      | some r =>
        by_cases hlive : sid ∈ v.live
        · simp [hlive]
        · by_cases hst : r.status = .stopping <;> simp [hlive, hst, casRow, stopValues]
    change Standing.mk ((w.perform .reconcileSandboxes choice (.finishStops v.live)).1.status sid)
      ((w.container sid).map _) = _
    rw [hstatus]
    simp only [SweepPc.touch]
    split <;> rfl
  | _ => rfl

theorem World.container_perform (w : World) (choice : Choice) (p : ReconcileSandboxes) (sid : Uuid) :
    (w.perform .reconcileSandboxes choice p.request).1.container sid = w.container sid ∨
      (w.perform .reconcileSandboxes choice p.request).1.container sid = none := by
  have hchange := containerChange_perform w .reconcileSandboxes choice p.request sid
  generalize (w.perform .reconcileSandboxes choice p.request).1.container sid = x at hchange ⊢
  obtain ⟨n, pc⟩ := p
  cases hchange with
  | same => exact .inl rfl
  | removed => exact .inr rfl
  | created t isCreate => cases pc <;> cases isCreate
  | started n port c isStart => cases pc <;> cases isStart

end SandboxOrchestrator
