import SandboxOrchestrator.Library.Trails
import SandboxOrchestrator.Provenance

/-!
# The trail of a sandbox

The committed writes to one row, in the order of their commits, lead through the state
machine of `moves` from `queued` to the status of the row. A sandbox runs at most once,
begins to stop at most once, and is settled once.
-/

namespace SandboxOrchestrator

set_option autoImplicit false

open Trails

abbrev Write := Entry Actor SandboxStatus Time

def Event.write? (sid : Uuid) : Event → Option Write
  | .wrote actor id old new at_ => if id = sid then some ⟨actor, old, new, at_⟩ else none
  | _ => none

def trail (sid : Uuid) (log : List Event) : List Write := log.filterMap (Event.write? sid)

def Request.write? (q : Request) (actor : Actor) (now : Time) (r : Sandbox) : Option Write :=
  (q.writes r).map fun v => ⟨actor, r.status, v.status, now⟩

def Moves (actor : Actor) (old new : SandboxStatus) : Prop := moves actor old new = true

/-- The writes to a row lead to it, and a row that is not there was never written. -/
structure Audited (s : State) : Prop where
  rows : ∀ sid r, s.world.row sid = some r →
    Trail Moves .queued r.createdAt (trail sid s.world.log) r.status r.updatedAt ∧
      r.updatedAt ≤ s.world.now
  absent : ∀ sid, s.world.row sid = none → trail sid s.world.log = []

theorem audited_init (now : Time) (containers : Containers) (nextObject : Nat) :
    Audited (State.init now containers nextObject) where
  rows _ _ h := by cases h
  absent _ _ := rfl

/-! ## What a call adds -/

theorem trail_append_own {sid : Uuid} {own log : List Event} (h : ∀ e ∈ own, e.byCall = false) :
    trail sid (own ++ log) = trail sid log := by
  have hnil : own.filterMap (Event.write? sid) = [] := by
    refine List.filterMap_eq_nil_iff.mpr fun e he => ?_
    have hcall := h e he
    cases e <;> first | rfl | cases hcall
  rw [trail, List.filterMap_append, hnil, List.nil_append, trail]

theorem World.trail_update (w : World) (actor : Actor) (p : Sandbox → Bool) (v : Values) (sid : Uuid) :
    trail sid (w.update actor p v).1.log =
      ((w.row sid).filter p).toList.map (fun r => ⟨actor, r.status, v.status, w.now⟩) ++
        trail sid w.log := by
  have hpure : ∀ rows : List Sandbox,
      ((rows.filter p).map fun r => Event.wrote actor r.id r.status v.status w.now).filterMap
          (Event.write? sid) =
        (rows.filter fun r => decide (r.id = sid) && p r).map
          fun r => ⟨actor, r.status, v.status, w.now⟩ := by
    intro rows
    induction rows with
    | nil => rfl
    | cons r rows ih =>
      by_cases hp : p r = true
      · by_cases hid : r.id = sid
        · simp [hp, hid, Event.write?, ih]
        · simp [hp, hid, Event.write?, ih]
      · simp [hp, ih]
  have hkey : (w.sandboxes.rows.filter fun r => decide (r.id = sid) && p r) = ((w.row sid).filter p).toList :=
    w.sandboxes.filter_key sid p
  simp only [World.update, trail, List.filterMap_append, hpure, hkey]

theorem World.trail_perform (w : World) (actor : Actor) (choice : Choice) (q : Request) (sid : Uuid) :
    trail sid (w.perform actor choice q).1.log =
      ((w.row sid).bind (q.write? actor w.now)).toList ++ trail sid w.log := by
  have hupdate : ∀ (p : Sandbox → Bool) (v : Values),
      (∀ r, w.row sid = some r → q.writes r = if p r then some v else none) →
      trail sid (w.update actor p v).1.log =
        ((w.row sid).bind (q.write? actor w.now)).toList ++ trail sid w.log := by
    intro p v hq
    rw [World.trail_update]
    congr 1
    cases hr : w.row sid with
    | none => rfl
    | some r =>
      simp only [Option.bind_some, Request.write?, hq r hr, Option.filter_some]
      split <;> rfl
  have hother : (∀ r, q.writes r = none) → ((w.row sid).bind (q.write? actor w.now)).toList = [] := by
    intro hq
    cases w.row sid <;> simp [Request.write?, hq]
  cases q with
  | markFailed id error => exact hupdate _ _ fun r _ => by simp [Request.writes]
  | transition id from_ v => exact hupdate _ _ fun r _ => rfl
  | finishStops live => exact hupdate _ _ fun r _ => by simp [Request.writes]
  | insert r => rw [hother fun _ => rfl]; simp only [World.perform]; split <;> rfl
  | enqueue job => rw [hother fun _ => rfl]; simp only [World.perform, World.enqueue]; split <;> rfl
  | create id t => rw [hother fun _ => rfl]; simp only [World.perform, World.createContainer]; split <;> rfl
  | removeObject id n => rw [hother fun _ => rfl]; simp only [World.perform]; split <;> rfl
  | startObject id n => rw [hother fun _ => rfl]; simp only [World.perform]; split <;> rfl
  | reload id n => rw [hother fun _ => rfl]; simp only [World.perform]; split <;> rfl
  | _ => rw [hother fun _ => rfl]; rfl

/-! ## One step -/

section

variable {settings : Settings} {s t : State} {a : Action}

theorem Audited.row_perform (hs : Audited s) {proc : Proc} {choice : Choice} {sid : Uuid} {r : Sandbox}
    (hk : proc.Known s.world)
    (hr : (s.world.perform proc.actor choice proc.request).1.row sid = some r) :
    Trail Moves .queued r.createdAt (trail sid (s.world.perform proc.actor choice proc.request).1.log)
        r.status r.updatedAt ∧ r.updatedAt ≤ s.world.now := by
  rw [World.trail_perform]
  cases hrow : s.world.row sid with
  | none =>
    have hchange := rowChange_perform s.world proc.actor choice proc.request sid
    generalize (s.world.perform proc.actor choice proc.request).1.row sid = x at hr hchange
    cases hchange with
    | same => cases hrow.symm.trans hr
    | wrote r₀ v found => cases hrow.symm.trans found
    | inserted r₀ isInsert id absent =>
      cases hr
      obtain ⟨c, -, -, -, hst, -⟩ := Proc.drafted_of_insert hk isInsert
      simp only [Option.bind_none, Option.toList_none, List.nil_append, hs.absent sid hrow, hst]
      exact ⟨.nil, Int.le_refl _⟩
  | some r₀ =>
    obtain ⟨htrail, hnow⟩ := hs.rows sid r₀ hrow
    rw [World.row_perform hrow] at hr
    cases hw : proc.request.writes r₀ with
    | none =>
      simp only [hw, Option.map_none, Option.getD_none, Option.some.injEq] at hr
      subst hr
      simp only [Option.bind_some, Request.write?, hw, Option.map_none, Option.toList_none,
        List.nil_append]
      exact ⟨htrail, hnow⟩
    | some v =>
      simp only [hw, Option.map_some, Option.getD_some, Option.some.injEq] at hr
      subst hr
      simp only [Option.bind_some, Request.write?, hw, Option.map_some, Option.toList_some]
      exact ⟨.cons _ _ _ _ (Proc.writes_moves hw) hnow htrail, Int.le_refl _⟩

theorem Audited.absent_perform (hs : Audited s) {proc : Proc} {choice : Choice} {sid : Uuid}
    (hr : (s.world.perform proc.actor choice proc.request).1.row sid = none) :
    trail sid (s.world.perform proc.actor choice proc.request).1.log = [] := by
  cases hrow : s.world.row sid with
  | none => rw [World.trail_perform, hrow, hs.absent sid hrow]; rfl
  | some r₀ => cases (World.row_perform hrow).symm.trans hr

theorem audited_step (hk : Provenance s) (hs : Audited s) (h : step settings s a = some t) : Audited t := by
  have hst := stepped h
  have hsame : t.world.log = s.world.log ∨ (∃ id, t.world.log = .died id :: s.world.log) →
      (∀ sid, t.world.row sid = s.world.row sid) → Audited t := by
    intro hlog hrows
    have htrail : ∀ sid, trail sid t.world.log = trail sid s.world.log := by
      intro sid
      rcases hlog with hlog | ⟨id, hlog⟩
      · rw [hlog]
      · rw [hlog, ← List.singleton_append, trail_append_own (by simp [Event.byCall])]
    refine ⟨fun sid r hr => ?_, fun sid hr => ?_⟩
    · obtain ⟨hold, hnow⟩ := hs.rows sid r (hrows sid ▸ hr)
      exact ⟨(htrail sid).symm ▸ hold, Int.le_trans hnow hst.now_le⟩
    · rw [htrail]
      exact hs.absent sid (hrows sid ▸ hr)
  cases hst.logChange with
  | same log_eq rows => exact hsame (.inl log_eq) rows
  | died id log_eq rows => exact hsame (.inr ⟨id, log_eq⟩) rows
  | called pid how choice proc own isAwait found own_byCall log_eq rows =>
    subst isAwait
    refine ⟨fun sid r hr => ?_, fun sid hr => ?_⟩
    · rw [log_eq, trail_append_own own_byCall, hst.beside.2]
      rw [rows] at hr
      cases heffect : how.effect with
      | true =>
        rw [State.worldAfter, World.after, if_pos heffect] at hr ⊢
        exact hs.row_perform (hk.procs pid proc found) hr
      | false =>
        rw [State.worldAfter, World.after, if_neg (by simp [heffect])] at hr ⊢
        exact hs.rows sid r hr
    · rw [log_eq, trail_append_own own_byCall]
      rw [rows] at hr
      cases heffect : how.effect with
      | true =>
        rw [State.worldAfter, World.after, if_pos heffect] at hr ⊢
        exact hs.absent_perform hr
      | false =>
        rw [State.worldAfter, World.after, if_neg (by simp [heffect])] at hr ⊢
        exact hs.absent sid hr

end

/-! ## Every run -/

/-- After every run the writes to a row, from its creation to its `updated_at`, lead through the
state machine from `queued` to its status, in the order of the clock. At most one made it
`running`, at most one took it to `stopping` from elsewhere, and exactly one settled it if it is
settled. -/
theorem audit_trail (settings : Settings) (now : Time) (containers : Containers) (nextObject : Nat)
    (as : List Action) (t : State)
    (h : run settings (State.init now containers nextObject) as = some t) :
    (∀ sid, t.world.row sid = none → trail sid t.world.log = []) ∧
      ∀ sid r, t.world.row sid = some r →
        Trail Moves .queued r.createdAt (trail sid t.world.log) r.status r.updatedAt ∧
          r.updatedAt ≤ t.world.now ∧
          (trail sid t.world.log).countP (fun e => decide (e.new = .running)) ≤ 1 ∧
          (trail sid t.world.log).countP
            (fun e => decide (e.old ≠ .stopping ∧ e.new = .stopping)) ≤ 1 ∧
          (trail sid t.world.log).countP
              (fun e => decide (e.old ∈ activeStatuses ∧ e.new ∉ activeStatuses)) =
            if r.status ∈ activeStatuses then 0 else 1 := by
  obtain ⟨-, haudited⟩ := LabelledRuns.always (I := fun s => Provenance s ∧ Audited s)
    (fun s a t hs (h : step settings s a = some t) => ⟨provenance_step hs.1 h, audited_step hs.1 hs.2 h⟩)
    ⟨provenance_init .., audited_init ..⟩ h
  refine ⟨haudited.absent, fun sid r hr => ?_⟩
  obtain ⟨htrail, hnow⟩ := haudited.rows sid r hr
  have hlevel := htrail.countP_reaches SandboxStatus.rank fun x a b hm => moves_rank x a b hm
  have hmove : ∀ e ∈ trail sid t.world.log, moves e.label e.old e.new = true :=
    fun e he => htrail.moves_of_mem he
  refine ⟨htrail, hnow, ?_, ?_, ?_⟩
  · have hle : (trail sid t.world.log).countP (fun e => decide (e.new = .running)) ≤
        (trail sid t.world.log).countP
          (fun e => decide (e.old.rank < 1 ∧ 1 ≤ e.new.rank)) := by
      refine List.countP_mono_left fun e he hrun => ?_
      have hm := hmove e he
      obtain ⟨actor, old, new, at_⟩ := e
      obtain rfl : new = .running := of_decide_eq_true hrun
      cases actor <;> cases old <;> first | rfl | cases hm
    rw [hlevel 1] at hle
    split at hle <;> omega
  · have hle : (trail sid t.world.log).countP
          (fun e => decide (e.old ≠ .stopping ∧ e.new = .stopping)) ≤
        (trail sid t.world.log).countP
          (fun e => decide (e.old.rank < 2 ∧ 2 ≤ e.new.rank)) := by
      refine List.countP_mono_left fun e he hstop => ?_
      have hm := hmove e he
      obtain ⟨actor, old, new, at_⟩ := e
      obtain ⟨hne, rfl⟩ : old ≠ .stopping ∧ new = .stopping := of_decide_eq_true hstop
      cases actor <;> cases old <;> first | rfl | exact absurd rfl hne | cases hm
    rw [hlevel 2] at hle
    split at hle <;> omega
  · have hiff : (fun e : Write => decide (e.old ∈ activeStatuses ∧ e.new ∉ activeStatuses)) =
        fun e => decide (e.old.rank < 3 ∧ 3 ≤ e.new.rank) := by
      funext e
      simp only [mem_activeStatuses, decide_eq_decide]
      omega
    rw [hiff, hlevel 3, show SandboxStatus.queued.rank = 0 from rfl]
    by_cases hactive : r.status ∈ activeStatuses
    · have hrank := (mem_activeStatuses r.status).mp hactive
      rw [if_pos hactive, if_neg (by omega)]
    · have hrank : ¬r.status.rank ≤ 2 := fun hle => hactive ((mem_activeStatuses r.status).mpr hle)
      rw [if_neg hactive, if_pos (by omega)]

def stoppedTwice : List Action :=
  posted 0 1 ++ .ok 0 :: started 1 1 ++ .delete 2 1 :: List.replicate 5 (.ok 2) ++
    .delete 3 1 :: List.replicate 5 (.ok 3) ++
    .deliver 4 ⟨.stopSandbox, 1, .stable, 1⟩ :: List.replicate 2 (.ok 4)

theorem audit_trail_stopped : ∃ t r,
    run ⟨3, 4, "localhost"⟩ (State.init 0 KeyedTable.empty 0) stoppedTwice = some t ∧
      t.world.row 1 = some r ∧ r.status = .stopped ∧ (trail 1 t.world.log).length = 5 ∧
      (trail 1 t.world.log).countP
        (fun e => decide (e.old ≠ .stopping ∧ e.new = .stopping)) ≤ 1 := by
  have hrun : (run ⟨3, 4, "localhost"⟩ (State.init 0 KeyedTable.empty 0) stoppedTwice).any (fun t =>
      ((t.world.row 1).any fun r => decide (r.status = .stopped)) &&
        decide ((trail 1 t.world.log).length = 5)) = true := by decide +kernel
  obtain ⟨t, ht, hp⟩ := LabelledRuns.exists_run hrun
  simp only [Option.any_eq_true, Bool.and_eq_true, decide_eq_true_eq] at hp
  obtain ⟨⟨r, hr, hst⟩, hlength⟩ := hp
  have haudit := (audit_trail _ 0 KeyedTable.empty 0 stoppedTwice t ht).2 1 r hr
  exact ⟨t, r, ht, hr, hst, hlength, haudit.2.2.2.1⟩

end SandboxOrchestrator
