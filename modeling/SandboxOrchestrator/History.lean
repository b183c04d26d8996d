import SandboxOrchestrator.Provenance

/-!
# The record and the rows agree

Every UPDATE is on the record. The newest write to a row names its status, and a row
that was never updated is still queued.
-/

namespace SandboxOrchestrator

set_option autoImplicit false

/-- Who wrote the row `sid` with this event, and the status it was given. -/
def Event.writeOf (sid : Uuid) : Event → Option (Actor × SandboxStatus)
  | .wrote actor id _ new _ => if id = sid then some (actor, new) else none
  | _ => none

def lastWrite (sid : Uuid) (log : List Event) : Option (Actor × SandboxStatus) :=
  log.findSome? (Event.writeOf sid)

theorem Event.byCall_of_writeOf {sid : Uuid} {e : Event} (h : e.byCall = false) :
    e.writeOf sid = none := by
  cases e <;> first | rfl | cases h

theorem lastWrite_append {sid : Uuid} {own log : List Event} (h : ∀ e ∈ own, e.byCall = false) :
    lastWrite sid (own ++ log) = lastWrite sid log := by
  have hnone : own.findSome? (Event.writeOf sid) = none :=
    List.findSome?_eq_none_iff.mpr fun e he => Event.byCall_of_writeOf (h e he)
  rw [lastWrite, List.findSome?_append, hnone, Option.none_or, lastWrite]

theorem exists_of_lastWrite {sid : Uuid} {log : List Event} {actor : Actor} {new : SandboxStatus}
    (h : lastWrite sid log = some (actor, new)) : ∃ old at_, .wrote actor sid old new at_ ∈ log := by
  obtain ⟨e, he, hw⟩ := List.exists_of_findSome?_eq_some h
  cases e with
  | wrote actor' id old new' at_ =>
    simp only [Event.writeOf, Option.ite_none_right_eq_some, Option.some.injEq, Prod.mk.injEq] at hw
    obtain ⟨rfl, rfl, rfl⟩ := hw
    exact ⟨old, at_, he⟩
  | _ => cases hw

theorem World.lastWrite_update {w : World} {actor : Actor} {p : Sandbox → Bool} {v : Values}
    (sid : Uuid) :
    lastWrite sid (w.update actor p v).1.log =
      if ∃ r, w.row sid = some r ∧ p r = true then some (actor, v.status) else lastWrite sid w.log := by
  have hall : ∀ x, ((w.sandboxes.rows.filter p).map
      fun r => Event.wrote actor r.id r.status v.status w.now).findSome? (Event.writeOf sid) = some x →
      x = (actor, v.status) := by
    intro x hx
    obtain ⟨e, he, hw⟩ := List.exists_of_findSome?_eq_some hx
    obtain ⟨r, -, rfl⟩ := List.mem_map.mp he
    simp only [Event.writeOf, Option.ite_none_right_eq_some, Option.some.injEq] at hw
    exact hw.2.symm
  simp only [World.update, lastWrite, List.findSome?_append]
  split
  · rename_i hr
    obtain ⟨r, hr, hp⟩ := hr
    have hid := World.row_id hr
    subst hid
    cases hf : ((w.sandboxes.rows.filter p).map
      fun r => Event.wrote actor r.id r.status v.status w.now).findSome? (Event.writeOf r.id) with
    | none =>
      have hmem : r ∈ w.sandboxes.rows.filter p :=
        List.mem_filter.mpr ⟨World.mem_rows_iff.mpr hr, hp⟩
      have := List.findSome?_eq_none_iff.mp hf _ (List.mem_map.mpr ⟨r, hmem, rfl⟩)
      simp [Event.writeOf] at this
    | some x => rw [hall x hf, Option.some_or]
  · rename_i hr
    cases hf : ((w.sandboxes.rows.filter p).map
      fun r => Event.wrote actor r.id r.status v.status w.now).findSome? (Event.writeOf sid) with
    | none => rw [Option.none_or]
    | some x =>
      obtain ⟨e, he, hw⟩ := List.exists_of_findSome?_eq_some hf
      obtain ⟨r, hmem, rfl⟩ := List.mem_map.mp he
      obtain ⟨hmem, hp⟩ := List.mem_filter.mp hmem
      simp only [Event.writeOf, Option.ite_none_right_eq_some] at hw
      exact absurd ⟨r, hw.1 ▸ World.mem_rows_iff.mp hmem, hp⟩ hr

/-- What a call does to a row, and what the record then says about it. -/
inductive Recorded (w : World) (actor : Actor) (q : Request) (sid : Uuid) (w' : World) : Prop where
  | same (row : w'.row sid = w.row sid) (last : lastWrite sid w'.log = lastWrite sid w.log)
  | wrote (r : Sandbox) (v : Values) (found : w.row sid = some r) (writes : q.writes r = some v)
      (row : w'.row sid = some (v.apply w.now r))
      (last : lastWrite sid w'.log = some (actor, v.status))
  | inserted (r : Sandbox) (isInsert : q = .insert r) (id : r.id = sid) (absent : w.row sid = none)
      (row : w'.row sid = some { r with createdAt := w.now, updatedAt := w.now })
      (last : lastWrite sid w'.log = lastWrite sid w.log)

theorem recorded_update {w : World} {actor : Actor} {q : Request} {p : Sandbox → Bool} {v : Values}
    {sid : Uuid} (hq : ∀ r, w.row sid = some r → p r = true → q.writes r = some v) :
    Recorded w actor q sid (w.update actor p v).1 := by
  by_cases h : ∃ r, w.row sid = some r ∧ p r = true
  · obtain ⟨r, hr, hp⟩ := h
    refine .wrote r v hr (hq r hr hp) ?_ ?_
    · rw [World.row_update, hr, Option.map_some, if_pos hp]
    · rw [World.lastWrite_update, if_pos ⟨r, hr, hp⟩]
  · refine .same ?_ ?_
    · rw [World.row_update]
      cases hr : w.row sid with
      | none => rfl
      | some r => rw [Option.map_some, if_neg fun hp => h ⟨r, hr, hp⟩]
    · rw [World.lastWrite_update, if_neg h]

theorem recorded_perform (w : World) (actor : Actor) (choice : Choice) (q : Request) (sid : Uuid) :
    Recorded w actor q sid (w.perform actor choice q).1 := by
  cases q with
  | insert r =>
    have hrow := rowChange_perform w actor choice (.insert r) sid
    have hlog : (w.perform actor choice (.insert r)).1.log = w.log := by
      simp only [World.perform]
      split <;> rfl
    generalize hx : (w.perform actor choice (.insert r)).1 = w' at hrow hlog
    generalize hy : w'.row sid = x at hrow
    cases hrow with
    | same => exact .same hy (by rw [hlog])
    | wrote _ _ _ writes => cases writes
    | inserted r' isInsert id absent => exact .inserted r' isInsert id absent hy (by rw [hlog])
  | markFailed id error => exact recorded_update fun r _ hp => by simp_all [Request.writes]
  | transition id from_ v => exact recorded_update fun r _ hp => by simp_all [Request.writes]
  | finishStops live => exact recorded_update fun r _ hp => by simp_all [Request.writes]
  | enqueue job => simp only [World.perform, World.enqueue]; split <;> exact .same rfl rfl
  | create id t => simp only [World.perform, World.createContainer]; split <;> exact .same rfl rfl
  | removeObject id n => simp only [World.perform]; split <;> exact .same rfl rfl
  | startObject id n => simp only [World.perform]; split <;> exact .same rfl rfl
  | reload id n => simp only [World.perform]; split <;> exact .same rfl rfl
  | _ => exact .same rfl rfl

theorem recorded_after (w : World) (actor : Actor) (how : How) (choice : Choice) (q : Request)
    (sid : Uuid) : Recorded w actor q sid (w.after actor how choice q) := by
  unfold World.after
  split
  · exact recorded_perform w actor choice q sid
  · exact .same rfl rfl

structure History (s : State) : Prop where
  status : ∀ sid r, s.world.row sid = some r →
    r.status = ((lastWrite sid s.world.log).map Prod.snd).getD .queued
  absent : ∀ sid, s.world.row sid = none → lastWrite sid s.world.log = none
  moves : ∀ actor sid old new at_, .wrote actor sid old new at_ ∈ s.world.log →
    moves actor old new = true ∧ s.world.Reached sid new.rank
  stops : ∀ sid old new at_, .wrote .stopSandbox sid old new at_ ∈ s.world.log →
    ∃ old' new' at', .wrote .deleteSandbox sid old' new' at' ∈ s.world.log

theorem deleted_of_stopping {s : State} (hs : History s) {sid : Uuid} {r : Sandbox}
    (hr : s.world.row sid = some r) (hst : r.status = .stopping) :
    ∃ old new at_, .wrote .deleteSandbox sid old new at_ ∈ s.world.log := by
  have hlast := hs.status sid r hr
  cases hw : lastWrite sid s.world.log with
  | none => simp [hw, hst] at hlast
  | some x =>
    obtain ⟨actor, new⟩ := x
    obtain ⟨old, at_, he⟩ := exists_of_lastWrite hw
    obtain rfl : SandboxStatus.stopping = new := by simpa [hw, hst] using hlast
    have hm := (hs.moves _ _ _ _ _ he).1
    cases actor <;> simp [SandboxOrchestrator.moves] at hm
    exact ⟨old, _, at_, he⟩

theorem history_init (now : Time) (containers : Containers) (nextObject : Nat) :
    History (State.init now containers nextObject) where
  status _ _ h := by cases h
  absent _ _ := rfl
  moves _ _ _ _ _ h := by cases h
  stops _ _ _ _ h := by cases h

section

variable {settings : Settings} {s t : State} {a : Action}

theorem History.moves_step (hs : History s) (hst : Stepped settings s t a) {actor : Actor} {sid : Uuid}
    {old new : SandboxStatus} {at_ : Time} (he : .wrote actor sid old new at_ ∈ t.world.log) :
    SandboxOrchestrator.moves actor old new = true ∧ t.world.Reached sid new.rank := by
  rcases hst.logChange.mem rfl he with
    hold | ⟨pid, how, choice, proc, rfl, found, ⟨j, -, he'⟩ | ⟨r, v, -, hw, hrow, he'⟩⟩
  · obtain ⟨hm, hreach⟩ := hs.moves actor sid old new at_ hold
    exact ⟨hm, hreach.forward hst.forward⟩
  · cases he'
  · cases he'
    exact ⟨Proc.writes_moves hw, _, hrow, Nat.le_refl _⟩

theorem History.stops_step (hs : History s) (hst : Stepped settings s t a) {sid : Uuid}
    {old new : SandboxStatus} {at_ : Time} (he : .wrote .stopSandbox sid old new at_ ∈ t.world.log) :
    ∃ old' new' at', .wrote .deleteSandbox sid old' new' at' ∈ t.world.log := by
  suffices hdel : ∃ old' new' at', .wrote .deleteSandbox sid old' new' at' ∈ s.world.log by
    obtain ⟨old', new', at', hd⟩ := hdel
    exact ⟨old', new', at', hst.logChange.mono hd⟩
  rcases hst.logChange.mem rfl he with
    hold | ⟨pid, how, choice, proc, -, found, ⟨j, -, he'⟩ | ⟨r, v, hr, hw, -, he'⟩⟩
  · exact hs.stops sid old new at_ hold
  · cases he'
  · injection he' with hactor hid
    have hm := Proc.writes_moves hw
    rw [← hactor] at hm
    rw [hid]
    refine deleted_of_stopping hs hr ?_
    simp only [SandboxOrchestrator.moves, Bool.and_eq_true, decide_eq_true_eq] at hm
    exact hm.1

theorem History.status_step (hs : History s) (hp : Provenance s) (hst : Stepped settings s t a)
    {sid : Uuid} {r : Sandbox} (hr : t.world.row sid = some r) :
    r.status = ((lastWrite sid t.world.log).map Prod.snd).getD .queued := by
  cases hst.logChange with
  | same log_eq rows => exact log_eq ▸ hs.status sid r (rows sid ▸ hr)
  | died id log_eq rows =>
    rw [log_eq]
    exact hs.status sid r (rows sid ▸ hr)
  | called pid how choice proc own isAwait found own_byCall log_eq rows =>
    rw [log_eq, lastWrite_append own_byCall]
    rw [rows] at hr
    cases recorded_after s.world proc.actor how choice proc.request sid with
    | same row last =>
      rw [State.worldAfter, last]
      exact hs.status sid r (row ▸ hr)
    | wrote r₀ v found' writes row last =>
      rw [State.worldAfter, last]
      obtain rfl := Option.some.inj (row.symm.trans hr)
      rfl
    | inserted r₀ isInsert id absent row last =>
      rw [State.worldAfter, last, hs.absent sid absent]
      obtain rfl := Option.some.inj (row.symm.trans hr)
      obtain ⟨c, -, -, -, hst, -⟩ := Proc.drafted_of_insert (hp.procs pid proc found) isInsert
      exact hst

theorem History.absent_step (hs : History s) (hst : Stepped settings s t a) {sid : Uuid}
    (hr : t.world.row sid = none) : lastWrite sid t.world.log = none := by
  cases hst.logChange with
  | same log_eq rows => exact log_eq ▸ hs.absent sid (rows sid ▸ hr)
  | died id log_eq rows =>
    rw [log_eq]
    exact hs.absent sid (rows sid ▸ hr)
  | called pid how choice proc own isAwait found own_byCall log_eq rows =>
    rw [log_eq, lastWrite_append own_byCall]
    rw [rows] at hr
    cases recorded_after s.world proc.actor how choice proc.request sid with
    | same row last =>
      rw [State.worldAfter, last]
      exact hs.absent sid (row ▸ hr)
    | wrote _ _ _ _ row => cases row.symm.trans hr
    | inserted _ _ _ _ row => cases row.symm.trans hr

theorem history_step (hp : Provenance s) (hs : History s) (h : step settings s a = some t) :
    History t where
  status _ _ hr := hs.status_step hp (stepped h) hr
  absent _ hr := hs.absent_step (stepped h) hr
  moves _ _ _ _ _ he := hs.moves_step (stepped h) he
  stops _ _ _ _ he := hs.stops_step (stepped h) he

end

end SandboxOrchestrator
