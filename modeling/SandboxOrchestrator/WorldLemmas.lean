import SandboxOrchestrator.System

/-!
# What one call can do to the world

`Request.writes` is the UPDATE a call applies to a row. `RowChange` and
`ContainerChange` list everything a call can do to one row and to one container; every
invariant about rows or containers is derived from them and never unfolds `perform`.
-/

namespace SandboxOrchestrator

set_option autoImplicit false

def Request.writes (q : Request) (r : Sandbox) : Option Values :=
  match q with
  | .markFailed sid error =>
    if r.id = sid then some { status := .failed, error := some (some error) } else none
  | .transition sid from_ v => if guard sid from_ r then some v else none
  | .finishStops live =>
    if r.status = .stopping ∧ r.id ∉ live then some { status := .stopped } else none
  | _ => none

theorem World.row_id {w : World} {sid : Uuid} {r : Sandbox} (h : w.row sid = some r) : r.id = sid :=
  KeyedTable.key_of_find? h

theorem World.container_id {w : World} {sid : Uuid} {c : Container} (h : w.container sid = some c) :
    c.sandboxId = sid := KeyedTable.key_of_find? h

theorem World.mem_rows_iff {w : World} {r : Sandbox} :
    r ∈ w.sandboxes.rows ↔ w.row r.id = some r := w.sandboxes.mem_rows_iff

theorem World.mem_containers_iff {w : World} {c : Container} :
    c ∈ w.containers.rows ↔ w.container c.sandboxId = some c := w.containers.mem_rows_iff

theorem World.row_update (w : World) (actor : Actor) (p : Sandbox → Bool) (v : Values) (sid : Uuid) :
    (w.update actor p v).1.row sid =
      (w.row sid).map fun r => if p r then v.apply w.now r else r :=
  KeyedTable.find?_update w.sandboxes p (v.apply w.now) (fun _ => rfl) (fun _ => rfl) sid

theorem guard_eq_true {sid : Uuid} {from_ : List SandboxStatus} {r : Sandbox} :
    guard sid from_ r = true ↔ r.id = sid ∧ r.status ∈ from_ := by
  simp [guard]

/-- A compare-and-set succeeds exactly on a row with one of the expected statuses. -/
theorem World.transition_reply (w : World) (actor : Actor) (sid : Uuid)
    (from_ : List SandboxStatus) (v : Values) :
    (w.transition actor sid from_ v).2 =
      .changed (decide (∃ r, w.row sid = some r ∧ r.status ∈ from_)) := by
  have h : (w.sandboxes.rows.filter (guard sid from_)).length = _ :=
    w.sandboxes.length_filter_key sid fun r => decide (r.status ∈ from_)
  simp only [transition, update, h, decide_eq_true_eq, World.row]
  congr 2
  split <;> simp_all

theorem World.reply_eq (w : World) (actor : Actor) (how : How) (choice : Choice) (q : Request)
    (lives : ∀ e r, how ≠ .killed e r) :
    (how = .ok ∧ w.reply actor how choice q = (w.perform actor choice q).2) ∨
      ∃ e b, how = .raises e b ∧ w.reply actor how choice q = .raised e := by
  cases how with
  | ok => exact .inl ⟨rfl, rfl⟩
  | raises e b => exact .inr ⟨e, b, rfl, rfl⟩
  | killed e r => exact absurd rfl (lives e r)

theorem World.ok_of_reply {w : World} {actor : Actor} {how : How} {choice : Choice} {q : Request}
    {reply : Reply} (lives : ∀ e r, how ≠ .killed e r)
    (h : w.reply actor how choice q = reply) (hr : ∀ e, reply ≠ .raised e) : how = .ok := by
  rcases w.reply_eq actor how choice q lives with ⟨hok, -⟩ | ⟨e, b, -, ho⟩
  · exact hok
  · exact absurd (h.symm.trans ho) (hr e)

/-- A reply that is no exception is the one the call gave, and the call took effect. -/
theorem World.after_of_reply {w : World} {actor : Actor} {how : How} {choice : Choice} {q : Request}
    {reply : Reply} (lives : ∀ e r, how ≠ .killed e r)
    (h : w.reply actor how choice q = reply) (hr : ∀ e, reply ≠ .raised e) :
    w.after actor how choice q = (w.perform actor choice q).1 ∧
      (w.perform actor choice q).2 = reply := by
  rcases w.reply_eq actor how choice q lives with ⟨rfl, ho⟩ | ⟨e, b, rfl, ho⟩
  · exact ⟨rfl, ho.symm.trans h⟩
  · exact absurd (h.symm.trans ho) (hr e)

theorem World.transition_of_row {w : World} (actor : Actor) {sid : Uuid} (from_ : List SandboxStatus)
    (v : Values) {r : Sandbox} (hrow : w.row sid = some r) :
    (w.transition actor sid from_ v).2 = .changed (decide (r.status ∈ from_)) ∧
      (w.transition actor sid from_ v).1.row sid =
        some (if r.status ∈ from_ then v.apply w.now r else r) := by
  constructor
  · rw [World.transition_reply]
    simp [hrow]
  · refine (World.row_update w actor (guard sid from_) v sid).trans ?_
    simp [hrow, guard, World.row_id hrow]

theorem World.changed_true {w : World} {actor : Actor} {how : How} {choice : Choice} {sid : Uuid}
    {from_ : List SandboxStatus} {v : Values} (lives : ∀ e r, how ≠ .killed e r)
    (h : w.reply actor how choice (.transition sid from_ v) = .changed true) :
    ∃ r, w.row sid = some r ∧ r.status ∈ from_ ∧
      (w.after actor how choice (.transition sid from_ v)).row sid = some (v.apply w.now r) := by
  rcases w.reply_eq actor how choice (.transition sid from_ v) lives with ⟨rfl, hr⟩ | ⟨e, b, rfl, hr⟩
  · rw [h] at hr
    have hs := (w.transition_reply actor sid from_ v).symm.trans hr.symm
    obtain ⟨r, hrow, hst⟩ : ∃ r, w.row sid = some r ∧ r.status ∈ from_ := by simpa using hs
    refine ⟨r, hrow, hst, ?_⟩
    change (w.update actor (guard sid from_) v).1.row sid = _
    rw [World.row_update, hrow, Option.map_some,
      if_pos (by simp [guard, World.row_id hrow, hst])]
  · rw [h] at hr
    cases hr

theorem World.changed_false {w : World} {actor : Actor} {how : How} {choice : Choice} {sid : Uuid}
    {from_ : List SandboxStatus} {v : Values} (lives : ∀ e r, how ≠ .killed e r)
    (h : w.reply actor how choice (.transition sid from_ v) = .changed false) {r : Sandbox}
    (hrow : w.row sid = some r) : r.status ∉ from_ := by
  rcases w.reply_eq actor how choice (.transition sid from_ v) lives with ⟨rfl, hr⟩ | ⟨e, b, rfl, hr⟩
  · rw [h] at hr
    have hs := (w.transition_reply actor sid from_ v).symm.trans hr.symm
    intro hst
    exact absurd hs (by simp [hrow, hst])
  · rw [h] at hr
    cases hr

theorem World.perform_ne_raised (w : World) (actor : Actor) (choice : Choice) (q : Request)
    (e : Exc) : (w.perform actor choice q).2 ≠ .raised e := by
  cases q with
  | insert r => simp only [World.perform]; split <;> simp
  | transition id from_ v => simp [World.perform, World.transition_reply]
  | enqueue job => simp only [World.perform, World.enqueue]; split <;> simp
  | create id t => simp only [World.perform, World.createContainer]; split <;> simp
  | removeObject id n => simp only [World.perform]; split <;> simp
  | startObject id n => simp only [World.perform]; split <;> simp
  | reload id n => simp only [World.perform]; split <;> simp
  | _ => simp [World.perform]

/-! ## Rows -/

inductive RowChange (w : World) (q : Request) (sid : Uuid) : Option Sandbox → Prop where
  | same : RowChange w q sid (w.row sid)
  | wrote (r : Sandbox) (v : Values) (found : w.row sid = some r) (writes : q.writes r = some v) :
      RowChange w q sid (some (v.apply w.now r))
  | inserted (r : Sandbox) (isInsert : q = .insert r) (id : r.id = sid) (absent : w.row sid = none) :
      RowChange w q sid (some { r with createdAt := w.now, updatedAt := w.now })

theorem RowChange.of_eq {w : World} {q : Request} {sid : Uuid} {x : Option Sandbox}
    (h : x = w.row sid) : RowChange w q sid x := h ▸ .same

theorem rowChange_update (w : World) (actor : Actor) (q : Request) (p : Sandbox → Bool)
    (v : Values) (sid : Uuid)
    (hq : ∀ r, w.row sid = some r → p r = true → q.writes r = some v) :
    RowChange w q sid ((w.update actor p v).1.row sid) := by
  rw [World.row_update]
  cases hr : w.row sid with
  | none => exact .of_eq (by simp [hr])
  | some r =>
    simp only [Option.map_some]
    split
    · rename_i hp
      exact .wrote r v hr (hq r hr hp)
    · exact .of_eq hr.symm

theorem rowChange_perform (w : World) (actor : Actor) (choice : Choice) (q : Request) (sid : Uuid) :
    RowChange w q sid ((w.perform actor choice q).1.row sid) := by
  cases q with
  | insert r =>
    simp only [World.perform]
    split
    · rename_i t ht
      have hfind := KeyedTable.find?_insert ht sid
      change RowChange w _ sid (t.find? sid)
      rw [hfind]
      split
      · rename_i hid
        have hfree := KeyedTable.find?_of_insert ht
        exact .inserted r rfl hid (by simpa [World.row, ← hid] using hfree)
      · exact .same
    · exact .same
  | markFailed id error =>
    exact rowChange_update w actor _ _ _ sid fun r _ hp => by simp_all [Request.writes]
  | transition id from_ v =>
    exact rowChange_update w actor _ _ _ sid fun r _ hp => by simp_all [Request.writes]
  | finishStops live =>
    exact rowChange_update w actor _ _ _ sid fun r _ hp => by simp_all [Request.writes]
  | enqueue job => simp only [World.perform, World.enqueue]; split <;> exact .same
  | create id t => simp only [World.perform, World.createContainer]; split <;> exact .same
  | removeObject id n => simp only [World.perform]; split <;> exact .same
  | startObject id n => simp only [World.perform]; split <;> exact .same
  | reload id n => simp only [World.perform]; split <;> exact .same
  | _ => exact .same

theorem rowChange_after (w : World) (actor : Actor) (how : How) (choice : Choice) (q : Request)
    (sid : Uuid) : RowChange w q sid ((w.after actor how choice q).row sid) := by
  unfold World.after
  split
  · exact rowChange_perform w actor choice q sid
  · exact .same

theorem World.row_perform {w : World} {actor : Actor} {choice : Choice} {q : Request} {sid : Uuid}
    {r : Sandbox} (hr : w.row sid = some r) :
    (w.perform actor choice q).1.row sid = some (((q.writes r).map fun v => v.apply w.now r).getD r) := by
  have hupdate : ∀ (p : Sandbox → Bool) (v : Values), q.writes r = (if p r then some v else none) →
      (w.update actor p v).1.row sid = some (((q.writes r).map fun v => v.apply w.now r).getD r) := by
    intro p v hq
    rw [World.row_update, hr, Option.map_some, hq]
    split <;> rfl
  cases q with
  | markFailed id error => exact hupdate _ _ (by simp [Request.writes])
  | transition id from_ v => exact hupdate _ _ rfl
  | finishStops live => exact hupdate _ _ (by simp [Request.writes])
  | insert r₀ =>
    simp only [World.perform]
    split
    · rename_i rows hrows
      refine (KeyedTable.find?_insert hrows sid).trans ?_
      have hnone := KeyedTable.find?_of_insert hrows
      have hne : r₀.id ≠ sid := by
        rintro rfl
        cases hr.symm.trans hnone
      rw [if_neg hne]
      exact hr
    · exact hr
  | enqueue job => simp only [World.perform, World.enqueue]; split <;> exact hr
  | create id t => simp only [World.perform, World.createContainer]; split <;> exact hr
  | removeObject id n => simp only [World.perform]; split <;> exact hr
  | startObject id n => simp only [World.perform]; split <;> exact hr
  | reload id n => simp only [World.perform]; split <;> exact hr
  | _ => exact hr

theorem World.status_after {w : World} {actor : Actor} {how : How} {choice : Choice} {q : Request}
    {sid : Uuid} (hw : ∀ r, q.writes r = none) (hi : ∀ r, q ≠ .insert r) :
    (w.after actor how choice q).status sid = w.status sid := by
  have hchange := rowChange_after w actor how choice q sid
  unfold World.status
  generalize (w.after actor how choice q).row sid = x at hchange ⊢
  cases hchange with
  | same => rfl
  | wrote r v found writes => cases (hw r).symm.trans writes
  | inserted r isInsert => exact absurd isInsert (hi r)

/-! ## Containers -/

inductive ContainerChange (w : World) (q : Request) (sid : Uuid) : Option Container → Prop where
  | same : ContainerChange w q sid (w.container sid)
  | removed (cause : q = .remove sid ∨ ∃ n, q = .removeObject sid n) : ContainerChange w q sid none
  | created (t : Time) (isCreate : q = .create sid t) (absent : w.container sid = none) :
      ContainerChange w q sid (some ⟨sid, labelExpiry t, w.nextObject, false, none⟩)
  | started (n port : Nat) (c : Container) (isStart : q = .startObject sid n)
      (found : w.container sid = some c) :
      ContainerChange w q sid (some { c with running := true, hostPort := some port })

theorem ContainerChange.of_eq {w : World} {q : Request} {sid : Uuid} {x : Option Container}
    (h : x = w.container sid) : ContainerChange w q sid x := h ▸ .same

theorem World.container_removeContainer (w : World) (id sid : Uuid) :
    (w.removeContainer id).container sid = if id = sid then none else w.container sid :=
  KeyedTable.find?_erase _ _ _

theorem World.container_setContainer {w : World} {c : Container} (sid : Uuid) :
    (w.setContainer c).container sid = (w.container sid).map fun d =>
      if d.sandboxId = c.sandboxId then { d with running := c.running, hostPort := c.hostPort }
      else d := by
  unfold World.container World.setContainer
  refine (KeyedTable.find?_update _ _ _ ?_ ?_ _).trans ?_
  · exact fun _ => rfl
  · exact fun _ => rfl
  · simp

theorem World.object_eq_some {w : World} {sid : Uuid} {n : Nat} {c : Container}
    (h : w.object sid n = some c) : w.container sid = some c ∧ c.objectId = n := by
  simpa [World.object, Option.filter_eq_some_iff] using h

theorem containerChange_perform (w : World) (actor : Actor) (choice : Choice) (q : Request)
    (sid : Uuid) : ContainerChange w q sid ((w.perform actor choice q).1.container sid) := by
  cases q with
  | remove id =>
    simp only [World.perform, World.container_removeContainer]
    split
    · rename_i h
      exact .removed (.inl (h ▸ rfl))
    · exact .same
  | removeObject id n =>
    simp only [World.perform]
    split
    · rw [World.container_removeContainer]
      split
      · rename_i h
        exact .removed (.inr ⟨n, h ▸ rfl⟩)
      · exact .same
    · exact .same
  | create id t =>
    simp only [World.perform, World.createContainer]
    split
    · rename_i cs hcs
      change ContainerChange w _ sid (cs.find? sid)
      rw [KeyedTable.find?_insert hcs]
      split
      · rename_i h
        subst h
        exact .created t rfl (KeyedTable.find?_of_insert hcs)
      · exact .same
    · exact .same
  | startObject id n =>
    simp only [World.perform]
    split
    · rename_i c hc
      obtain ⟨hc, -⟩ := World.object_eq_some hc
      rw [World.container_setContainer]
      by_cases h : id = sid
      · subst h
        rw [hc]
        simp only [Option.map_some, if_true]
        exact .started n choice.hostPort c rfl hc
      · have hne : ∀ d, w.container sid = some d → d.sandboxId ≠ c.sandboxId := by
          intro d hd hdc
          exact h ((World.container_id hc).symm.trans (hdc.symm.trans (World.container_id hd)))
        cases hd : w.container sid with
        | none => exact .of_eq (by simp [hd])
        | some d =>
          simp only [Option.map_some, if_neg (hne d hd)]
          exact .of_eq hd.symm
    · exact .same
  | enqueue job => simp only [World.perform, World.enqueue]; split <;> exact .same
  | insert r => simp only [World.perform]; split <;> exact .same
  | reload id n => simp only [World.perform]; split <;> exact .same
  | _ => exact .same

theorem containerChange_after (w : World) (actor : Actor) (how : How) (choice : Choice)
    (q : Request) (sid : Uuid) :
    ContainerChange w q sid ((w.after actor how choice q).container sid) := by
  unfold World.after
  split
  · exact containerChange_perform w actor choice q sid
  · exact .same

/-! ## The record -/

/-- The events a call records itself: committed writes and accepted jobs. -/
def Event.byCall : Event → Bool
  | .wrote .. => true
  | .placed _ => true
  | _ => false

theorem World.perform_log (w : World) (actor : Actor) (choice : Choice) (q : Request) :
    ∃ es : List Event, (w.perform actor choice q).1.log = es ++ w.log ∧
      ∀ e ∈ es, e.byCall = true := by
  have hupdate : ∀ (p : Sandbox → Bool) (v : Values), ∃ es : List Event,
      (w.update actor p v).1.log = es ++ w.log ∧ ∀ e ∈ es, e.byCall = true := by
    refine fun p v => ⟨_, rfl, fun e he => ?_⟩
    obtain ⟨r, -, rfl⟩ := List.mem_map.mp he
    rfl
  cases q with
  | insert r => simp only [World.perform]; split <;> exact ⟨[], rfl, by simp⟩
  | markFailed id error => exact hupdate _ _
  | transition id from_ v => exact hupdate _ _
  | finishStops live => exact hupdate _ _
  | enqueue job =>
    simp only [World.perform, World.enqueue]
    split
    · exact ⟨[], rfl, by simp⟩
    · exact ⟨[.placed job], rfl, by simp [Event.byCall]⟩
  | create id t => simp only [World.perform, World.createContainer]; split <;> exact ⟨[], rfl, by simp⟩
  | removeObject id n => simp only [World.perform]; split <;> exact ⟨[], rfl, by simp⟩
  | startObject id n => simp only [World.perform]; split <;> exact ⟨[], rfl, by simp⟩
  | reload id n => simp only [World.perform]; split <;> exact ⟨[], rfl, by simp⟩
  | _ => exact ⟨[], rfl, by simp⟩

theorem World.after_log (w : World) (actor : Actor) (how : How) (choice : Choice) (q : Request) :
    ∃ es : List Event, (w.after actor how choice q).log = es ++ w.log ∧
      ∀ e ∈ es, e.byCall = true := by
  unfold World.after
  split
  · exact w.perform_log actor choice q
  · exact ⟨[], rfl, by simp⟩

theorem World.countP_after_own (w : World) (actor : Actor) (how : How) (choice : Choice) (q : Request)
    {p : Event → Bool} (hp : ∀ e, e.byCall = true → p e = false) :
    (w.after actor how choice q).log.countP p = w.log.countP p := by
  obtain ⟨es, hlog, hes⟩ := w.after_log actor how choice q
  have hzero : es.countP p = 0 := by
    simpa [List.countP_eq_zero] using fun e he => hp e (hes e he)
  rw [hlog, List.countP_append, hzero, Nat.zero_add]

theorem World.mem_log_after {w : World} {actor : Actor} {how : How} {choice : Choice} {q : Request}
    {e : Event} (h : e ∈ w.log) : e ∈ (w.after actor how choice q).log := by
  obtain ⟨es, hlog, -⟩ := w.after_log actor how choice q
  rw [hlog]
  exact List.mem_append_right es h

theorem World.mem_log_enqueue {w : World} {job : Job} {e : Event} (h : e ∈ (w.enqueue job).1.log) :
    e ∈ w.log ∨ e = .placed job := by
  unfold World.enqueue at h
  split at h
  · exact .inl h
  · exact (List.mem_cons.mp h).symm

theorem World.mem_log_update {w : World} {actor : Actor} {p : Sandbox → Bool} {v : Values}
    {e : Event} (h : e ∈ (w.update actor p v).1.log) :
    e ∈ w.log ∨
      ∃ r, w.row r.id = some r ∧ p r = true ∧
        (w.update actor p v).1.row r.id = some (v.apply w.now r) ∧
        e = .wrote actor r.id r.status v.status w.now := by
  rcases List.mem_append.mp h with h | h
  · obtain ⟨r, hr, rfl⟩ := List.mem_map.mp h
    obtain ⟨hmem, hp⟩ := List.mem_filter.mp hr
    have hrow := World.mem_rows_iff.mp hmem
    refine .inr ⟨r, hrow, hp, ?_, rfl⟩
    rw [World.row_update, hrow, Option.map_some, if_pos hp]
  · exact .inl h

/-- The two kinds of events a call leaves: the accepted job of an enqueue, and one
committed write for each row an UPDATE matched. -/
theorem World.mem_log_perform {w : World} {actor : Actor} {choice : Choice} {q : Request}
    {e : Event} (h : e ∈ (w.perform actor choice q).1.log) :
    e ∈ w.log ∨ (∃ job, q = .enqueue job ∧ e = .placed job) ∨
      ∃ r v, w.row r.id = some r ∧ q.writes r = some v ∧
        (w.perform actor choice q).1.row r.id = some (v.apply w.now r) ∧
        e = .wrote actor r.id r.status v.status w.now := by
  cases q with
  | insert r => simp only [World.perform] at h; split at h <;> exact .inl h
  | markFailed id error =>
    refine (World.mem_log_update h).imp_right fun ⟨r, hr, hp, hrow, he⟩ => .inr ⟨r, _, hr, ?_, hrow, he⟩
    simpa [Request.writes] using hp
  | transition id from_ v =>
    refine (World.mem_log_update h).imp_right fun ⟨r, hr, hp, hrow, he⟩ => .inr ⟨r, _, hr, ?_, hrow, he⟩
    simp [Request.writes, hp]
  | finishStops live =>
    refine (World.mem_log_update h).imp_right fun ⟨r, hr, hp, hrow, he⟩ => .inr ⟨r, _, hr, ?_, hrow, he⟩
    simpa [Request.writes] using hp
  | enqueue job => exact (World.mem_log_enqueue h).imp_right fun he => .inl ⟨job, rfl, he⟩
  | create id t => simp only [World.perform, World.createContainer] at h; split at h <;> exact .inl h
  | removeObject id n => simp only [World.perform] at h; split at h <;> exact .inl h
  | startObject id n => simp only [World.perform] at h; split at h <;> exact .inl h
  | reload id n => simp only [World.perform] at h; split at h <;> exact .inl h
  | _ => exact .inl h

theorem World.mem_log_after_iff {w : World} {actor : Actor} {how : How} {choice : Choice}
    {q : Request} {e : Event} (h : e ∈ (w.after actor how choice q).log) :
    e ∈ w.log ∨ (∃ job, q = .enqueue job ∧ e = .placed job) ∨
      ∃ r v, w.row r.id = some r ∧ q.writes r = some v ∧
        (w.after actor how choice q).row r.id = some (v.apply w.now r) ∧
        e = .wrote actor r.id r.status v.status w.now := by
  unfold World.after at h ⊢
  split at h
  · rename_i heffect
    rw [if_pos heffect]
    exact World.mem_log_perform h
  · exact .inl h

theorem World.countP_after {w : World} {actor : Actor} {how : How} {choice : Choice} {q : Request}
    {p : Event → Bool} (hp : ∀ a sid old new t, p (.wrote a sid old new t) = false) :
    (w.after actor how choice q).log.countP p = w.log.countP p ∨
      ∃ job, q = .enqueue job ∧ p (.placed job) = true ∧
        (w.after actor how choice q).log.countP p = w.log.countP p + 1 := by
  have hupdate : ∀ (f : Sandbox → Bool) (v : Values),
      (w.update actor f v).1.log.countP p = w.log.countP p := by
    intro f v
    simp only [World.update, List.countP_append, Nat.add_eq_right, List.countP_eq_zero]
    intro e he
    obtain ⟨r, -, rfl⟩ := List.mem_map.mp he
    simp [hp]
  unfold World.after
  split
  · cases q with
    | insert r => left; simp only [World.perform]; split <;> rfl
    | markFailed id error => exact .inl (hupdate _ _)
    | transition id from_ v => exact .inl (hupdate _ _)
    | finishStops live => exact .inl (hupdate _ _)
    | enqueue job =>
      simp only [World.perform, World.enqueue]
      split
      · exact .inl rfl
      · by_cases h : p (.placed job) = true
        · exact .inr ⟨job, rfl, h, List.countP_cons_of_pos h⟩
        · exact .inl (List.countP_cons_of_neg h)
    | create id t => left; simp only [World.perform, World.createContainer]; split <;> rfl
    | removeObject id n => left; simp only [World.perform]; split <;> rfl
    | startObject id n => left; simp only [World.perform]; split <;> rfl
    | reload id n => left; simp only [World.perform]; split <;> rfl
    | _ => exact .inl rfl
  · exact .inl rfl

theorem World.mem_queue_after {w : World} {actor : Actor} {how : How} {choice : Choice}
    {q : Request} {job : Job} (h : job ∈ (w.after actor how choice q).queue) :
    job ∈ w.queue ∨ q = .enqueue job := by
  unfold World.after at h
  split at h
  · cases q with
    | enqueue j =>
      simp only [World.perform, World.enqueue] at h
      split at h
      · exact .inl h
      · exact (List.mem_append.mp h).imp_right fun hj => by rw [List.mem_singleton.mp hj]
    | insert r => simp only [World.perform] at h; split at h <;> exact .inl h
    | create id t =>
      simp only [World.perform, World.createContainer] at h
      split at h <;> exact .inl h
    | removeObject id n => simp only [World.perform] at h; split at h <;> exact .inl h
    | startObject id n => simp only [World.perform] at h; split at h <;> exact .inl h
    | reload id n => simp only [World.perform] at h; split at h <;> exact .inl h
    | _ => exact .inl h
  · exact .inl h

theorem World.now_after (w : World) (actor : Actor) (how : How) (choice : Choice) (q : Request) :
    (w.after actor how choice q).now = w.now := by
  unfold World.after
  split
  · cases q with
    | insert r => simp only [World.perform]; split <;> rfl
    | enqueue job => simp only [World.perform, World.enqueue]; split <;> rfl
    | create id t => simp only [World.perform, World.createContainer]; split <;> rfl
    | removeObject id n => simp only [World.perform]; split <;> rfl
    | startObject id n => simp only [World.perform]; split <;> rfl
    | reload id n => simp only [World.perform]; split <;> rfl
    | _ => rfl
  · rfl

theorem World.queue_after {w : World} {actor : Actor} {how : How} {choice : Choice} {q : Request}
    (h : ∀ job, q ≠ .enqueue job) :
    (w.after actor how choice q).queue = w.queue ∧
      (w.after actor how choice q).jobKeys = w.jobKeys := by
  unfold World.after
  split
  · cases q with
    | enqueue job => exact absurd rfl (h job)
    | insert r => simp only [World.perform]; split <;> exact ⟨rfl, rfl⟩
    | create id t => simp only [World.perform, World.createContainer]; split <;> exact ⟨rfl, rfl⟩
    | removeObject id n => simp only [World.perform]; split <;> exact ⟨rfl, rfl⟩
    | startObject id n => simp only [World.perform]; split <;> exact ⟨rfl, rfl⟩
    | reload id n => simp only [World.perform]; split <;> exact ⟨rfl, rfl⟩
    | _ => exact ⟨rfl, rfl⟩
  · exact ⟨rfl, rfl⟩

end SandboxOrchestrator
