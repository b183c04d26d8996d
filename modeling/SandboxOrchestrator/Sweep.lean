import SandboxOrchestrator.Launch
import SandboxOrchestrator.SweepReads
import SandboxOrchestrator.Library.Inevitable

/-!
# An undisturbed sweep

`Swept` says row by row and container by container what a sweep makes of a world when
nothing else happens. The two loops are followed by induction on what they have left to
do; then one case analysis on a row and its container joins the four phases.
-/

namespace SandboxOrchestrator

set_option autoImplicit false

open LabelledRuns (Inevitable)

/-! ## What a sweep is for -/

def World.sweptContainer (w : World) (sid : Uuid) : Option Container :=
  (w.container sid).filter fun c =>
    decide (w.now < c.expiresAt) && (w.status sid).any fun st => decide (st ∈ wanted)

def World.sweptRow (w : World) (r : Sandbox) : Sandbox :=
  match r.status, w.container r.id with
  | .stopped, _ => r
  | .failed, _ => r
  | .stopping, _ => { r with status := .stopped, updatedAt := w.now }
  | .running, none =>
    { r with status := .failed, error := some "container disappeared", updatedAt := w.now }
  | _, none => r
  | _, some c => if c.expiresAt ≤ w.now then { r with status := .stopped, updatedAt := w.now } else r

def World.sweepCounts (w : World) : Reaped where
  expired := w.containers.rows.countP fun c => decide (c.expiresAt ≤ w.now)
  orphan := w.containers.rows.countP fun c =>
    decide (w.now < c.expiresAt) && !(w.status c.sandboxId).any fun st => decide (st ∈ wanted)
  vanished := w.sandboxes.rows.countP fun r =>
    decide (r.status = .running) && (w.container r.id).isNone

structure Swept (w w' : World) : Prop where
  rows : ∀ sid, w'.row sid = (w.row sid).map w.sweptRow
  containers : ∀ sid, w'.container sid = w.sweptContainer sid
  counts : w'.log.head? = some (.reconciled (.swept w.sweepCounts))
  now : w'.now = w.now

/-! ## One call of a sweep that is alone -/

/-- Whatever the environment chooses, the sweep `pid` alone gets from `s` to a state in `Q`. -/
abbrev Alone (settings : Settings) (pid : Nat) (Q : State → Prop) (s : State) : Prop :=
  Inevitable (step settings) (fun choice => Action.await pid .ok choice) Q s

variable {settings : Settings} {pid : Nat} {Q : State → Prop} {s : State} {n : Reaped}

theorem Alone.goes {p : ReconcileSandboxes} (hp : s.proc pid = some (.sweep p))
    (h : ∀ choice, ∃ events p',
      p.resume (s.world.perform .reconcileSandboxes choice p.request).2 = some (events, .goto p') ∧
        ∀ t, t.proc pid = some (.sweep p') →
          t.world = (s.world.perform .reconcileSandboxes choice p.request).1.record events →
          Alone settings pid Q t) : Alone settings pid Q s := by
  have hstep : ∀ choice, ∃ t, step settings s (.await pid .ok choice) = some t ∧
      Alone settings pid Q t := by
    intro choice
    obtain ⟨events, p', hresume, hnext⟩ := h choice
    have hproc : (Proc.sweep p).resume settings s.world.now
        (s.world.reply .reconcileSandboxes .ok choice p.request) =
          some (events, .goto (.sweep p')) := by
      simp only [Proc.resume, World.reply, hresume]
      rfl
    obtain ⟨t, ht, hw, hprocs⟩ := await_goes hp (by simp) hproc
    exact ⟨t, ht, hnext t ((hprocs pid).trans (if_pos rfl)) hw⟩
  choose f hf hlater using hstep
  exact .next f hf hlater

theorem Alone.ends {p : ReconcileSandboxes} (hp : s.proc pid = some (.sweep p))
    (h : ∀ choice, ∃ events outcome,
      p.resume (s.world.perform .reconcileSandboxes choice p.request).2 = some (events, .done outcome) ∧
        ∀ t, t.proc pid = none →
          t.world = (s.world.perform .reconcileSandboxes choice p.request).1.record
            (.reconciled outcome :: events) → Q t) : Alone settings pid Q s := by
  have hstep : ∀ choice, ∃ t, step settings s (.await pid .ok choice) = some t ∧
      Alone settings pid Q t := by
    intro choice
    obtain ⟨events, outcome, hresume, hend⟩ := h choice
    have hproc : (Proc.sweep p).resume settings s.world.now
        (s.world.reply .reconcileSandboxes .ok choice p.request) = some (events, .done outcome) := by
      simp only [Proc.resume, World.reply, hresume]
      rfl
    obtain ⟨t, ht, hw, hprocs⟩ := await_ends hp (by simp) hproc
    exact ⟨t, ht, .here (hend t ((hprocs pid).trans (if_pos rfl)) hw)⟩
  choose f hf hlater using hstep
  exact .next f hf hlater

/-! ## The two loops -/

/-- The row after an UPDATE at `now` that matches it in the statuses `from_`. -/
def casRow (now : Time) (from_ : List SandboxStatus) (v : Values) (r : Sandbox) : Sandbox :=
  if r.status ∈ from_ then v.apply now r else r

def stopValues : Values := { status := .stopped }

def vanishValues : Values := { status := .failed, error := some (some "container disappeared") }

theorem World.row_transition (w : World) (actor : Actor) (sid id : Uuid)
    (from_ : List SandboxStatus) (v : Values) :
    (w.transition actor sid from_ v).1.row id =
      if id = sid then (w.row id).map (casRow w.now from_ v) else w.row id := by
  have hrow := World.row_update w actor (guard sid from_) v id
  refine hrow.trans ?_
  cases hr : w.row id with
  | none => simp
  | some r =>
    have hid := World.row_id hr
    by_cases hs : id = sid
    · simp [guard, casRow, hid, hs]
    · simp [guard, hid, hs]

theorem Alone.missing (v : Snapshot) (l : List Uuid) (hl : l.Nodup) (s : State) (n : Reaped)
    (hp : s.proc pid = some (.sweep ⟨n, ReconcileSandboxes.nextMissing v l⟩))
    (hrun : ∀ sid ∈ l, s.world.status sid = some .running) :
    Alone settings pid (fun t =>
      t.proc pid = some (.sweep ⟨{ n with vanished := n.vanished + l.length }, .finishStops v⟩) ∧
      t.world.now = s.world.now ∧ (∀ sid, t.world.container sid = s.world.container sid) ∧
      ∀ sid, t.world.row sid = if sid ∈ l then
        (s.world.row sid).map (casRow s.world.now [.running] vanishValues) else s.world.row sid) s := by
  induction l generalizing s n with
  | nil => exact .here ⟨hp, rfl, fun _ => rfl, fun _ => rfl⟩
  | cons sid rest ih =>
    obtain ⟨hnot, hl⟩ := List.nodup_cons.mp hl
    refine Alone.goes hp fun choice =>
      ⟨[.reaped .vanished sid], ⟨n.count .vanished, ReconcileSandboxes.nextMissing v rest⟩, ?_, ?_⟩
    · have hreply : (s.world.transition .reconcileSandboxes sid [.running] vanishValues).2 =
          .changed true := by
        obtain ⟨r, hr, hst⟩ := World.status_eq_some.mp (hrun sid List.mem_cons_self)
        rw [World.transition_reply]
        simp [hr, hst]
      change ReconcileSandboxes.resume ⟨n, .vanish v sid rest⟩
        (s.world.transition .reconcileSandboxes sid [.running] vanishValues).2 = _
      rw [hreply]
      rfl
    · intro t htp htw
      have hrow : ∀ id, t.world.row id = if id = sid then
          (s.world.row id).map (casRow s.world.now [.running] vanishValues) else s.world.row id := by
        intro id
        rw [htw]
        exact s.world.row_transition .reconcileSandboxes ..
      have hnow : t.world.now = s.world.now := by rw [htw]; rfl
      have hcontainer : ∀ id, t.world.container id = s.world.container id := by
        rw [htw]
        exact fun _ => rfl
      refine (ih hl t _ htp fun id hid => ?_).mono ?_
      · have hne : id ≠ sid := fun he => hnot (he ▸ hid)
        rw [World.status, hrow, if_neg hne]
        exact hrun id (List.mem_cons_of_mem _ hid)
      · rintro u ⟨hup, hunow, hucontainer, hurow⟩
        refine ⟨?_, hunow.trans hnow, fun id => (hucontainer id).trans (hcontainer id), fun id => ?_⟩
        · simpa [Reaped.count, Nat.add_assoc, Nat.add_comm 1] using hup
        · rw [hurow, hrow, hnow]
          by_cases hid : id = sid
          · subst hid
            simp [hnot]
          · simp [hid]

def Snapshot.reaps (v : Snapshot) (cs : List RuntimeSandbox) (sid : Uuid) : Bool :=
  cs.any fun c => decide (c.sandboxId = sid) && (v.reason c).isSome

def Snapshot.tally (v : Snapshot) (n : Reaped) (cs : List RuntimeSandbox) : Reaped :=
  cs.foldl (fun n c => ((v.reason c).map n.count).getD n) n

theorem casRow_stop_stop (now : Time) (r : Sandbox) :
    casRow now activeStatuses stopValues (casRow now activeStatuses stopValues r) =
      casRow now activeStatuses stopValues r := by
  have hstopped : (casRow now activeStatuses stopValues r).status ∉ activeStatuses := by
    by_cases hr : r.status ∈ activeStatuses
    · rw [casRow, if_pos hr]
      simp [stopValues, activeStatuses]
    · rw [casRow, if_neg hr]
      exact hr
  exact if_neg hstopped

theorem Alone.containers (v : Snapshot) (cs : List RuntimeSandbox) (s : State) (n : Reaped)
    (hp : s.proc pid = some (.sweep ⟨n, ReconcileSandboxes.nextContainer v cs⟩)) :
    Alone settings pid (fun t =>
      t.proc pid = some (.sweep ⟨v.tally n cs, ReconcileSandboxes.nextMissing v v.missing⟩) ∧
      t.world.now = s.world.now ∧
      (∀ sid, t.world.container sid = if v.reaps cs sid then none else s.world.container sid) ∧
      ∀ sid, t.world.row sid = if v.reaps cs sid then
        (s.world.row sid).map (casRow s.world.now activeStatuses stopValues) else s.world.row sid) s := by
  induction cs generalizing s n with
  | nil => exact .here ⟨hp, rfl, fun _ => rfl, fun _ => rfl⟩
  | cons c rest ih =>
    cases hreason : v.reason c with
    | none =>
      have hnext : ReconcileSandboxes.nextContainer v (c :: rest) =
          ReconcileSandboxes.nextContainer v rest := by
        simp [ReconcileSandboxes.nextContainer, hreason]
      have hreaps : v.reaps (c :: rest) = v.reaps rest := by
        funext sid
        simp [Snapshot.reaps, hreason]
      have htally : v.tally n (c :: rest) = v.tally n rest := by simp [Snapshot.tally, hreason]
      rw [hreaps, htally]
      exact ih s n (hnext ▸ hp)
    | some reason =>
      have hnext : ReconcileSandboxes.nextContainer v (c :: rest) = .remove v c reason rest := by
        simp [ReconcileSandboxes.nextContainer, hreason]
      have hreaps : ∀ sid, v.reaps (c :: rest) sid = (decide (c.sandboxId = sid) || v.reaps rest sid) := by
        simp [Snapshot.reaps, hreason]
      rw [hnext] at hp
      -- The removal.
      refine Alone.goes hp fun choice => ⟨[], ⟨n, .settle v c reason rest⟩, rfl, ?_⟩
      intro m hmp hmw
      have hmrow : ∀ id, m.world.row id = s.world.row id := by rw [hmw]; exact fun _ => rfl
      have hmnow : m.world.now = s.world.now := by rw [hmw]; rfl
      have hmcontainer : ∀ id, m.world.container id =
          if c.sandboxId = id then none else s.world.container id := by
        rw [hmw]
        exact s.world.container_removeContainer c.sandboxId
      -- The write of its row.
      refine Alone.goes hmp fun choice => ⟨[.reaped reason c.sandboxId],
        ⟨n.count reason, ReconcileSandboxes.nextContainer v rest⟩, ?_, ?_⟩
      · change ReconcileSandboxes.resume ⟨n, .settle v c reason rest⟩
          (m.world.transition .reconcileSandboxes c.sandboxId activeStatuses stopValues).2 = _
        rw [World.transition_reply]
        rfl
      · intro t htp htw
        have hnow : t.world.now = s.world.now := by rw [htw, ← hmnow]; rfl
        have hrow : ∀ id, t.world.row id = if id = c.sandboxId then
            (s.world.row id).map (casRow s.world.now activeStatuses stopValues)
            else s.world.row id := by
          intro id
          rw [htw, ← hmrow, ← hmnow]
          exact m.world.row_transition .reconcileSandboxes ..
        have hcontainer : ∀ id, t.world.container id = m.world.container id := by
          rw [htw]
          exact fun _ => rfl
        refine (ih t _ htp).mono ?_
        rintro u ⟨hup, hunow, hucontainer, hurow⟩
        refine ⟨?_, hunow.trans hnow, fun id => ?_, fun id => ?_⟩
        · simpa [Snapshot.tally, hreason] using hup
        · rw [hucontainer, hcontainer, hmcontainer, hreaps]
          by_cases hid : c.sandboxId = id <;> simp [hid]
        · rw [hurow, hrow, hnow, hreaps]
          by_cases hid : id = c.sandboxId
          · subst hid
            cases s.world.row c.sandboxId <;> simp [casRow_stop_stop]
          · simp [hid, Ne.symm hid]

/-! ## What the sweep reads -/

/-- What a sweep has read that read all of it in this world; `ids` are the running rows. -/
def World.view (w : World) (ids : List Uuid) : Snapshot where
  running := ids
  containers := w.containers.rows.map Container.seen
  statuses := (w.sandboxes.rows.filter fun r =>
    decide (r.id ∈ (w.containers.rows.map Container.seen).map (·.sandboxId))).map
      fun r => (r.id, r.status)
  now := w.now

theorem World.mem_view_live {w : World} (ids : List Uuid) {sid : Uuid} :
    sid ∈ (w.view ids).live ↔ (w.container sid).isSome := by
  simp only [Snapshot.live, view, List.map_map, List.mem_map, Function.comp_apply, Container.seen]
  constructor
  · rintro ⟨c, hc, rfl⟩
    rw [World.mem_containers_iff] at hc
    simp [hc]
  · intro h
    obtain ⟨c, hc⟩ := Option.isSome_iff_exists.mp h
    have hid := World.container_id hc
    exact ⟨c, World.mem_containers_iff.mpr (hid ▸ hc), hid⟩

theorem World.view_status {w : World} {ids : List Uuid} {sid : Uuid}
    (h : (w.container sid).isSome) : (w.view ids).status sid = w.status sid :=
  lookup_rows w _ sid ((World.mem_view_live ids).mpr h)

def World.reapReason (w : World) (c : Container) : Option ReapReason :=
  if c.expiresAt ≤ w.now then some .expired
  else if (w.status c.sandboxId).any fun st => decide (st ∈ wanted) then none
  else some .orphan

theorem World.view_reason {w : World} (ids : List Uuid) {c : Container}
    (h : w.container c.sandboxId = some c) : (w.view ids).reason c.seen = w.reapReason c := by
  have hstatus : (w.view ids).status c.seen.sandboxId = w.status c.sandboxId :=
    World.view_status (by simp [Container.seen, h])
  unfold Snapshot.reason reapReason
  rw [hstatus]
  cases w.status c.sandboxId with
  | none => rfl
  | some st => cases st <;> rfl

theorem World.view_reaps {w : World} {ids : List Uuid} {sid : Uuid} :
    (w.view ids).reaps (w.view ids).containers sid =
      (w.container sid).any fun c => (w.reapReason c).isSome := by
  rw [Bool.eq_iff_iff]
  simp only [Snapshot.reaps, view, List.any_map, List.any_eq_true, Function.comp_apply,
    Bool.and_eq_true, decide_eq_true_eq, Option.any_eq_true]
  constructor
  · rintro ⟨c, hc, hid, hreason⟩
    have hfound := World.mem_containers_iff.mp hc
    obtain rfl : c.sandboxId = sid := hid
    exact ⟨c, hfound, by rwa [← World.view_reason ids hfound]⟩
  · rintro ⟨c, hc, hreason⟩
    have hid := World.container_id hc
    subst hid
    exact ⟨c, World.mem_containers_iff.mpr hc, rfl, by rwa [← World.view_reason ids hc] at hreason⟩

theorem World.view_missing {w : World} {ids : List Uuid} (h : ids.Perm w.runningIds) :
    (w.view ids).missing.Nodup ∧
      (∀ sid, sid ∈ (w.view ids).missing ↔
        w.status sid = some .running ∧ w.container sid = none) ∧
      (w.view ids).missing.length = w.sweepCounts.vanished := by
  have hmem : ∀ sid, decide (sid ∉ (w.view ids).live) = (w.container sid).isNone := by
    intro sid
    rw [Bool.eq_iff_iff, decide_eq_true_eq, World.mem_view_live]
    simp
  have hmissing : (w.view ids).missing = ids.filter fun sid => (w.container sid).isNone :=
    List.filter_congr fun sid _ => hmem sid
  have hnodup : w.runningIds.Nodup := w.sandboxes.keysNodup.sublist (List.filter_sublist.map _)
  rw [hmissing]
  refine ⟨(h.nodup_iff.mpr hnodup).filter _, fun sid => ?_, ?_⟩
  · rw [List.mem_filter, h.mem_iff, World.mem_runningIds_iff, Option.isNone_iff_eq_none]
  · rw [(h.filter _).length_eq, ← List.countP_eq_length_filter, runningIds, List.countP_map,
      List.countP_filter, sweepCounts]
    exact List.countP_congr fun r _ => by simp [and_comm]

theorem Snapshot.reason_ne_vanished (v : Snapshot) (c : RuntimeSandbox) :
    v.reason c ≠ some .vanished := by
  unfold Snapshot.reason
  split
  · simp
  · split
    · simp
    · split <;> simp

theorem Snapshot.tally_eq (v : Snapshot) (n : Reaped) (cs : List RuntimeSandbox) :
    v.tally n cs = {
      expired := n.expired + cs.countP fun c => decide (v.reason c = some .expired)
      orphan := n.orphan + cs.countP fun c => decide (v.reason c = some .orphan)
      vanished := n.vanished } := by
  induction cs generalizing n with
  | nil => rfl
  | cons c cs ih =>
    have hcons : v.tally n (c :: cs) = v.tally (((v.reason c).map n.count).getD n) cs := rfl
    rw [hcons, ih]
    cases hreason : v.reason c with
    | none => simp [hreason]
    | some reason =>
      cases reason with
      | expired => simp [Reaped.count, hreason, Nat.add_assoc, Nat.add_comm 1]
      | orphan => simp [Reaped.count, hreason, Nat.add_assoc, Nat.add_comm 1]
      | vanished => exact absurd hreason (v.reason_ne_vanished c)

theorem World.view_tally {w : World} {ids : List Uuid} :
    (w.view ids).tally {} (w.view ids).containers =
      { expired := w.sweepCounts.expired, orphan := w.sweepCounts.orphan } := by
  have hreason : ∀ c ∈ w.containers.rows, (w.view ids).reason c.seen = w.reapReason c :=
    fun c hc => World.view_reason ids (World.mem_containers_iff.mp hc)
  have hcs : (w.view ids).containers = w.containers.rows.map Container.seen := rfl
  rw [Snapshot.tally_eq, hcs]
  simp only [List.countP_map, Nat.zero_add, sweepCounts, Reaped.mk.injEq, and_true]
  constructor
  · refine List.countP_congr fun c hc => ?_
    simp only [Function.comp_apply, hreason c hc, reapReason, decide_eq_true_eq]
    split
    · simp [*]
    · split <;> simp [*]
  · refine List.countP_congr fun c hc => ?_
    simp only [Function.comp_apply, hreason c hc, reapReason, decide_eq_true_eq]
    split
    · rename_i hexpired
      simp [Int.not_lt.mpr hexpired]
    · split <;> simp_all

/-! ## From the first call to the last -/

theorem World.row_finishStops (w : World) (choice : Choice) (live : List Uuid) (sid : Uuid) :
    (w.perform .reconcileSandboxes choice (.finishStops live)).1.row sid =
      if sid ∉ live then (w.row sid).map (casRow w.now [.stopping] stopValues) else w.row sid := by
  have hrow := World.row_update w .reconcileSandboxes
    (fun r => decide (r.status = .stopping) && decide (r.id ∉ live)) stopValues sid
  refine hrow.trans ?_
  cases hr : w.row sid with
  | none => simp
  | some r =>
    have hid := World.row_id hr
    by_cases hs : sid ∈ live <;> simp [casRow, hid, hs]

/-- What the phases together make of a row. -/
theorem World.sweptRow_eq (w : World) (r : Sandbox) (hr : w.row r.id = some r) :
    w.sweptRow r =
      (fun r' => if w.container r.id = none then casRow w.now [.stopping] stopValues r' else r')
        ((fun r' => if w.status r.id = some .running ∧ w.container r.id = none then
            casRow w.now [.running] vanishValues r' else r')
          (if (w.container r.id).any fun c => (w.reapReason c).isSome then
            casRow w.now activeStatuses stopValues r else r)) := by
  have hstatus : w.status r.id = some r.status := by rw [World.status, hr]; rfl
  rw [hstatus]
  unfold World.sweptRow
  cases hc : w.container r.id with
  | none =>
    cases hst : r.status <;>
      simp [casRow, hst, stopValues, vanishValues, Values.apply]
  | some c =>
    have hid := World.container_id hc
    have hreason : w.reapReason c = if c.expiresAt ≤ w.now then some .expired
        else if r.status ∈ wanted then none else some .orphan := by
      simp [World.reapReason, hid, hstatus]
    simp only [Option.any_some, hreason, reduceCtorEq, and_false, if_false]
    by_cases hexpired : c.expiresAt ≤ w.now
    · cases hst : r.status <;>
        simp [casRow, hst, hexpired, stopValues, activeStatuses, Values.apply]
    · cases hst : r.status <;>
        simp [casRow, hst, hexpired, stopValues, activeStatuses, wanted, Values.apply]

theorem Alone.sweep (settings : Settings) (hp : s.proc pid = some (.sweep .start)) :
    Alone settings pid (fun t => t.proc pid = none ∧ Swept s.world t.world) s := by
  -- The four reads, none of which changes the world.
  refine Alone.goes hp fun choice => ⟨[], ⟨{}, .list (if choice.order.isPerm s.world.runningIds then
    choice.order else s.world.runningIds)⟩, rfl, fun s₁ hp₁ hw₁ => ?_⟩
  have hperm : (if choice.order.isPerm s.world.runningIds then choice.order
      else s.world.runningIds).Perm s.world.runningIds := by
    split
    · exact List.isPerm_iff.mp ‹_›
    · exact .refl _
  generalize (if choice.order.isPerm s.world.runningIds then choice.order
    else s.world.runningIds) = ids at hp₁ hperm
  refine Alone.goes hp₁ fun _ => ⟨[], _, rfl, fun s₂ hp₂ hw₂ => ?_⟩
  refine Alone.goes hp₂ fun _ => ⟨[], _, rfl, fun s₃ hp₃ hw₃ => ?_⟩
  refine Alone.goes hp₃ fun _ => ⟨[], _, rfl, fun s₄ hp₄ hw₄ => ?_⟩
  have hw₁ : s₁.world = s.world := hw₁
  have hw₂ : s₂.world = s.world := hw₂.trans hw₁
  have hw₃ : s₃.world = s.world := hw₃.trans hw₂
  have hw₄ : s₄.world = s.world := hw₄.trans hw₃
  rw [hw₁, hw₂, hw₃] at hp₄
  -- The loop over the containers.
  refine (Alone.containers (s.world.view ids) (s.world.view ids).containers s₄ {} hp₄).bind ?_
  rintro s₅ ⟨hp₅, hnow₅, hcontainers₅, hrows₅⟩
  rw [hw₄] at hnow₅ hcontainers₅ hrows₅
  obtain ⟨hnodup, hmissing, hlength⟩ := World.view_missing hperm
  have hreaps : ∀ sid, (s.world.view ids).reaps (s.world.view ids).containers sid =
      (s.world.container sid).any fun c => (s.world.reapReason c).isSome := fun _ => World.view_reaps
  -- The loop over the rows without a container.
  refine (Alone.missing (s.world.view ids) _ hnodup s₅ _ hp₅ fun sid hsid => ?_).bind ?_
  · obtain ⟨hst, hnone⟩ := (hmissing sid).mp hsid
    rw [World.status, hrows₅, hreaps, hnone]
    exact hst
  rintro s₆ ⟨hp₆, hnow₆, hcontainers₆, hrows₆⟩
  -- The UPDATE of the stops that are left.
  refine Alone.ends hp₆ fun choice => ⟨_, _, rfl, fun t ht hw => ⟨ht, ?_⟩⟩
  have hnow : s₆.world.now = s.world.now := hnow₆.trans hnow₅
  refine ⟨fun sid => ?_, fun sid => ?_, ?_, ?_⟩
  · have hrow : t.world.row sid = if sid ∉ (s.world.view ids).live then
        (s₆.world.row sid).map (casRow s₆.world.now [.stopping] stopValues)
        else s₆.world.row sid := by
      rw [hw]
      exact s₆.world.row_finishStops choice (s.world.view ids).live sid
    rw [hrow, hrows₆, hrows₅, hreaps, hnow, hnow₅]
    simp only [hmissing, World.mem_view_live]
    cases hr : s.world.row sid with
    | none => simp
    | some r =>
      have hid := World.row_id hr
      subst hid
      change _ = some (s.world.sweptRow r)
      rw [World.sweptRow_eq s.world r hr]
      cases s.world.container r.id with
      | none =>
        by_cases hst : s.world.status r.id = some .running <;> simp [hst]
      | some c =>
        by_cases hreason : (s.world.reapReason c).isSome <;> simp [hreason]
  · have hcontainer : t.world.container sid = s₆.world.container sid := by rw [hw]; rfl
    rw [hcontainer, hcontainers₆, hcontainers₅, hreaps, World.sweptContainer]
    cases hc : s.world.container sid with
    | none => simp
    | some c =>
      have hid := World.container_id hc
      subst hid
      simp only [Option.any_some, World.reapReason]
      by_cases hexpired : c.expiresAt ≤ s.world.now
      · simp [hexpired, Int.not_lt.mpr hexpired, Option.filter]
      · by_cases hst : ((s.world.status c.sandboxId).any fun st => decide (st ∈ wanted)) = true
        · simp [hexpired, hst, Int.not_le.mp hexpired, Option.filter]
        · simp [hexpired, hst, Option.filter]
  · rw [hw, World.view_tally, hlength]
    simp
  · rw [hw, ← hnow]
    rfl

/-! ## A swept world stays -/

theorem World.sweptRow_wanted {w : World} {r : Sandbox} {c : Container} (hst : r.status ∈ wanted)
    (hc : w.container r.id = some c) (hahead : w.now < c.expiresAt) : w.sweptRow r = r := by
  unfold World.sweptRow
  rw [hc]
  have hexpired : ¬c.expiresAt ≤ w.now := Int.not_le.mpr hahead
  have hactive : r.status ≠ .stopping := by
    rintro hstopping
    simp [hstopping, wanted] at hst
  cases h : r.status with
  | stopping => exact absurd h hactive
  | stopped => rfl
  | failed => rfl
  | queued => exact if_neg hexpired
  | starting => exact if_neg hexpired
  | running => exact if_neg hexpired

variable {w w' : World}

theorem Swept.container_left (h : Swept w w') {sid : Uuid} {c : Container}
    (hc : w'.container sid = some c) :
    w.container sid = some c ∧ w.now < c.expiresAt ∧
      ∃ r, w.row sid = some r ∧ r.status ∈ wanted ∧ w'.row sid = some r := by
  rw [h.containers, World.sweptContainer, Option.filter_eq_some_iff] at hc
  obtain ⟨hc, hkeep⟩ := hc
  simp only [Bool.and_eq_true, decide_eq_true_eq, Option.any_eq_true] at hkeep
  obtain ⟨hahead, st, hst, hwanted⟩ := hkeep
  obtain ⟨r, hr, rfl⟩ := World.status_eq_some.mp hst
  have hid := World.row_id hr
  refine ⟨hc, hahead, r, hr, hwanted, ?_⟩
  rw [h.rows, hr, Option.map_some, World.sweptRow_wanted hwanted (hid ▸ hc) hahead]

theorem Swept.container_kept (h : Swept w w') {sid : Uuid} {c : Container}
    (hc : w'.container sid = some c) :
    w'.now < c.expiresAt ∧ ∃ st, w'.status sid = some st ∧ st ∈ wanted := by
  obtain ⟨-, hahead, r, -, hst, hr⟩ := h.container_left hc
  exact ⟨h.now ▸ hahead, r.status, World.status_eq_some.mpr ⟨r, hr, rfl⟩, hst⟩

theorem Swept.row_settled (h : Swept w w') {sid : Uuid} {r : Sandbox} (hr : w'.row sid = some r) :
    r.status ≠ .stopping ∧ (r.status = .running → w'.container sid ≠ none) := by
  have hrow := h.rows sid
  rw [hr] at hrow
  obtain ⟨r₀, hr₀, rfl⟩ := Option.map_eq_some_iff.mp hrow.symm
  have hid := World.row_id hr₀
  subst hid
  have hcontainer := h.containers r₀.id
  unfold World.sweptContainer World.status at hcontainer
  rw [hr₀] at hcontainer
  unfold World.sweptRow
  cases hc : w.container r₀.id with
  | none => cases hst : r₀.status <;> simp [hst]
  | some c =>
    by_cases hexpired : c.expiresAt ≤ w.now
    · cases hst : r₀.status <;> simp [hst, hexpired]
    · rw [hc] at hcontainer
      cases hst : r₀.status <;> simp only [hst, hexpired, if_false, ne_eq, reduceCtorEq,
        not_false_eq_true, false_implies, and_self, forall_const, true_and]
      have hkeep : (decide (w.now < c.expiresAt) && (some r₀.status).any fun st =>
          decide (st ∈ wanted)) = true := by
        simp [Int.not_le.mp hexpired, hst, wanted]
      rw [Option.map_some, Option.filter_some, if_pos hkeep] at hcontainer
      simp [hcontainer]

theorem Swept.sweptRow (h : Swept w w') {sid : Uuid} {r : Sandbox} (hr : w'.row sid = some r) :
    w'.sweptRow r = r := by
  obtain ⟨hstopping, hrunning⟩ := h.row_settled hr
  have hid := World.row_id hr
  subst hid
  cases hc : w'.container r.id with
  | some c =>
    obtain ⟨hahead, st, hst, hwanted⟩ := h.container_kept hc
    obtain ⟨r', hr', rfl⟩ := World.status_eq_some.mp hst
    cases hr.symm.trans hr'
    exact World.sweptRow_wanted hwanted hc hahead
  | none =>
    unfold World.sweptRow
    rw [hc]
    cases hst : r.status with
    | running => exact absurd hc (hrunning hst)
    | stopping => exact absurd hst hstopping
    | _ => rfl

theorem Swept.sweptContainer (h : Swept w w') (sid : Uuid) :
    w'.sweptContainer sid = w'.container sid := by
  unfold World.sweptContainer
  cases hc : w'.container sid with
  | none => rfl
  | some c =>
    obtain ⟨hahead, st, hst, hwanted⟩ := h.container_kept hc
    simp [Option.filter, hahead, hst, hwanted]

theorem Swept.sweepCounts (h : Swept w w') : w'.sweepCounts = {} := by
  have hkept : ∀ c ∈ w'.containers.rows, w'.now < c.expiresAt ∧
      ∃ st, w'.status c.sandboxId = some st ∧ st ∈ wanted :=
    fun c hc => h.container_kept (World.mem_containers_iff.mp hc)
  simp only [World.sweepCounts, Reaped.mk.injEq, List.countP_eq_zero]
  refine ⟨fun c hc => ?_, fun c hc => ?_, fun r hr => ?_⟩
  · simpa using (hkept c hc).1
  · obtain ⟨-, st, hst, hwanted⟩ := hkept c hc
    simp [hst, hwanted]
  · have hcontainer := (h.row_settled (World.mem_rows_iff.mp hr)).2
    simpa using hcontainer

/-! ## The reaper converges -/

def sweepAlone (pid : Nat) (choices : Nat → Choice) (n : Nat) : List Action :=
  .sweep pid :: LabelledRuns.actions (fun choice => .await pid .ok choice) choices n

theorem sweep_runs (settings : Settings) (s : State) (pid : Nat) (idle : s.proc pid = none)
    (choices : Nat → Choice) :
    ∃ n t, run settings s (sweepAlone pid choices n) = some t ∧ t.proc pid = none ∧
      Swept s.world t.world := by
  obtain ⟨m, hm⟩ := State.spawn_of_idle pid idle (.sweep .start)
  obtain ⟨hworld, -, -, hprocs⟩ := State.proc_spawn hm
  obtain ⟨n, t, ht, hend, hswept⟩ :=
    (Alone.sweep settings ((hprocs pid).trans (if_pos rfl))).exists_run choices
  exact ⟨n, t, LabelledRuns.run_cons_eq_some.mpr ⟨m, hm, ht⟩, hend, hworld ▸ hswept⟩

/-- An undisturbed sweep ends, and leaves what `Swept` says; another one at the same time
changes nothing and counts nothing. -/
theorem sweep_converges (settings : Settings) (s : State) (pid : Nat) (idle : s.proc pid = none)
    (choices : Nat → Choice) :
    ∃ n t, run settings s (sweepAlone pid choices n) = some t ∧ t.proc pid = none ∧
      Swept s.world t.world ∧
      ∀ choices' : Nat → Choice, ∃ m u, run settings t (sweepAlone pid choices' m) = some u ∧
        u.proc pid = none ∧ (∀ sid, u.world.row sid = t.world.row sid) ∧
        (∀ sid, u.world.container sid = t.world.container sid) ∧
        u.world.log.head? = some (.reconciled (.swept {})) := by
  obtain ⟨n, t, ht, hend, hswept⟩ := sweep_runs settings s pid idle choices
  refine ⟨n, t, ht, hend, hswept, fun choices' => ?_⟩
  obtain ⟨m, u, hu, huend, hagain⟩ := sweep_runs settings t pid hend choices'
  refine ⟨m, u, hu, huend, fun sid => ?_, fun sid => ?_, ?_⟩
  · rw [hagain.rows]
    cases hr : t.world.row sid with
    | none => rfl
    | some r => rw [Option.map_some, hswept.sweptRow hr]
  · rw [hagain.containers, hswept.sweptContainer]
  · rw [hagain.counts, hswept.sweepCounts]

def aRow (sid : Uuid) (status : SandboxStatus) (expiresAt : Time) : Sandbox :=
  ⟨sid, .http, status, none, none, 1, .stable, expiresAt, none, 0, 0⟩

/-- One sandbox of every status but QUEUED and FAILED, two of RUNNING; the container of the
STARTING one is expired, one RUNNING one has lost its own, and a container has no row. -/
def mixedState : State :=
  { State.init 100 KeyedTable.empty 7 with
    world := ⟨100, ⟨[aRow 1 .running 900, aRow 2 .running 900, aRow 3 .stopping 900,
        aRow 4 .starting 50, aRow 6 .stopped 50], by decide, by decide⟩,
      ⟨[⟨1, 900, 0, true, some 4000⟩, ⟨3, 900, 1, true, some 4001⟩, ⟨4, 50, 2, true, some 4002⟩,
        ⟨5, 900, 3, true, some 4003⟩, ⟨6, 50, 4, false, none⟩], by decide, by decide⟩,
      7, [], [], none, []⟩ }

theorem sweep_converges_mixed :
    ∃ n t, run ⟨3, 10, "localhost"⟩ mixedState (sweepAlone 0 (fun _ => {}) n) = some t ∧
      [1, 2, 3, 4, 5, 6].map t.world.status =
        [some .running, some .failed, some .stopped, some .stopped, none, some .stopped] ∧
      [1, 2, 3, 4, 5, 6].map (fun sid => (t.world.container sid).isSome) =
        [true, false, false, false, false, false] ∧
      t.world.log.head? =
        some (.reconciled (.swept { expired := 2, orphan := 2, vanished := 1 })) := by
  obtain ⟨n, t, ht, -, hswept, -⟩ :=
    sweep_converges ⟨3, 10, "localhost"⟩ mixedState 0 rfl fun _ => {}
  have hstatus : ∀ sid, t.world.status sid =
      ((mixedState.world.row sid).map mixedState.world.sweptRow).map (·.status) := by
    intro sid
    rw [World.status, hswept.rows]
  refine ⟨n, t, ht, ?_, ?_, hswept.counts.trans (by decide)⟩
  · simp only [List.map_cons, List.map_nil, hstatus]
    decide
  · simp only [List.map_cons, List.map_nil, hswept.containers]
    decide

end SandboxOrchestrator
