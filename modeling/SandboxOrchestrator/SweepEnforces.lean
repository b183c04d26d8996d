import SandboxOrchestrator.Serving
import SandboxOrchestrator.SweepOverlap

/-!
# What one complete sweep enforces

"Enforce TTLs, remove containers leaked by crashes, finish stops whose job was lost." A
sweep whose own calls succeed does so whatever else happens while it runs: requests,
deliveries, other sweeps and the deaths of any of them.
-/

namespace SandboxOrchestrator

set_option autoImplicit false

/-- A container of the sandbox has to go: it is not of this program, or its label is over, or
nobody wants it. -/
def World.Condemned (before : Containers) (w : World) (sid : Uuid) : Prop :=
  w.Overdue before sid ∨ w.Reached sid 2

/-- What the sweep has read so far condemns the container of the sandbox, if it lists one. -/
def SweepPc.Finds (before : Containers) (w : World) (sid : Uuid) : SweepPc → Prop
  | .clock _ cs rows =>
    (∀ st, rows.lookup sid = some st → st ∈ noContainerWanted) ∨
      ∀ c ∈ cs, c.sandboxId = sid → c.expiresAt ≤ w.now
  | .remove v _ _ _ => ∀ c ∈ v.containers, c.sandboxId = sid → (v.reason c).isSome
  | .settle v _ _ _ => ∀ c ∈ v.containers, c.sandboxId = sid → (v.reason c).isSome
  | .vanish _ _ _ => True
  | .finishStops _ => True
  | _ => w.Condemned before sid

/-- The row is settled, or the sweep will write it: with its container, as one that was running
without, or as one that was stopping without. -/
def SweepPc.Settles (w : World) (sid : Uuid) (pc : SweepPc) : Prop :=
  w.Reached sid 3 ∨ sid ∈ pc.ahead.map (·.sandboxId) ∨
    (∀ cs, pc.listed = some cs → sid ∉ cs.map (·.sandboxId)) ∧ w.Reached sid 1 ∧
      (w.Reached sid 2 ∨ sid ∈ pc.candidates ∨ pc = .snapshot)

def SweepPc.pending : SweepPc → List RuntimeSandbox
  | .statuses _ cs => cs
  | .clock _ cs _ => cs
  | pc => pc.left

def Succeeds (pid : Nat) (_ : State) (a : Action) (_ : State) : Prop :=
  ∀ how choice, a = .await pid how choice → how = .ok

variable {settings : Settings} {before : Containers} {sid : Uuid} {w w' : World} {s t : State}
  {a : Action} {pc : SweepPc}

theorem World.Condemned.forward (h : w.Condemned before sid) (hf : RowsForward w w')
    (hnow : w.now ≤ w'.now) : w'.Condemned before sid :=
  h.imp (fun hover => hover.forward hf hnow) fun hreach => hreach.forward hf

theorem SweepPc.Finds.forward (h : pc.Finds before w sid) (hf : RowsForward w w') (hnow : w.now ≤ w'.now) :
    pc.Finds before w' sid := by
  cases pc with
  | clock running cs rows => exact h.imp_right fun hover c hc hid => Int.le_trans (hover c hc hid) hnow
  | snapshot => exact World.Condemned.forward h hf hnow
  | list => exact World.Condemned.forward h hf hnow
  | statuses => exact World.Condemned.forward h hf hnow
  | _ => exact h

theorem SweepPc.Settles.forward (h : pc.Settles w sid) (hf : RowsForward w w') : pc.Settles w' sid := by
  rcases h with hdone | hahead | ⟨hnot, hrunning, hleft⟩
  · exact .inl (hdone.forward hf)
  · exact .inr (.inl hahead)
  · exact .inr (.inr ⟨hnot, hrunning.forward hf, hleft.imp_left fun hreach => hreach.forward hf⟩)

/-! ## What it reads -/

theorem finds_nextMissing (v : Snapshot) (l : List Uuid) :
    (ReconcileSandboxes.nextMissing v l).Finds before w sid := by
  cases l <;> trivial

theorem finds_nextContainer {v : Snapshot}
    (h : ∀ c ∈ v.containers, c.sandboxId = sid → (v.reason c).isSome) (cs : List RuntimeSandbox) :
    (ReconcileSandboxes.nextContainer v cs).Finds before w sid := by
  rcases nextContainer_cases v cs with ⟨hnext, -⟩ | ⟨_, _, _, _, -, -, -, hnext⟩
  · rw [hnext]
    exact finds_nextMissing v v.missing
  · rw [hnext]
    exact h

theorem Snapshot.reason_of_status {v : Snapshot} {c : RuntimeSandbox}
    (h : ∀ st, v.status c.sandboxId = some st → st ∈ noContainerWanted) : (v.reason c).isSome := by
  unfold Snapshot.reason
  split
  · rfl
  · split
    · rfl
    · rename_i st hst
      rw [if_pos (h st hst)]
      rfl

theorem Snapshot.reason_of_expired {v : Snapshot} {c : RuntimeSandbox} (h : c.expiresAt ≤ v.now) :
    (v.reason c).isSome := by
  rw [Snapshot.reason, if_pos h]
  rfl

theorem World.Condemned.read (h : w.Condemned before sid)
    (hforeign : (before.find? sid).isSome → w.row sid = none) {cs : List RuntimeSandbox}
    (hdated : ∀ c ∈ cs, w.Dated before c) {running : List Uuid} {rows : List (Uuid × SandboxStatus)}
    (hrows : (w.sandboxes.rows.filter fun r => decide (r.id ∈ cs.map (·.sandboxId))).map
      (fun r => (r.id, r.status)) = rows) :
    (SweepPc.clock running cs rows).Finds before w sid := by
  have hlookup : ∀ st, rows.lookup sid = some st → w.status sid = some st := by
    intro st hst
    rw [← hrows] at hst
    by_cases hmem : sid ∈ cs.map (·.sandboxId)
    · exact (lookup_rows w _ sid hmem).symm.trans hst
    · rw [lookup_rows_none w _ sid hmem] at hst
      cases hst
  rcases h with (hbefore | ⟨r, hr, hover⟩) | hreach
  · left
    intro st hst
    obtain ⟨r, hr, -⟩ := World.status_eq_some.mp (hlookup st hst)
    cases (hforeign hbefore).symm.trans hr
  · right
    rintro c hc rfl
    rcases hdated c hc with hbefore | ⟨r', hr', hlabel⟩
    · cases (hforeign hbefore).symm.trans hr
    · cases hr.symm.trans hr'
      exact hlabel ▸ hover
  · left
    intro st hst
    obtain ⟨r, hr, rfl⟩ := World.status_eq_some.mp (hlookup st hst)
    exact (mem_noContainerWanted r.status).mpr (hreach.of_row hr)

theorem SweepPc.Finds.reason_of_clock {running : List Uuid} {cs : List RuntimeSandbox}
    {rows : List (Uuid × SandboxStatus)} (h : (SweepPc.clock running cs rows).Finds before w sid)
    {c : RuntimeSandbox} (hc : c ∈ cs) (hid : c.sandboxId = sid) :
    ((⟨running, cs, rows, w.now⟩ : Snapshot).reason c).isSome := by
  rcases h with hstatus | hover
  · exact Snapshot.reason_of_status fun st hst => hstatus st (hid ▸ hst)
  · exact Snapshot.reason_of_expired (hover c hc hid)

theorem ReconcileSandboxes.finds_goes {p p' : ReconcileSandboxes} {choice : Choice}
    (hforeign : (before.find? sid).isSome → w.row sid = none)
    (hdated : ∀ cs, p.pc.listed = some cs → ∀ c ∈ cs, w.Dated before c)
    (h : p.Goes (w.perform .reconcileSandboxes choice p.request).2 p') (hp : p.pc.Finds before w sid) :
    p'.pc.Finds before w sid := by
  generalize hq : (w.perform _ choice p.request).2 = reply at h
  cases h with
  | snapshot n running => exact hp
  | listed n running cs => exact hp
  | read n running cs rows => exact World.Condemned.read hp hforeign (hdated cs rfl) (Reply.statuses.inj hq)
  | clocked n running cs rows now =>
    obtain rfl : w.now = now := Reply.time.inj hq
    exact finds_nextContainer (fun c hc hid => hp.reason_of_clock hc hid) cs
  | removed n v c reason rest b => exact hp
  | settled n v c reason rest b => exact finds_nextContainer hp rest
  | vanished n v id rest => exact finds_nextMissing v rest
  | kept n v id rest => exact finds_nextMissing v rest

/-! ## What it writes -/

theorem World.mem_of_selectRunning {actor : Actor} {choice : Choice} {ids : List Uuid}
    (h : (w.perform actor choice .selectRunning).2 = .ids ids) (hrun : w.status sid = some .running) :
    sid ∈ ids := by
  have hmem := World.mem_runningIds_iff.mpr hrun
  simp only [World.perform, Reply.ids.injEq] at h
  split at h
  · rename_i hperm
    exact h ▸ (List.isPerm_iff.mp hperm).mem_iff.mpr hmem
  · exact h ▸ hmem

theorem SandboxStatus.rank_of_ne_running {st : SandboxStatus} (h : 1 ≤ st.rank) (hne : st ≠ .running) :
    2 ≤ st.rank := by
  cases st <;> first | exact absurd rfl hne | decide | (revert h; decide)

theorem World.reached_of_vanish {actor : Actor} {choice : Choice} {v : Values}
    (hreach : w.Reached sid 1) (hv : v.status = .failed) :
    (w.perform actor choice (.transition sid [.running] v)).1.Reached sid 2 := by
  obtain ⟨r, hr, hrank⟩ := hreach
  have hrow : (w.transition actor sid [.running] v).1.row sid = _ :=
    (World.row_transition w actor sid sid [.running] v).trans (if_pos rfl)
  rw [hr, Option.map_some] at hrow
  refine ⟨_, hrow, ?_⟩
  unfold casRow
  split
  · rw [Values.apply_status, hv]
    decide
  · rename_i hst
    exact SandboxStatus.rank_of_ne_running hrank (by simpa using hst)

theorem World.reached_of_finishStops {choice : Choice} {live : List Uuid} (hnot : sid ∉ live)
    (hreach : w.Reached sid 2) :
    (w.perform .reconcileSandboxes choice (.finishStops live)).1.Reached sid 3 := by
  obtain ⟨r, hr, hrank⟩ := hreach
  have hrow := World.row_finishStops w choice live sid
  rw [if_pos hnot, hr, Option.map_some] at hrow
  refine ⟨_, hrow, ?_⟩
  unfold casRow
  split
  · exact Nat.le_refl 3
  · rename_i hst
    cases hstatus : r.status <;> simp_all [SandboxStatus.rank]

theorem ReconcileSandboxes.ahead_settles {p p' : ReconcileSandboxes} {choice : Choice}
    (h : p.Goes (w.perform .reconcileSandboxes choice p.request).2 p')
    (hleft : ∀ v, p.pc.view = some v → ∀ c ∈ p.pc.left, c ∈ v.containers)
    (hfinds : p.pc.Finds before w sid) (hrow : w.Reached sid 0)
    (hahead : sid ∈ p.pc.ahead.map (·.sandboxId)) :
    p'.pc.Settles (w.perform .reconcileSandboxes choice p.request).1 sid := by
  obtain ⟨c₁, hc₁, rfl⟩ := List.mem_map.mp hahead
  generalize hq : (w.perform _ choice p.request).2 = reply at h
  cases h with
  | snapshot => cases hc₁
  | listed => cases hc₁
  | read => exact .inr (.inl hahead)
  | clocked n running cs rows now =>
    obtain rfl : w.now = now := Reply.time.inj hq
    exact .inr (.inl (List.mem_map_of_mem
      (mem_ahead_nextContainer _ hc₁ (hfinds.reason_of_clock hc₁ rfl))))
  | removed => exact .inr (.inl hahead)
  | settled n v c reason rest b =>
    rcases List.mem_cons.mp hc₁ with rfl | hrest
    · obtain ⟨r, hr, -⟩ := hrow
      exact .inl (World.reached_of_settle .reconcileSandboxes choice hr)
    · exact .inr (.inl (List.mem_map_of_mem
        (mem_ahead_nextContainer _ hrest (hfinds c₁ (hleft v rfl c₁ hrest) rfl))))
  | vanished => cases hc₁
  | kept => cases hc₁

theorem ReconcileSandboxes.missing_settles {p p' : ReconcileSandboxes} {choice : Choice}
    (h : p.Goes (w.perform .reconcileSandboxes choice p.request).2 p')
    (hnot : ∀ cs, p.pc.listed = some cs → sid ∉ cs.map (·.sandboxId)) (hrunning : w.Reached sid 1)
    (hcandidate : w.Reached sid 2 ∨ sid ∈ p.pc.candidates ∨ p.pc = .snapshot) :
    p'.pc.Settles (w.perform .reconcileSandboxes choice p.request).1 sid := by
  have hf : RowsForward w (w.perform .reconcileSandboxes choice p.request).1 :=
    Proc.forward_after (.sweep p) w .ok choice
  have hmiss : (∀ cs, p'.pc.listed = some cs → sid ∉ cs.map (·.sandboxId)) →
      ((w.perform .reconcileSandboxes choice p.request).1.Reached sid 2 ∨ sid ∈ p'.pc.candidates) →
      p'.pc.Settles (w.perform .reconcileSandboxes choice p.request).1 sid :=
    fun hnot' hleft => .inr (.inr ⟨hnot', hrunning.forward hf, hleft.imp_right .inl⟩)
  have hcarry : p.pc ≠ .snapshot →
      (w.perform .reconcileSandboxes choice p.request).1.Reached sid 2 ∨ sid ∈ p.pc.candidates := by
    intro hpc
    rcases hcandidate with hreach | hmem | hsnapshot
    · exact .inl (hreach.forward hf)
    · exact .inr hmem
    · exact absurd hsnapshot hpc
  have hvanish : ∀ n v id rest, p = ⟨n, .vanish v id rest⟩ →
      (w.perform .reconcileSandboxes choice p.request).1.Reached sid 2 ∨ sid ∈ id :: rest →
      (w.perform .reconcileSandboxes choice p.request).1.Reached sid 2 ∨ sid ∈ rest := by
    rintro n v id rest rfl (hreach | hmem)
    · exact .inl hreach
    · rcases List.mem_cons.mp hmem with rfl | hrest
      · exact .inl (World.reached_of_vanish hrunning rfl)
      · exact .inr hrest
  generalize hq : (w.perform _ choice p.request).2 = reply at h
  cases h with
  | snapshot n running =>
    obtain ⟨r, hr, hrank⟩ := hrunning
    refine hmiss (fun _ hcs => by cases hcs) ?_
    by_cases hst : r.status = .running
    · exact .inr (World.mem_of_selectRunning hq (World.status_eq_some.mpr ⟨r, hr, hst⟩))
    · exact .inl (World.Reached.forward ⟨r, hr, SandboxStatus.rank_of_ne_running hrank hst⟩ hf)
  | listed n running cs =>
    by_cases hlisted : sid ∈ cs.map (·.sandboxId)
    · exact .inr (.inl hlisted)
    · refine hmiss (fun _ hcs => by cases hcs; exact hlisted) ?_
      exact (hcarry (by simp)).imp_right fun hmem =>
        List.mem_filter.mpr ⟨hmem, decide_eq_true hlisted⟩
  | read n running cs rows => exact hmiss hnot (hcarry (by simp))
  | clocked n running cs rows now =>
    refine hmiss (fun _ hcs => ?_) ?_
    · rw [SweepPc.listed_of_view (nextContainer_view _ _)] at hcs
      exact hnot _ hcs
    · rw [nextContainer_candidates]
      exact hcarry (by simp)
  | removed n v c reason rest b => exact hmiss hnot (hcarry (by simp))
  | settled n v c reason rest b =>
    refine hmiss (fun _ hcs => ?_) ?_
    · rw [SweepPc.listed_of_view (nextContainer_view _ _)] at hcs
      exact hnot _ hcs
    · rw [nextContainer_candidates]
      exact hcarry (by simp)
  | vanished n v id rest =>
    refine hmiss (fun _ hcs => ?_) ?_
    · rw [SweepPc.listed_of_view (nextMissing_view _ _)] at hcs
      exact hnot _ hcs
    · rw [nextMissing_candidates]
      exact hvanish n v id rest rfl (hcarry (by simp))
  | kept n v id rest =>
    refine hmiss (fun _ hcs => ?_) ?_
    · rw [SweepPc.listed_of_view (nextMissing_view _ _)] at hcs
      exact hnot _ hcs
    · rw [nextMissing_candidates]
      exact hvanish n v id rest rfl (hcarry (by simp))

/-! ## One step -/

/-- The sweep `pid` is on its way, knows of the sandbox, and will settle its row. -/
def Enforcing (before : Containers) (sid : Uuid) (pid : Nat) (s : State) : Prop :=
  s.world.Reached sid 3 ∨ ∃ p, s.proc pid = some (.sweep p) ∧ p.pc.Finds before s.world sid ∧
    p.pc.Settles s.world sid

/-- The sweep `pid` is on its way, knows of the sandbox, and has yet to remove the container it
listed. -/
def Removing (before : Containers) (sid : Uuid) (pid : Nat) (s : State) : Prop :=
  ∃ p, s.proc pid = some (.sweep p) ∧ p.pc.Finds before s.world sid ∧
    (p.pc.listed.isSome → sid ∈ p.pc.pending.map (·.sandboxId))

theorem StaleSafe.finds_step (hs : StaleSafe before s) (hd : Dates before s) {pid : Nat}
    {p p' : ReconcileSandboxes} {choice : Choice} (h : Stepped settings s t (.await pid .ok choice))
    (hp : s.proc pid = some (.sweep p))
    (goes : p.Goes (s.world.perform .reconcileSandboxes choice p.request).2 p')
    (hfinds : p.pc.Finds before s.world sid) : p'.pc.Finds before t.world sid :=
  (ReconcileSandboxes.finds_goes (hs.rows sid) (hd.listed pid p · hp) goes hfinds).forward h.forward h.now_le

theorem enforcing_step {pid : Nat} (hk : s.world.Reached sid 0) (hs : StaleSafe before s)
    (hd : Dates before s) (he : Enforcing before sid pid s) (ha : Succeeds pid s a t)
    (h : Stepped settings s t a) : Enforcing before sid pid t := by
  rcases he with hdone | ⟨p, hp, hfinds, hsettles⟩
  · exact .inl (hdone.forward h.forward)
  by_cases hother : ∀ how choice, a ≠ .await pid how choice
  · exact .inr ⟨p, h.proc_stays hp hother, hfinds.forward h.forward h.now_le, hsettles.forward h.forward⟩
  simp only [not_forall, not_not] at hother
  obtain ⟨how, choice, rfl⟩ := hother
  obtain rfl := ha how choice rfl
  have hrows : RowsForward (s.world.perform .reconcileSandboxes choice p.request).1 t.world :=
    fun id r hr => ⟨r, ((h.called hp).1 id).trans hr, .refl r⟩
  rcases h.ok hp with ⟨proc', goes, ht⟩ | ⟨outcome, ends, -⟩
  · cases goes with
    | sweep p reply p' goes =>
      refine .inr ⟨p', ht, hs.finds_step hd h hp goes hfinds, SweepPc.Settles.forward ?_ hrows⟩
      rcases hsettles with hdone | hahead | ⟨hnot, hrunning, hcandidate⟩
      · exact .inl (hdone.forward (Proc.forward_after (.sweep p) s.world .ok choice))
      · exact ReconcileSandboxes.ahead_settles goes (hs.sweeps pid p hp).left hfinds hk hahead
      · exact ReconcileSandboxes.missing_settles goes hnot hrunning hcandidate
  · left
    cases ends with
    | sweep p reply outcome ends =>
      generalize hq : (s.world.perform _ choice _).2 = reply at ends
      cases ends with
      | finished n v =>
        refine World.Reached.forward ?_ hrows
        rcases hsettles with hdone | hahead | ⟨hnot, -, hreach | hmem | hpc⟩
        · exact hdone.forward (Proc.forward_after (.sweep ⟨n, .finishStops v⟩) s.world .ok choice)
        · cases hahead
        · exact World.reached_of_finishStops (hnot _ rfl) hreach
        · cases hmem
        · cases hpc
      | aborted n pc e => exact absurd hq (s.world.perform_ne_raised _ choice _ e)

theorem pending_nextContainer (v : Snapshot) (cs : List RuntimeSandbox) :
    (ReconcileSandboxes.nextContainer v cs).pending = (ReconcileSandboxes.nextContainer v cs).ahead := by
  rcases nextContainer_cases v cs with ⟨hnext, -⟩ | ⟨_, _, _, _, -, -, -, hnext⟩
  · rw [hnext]
    cases v.missing <;> rfl
  · rw [hnext]
    rfl

/-- While the container is there, the sweep has yet to remove it. -/
theorem removing_step {pid : Nat} (hs : StaleSafe before s) (hd : Dates before s)
    (he : Removing before sid pid s) (ha : Succeeds pid s a t)
    (hc : (t.world.container sid).isSome) (h : Stepped settings s t a) : Removing before sid pid t := by
  obtain ⟨p, hp, hfinds, hpending⟩ := he
  by_cases hother : ∀ how choice, a ≠ .await pid how choice
  · exact ⟨p, h.proc_stays hp hother, hfinds.forward h.forward h.now_le, hpending⟩
  simp only [not_forall, not_not] at hother
  obtain ⟨how, choice, rfl⟩ := hother
  obtain rfl := ha how choice rfl
  rw [(h.called hp).2 sid] at hc
  rcases h.ok hp with ⟨proc', goes, ht⟩ | ⟨outcome, ends, -⟩
  · cases goes with
    | sweep p reply p' goes =>
      refine ⟨p', ht, hs.finds_step hd h hp goes hfinds, fun hlisted => ?_⟩
      have hleft := (hs.sweeps pid p hp).left
      have hq : (s.world.perform .reconcileSandboxes choice p.request).2 =
        (s.world.perform (Proc.sweep p).actor choice (Proc.sweep p).request).2 := rfl
      generalize (s.world.perform (Proc.sweep p).actor choice (Proc.sweep p).request).2 = reply at goes hq
      cases goes with
      | snapshot n running => cases hlisted
      | listed n running cs => exact World.listed_of_isSome hq hc
      | read n running cs rows => exact hpending rfl
      | clocked n running cs rows now =>
        obtain rfl : s.world.now = now := Reply.time.inj hq
        obtain ⟨c, hc', rfl⟩ := List.mem_map.mp (hpending rfl)
        rw [pending_nextContainer]
        exact List.mem_map_of_mem (mem_ahead_nextContainer _ hc' (hfinds.reason_of_clock hc' rfl))
      | removed n v c reason rest b =>
        obtain ⟨c', hc', rfl⟩ := List.mem_map.mp (hpending rfl)
        rcases List.mem_cons.mp hc' with rfl | hrest
        · have hgone : (s.world.removeContainer c'.sandboxId).container c'.sandboxId = none := by
            rw [World.container_removeContainer, if_pos rfl]
          change ((s.world.removeContainer c'.sandboxId).container c'.sandboxId).isSome at hc
          rw [hgone] at hc
          cases hc
        · exact List.mem_map_of_mem hrest
      | settled n v c reason rest b =>
        obtain ⟨c', hc', rfl⟩ := List.mem_map.mp (hpending rfl)
        rw [pending_nextContainer]
        exact List.mem_map_of_mem (mem_ahead_nextContainer _ hc' (hfinds c' (hleft v rfl c' hc') rfl))
      | vanished n v id rest => cases hpending rfl
      | kept n v id rest => cases hpending rfl
  · cases ends with
    | sweep p reply outcome ends =>
      generalize hq : (s.world.perform _ choice _).2 = reply at ends
      cases ends with
      | finished n v => cases hpending rfl
      | aborted n pc e => exact absurd hq (s.world.perform_ne_raised _ choice _ e)

/-! ## Every run -/

structure Sweepable (before : Containers) (s : State) : Prop where
  provenance : Provenance s
  safe : StaleSafe before s
  dates : Dates before s

theorem sweepable_init (now : Time) (before : Containers) (nextObject : Nat) :
    Sweepable before (State.init now before nextObject) :=
  ⟨provenance_init .., staleSafe_init .., dates_init ..⟩

theorem sweepable_step (hs : Sweepable before s) (ha : NewIds before s a t)
    (h : step settings s a = some t) : Sweepable before t where
  provenance := provenance_step hs.provenance h
  safe := staleSafe_step hs.provenance hs.safe ha h
  dates := dates_step hs.dates h

section

variable {pid : Nat} {bs : List Action}

theorem uncontained_of_sweep (hs : Sweepable before s) (hstart : s.proc pid = some (.sweep .start))
    (hcondemned : s.world.Condemned before sid) (hsweep : run settings s bs = some t)
    (halong : Along settings (fun u a v => NewIds before u a v ∧ Succeeds pid u a v) s bs)
    (hdone : t.proc pid = none) :
    ∃ first rest u, bs = first ++ rest ∧ run settings s first = some u ∧
      u.world.container sid = none := by
  by_contra hnever
  have hthere : Along settings (fun _ _ v => (v.world.container sid).isSome = true) s bs := by
    by_contra hnot
    obtain ⟨first, a, rest, u, v, rfl, hu, hstep, hgone, -⟩ := LabelledRuns.exists_of_not_along hsweep hnot
    refine hnever ⟨first ++ [a], rest, v, by simp, LabelledRuns.run_snoc hu hstep, ?_⟩
    simpa using hgone
  obtain ⟨-, p, hp, -⟩ := LabelledRuns.invariant
    (P := fun u a v => (NewIds before u a v ∧ Succeeds pid u a v) ∧
      (v.world.container sid).isSome = true)
    (I := fun u => Sweepable before u ∧ Removing before sid pid u)
    (fun u a v hu ha (h : step settings u a = some v) => ⟨sweepable_step hu.1 ha.1.1 h,
      removing_step hu.1.safe hu.1.dates hu.2 ha.1.2 ha.2 (stepped h)⟩)
    ⟨hs, _, hstart, hcondemned, fun hlisted => by cases hlisted⟩ (halong.and hthere) hsweep
  cases hdone.symm.trans hp

theorem settled_of_sweep (hs : Sweepable before s) (hstart : s.proc pid = some (.sweep .start))
    (hcondemned : s.world.Condemned before sid) (hsweep : run settings s bs = some t)
    (halong : Along settings (fun u a v => NewIds before u a v ∧ Succeeds pid u a v) s bs)
    (hdone : t.proc pid = none) (hrow : s.world.Reached sid 1) : t.world.Reached sid 3 := by
  have hsettles : ReconcileSandboxes.start.pc.Settles s.world sid := by
    refine .inr (.inr ⟨?_, hrow, .inr (.inr rfl)⟩)
    intro cs hcs
    cases hcs
  obtain ⟨-, henforcing, -⟩ := LabelledRuns.invariant
    (P := fun u a v => NewIds before u a v ∧ Succeeds pid u a v)
    (I := fun u => Sweepable before u ∧ Enforcing before sid pid u ∧ u.world.Reached sid 0)
    (fun u a v hu ha (h : step settings u a = some v) => ⟨sweepable_step hu.1 ha.1 h,
      enforcing_step hu.2.2 hu.1.safe hu.1.dates hu.2.1 ha.2 (stepped h),
      hu.2.2.forward (stepped h).forward⟩)
    ⟨hs, .inr ⟨_, hstart, hcondemned, hsettles⟩, hrow.mono (Nat.zero_le 1)⟩ halong hsweep
  rcases henforcing with hdone' | ⟨p, hp, -⟩
  · exact hdone'
  · cases hdone.symm.trans hp

theorem World.Reached.inactive {w : World} {r : Sandbox} (h : w.Reached sid 3)
    (hr : w.row sid = some r) : r.status ∉ activeStatuses := by
  intro hactive
  have hle := (mem_activeStatuses r.status).mp hactive
  have hge := h.of_row hr
  omega

end

/-- A sweep that begins in a reachable state and whose own calls succeed, while anything else
happens and no POST draws the id of a container that was there before: for a sandbox whose label
is over, whose row is past `running` or which is foreign there is a moment without a container;
and if its row was running or stopping, it is settled when the sweep is done. -/
theorem sweep_enforces (settings : Settings) (now : Time) (before : Containers) (nextObject : Nat)
    (as bs : List Action) (s t : State) (pid : Nat) (sid : Uuid)
    (hrun : run settings (State.init now before nextObject) as = some s)
    (hids : Along settings (NewIds before) (State.init now before nextObject) as)
    (hstart : s.proc pid = some (.sweep .start)) (hcondemned : s.world.Condemned before sid)
    (hsweep : run settings s bs = some t)
    (halong : Along settings (fun u a v => NewIds before u a v ∧ Succeeds pid u a v) s bs)
    (hdone : t.proc pid = none) :
    (∃ first rest u, bs = first ++ rest ∧ run settings s first = some u ∧
        u.world.container sid = none) ∧
      (s.world.Reached sid 1 → ∃ r, t.world.row sid = some r ∧ r.status ∉ activeStatuses) := by
  have hs : Sweepable before s := LabelledRuns.invariant (P := NewIds before)
    (I := Sweepable before) (fun _ _ _ hu ha (h : step settings _ _ = some _) => sweepable_step hu ha h)
    (sweepable_init ..) hids hrun
  refine ⟨uncontained_of_sweep hs hstart hcondemned hsweep halong hdone, fun hrow => ?_⟩
  have hsettled := settled_of_sweep hs hstart hcondemned hsweep halong hdone hrow
  obtain ⟨r, hr, -⟩ := id hsettled
  exact ⟨r, hr, hsettled.inactive hr⟩

/-- After the TTL a sweep lists the container; then a DELETE marks the row and loses its queue, and
another sweep removes the container and is killed. -/
def contested : List Action :=
  List.replicate 4 (.ok 2) ++ [.delete 3 1, .ok 3, .ok 3, .ok 3, .fails 3, .fails 3] ++
    .sweep 4 :: List.replicate 5 (.ok 4) ++ .await 4 (.killed false false) {} ::
    List.replicate 3 (.ok 2)

theorem sweep_enforces_contested : ∃ s t r,
    run ⟨3, 4, "localhost"⟩ (State.init 0 KeyedTable.empty 0)
        (posted 0 1 ++ .ok 0 :: started 1 1 ++ [.tick 60000000, .sweep 2]) = some s ∧
      run ⟨3, 4, "localhost"⟩ s contested = some t ∧ t.world.row 1 = some r ∧
      r.status ∉ activeStatuses := by
  have hrun : (run ⟨3, 4, "localhost"⟩ (State.init 0 KeyedTable.empty 0)
      (posted 0 1 ++ .ok 0 :: started 1 1 ++ [.tick 60000000, .sweep 2])).any (fun s =>
        decide (s.proc 2 = some (.sweep .start)) && (s.world.row 1).any (fun r =>
          decide (r.status = .running) && decide (labelExpiry r.expiresAt ≤ s.world.now)) &&
        LabelledRuns.check (step ⟨3, 4, "localhost"⟩)
          (fun u a v => NewIds KeyedTable.empty u a v) s contested &&
        (run ⟨3, 4, "localhost"⟩ s contested).any fun t => decide (t.proc 2 = none)) = true := by
    decide +kernel
  obtain ⟨s, hs, hp⟩ := LabelledRuns.exists_run hrun
  simp only [Bool.and_eq_true, decide_eq_true_eq, Option.any_eq_true] at hp
  obtain ⟨⟨⟨hstart, r, hr, hrunning, hover⟩, hnew⟩, t, ht, hdone⟩ := hp
  have hsucceeds : Along ⟨3, 4, "localhost"⟩ (Succeeds 2) s contested :=
    LabelledRuns.along_of_mem (p := fun a => ∀ how choice, a = Action.await 2 how choice → how = .ok)
      (by simp [contested, Action.ok, Action.fails]) s
  obtain ⟨-, hsettled⟩ := sweep_enforces _ 0 KeyedTable.empty 0 _ contested s t 2 1 hs
    (LabelledRuns.along_of_check (by decide)) hstart (.inl (.inr ⟨r, hr, hover⟩)) ht
    ((LabelledRuns.along_of_check hnew).and hsucceeds) hdone
  obtain ⟨r', hr', hst⟩ := hsettled ⟨r, hr, by rw [hrunning]; exact Nat.le_refl 1⟩
  exact ⟨s, t, r', hs, ht, hr', hst⟩

end SandboxOrchestrator
