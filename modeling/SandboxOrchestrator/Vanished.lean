import SandboxOrchestrator.Apart
import SandboxOrchestrator.Posting
import SandboxOrchestrator.SweepReads
import SandboxOrchestrator.Threads

/-!
# A vanished container is a real loss

A sweep reads the running rows before it lists the containers, and `running` is entered
only with the container in place. So a row it misses a container for either lost it to
something outside the program or was stopped, and then the compare-and-set spares it. The
exception is a discard that timed out: its thread goes on, and takes the container that the
next try has adopted.
-/

namespace SandboxOrchestrator

set_option autoImplicit false

def SweepPc.candidates : SweepPc → List Uuid
  | .snapshot => []
  | .list running => running
  | .statuses running cs => running.filter fun sid => decide (sid ∉ cs.map (·.sandboxId))
  | .clock running cs _ => running.filter fun sid => decide (sid ∉ cs.map (·.sandboxId))
  | .remove v _ _ _ => v.missing
  | .settle v _ _ _ => v.missing
  | .vanish _ sid rest => sid :: rest
  | .finishStops _ => []

/-- The sweep has removed the container and has yet to write the row. -/
def Proc.settling (sid : Uuid) : Proc → Bool
  | .sweep ⟨_, .settle _ c _ _⟩ => decide (c.sandboxId = sid)
  | _ => false

def State.Settling (s : State) (sid : Uuid) : Prop := ∃ p x, s.proc p = some x ∧ x.settling sid = true

/-- The container is there, or something outside took it, or a sweep did and its write is
still to come. -/
def Excused (sid : Uuid) (s : State) : Prop :=
  (s.world.container sid).isSome ∨ .died sid ∈ s.world.log ∨ s.Settling sid

structure RealLosses (sid : Uuid) (s : State) : Prop where
  sweeps : SweepSole s
  starts : StartSole sid s
  running : s.world.status sid = some .running → Excused sid s
  held : ∀ p d, s.proc p = some (.start d) → d.sandboxId = sid → d.pc.holding = true →
    Excused sid s ∨ s.world.Reached sid 2
  launching : ∀ p x, s.proc p = some x → x.inSection sid = true →
    s.world.status sid ≠ some .running
  listed : ∀ p n running, s.proc p = some (.sweep ⟨n, .list running⟩) → sid ∈ running →
    s.world.Reached sid 1
  missed : ∀ p q, s.proc p = some (.sweep q) → (∀ running, q.pc ≠ .list running) →
    sid ∈ q.pc.candidates → .died sid ∈ s.world.log ∨ s.world.Reached sid 2
  vanished : ∀ at_, .wrote .reconcileSandboxes sid .running .failed at_ ∈ s.world.log →
    .died sid ∈ s.world.log

theorem nextMissing_candidates (v : Snapshot) (l : List Uuid) :
    (ReconcileSandboxes.nextMissing v l).candidates = l := by
  cases l <;> rfl

theorem nextContainer_candidates (v : Snapshot) (cs : List RuntimeSandbox) :
    (ReconcileSandboxes.nextContainer v cs).candidates = v.missing := by
  rcases nextContainer_cases v cs with ⟨h, -⟩ | ⟨_, _, _, _, -, -, -, h⟩
  · rw [h, nextMissing_candidates]
  · rw [h]
    rfl

theorem ReconcileSandboxes.list_of_goes {p p' : ReconcileSandboxes} {reply : Reply}
    {running : List Uuid} (h : p.Goes reply p') (hp : p'.pc = .list running) :
    p.pc = .snapshot ∧ reply = .ids running := by
  have hview : p'.pc.view = none := by rw [hp]; rfl
  cases h with
  | snapshot n ids => cases hp; exact ⟨rfl, rfl⟩
  | clocked => rw [nextContainer_view] at hview; cases hview
  | settled => rw [nextContainer_view] at hview; cases hview
  | vanished => rw [nextMissing_view] at hview; cases hview
  | kept => rw [nextMissing_view] at hview; cases hview
  | _ => cases hp

theorem ReconcileSandboxes.candidates_of_goes {p p' : ReconcileSandboxes} {reply : Reply}
    {sid : Uuid} (h : p.Goes reply p') (hp : ∀ running, p'.pc ≠ .list running)
    (hs : sid ∈ p'.pc.candidates) :
    (∃ running cs, p.pc = .list running ∧ reply = .containers cs ∧ sid ∈ running ∧
        sid ∉ cs.map (·.sandboxId)) ∨
      (∀ running, p.pc ≠ .list running) ∧ sid ∈ p.pc.candidates := by
  cases h with
  | snapshot n ids => exact absurd rfl (hp ids)
  | listed n running cs =>
    obtain ⟨hmem, hnot⟩ := List.mem_filter.mp hs
    exact .inl ⟨running, cs, rfl, rfl, hmem, of_decide_eq_true hnot⟩
  | read => exact .inr ⟨by simp, hs⟩
  | clocked => rw [nextContainer_candidates] at hs; exact .inr ⟨by simp, hs⟩
  | removed => exact .inr ⟨by simp, hs⟩
  | settled => rw [nextContainer_candidates] at hs; exact .inr ⟨by simp, hs⟩
  | vanished => rw [nextMissing_candidates] at hs; exact .inr ⟨by simp, List.mem_cons_of_mem _ hs⟩
  | kept => rw [nextMissing_candidates] at hs; exact .inr ⟨by simp, List.mem_cons_of_mem _ hs⟩

theorem World.reached_of_settle {w : World} (actor : Actor) (choice : Choice) {sid : Uuid}
    {r : Sandbox} (hr : w.row sid = some r) :
    (w.perform actor choice (.transition sid activeStatuses { status := .stopped })).1.Reached sid 3 := by
  have hrow := World.row_update w actor (guard sid activeStatuses) { status := .stopped } sid
  rw [hr, Option.map_some] at hrow
  refine ⟨_, hrow, ?_⟩
  split
  · exact Nat.le_refl 3
  · rename_i hg
    have hst : r.status ∉ activeStatuses := fun hm => hg (by simp [guard, World.row_id hr, hm])
    rw [mem_activeStatuses] at hst
    omega

theorem settling_of_remove {settings : Settings} {s t : State} {pid : Nat} {choice : Choice}
    {n : Reaped} {v : Snapshot} {c : RuntimeSandbox} {reason : ReapReason}
    {rest : List RuntimeSandbox} (h : Stepped settings s t (.await pid .ok choice))
    (hp : s.proc pid = some (.sweep ⟨n, .remove v c reason rest⟩)) :
    t.proc pid = some (.sweep ⟨n, .settle v c reason rest⟩) := by
  rcases h.ok hp with ⟨proc', goes, ht⟩ | ⟨outcome, ends, -⟩
  · cases goes with
    | sweep p reply p' goes => cases goes; exact ht
  · cases ends with
    | sweep p reply outcome ends => cases ends

/-- An excuse lasts until the row is past `running`, whatever happens but a delivery that
removes the container itself. -/
theorem Excused.step {settings : Settings} {sid : Uuid} {s t : State} {a : Action}
    (he : Excused sid s) (hk : Provenance s) (hrow : s.world.Reached sid 0)
    (ha : sweepsApart s a = true) (hst : Stepped settings s t a)
    (hstart : ∀ p how choice x, a = .await p how choice → s.proc p = some x →
      x.inSection sid = true → x.removes ≠ some sid) :
    Excused sid t ∨ t.world.Reached sid 2 := by
  rcases he with hc | hdied | ⟨p, x, hp, hx⟩
  · rcases hst.container_kept hc with hkept | ⟨-, hdied⟩ | ⟨p, how, choice, x, rfl, hp, hx⟩
    · exact .inl (.inl hkept)
    · exact .inl (.inr (.inl hdied))
    · cases x with
      | start d =>
        have hx' := hx
        simp only [Proc.removes, Option.ite_none_right_eq_some, Option.some.injEq] at hx'
        have hsec : (Proc.start d).inSection sid = true :=
          Proc.inSection_iff.mpr ⟨d, rfl, hx'.2, StartPc.section_of_removing hx'.1⟩
        exact absurd hx (hstart p how choice _ rfl hp hsec)
      | stop d =>
        simp only [Proc.removes, Option.ite_none_right_eq_some, Option.some.injEq] at hx
        have hreach : s.world.Reached d.sandboxId 2 := hk.procs p _ hp
        rw [hx.2] at hreach
        exact .inr (hreach.forward hst.forward)
      | sweep q =>
        obtain rfl := ok_of_sweepsApart ha hp
        obtain ⟨n, pc⟩ := q
        cases pc <;> cases hx
        exact .inl (.inr (.inr ⟨p, _, settling_of_remove hst hp, by simp [Proc.settling]⟩))
      | _ => cases hx
  · exact .inl (.inr (.inl (hst.logChange.mono hdied)))
  · by_cases hother : ∀ how choice, a ≠ .await p how choice
    · exact .inl (.inr (.inr ⟨p, x, hst.proc_stays hp hother, hx⟩))
    · simp only [not_forall, not_not] at hother
      obtain ⟨how, choice, rfl⟩ := hother
      cases x with
      | sweep q =>
        obtain rfl := ok_of_sweepsApart ha hp
        obtain ⟨n, pc⟩ := q
        cases pc <;> simp only [Proc.settling, decide_eq_true_eq, Bool.false_eq_true] at hx
        subst hx
        obtain ⟨r, hr, -⟩ := hrow
        obtain ⟨r', hr', hrank⟩ := World.reached_of_settle .reconcileSandboxes choice hr
        exact .inr ⟨r', ((hst.called hp).1 _).trans hr', by omega⟩
      | _ => cases hx

theorem Proc.vanish_of_writes {proc : Proc} {r : Sandbox} {v : Values}
    (hw : proc.request.writes r = some v) (ha : proc.actor = .reconcileSandboxes)
    (hv : v.status = .failed) :
    ∃ n view rest, proc = .sweep ⟨n, .vanish view r.id rest⟩ ∧ r.status = .running := by
  cases Proc.writes_of hw with
  | vanish n view rest status => exact ⟨_, _, _, rfl, status⟩
  | settle => cases hv
  | finishStops => cases hv
  | _ => cases ha

/-! ## One step -/

section

variable {settings : Settings} {sid : Uuid} {s t : State} {a : Action}

theorem Provenance.not_running_of_insert (hk : Provenance s) (p : Nat) (x : Proc) (r : Sandbox)
    (hp : s.proc p = some x) (hr : x.request = .insert r) : r.status ≠ .running := by
  obtain ⟨c, -, -, -, hst, -⟩ := Proc.drafted_of_insert (hk.procs p x hp) hr
  simp [hst]

theorem RealLosses.running_step (hs : RealLosses sid s) (hk : Provenance s)
    (hsweep : sweepsApart s a = true) (hst : Stepped settings s t a)
    (hrun : t.world.status sid = some .running) : Excused sid t := by
  obtain ⟨row, hrow, hrun'⟩ := World.status_eq_some.mp hrun
  have hno : ¬t.world.Reached sid 2 := by
    intro hreach
    have := hreach.of_row hrow
    simp [hrun', SandboxStatus.rank] at this
  rcases hst.running hk.not_running_of_insert hrun with
    hold | ⟨hstarting, pid, how, choice, d, r, url, rfl, hp, hid, hpc, -⟩
  · obtain ⟨r, hr, hr'⟩ := World.status_eq_some.mp hold
    refine ((hs.running hold).step hk ⟨r, hr, Nat.zero_le _⟩ hsweep hst ?_).resolve_right hno
    exact fun p how choice x _ hp hx => absurd hold (hs.launching p x hp hx)
  · obtain ⟨r', hr', hst'⟩ := World.status_eq_some.mp hstarting
    rcases hs.held pid d hp hid (by simp [hpc, StartPc.holding]) with he | hreach
    · refine (he.step hk ⟨r', hr', Nat.zero_le _⟩ hsweep hst ?_).resolve_right hno
      intro p how' choice' x ha hx _
      cases ha
      cases hp.symm.trans hx
      simp [Proc.removes, hpc, StartPc.removing]
    · have := hreach.of_row hr'
      simp [hst', SandboxStatus.rank] at this

theorem RealLosses.held_step (hs : RealLosses sid s) (hk : Provenance s)
    (hsweep : sweepsApart s a = true) (hst : Stepped settings s t a) {p : Nat} {d : StartSandbox}
    (hp : t.proc p = some (.start d)) (hid : d.sandboxId = sid) (hd : d.pc.holding = true) :
    Excused sid t ∨ t.world.Reached sid 2 := by
  cases hst.came hp with
  | stayed found other =>
    rcases hs.held p d found hid hd with he | hreach
    · have hreach : s.world.Reached d.sandboxId 0 := hk.procs p _ found
      refine he.step hk (hid ▸ hreach) hsweep hst ?_
      intro q how choice x ha hq hx
      have hin : (Proc.start d).inSection sid = true :=
        Proc.inSection_iff.mpr ⟨d, rfl, hid, StartPc.section_of_holding hd⟩
      obtain rfl := hs.starts q p x _ hq found (Proc.startsOf_of_inSection hx)
        (Proc.startsOf_of_inSection hin)
      exact absurd ha (other _ _)
    · exact .inr (hreach.forward hst.forward)
  | spawned world drawn spawn =>
    obtain ⟨job, -, -, rfl⟩ := spawn.of_start
    cases hd
  | resumed how choice old events isAwait found lives goes world_eq =>
    obtain ⟨d₀, pc, rfl, rfl, hgoes⟩ := goes.of_start
    obtain rfl : d₀.sandboxId = sid := hid
    rcases StartSandbox.holding_goes lives hgoes hd with hsome | ⟨hold, -⟩
    · left
      left
      rw [world_eq, World.record_container]
      exact hsome
    · rcases hs.held p d₀ found rfl hold with he | hreach
      · refine he.step hk (hk.procs p _ found) hsweep hst ?_
        intro q how' choice' x ha hq _
        cases isAwait.symm.trans ha
        cases found.symm.trans hq
        simp [Proc.removes, StartPc.not_removing_of_holding hold]
      · exact .inr (hreach.forward hst.forward)

theorem RealLosses.launching_step (hs : RealLosses sid s) (hk : Provenance s)
    (hst : Stepped settings s t a) {p : Nat} {x : Proc} (hp : t.proc p = some x)
    (hx : x.inSection sid = true) : t.world.status sid ≠ some .running := by
  intro hrun
  rcases hst.running hk.not_running_of_insert hrun with
    hold | ⟨-, pid, how, choice, d, r, url, rfl, hd, hid, hpc, hend⟩
  · rcases (hst.came hp).inSection hx with ⟨x', hp', hx'⟩ | ⟨hpick, -⟩
    · exact hs.launching p x' hp' hx' hold
    · obtain ⟨r, hr, hstartable⟩ := picksUp_status hpick
      simp_all [World.status, startable]
  · rcases (hst.came hp).inSection hx with ⟨x', hp', hx'⟩ | ⟨-, choice', ha⟩
    · obtain rfl := hs.starts p pid x' _ hp' hd (Proc.startsOf_of_inSection hx')
        (Proc.startsOf_iff.mpr ⟨d, rfl, hid⟩)
      cases hend.symm.trans hp
    · cases ha
      cases hend.symm.trans hp

theorem RealLosses.listed_step (hs : RealLosses sid s) (hst : Stepped settings s t a) {p : Nat}
    {n : Reaped} {running : List Uuid} (hp : t.proc p = some (.sweep ⟨n, .list running⟩))
    (hmem : sid ∈ running) : t.world.Reached sid 1 := by
  cases hst.came hp with
  | stayed found => exact (hs.listed p n running found hmem).forward hst.forward
  | spawned world drawn spawn =>
    obtain ⟨-, hq⟩ := spawn.of_sweep
    cases hq
  | resumed how choice old events isAwait found lives goes =>
    obtain ⟨q, rfl, hgoes⟩ := goes.of_sweep
    obtain ⟨hpc, hq⟩ := ReconcileSandboxes.list_of_goes hgoes rfl
    have hreq : (Proc.sweep q).request = .selectRunning := by
      simp [Proc.request, ReconcileSandboxes.request, hpc]
    rw [hreq] at hq
    obtain ⟨-, hreply⟩ := World.after_of_reply lives hq (by simp)
    have hrunning := World.mem_runningIds_iff.mp (World.selectRunning_sub hreply hmem)
    obtain ⟨r, hr, hstatus⟩ := World.status_eq_some.mp hrunning
    have hreach : s.world.Reached sid 1 := ⟨r, hr, by rw [hstatus]; exact Nat.le_refl 1⟩
    exact hreach.forward hst.forward

/-- A row that was `running` at the first read and had no container at the listing lost it, or
has been stopped. -/
theorem RealLosses.missed_of_listed (hs : RealLosses sid s) (hst : Stepped settings s t a) {p : Nat}
    {n : Reaped} {running : List Uuid} {cs : List RuntimeSandbox} {actor : Actor} {choice : Choice}
    (found : s.proc p = some (.sweep ⟨n, .list running⟩)) (hmem : sid ∈ running)
    (hreply : (s.world.perform actor choice .listSandboxes).2 = .containers cs)
    (hnot : sid ∉ cs.map (·.sandboxId)) :
    .died sid ∈ t.world.log ∨ t.world.Reached sid 2 := by
  obtain ⟨r, hr, hrank⟩ := hs.listed p n running found hmem
  by_cases hrun : r.status = .running
  · rcases hs.running (World.status_eq_some.mpr ⟨r, hr, hrun⟩) with hc | hdied | ⟨q, x, hq, hx⟩
    · exact absurd (World.listed_of_isSome hreply hc) hnot
    · exact .inl (hst.logChange.mono hdied)
    · have hsweep : x.isSweep = true := by
        cases x <;> first | rfl | cases hx
      obtain rfl := hs.sweeps q p x _ hq found hsweep rfl
      cases hq.symm.trans found
      cases hx
  · have hrank' : 2 ≤ r.status.rank := by
      cases hstatus : r.status <;> simp_all [SandboxStatus.rank]
    have hreach : s.world.Reached sid 2 := ⟨r, hr, hrank'⟩
    exact .inr (hreach.forward hst.forward)

theorem RealLosses.missed_step (hs : RealLosses sid s) (hst : Stepped settings s t a) {p : Nat}
    {q : ReconcileSandboxes} (hp : t.proc p = some (.sweep q)) (hpc : ∀ running, q.pc ≠ .list running)
    (hmem : sid ∈ q.pc.candidates) : .died sid ∈ t.world.log ∨ t.world.Reached sid 2 := by
  cases hst.came hp with
  | stayed found =>
    exact (hs.missed p q found hpc hmem).imp hst.logChange.mono fun hreach => hreach.forward hst.forward
  | spawned world drawn spawn =>
    obtain ⟨-, rfl⟩ := spawn.of_sweep
    cases hmem
  | resumed how choice old events isAwait found lives goes =>
    obtain ⟨q₀, rfl, hgoes⟩ := goes.of_sweep
    rcases ReconcileSandboxes.candidates_of_goes hgoes hpc hmem with
      ⟨running, cs, hlist, hq, hmem, hnot⟩ | ⟨hpc₀, hmem⟩
    · have hreq : (Proc.sweep q₀).request = .listSandboxes := by
        simp [Proc.request, ReconcileSandboxes.request, hlist]
      rw [hreq] at hq
      obtain ⟨-, hreply⟩ := World.after_of_reply lives hq (by simp)
      obtain ⟨n₀, pc₀⟩ := q₀
      subst hlist
      exact hs.missed_of_listed hst found hmem hreply hnot
    · exact (hs.missed p q₀ found hpc₀ hmem).imp hst.logChange.mono
        fun hreach => hreach.forward hst.forward

theorem RealLosses.vanished_step (hs : RealLosses sid s) (hst : Stepped settings s t a) {at_ : Time}
    (he : .wrote .reconcileSandboxes sid .running .failed at_ ∈ t.world.log) :
    .died sid ∈ t.world.log := by
  rcases hst.logChange.mem rfl he with
    hold | ⟨p, how, choice, proc, -, hp, ⟨j, -, he'⟩ | ⟨r, v, hr, hw, -, he'⟩⟩
  · exact hst.logChange.mono (hs.vanished at_ hold)
  · cases he'
  · injection he' with hactor hid hold hnew
    obtain ⟨n, view, rest, rfl, hrun⟩ := Proc.vanish_of_writes hw hactor.symm hnew.symm
    subst hid
    rcases hs.missed p _ hp (by simp) (by simp [SweepPc.candidates]) with hdied | hreach
    · exact hst.logChange.mono hdied
    · have := hreach.of_row hr
      simp [hrun, SandboxStatus.rank] at this

theorem realLosses_step (hk : Provenance s) (hs : RealLosses sid s) (hsweep : sweepsApart s a = true)
    (hstart : startsApart s a = true) (h : step settings s a = some t) : RealLosses sid t where
  sweeps := sweepSole_step hs.sweeps hsweep (stepped h)
  starts := startSole_step hs.starts hstart (stepped h)
  running := hs.running_step hk hsweep (stepped h)
  held _ _ hp hid hd := hs.held_step hk hsweep (stepped h) hp hid hd
  launching _ _ hp hx := hs.launching_step hk (stepped h) hp hx
  listed _ _ _ hp hmem := hs.listed_step (stepped h) hp hmem
  missed _ _ hp hpc hmem := hs.missed_step (stepped h) hp hpc hmem
  vanished _ he := hs.vanished_step (stepped h) he

end

/-- One sweep at a time, run to its end, and one delivery of a start job at a time. -/
def HandlersApart (s : State) (a : Action) (_ : State) : Prop :=
  sweepsApart s a = true ∧ startsApart s a = true

instance (s : State) (a : Action) (t : State) : Decidable (HandlersApart s a t) :=
  inferInstanceAs (Decidable (_ ∧ _))

/-! ## A call of a thread -/

section

variable {sid : Uuid} {s t : Threaded} {i : Nat} {how : How} {choice : Choice} {th : Thread}

theorem excused_thread (he : Excused sid s.state) (h : th.takes sid s.state.world how = false) :
    Excused sid { s.state with world := th.after s.state.world how choice } := by
  rcases he with hc | hdied | hsettling
  · exact .inl (Thread.container_kept h hc)
  · refine .inr (.inl ?_)
    rw [Thread.log_after]
    exact hdied
  · exact .inr (.inr hsettling)

theorem realLosses_thread (hs : RealLosses sid s.state)
    (hspares : SparesRunning sid s (.thread i how choice) t) (found : s.threads[i]? = some th) :
    RealLosses sid { s.state with world := th.after s.state.world how choice } := by
  have hreached : ∀ {n}, s.state.world.Reached sid n →
      (th.after s.state.world how choice).Reached sid n :=
    fun hreach => hreach.forward (th.forward_after s.state.world how choice)
  have hstatus := th.status_after s.state.world how choice sid
  have hlog := th.log_after s.state.world how choice
  exact
    { sweeps := hs.sweeps
      starts := hs.starts
      running := fun hrun => by
        have hrun : s.state.world.status sid = some .running := hstatus.symm.trans hrun
        exact excused_thread (hs.running hrun) (hspares.spares found (.inl hrun))
      held := fun p d hp hid hd => by
        have hholds : (Proc.start d).holds sid = true := by simp [Proc.holds, hid, hd]
        exact (hs.held p d hp hid hd).imp
          (fun he => excused_thread he (hspares.spares found (.inr ⟨p, _, hp, hholds⟩))) hreached
      launching := fun p x hp hx hrun => hs.launching p x hp hx (hstatus.symm.trans hrun)
      listed := fun p n running hp hmem => hreached (hs.listed p n running hp hmem)
      missed := fun p q hp hpc hmem =>
        (hs.missed p q hp hpc hmem).imp (fun hdied => hlog.symm ▸ hdied) hreached
      vanished := fun at_ he => hlog.symm ▸ hs.vanished at_ (hlog ▸ he) }

end

/-- A sweep fails a row for a vanished container only after something outside the program
removed a container of that sandbox, unless a thread left over by a call that timed out takes it
while the row runs or is about to. -/
theorem vanished_is_loss (settings : Settings) (now : Time) (containers : Containers)
    (nextObject : Nat) (as : List ThreadedAction) (t : Threaded) (sid : Uuid)
    (hapart : (Threaded.init now containers nextObject).Along settings
      (fun s a t => OnBase HandlersApart s a t ∧ SparesRunning sid s a t) as)
    (h : (Threaded.init now containers nextObject).run settings as = some t) (at_ : Time)
    (he : .wrote .reconcileSandboxes sid .running .failed at_ ∈ t.state.world.log) :
    .died sid ∈ t.state.world.log := by
  have hinit : RealLosses sid (State.init now containers nextObject) :=
    { sweeps := fun _ _ _ _ hp => by cases hp
      starts := fun _ _ _ _ hp => by cases hp
      running := fun hrun => by cases hrun
      held := fun _ _ hp => by cases hp
      launching := fun _ _ hp => by cases hp
      listed := fun _ _ _ hp => by cases hp
      missed := fun _ _ hp => by cases hp
      vanished := fun _ he => by cases he }
  have hall : Provenance t.state ∧ RealLosses sid t.state :=
    Threaded.invariant (I := fun s => Provenance s ∧ RealLosses sid s)
      (fun _ _ _ hs hP ht => ⟨provenance_step hs.1 ht, realLosses_step hs.1 hs.2 hP.1 hP.2 ht⟩)
      (fun _ _ _ how choice th hs hQ found =>
        ⟨provenance_thread hs.1 how choice th, realLosses_thread hs.2 hQ found⟩)
      ⟨provenance_init now containers nextObject, hinit⟩ hapart h
  exact hall.2.vanished at_ he

/-- A running sandbox whose container dies, and the next sweep. -/
def lossRun : List Action :=
  posted 0 1 ++ .ok 0 :: started 1 1 ++ .die 1 :: .sweep 2 :: List.replicate 6 (.ok 2)

theorem vanished_is_loss_died : ∃ t,
    (Threaded.init 0 KeyedTable.empty 0).run ⟨1, 4, "localhost"⟩ (steps lossRun) = some t ∧
      t.state.world.status 1 = some .failed ∧ .died 1 ∈ t.state.world.log := by
  have hrun : ((Threaded.init 0 KeyedTable.empty 0).run ⟨1, 4, "localhost"⟩ (steps lossRun)).any
      (fun t => decide (t.state.world.status 1 = some .failed) &&
        decide (.wrote .reconcileSandboxes 1 .running .failed 0 ∈ t.state.world.log)) = true := by
    decide
  obtain ⟨t, ht, hp⟩ := LabelledRuns.exists_run hrun
  simp only [Bool.and_eq_true, decide_eq_true_eq] at hp
  exact ⟨t, ht, hp.1, vanished_is_loss _ 0 _ 0 (steps lossRun) t 1
    (LabelledRuns.along_of_check (by decide)) ht 0 hp.2⟩

/-- The server of the first try does not answer and its discard times out, with the container in
hand; the second try adopts that container; then it is gone, and a sweep runs. -/
def discardOutlived : List ThreadedAction :=
  steps (posted 0 1 ++ .ok 0 :: .deliver 1 ⟨.startSandbox, 1, .stable, 1⟩ ::
      List.replicate 7 (.ok 1) ++ [.fails 1]) ++
    [.leave 1 (.raises ⟨"TimeoutError", ""⟩ false), .thread 0 .ok {}] ++
    steps (.ok 1 :: .deliver 2 ⟨.startSandbox, 1, .stable, 2⟩ :: List.replicate 7 (.ok 2)) ++
    [.thread 0 .ok {}] ++ steps (.sweep 3 :: List.replicate 6 (.ok 3))

/-- Nothing outside the program removed a container, and no launch acted after it raised. -/
theorem outlived_discard_vanishes : ∃ t,
    (Threaded.init 0 KeyedTable.empty 0).run ⟨2, 4, "localhost"⟩ discardOutlived = some t ∧
      (Threaded.init 0 KeyedTable.empty 0).Along ⟨2, 4, "localhost"⟩
        (fun s a t => OnBase HandlersApart s a t ∧ t.threads.all (fun th => !th.launches) = true)
        discardOutlived ∧
      .wrote .reconcileSandboxes 1 .running .failed 0 ∈ t.state.world.log ∧
      ∀ sid, .died sid ∉ t.state.world.log := by
  have hrun : ((Threaded.init 0 KeyedTable.empty 0).run ⟨2, 4, "localhost"⟩ discardOutlived).any
      (fun t => decide (.wrote .reconcileSandboxes 1 .running .failed 0 ∈ t.state.world.log) &&
        t.state.world.log.all fun e => match e with | .died _ => false | _ => true) = true := by
    decide
  obtain ⟨t, ht, hp⟩ := LabelledRuns.exists_run hrun
  simp only [Bool.and_eq_true, decide_eq_true_eq, List.all_eq_true] at hp
  obtain ⟨hwrote, hnone⟩ := hp
  refine ⟨t, ht, LabelledRuns.along_of_check (by decide), hwrote, fun sid hdied => ?_⟩
  cases hnone _ hdied

end SandboxOrchestrator
