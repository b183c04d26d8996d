import SandboxOrchestrator.CrashShape
import SandboxOrchestrator.Threads

/-!
# A crash and a redelivery

Whatever killed deliveries have left behind, the next one that is not killed makes the same
of it as a first start does, unless a Docker call of an earlier one acts after it raised.
-/

namespace SandboxOrchestrator

set_option autoImplicit false

variable {settings : Settings} {row : Option Sandbox} {container : Option Container}
  {w : World} {sid : Uuid} {d : StartSandbox} {how : How} {choice : Choice} {s t : State} {a : Action}

/-! ## The delivery that is not killed -/

/-- A delivery without a setback so far: the container it reloads runs. -/
def StartPc.OnTrack (container : Option Container) : StartPc → Prop
  | .conflict _ => False
  | .reload _ _ => ∃ c, container = some c ∧ c.running = true
  | .discardBroken _ => False
  | .retry _ => False
  | .fail _ => False
  | .discardUnwanted => False
  | _ => True

theorem Shape.runs {r : Sandbox} (h : Shape settings row container) (hr : row = some r)
    (hst : r.status ∉ startable) : r.status = .running := by
  have hwanted := h.status r hr
  rw [mem_wanted] at hwanted
  rw [mem_startable] at hst
  cases hstatus : r.status <;> simp_all [SandboxStatus.rank]

theorem not_breaks (h : Shape settings (w.row d.sandboxId) (w.container d.sandboxId))
    (hfits : d.pc.Fits settings (w.row d.sandboxId) (w.container d.sandboxId))
    (htrack : d.pc.OnTrack (w.container d.sandboxId)) :
    (w.perform .startSandbox choice d.request).2.breaks = false := by
  obtain ⟨sid, i, pool, pc⟩ := d
  have hcas : ∀ from_ v, (w.perform .startSandbox choice (.transition sid from_ v)).2.breaks = false := by
    intro from_ v
    rw [World.perform, World.transition_reply]
    rfl
  cases pc with
  | get => rfl
  | expiryCheck => rfl
  | expire => exact hcas ..
  | pickUp => exact hcas ..
  | inspect => rfl
  | removeLeftover r n =>
    obtain ⟨-, c, hc, rfl⟩ := hfits
    rw [StartSandbox.request, World.remove_found _ _ hc]
    rfl
  | create r =>
    rw [StartSandbox.request, (World.create_absent _ _ _ hfits.2).1]
    rfl
  | startObject r n =>
    obtain ⟨-, c, hc, rfl⟩ := hfits
    rw [StartSandbox.request, (World.start_found _ _ hc).1]
    rfl
  | reload r n =>
    obtain ⟨-, c, hc, rfl⟩ := hfits
    obtain ⟨c', hc', hrun⟩ := htrack
    cases hc.symm.trans hc'
    obtain ⟨-, -, -, hport⟩ := h.labelled c hc
    obtain ⟨p, hp⟩ := Option.isSome_iff_exists.mp (hport.symm.trans hrun)
    rw [StartSandbox.request, World.reload_found _ _ hc, hp]
    rfl
  | waitReady => rfl
  | succeed => exact hcas ..
  | _ => exact htrack.elim

/-- The delivery is on its way without a setback, or the row runs. -/
def Succeeding (sid : Uuid) (pid : Nat) (s : State) : Prop :=
  (∃ d, s.proc pid = some (.start d) ∧ d.sandboxId = sid ∧ d.pc.OnTrack (s.world.container sid)) ∨
    s.world.status sid = some .running

theorem onTrack_goes {pc : StartPc}
    (h : Shape settings (w.row d.sandboxId) (w.container d.sandboxId))
    (hfits : d.pc.Fits settings (w.row d.sandboxId) (w.container d.sandboxId))
    (htrack : d.pc.OnTrack (w.container d.sandboxId)) {now : Time} {events : List Event}
    (resume : d.resume settings now (w.perform .startSandbox choice d.request).2 =
      some (events, .goto { d with pc := pc }))
    (goes : d.Goes settings d.pc (w.reply .startSandbox .ok choice d.request) pc) :
    pc.OnTrack ((w.after .startSandbox .ok choice d.request).container d.sandboxId) := by
  have hunbroken : (w.perform .startSandbox choice d.request).2.breaks = false :=
    not_breaks h hfits htrack
  have hnext := fits_goes h hfits (by simp) goes
  have hbroken : ∀ reason, pc ≠ .discardBroken reason := by
    rintro reason rfl
    rcases StartSandbox.breaks_of_resume resume with hbreaks | ⟨r, hpc⟩
    · cases hunbroken.symm.trans hbreaks
    · rw [hpc] at htrack
      exact htrack
  obtain ⟨sid, i, pool, pc₀⟩ := d
  generalize hq : w.reply _ _ choice _ = reply at goes
  cases goes with
  | launchFailed pc reply e => exact absurd rfl (hbroken _)
  | retrying => exact htrack.elim
  | failing => exact htrack.elim
  | unwanted => exact hnext.elim
  | reuseWinner => exact htrack.elim
  | raced r =>
    obtain ⟨hcreated, -⟩ := World.create_absent .startSandbox choice r.expiresAt hfits.2
    cases hcreated.symm.trans hq
  | createRefused r e => exact absurd hq (w.perform_ne_raised _ _ _ e)
  | startRefused r n e => exact absurd hq (w.perform_ne_raised _ _ _ e)
  | reuse r n =>
    obtain ⟨-, hreply⟩ := World.after_of_reply (by simp) hq (by simp)
    obtain ⟨c, hc, -, hrun⟩ : ∃ c, w.container sid = some c ∧ c.objectId = n ∧ c.running = true := by
      simpa [StartSandbox.request, World.perform] using hreply
    exact ⟨c, hc, hrun⟩
  | started r n =>
    obtain ⟨-, c, hc, rfl⟩ := hfits
    obtain ⟨-, hstarted, -⟩ := World.start_found .startSandbox choice hc
    exact ⟨_, hstarted, rfl⟩
  | _ => trivial

theorem runs_of_ends {pid : Nat} {counted : Option JobOutcome} {outcome : End} (hk : Provenance s)
    (hs : Repairable settings sid s) (hs' : Repairable settings sid t)
    (hst : Stepped settings s t (.await pid .ok choice)) (hp : s.proc pid = some (.start d))
    (hid : d.sandboxId = sid) (htrack : d.pc.OnTrack (s.world.container sid))
    (ends : d.Ends d.pc (s.world.perform .startSandbox choice d.request).2 counted outcome) :
    t.world.status sid = some .running := by
  subst hid
  have hreached : s.world.Reached d.sandboxId 0 := hk.procs pid _ hp
  obtain ⟨r, hr, -⟩ := hreached
  have hrow := (hst.called hp).1 d.sandboxId
  have hforward : r.status ∉ startable → t.world.status d.sandboxId = some .running := fun hsettled =>
    running_forward (World.status_eq_some.mpr ⟨r, hr, hs.shape.runs hr hsettled⟩) hst.forward
      hs'.shape.status
  obtain ⟨sid, i, pool, pc⟩ := d
  generalize hq : (s.world.perform .startSandbox choice _).2 = reply at ends
  cases ends with
  | missing =>
    cases hr.symm.trans (Reply.row.inj hq)
  | settled r₁ st =>
    cases hr.symm.trans (Reply.row.inj hq)
    exact hforward st
  | expired b =>
    refine hforward fun hstartable => ?_
    have hwritten := (World.transition_found .startSandbox
      { status := .stopped, error := some (some "expired") } hr hstartable).2
    exact absurd (hs'.shape.status _ (hrow.trans hwritten)) (by simp [wanted])
  | overtaken r₁ =>
    refine hforward fun hstartable => ?_
    have hreply := (World.transition_found .startSandbox
      { status := .starting, attempts := some i } hr hstartable).1
    cases hq.symm.trans hreply
  | running r₁ url =>
    have hreply : s.world.reply .startSandbox .ok choice (.transition sid [.starting]
      { status := .running, url := some (some url), error := some none }) = .changed true := hq
    obtain ⟨r₂, hr₂, -, hwritten⟩ := World.changed_true (by simp) hreply
    exact World.status_eq_some.mpr ⟨_, hrow.trans hwritten, rfl⟩
  | raised pc e => exact (s.world.perform_ne_raised _ choice _ e hq).elim
  | retried => exact htrack.elim
  | cancelled => exact htrack.elim
  | failed => exact htrack.elim
  | discarded => exact htrack.elim

def callsSucceed (pid : Nat) : Action → Bool
  | .await p how _ => decide (p ≠ pid) || decide (how = .ok)
  | _ => true

theorem Repairable.succeeding_unfailing {pid : Nat} (hs : Repairable settings sid s)
    (hsucc : Succeeding sid pid s) : s.Unfailing sid := by
  intro p d hp hid
  have hfits := hs.starts p d hp hid
  obtain ⟨id, i, pool, pc⟩ := d
  cases pc with
  | fail reason =>
    exfalso
    rcases hsucc with ⟨d', hp', hid', htrack⟩ | hrun
    · obtain rfl := hs.sole p pid _ _ hp hp' (Proc.startsOf_iff.mpr ⟨_, rfl, hid⟩)
        (Proc.startsOf_iff.mpr ⟨_, rfl, hid'⟩)
      cases hp.symm.trans hp'
      exact htrack
    · obtain ⟨r, hr, hst⟩ := hfits
      obtain ⟨r', hr', hrunning⟩ := World.status_eq_some.mp hrun
      cases hr.symm.trans hr'
      cases hst.symm.trans hrunning
  | _ => rfl

theorem succeeding_step {pid : Nat} (hk : Provenance s) (hs : Repairable settings sid s)
    (hsucc : Succeeding sid pid s) (ha : crashes sid s a = true) (hok : callsSucceed pid a = true)
    (h : step settings s a = some t) : Succeeding sid pid t := by
  have hst := stepped h
  have hs' := repairable_step hk hs ha (hs.succeeding_unfailing hsucc) h
  rcases hsucc with ⟨d, hp, hid, htrack⟩ | hrun
  · by_cases hawait : ∃ how choice, a = .await pid how choice
    · obtain ⟨how, choice, rfl⟩ := hawait
      obtain rfl : how = .ok := by simpa [callsSucceed] using hok
      cases hst with
      | spawned _ _ _ _ spawn => cases spawn
      | resumed _ _ _ proc proc' events found lives resume world_eq _ procs =>
        cases hp.symm.trans found
        obtain ⟨⟨es, next⟩, hresume, hnext⟩ := Option.map_eq_some_iff.mp resume
        cases next with
        | done => cases hnext
        | goto d' =>
          cases hnext
          obtain ⟨pc, rfl, -, goes⟩ := StartSandbox.goes_of_resume hresume
          subst hid
          refine .inl ⟨_, (procs pid).trans (if_pos rfl), rfl, ?_⟩
          rw [world_eq, World.record_container]
          exact onTrack_goes hs.shape (hs.starts pid d hp rfl) htrack hresume goes
      | ended _ _ _ proc outcome events found lives resume =>
        cases hp.symm.trans found
        obtain ⟨⟨es, next⟩, hresume, hnext⟩ := Option.map_eq_some_iff.mp resume
        cases next with
        | goto => cases hnext
        | done =>
          obtain ⟨counted, -, ends⟩ := StartSandbox.ends_of_resume hresume
          exact .inr (runs_of_ends hk hs hs' (stepped h) hp hid htrack ends)
    · have hsame : t.world.container sid = s.world.container sid := by
        refine (hs.outside hk ha hst fun q how choice d' ha' hq hid' => ?_).2
        obtain rfl := hs.sole q pid _ _ hq hp (Proc.startsOf_iff.mpr ⟨d', rfl, hid'⟩)
          (Proc.startsOf_iff.mpr ⟨d, rfl, hid⟩)
        exact hawait ⟨how, choice, ha'⟩
      exact .inl ⟨d, hst.proc_stays hp fun how choice he => hawait ⟨how, choice, he⟩, hid,
        hsame ▸ htrack⟩
  · exact .inr (running_forward hrun hst.forward hs'.shape.status)

/-! ## Tries are counted up -/

/-- The step delivers no start job of `sid` on a try from `n` on. -/
def triesBelow (sid : Uuid) (n : Nat) : Action → Bool
  | .deliver _ job =>
    decide (job.task = .stopSandbox) || decide (job.sandboxId ≠ sid) || decide (job.jobTry < n)
  | .redeliver _ job =>
    decide (job.task = .stopSandbox) || decide (job.sandboxId ≠ sid) || decide (job.jobTry < n)
  | _ => true

/-- Every delivery of `sid` in flight has a try left. -/
structure Retriable (settings : Settings) (sid : Uuid) (s : State) : Prop where
  tries : ∀ p d, s.proc p = some (.start d) → d.sandboxId = sid → d.jobTry < settings.jobMaxTries
  unfailing : s.Unfailing sid

theorem retriable_step {n : Nat} (hs : Retriable settings sid s) (hn : n ≤ settings.jobMaxTries)
    (ha : triesBelow sid n a = true) (h : Stepped settings s t a) : Retriable settings sid t := by
  have hboth : ∀ p d, t.proc p = some (.start d) → d.sandboxId = sid →
      d.jobTry < settings.jobMaxTries ∧ (Proc.start d).givesUp = false := by
    intro p d hp hid
    cases h.came hp with
    | stayed found => exact ⟨hs.tries p d found hid, hs.unfailing p d found hid⟩
    | spawned world drawn spawn =>
      obtain ⟨job, hjob, htask, rfl⟩ := spawn.of_start
      have hsid : job.sandboxId = sid := hid
      have htry : job.jobTry < n := by
        rcases hjob with rfl | rfl <;> simpa [triesBelow, htask, hsid] using ha
      exact ⟨Nat.lt_of_lt_of_le htry hn, rfl⟩
    | resumed how choice old events isAwait found lives goes =>
      obtain ⟨d₀, pc, rfl, rfl, hgoes⟩ := goes.of_start
      have htry := hs.tries p d₀ found hid
      refine ⟨htry, ?_⟩
      cases pc with
      | fail reason =>
        generalize d₀.pc = pc₀ at hgoes
        generalize s.world.reply _ how choice _ = reply at hgoes
        cases hgoes with
        | failing _ _ _ tries => exact absurd htry (Nat.not_lt.mpr tries)
      | _ => rfl
  exact ⟨fun p d hp hid => (hboth p d hp hid).1, fun p d hp hid => (hboth p d hp hid).2⟩

/-! ## Threads of other sandboxes -/

section

variable {th : Thread}

theorem idsNew_thread {before : Containers} (hs : IdsNew before s) (how : How) (choice : Choice)
    (th : Thread) : IdsNew before { s with world := th.after s.world how choice } where
  rows sid hsid := (th.row_after s.world how choice sid).trans (hs.rows sid hsid)
  drafts := hs.drafts

theorem repairable_thread (hs : Repairable settings sid s) (hother : th.sandboxId ≠ sid) (how : How)
    (choice : Choice) : Repairable settings sid { s with world := th.after s.world how choice } where
  shape := by
    rw [Thread.row_after, Thread.container_other hother]
    exact hs.shape
  sole := hs.sole
  starts p d hp hid := by
    rw [Thread.row_after, Thread.container_other hother]
    exact hs.starts p d hp hid
  sweeps p q hp := by
    refine (hs.sweeps p q hp).forward (th.forward_after s.world how choice) fun r hr => ?_
    rw [Thread.row_after] at hr
    exact hs.shape.status r hr

theorem succeeding_thread {pid : Nat} (hs : Succeeding sid pid s) (hother : th.sandboxId ≠ sid)
    (how : How) (choice : Choice) :
    Succeeding sid pid { s with world := th.after s.world how choice } := by
  unfold Succeeding World.status
  rw [Thread.row_after, Thread.container_other hother]
  exact hs

end

/-! ## Every run -/

/-- The sandbox `r` runs on the port `p`, in its one container. -/
structure World.RunsOn (settings : Settings) (r : Sandbox) (p : Nat) (w : World) : Prop where
  row : ∃ attempts updatedAt, w.row r.id = some
    { r with
      status := .running
      url := some (launchUrl settings p)
      error := none
      attempts := attempts
      updatedAt := updatedAt }
  container : ∃ n, (w.containers.rows.filter fun c => decide (c.sandboxId = r.id)) =
    [⟨r.id, labelExpiry r.expiresAt, n, true, some p⟩]

theorem World.containers_of {c : Container} (h : w.container sid = some c) :
    (w.containers.rows.filter fun c => decide (c.sandboxId = sid)) = [c] := by
  have hlength := w.containers.length_filter_key sid fun _ => true
  rw [if_pos ⟨c, h, rfl⟩] at hlength
  simp only [Bool.and_true] at hlength
  obtain ⟨x, hx⟩ := List.length_eq_one_iff.mp hlength
  have hid := World.container_id h
  have hmem : c ∈ w.containers.rows.filter fun c => decide (c.sandboxId = sid) :=
    List.mem_filter.mpr ⟨World.mem_containers_iff.mpr (hid ▸ h), by simp [hid]⟩
  rw [hx] at hmem ⊢
  rw [List.mem_singleton.mp hmem]

/-- One delivery of `job` as handler `pid`, from the posted row, without a setback. -/
def cleanStart (pid : Nat) (job : Job) (p : Nat) : List Action :=
  .deliver pid job :: ([.ok pid, .ok pid, .ok pid] ++
    ((LaunchOutcome.ready p).awaits pid ++ (LaunchOutcome.ready p).settles pid))

theorem clean_start {r : Sandbox} {pid : Nat} {job : Job} (p : Nat) (hr : s.world.row r.id = some r)
    (hst : r.status ∈ startable) (absent : s.world.container r.id = none)
    (ahead : s.world.now < r.expiresAt) (idle : s.proc pid = none) (queued : job ∈ s.world.queue)
    (htask : job.task = .startSandbox) (hid : job.sandboxId = r.id)
    (tries : job.jobTry ≤ settings.jobMaxTries) :
    ∃ t, run settings s (cleanStart pid job p) = some t ∧ t.world.RunsOn settings r p := by
  obtain ⟨b, hb⟩ := State.spawn_of_idle (s := { s with world :=
    { s.world with queue := s.world.queue.erase job } }) pid idle (.ofJob job)
  obtain ⟨hworld, -, -, hprocs⟩ := State.proc_spawn hb
  have hproc : b.proc pid = some (.start (.start r.id job.jobTry job.queue)) := by
    rw [hprocs, if_pos rfl, Proc.ofJob_start htask, hid]
  have hbegun : Trying b pid (.start r.id job.jobTry job.queue) r none b := by
    refine ⟨hproc, fun _ _ => rfl, ?_, ?_, rfl, rfl, fun _ _ _ => rfl⟩
    · rw [hworld]
      exact hr
    · rw [hworld]
      exact absent
  have hahead : ¬r.expiresAt ≤ b.world.now := by
    rw [hworld]
    exact Int.not_le.mpr ahead
  obtain ⟨m, hm, hpicked⟩ := hbegun.picked settings hst hahead
  obtain ⟨t, n, ht, htried⟩ := hpicked.ready settings rfl p
  refine ⟨t, ?_, ⟨_, _, htried.row⟩, n, World.containers_of htried.container⟩
  refine LabelledRuns.run_cons_eq_some.mpr ⟨b, ?_, LabelledRuns.run_trans hm ht⟩
  simp only [step, if_pos queued, if_pos tries]
  exact hb

theorem foreign_of_fresh {now : Time} {containers : Containers} {nextObject : Nat} {u : Threaded}
    {as : List ThreadedAction} {r : Sandbox}
    (fresh : (Threaded.init now containers nextObject).Along settings (OnBase Fresh) as)
    (h : (Threaded.init now containers nextObject).run settings as = some u)
    (hr : u.state.world.row sid = some r) : containers.find? sid = none := by
  obtain ⟨-, -, hnew⟩ := Threaded.invariant (P := Fresh) (Q := fun _ _ _ => True)
    (I := fun v => (∀ c ∈ containers.rows, c.sandboxId ∈ v.drawn) ∧ Provenance v ∧ IdsNew containers v)
    (fun v a v' hv hfresh hstep => by
      refine ⟨fun c hc => (stepped hstep).drawn_mono (hv.1 c hc), provenance_step hv.2.1 hstep,
        idsNew_step hv.2.1 hv.2.2 ?_ hstep⟩
      simp only [NewIds, Option.all_eq_true]
      intro id hdraws
      have hid : id ∉ v.drawn := by simpa [Fresh, hdraws] using hfresh
      rw [Option.isNone_iff_eq_none, KeyedTable.find?_eq_none_iff]
      rintro c hc rfl
      exact hid (hv.1 c hc))
    (fun v _ _ how choice th hv _ _ =>
      ⟨hv.1, provenance_thread hv.2.1 how choice th, idsNew_thread hv.2.2 how choice th⟩)
    ⟨fun c hc => List.mem_map_of_mem hc, provenance_init .., idsNew_init ..⟩
    (fresh.mono fun _ _ _ hfresh => ⟨hfresh, trivial⟩) h
  cases hfind : containers.find? sid with
  | none => rfl
  | some c => cases (hnew.rows sid (by simp [hfind])).symm.trans hr

theorem Repairable.runsOn {r r' : Sandbox} (hs : Repairable settings r.id s)
    (hr' : s.world.row r.id = some r') (hf : Forward r r') (hrun : r'.status = .running) :
    ∃ p, s.world.RunsOn settings r p := by
  obtain ⟨herror, c, p, hc, hrunning, hport, hurl⟩ := hs.shape.running r' hr' hrun
  obtain ⟨r₁, hr₁, hlabel, -⟩ := hs.shape.labelled c hc
  cases hr₁.symm.trans hr'
  refine ⟨p, ⟨r'.attempts, r'.updatedAt, hr'.trans ?_⟩, c.objectId, ?_⟩
  · obtain ⟨id, type, status, url, error, attempts, deployment, expiresAt, key, created, updated⟩ := r'
    obtain ⟨hid, htype, hdeployment, hexpires, hkey, hcreated, -⟩ := hf
    simp_all
  · rw [World.containers_of hc]
    obtain ⟨sandboxId, expiresAt, objectId, running, hostPort⟩ := c
    have hid := World.container_id hc
    have hexp := hf.expiresAt
    simp_all

/-- The deliveries of `sid` crash and fail as in `crashes`, and no thread left over acts on its
container. -/
def Crashes (sid : Uuid) (s : Threaded) (a : ThreadedAction) (t : Threaded) : Prop :=
  OnBase (fun s a _ => crashes sid s a = true) s a t ∧ ThreadsSpare sid s a t

instance (sid : Uuid) (s : Threaded) (a : ThreadedAction) (t : Threaded) :
    Decidable (Crashes sid s a t) :=
  inferInstanceAs (Decidable (_ ∧ _))

/-- While every delivery has a try left, whatever is killed leaves the sandbox repairable. -/
theorem repairable_run {now : Time} {containers : Containers} {nextObject n : Nat}
    {as : List ThreadedAction} {u : Threaded} (foreign : containers.find? sid = none)
    (hn : n ≤ settings.jobMaxTries)
    (hcrashes : (Threaded.init now containers nextObject).Along settings (Crashes sid) as)
    (hcounted : (Threaded.init now containers nextObject).Along settings
      (OnBase fun _ a _ => triesBelow sid n a = true) as)
    (h : (Threaded.init now containers nextObject).run settings as = some u) :
    Provenance u.state ∧ Repairable settings sid u.state ∧ Retriable settings sid u.state := by
  refine Threaded.invariant (P := fun s a _ => crashes sid s a = true ∧ triesBelow sid n a = true)
    (Q := ThreadsSpare sid)
    (I := fun v => Provenance v ∧ Repairable settings sid v ∧ Retriable settings sid v)
    (fun v a v' hv ha hstep => ⟨provenance_step hv.1 hstep,
      repairable_step hv.1 hv.2.1 ha.1 hv.2.2.unfailing hstep,
      retriable_step hv.2.2 hn ha.2 (stepped hstep)⟩)
    (fun v _ _ how choice th hv hspare found => ⟨provenance_thread hv.1 how choice th,
      repairable_thread hv.2.1 (hspare.other found) how choice, hv.2.2.tries, hv.2.2.unfailing⟩)
    ⟨provenance_init .., repairable_init _ _ _ foreign, fun _ _ hp => (by cases hp),
      fun _ _ hp => (by cases hp)⟩ ?_ h
  exact (hcrashes.and hcounted).mono fun _ _ _ hboth =>
    ⟨fun b hb => ⟨hboth.1.1 b hb, hboth.2 b hb⟩, hboth.1.2⟩

/-- A delivery whose calls succeed, and whatever else happens while it is in flight. -/
theorem succeeding_run {pid : Nat} {as : List ThreadedAction} {u v : Threaded}
    (hk : Provenance u.state) (hs : Repairable settings sid u.state) (hsucc : Succeeding sid pid u.state)
    (hcrashes : u.Along settings (Crashes sid) as)
    (hok : u.Along settings (OnBase fun _ a _ => callsSucceed pid a = true) as)
    (h : u.run settings as = some v) :
    Repairable settings sid v.state ∧ Succeeding sid pid v.state := by
  refine (Threaded.invariant
    (P := fun s a _ => crashes sid s a = true ∧ callsSucceed pid a = true) (Q := ThreadsSpare sid)
    (I := fun x => Provenance x ∧ Repairable settings sid x ∧ Succeeding sid pid x)
    (fun x a y hx ha hstep => ⟨provenance_step hx.1 hstep,
      repairable_step hx.1 hx.2.1 ha.1 (hx.2.1.succeeding_unfailing hx.2.2) hstep,
      succeeding_step hx.1 hx.2.1 hx.2.2 ha.1 ha.2 hstep⟩)
    (fun x _ _ how choice th hx hspare found => ⟨provenance_thread hx.1 how choice th,
      repairable_thread hx.2.1 (hspare.other found) how choice,
      succeeding_thread hx.2.2 (hspare.other found) how choice⟩)
    ⟨hk, hs, hsucc⟩ ?_ h).2
  exact (hcrashes.and hok).mono fun _ _ _ hboth =>
    ⟨fun b hb => ⟨hboth.1.1 b hb, hboth.2 b hb⟩, hboth.1.2⟩

def Action.Delivers (pid : Nat) (job : Job) (a : Action) : Prop :=
  a = .deliver pid job ∨ a = .redeliver pid job

theorem Action.Delivers.proc {pid : Nat} {job : Job} (ha : a.Delivers pid job)
    (htask : job.task = .startSandbox) (htry : job.jobTry ≤ settings.jobMaxTries)
    (h : step settings s a = some t) :
    t.proc pid = some (.start (.start job.sandboxId job.jobTry job.queue)) := by
  rw [← Proc.ofJob_start htask]
  rcases ha with rfl | rfl
  · simp only [step, if_pos htry] at h
    split at h
    · obtain ⟨-, -, -, hprocs⟩ := State.proc_spawn h
      exact (hprocs pid).trans (if_pos rfl)
    · cases h
  · simp only [step] at h
    split at h
    · obtain ⟨-, -, -, hprocs⟩ := State.proc_spawn h
      exact (hprocs pid).trans (if_pos rfl)
    · cases h

/-- A delivery that dies with its container created, and a sweep. -/
def killedInLaunch : List Action :=
  [.deliver 1 ⟨.startSandbox, 1, .stable, 1⟩, .ok 1, .ok 1, .ok 1, .ok 1,
    .await 1 (.killed true true) {}, .sweep 2, .ok 2, .ok 2, .ok 2, .ok 2, .ok 2]

/-- The launch of the first try times out before its first call, and its thread goes on: it finds
the container that the second try has created and not started yet, takes it for a leftover and
replaces it. -/
def launchOutlived : List ThreadedAction :=
  [.step (.deliver 1 ⟨.startSandbox, 1, .stable, 1⟩), .step (.ok 1), .step (.ok 1), .step (.ok 1),
    .leave 1 (.raises ⟨"TimeoutError", ""⟩ false), .step (.ok 1), .step (.ok 1)]

def replaced : List ThreadedAction :=
  [.step (.deliver 2 ⟨.startSandbox, 1, .stable, 2⟩), .step (.ok 2), .step (.ok 2), .step (.ok 2),
    .step (.ok 2), .step (.ok 2), .thread 0 .ok {},
    .step (.await 2 .ok { hostPort := 8002 }), .step (.ok 2),
    .thread 0 .ok {}, .thread 0 .ok {}, .thread 0 .ok { hostPort := 8003 }, .thread 0 .ok {},
    .step (.ok 2), .step (.ok 2)]

end SandboxOrchestrator
