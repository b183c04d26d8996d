import SandboxOrchestrator.ExpiryChecks
import SandboxOrchestrator.StaleReads
import SandboxOrchestrator.Sweep
import SandboxOrchestrator.Threads
import SandboxOrchestrator.Vanished

/-!
# A running sandbox is served

`url` is written by the last call of a delivery, some time after it saw the container
answer. While the TTL lasts and nobody asks for a stop, no handler removes or replaces
that container, so the URL of a `running` row is the port of a running container, unless a
thread that an earlier launch or discard has left over does so.
-/

namespace SandboxOrchestrator

set_option autoImplicit false

/-- The reaper has no reason to remove the container: it is wanted, and its label is not over. -/
def World.Keeps (w : World) (sid : Uuid) : Prop :=
  ∃ r, w.row sid = some r ∧ r.status.rank ≤ 1 ∧ w.now < labelExpiry r.expiresAt

def Container.Answers (c : Container) (port : Nat) : Prop :=
  c.running = true ∧ c.hostPort = some port

def StartPc.Relies (settings : Settings) (found : Option Container) : StartPc → Prop
  | .waitReady _ port => ∃ c, found = some c ∧ c.Answers port
  | .succeed _ url => ∃ c port, found = some c ∧ c.Answers port ∧ url = launchUrl settings port
  | _ => True

/-- The label of the sandbox is over, or its container is not of this program. -/
def World.Overdue (before : Containers) (w : World) (sid : Uuid) : Prop :=
  (before.find? sid).isSome ∨ ∃ r, w.row sid = some r ∧ labelExpiry r.expiresAt ≤ w.now

def Punctual (before : Containers) (s : State) : Prop :=
  ∀ pid p, s.proc pid = some (.sweep p) → ∀ sid ∈ p.pc.expiring, s.world.Overdue before sid

structure Serving (settings : Settings) (sid : Uuid) (s : State) : Prop where
  sole : StartSole sid s
  apart : ∀ pid proc, s.proc pid = some proc → proc.inSection sid = true →
    s.world.status sid ≠ some .running
  ports : s.world.Keeps sid → ∀ c, s.world.container sid = some c → c.hostPort.isSome →
    c.running = true
  relies : ∀ pid d, s.proc pid = some (.start d) → d.sandboxId = sid → s.world.Keeps sid →
    d.pc.Relies settings (s.world.container sid)
  served : ∀ r, s.world.row sid = some r → r.status = .running → s.world.Keeps sid →
    ∃ c port, s.world.container sid = some c ∧ c.Answers port ∧ r.url = some (launchUrl settings port)

/-- Deliveries of a start job do not overlap, no container with the id of the POST is there, and
the container of `sid` neither exits nor is lost. -/
def Undisturbed (before : Containers) (sid : Uuid) (s : State) (a : Action) (t : State) : Prop :=
  NewIds before s a t ∧ startsApart s a = true ∧ a ≠ .die sid ∧ a ≠ .exit sid

instance (before : Containers) (sid : Uuid) (s : State) (a : Action) (t : State) :
    Decidable (Undisturbed before sid s a t) :=
  inferInstanceAs (Decidable (_ ∧ _))

variable {settings : Settings} {before : Containers} {sid : Uuid} {s t : State} {a : Action} {w w' : World}

/-! ## Overdue sandboxes -/

theorem World.Overdue.forward (h : w.Overdue before sid) (hf : RowsForward w w') (hnow : w.now ≤ w'.now) :
    w'.Overdue before sid := by
  refine h.imp_right ?_
  rintro ⟨r, hr, hover⟩
  obtain ⟨r', hr', hfr⟩ := hf sid r hr
  exact ⟨r', hr', hfr.expiresAt ▸ Int.le_trans hover hnow⟩

theorem punctual_step (hd : Dates before s) (hs : Punctual before s) (h : Stepped settings s t a) :
    Punctual before t := by
  intro pid p hp sid hsid
  refine World.Overdue.forward (w := s.world) ?_ h.forward h.now_le
  cases h.came hp with
  | stayed found => exact hs pid p found sid hsid
  | spawned world drawn spawn =>
    obtain ⟨-, rfl⟩ := spawn.of_sweep
    cases hsid
  | resumed how choice old events isAwait found lives goes =>
    generalize hreply : s.world.reply _ how choice _ = reply at goes
    obtain ⟨p₀, rfl, hgoes⟩ := goes.of_sweep
    rcases ReconcileSandboxes.expiring_of_goes hgoes hsid with
      hold | ⟨n, running, cs, rows, now, c, rfl, rfl, hc, rfl, hexpired⟩
    · exact hs pid p₀ found sid hold
    · obtain rfl : s.world.now = now := Reply.time.inj (World.after_of_reply lives hreply (by simp)).2
      refine (hd.listed pid _ cs found rfl c hc).imp_right ?_
      rintro ⟨r, hr, hlabel⟩
      exact ⟨r, hr, hlabel ▸ hexpired⟩

/-! ## Nobody removes a container that is kept -/

theorem World.Keeps.back (hrow : w.Reached sid 0) (hf : RowsForward w w') (hnow : w.now ≤ w'.now)
    (h : w'.Keeps sid) : w.Keeps sid := by
  obtain ⟨r, hr, -⟩ := hrow
  obtain ⟨r', hr', hrank, hlabel⟩ := h
  obtain ⟨r'', hr'', hfr⟩ := hf sid r hr
  cases hr'.symm.trans hr''
  refine ⟨r, hr, Nat.le_trans hfr.rank hrank, ?_⟩
  rw [← hfr.expiresAt]
  exact Int.lt_of_le_of_lt hnow hlabel

theorem World.Keeps.remover (hk : s.world.Keeps sid) (hp : Provenance s) (hs : StaleSafe before s)
    (hlate : Punctual before s) {pid : Nat} {proc : Proc} (found : s.proc pid = some proc)
    (h : proc.removes = some sid) : proc.inSection sid = true := by
  obtain ⟨r, hr, hrank, hlabel⟩ := hk
  have hwanted : r.status ∈ wanted := (mem_wanted r.status).mpr hrank
  have hstale : proc.removesStale ≠ some sid := fun hstale =>
    hs.unwanted hp found hstale r.status hwanted (World.status_eq_some.mpr ⟨r, hr, rfl⟩)
  cases proc with
  | start d =>
    simp only [Proc.removes, Option.ite_none_right_eq_some, Option.some.injEq] at h
    exact Proc.inSection_iff.mpr ⟨d, rfl, h.2, StartPc.section_of_removing h.1⟩
  | stop d =>
    obtain ⟨id, jobTry, pool, pc⟩ := d
    cases pc with
    | remove => exact absurd h hstale
    | finish => cases h
  | sweep p =>
    obtain ⟨n, pc⟩ := p
    cases pc with
    | remove v c reason rest =>
      cases reason with
      | orphan => exact absurd h hstale
      | expired =>
        obtain rfl := Option.some.inj h
        rcases hlate pid _ found c.sandboxId List.mem_cons_self with hbefore | ⟨r', hr', hover⟩
        · cases (hs.rows _ hbefore).symm.trans hr
        · cases hr.symm.trans hr'
          exact absurd hlabel (Int.not_lt.mpr hover)
      | vanished =>
        exact absurd ((hs.sweeps pid _ found).reason v c .vanished rest rfl) (v.reason_ne_vanished c)
    | _ => cases h
  | _ => cases h

/-- A step leaves a container exactly as it is, or it is the end of it from outside, or a call that
changes it. -/
theorem Stepped.container_unless (h : Stepped settings s t a) (hdie : a ≠ .die sid) (hexit : a ≠ .exit sid) :
    t.world.container sid = s.world.container sid ∨
      ∃ pid how choice proc, a = .await pid how choice ∧ s.proc pid = some proc ∧
        ContainerChange s.world proc.request sid (t.world.container sid) := by
  cases h with
  | tick _ _ result => subst result; exact .inl rfl
  | spawned pid proc world drawn spawn absent world_eq =>
    left
    rw [world_eq]
    cases spawn <;> rfl
  | dropped _ _ _ _ result => subst result; exact .inl rfl
  | died id c found result =>
    subst result
    have hid : id ≠ sid := fun hid => hdie (hid ▸ rfl)
    exact .inl ((s.world.container_removeContainer id sid).trans (if_neg hid))
  | exited id c found result =>
    subst result
    have hid : id ≠ sid := fun hid => hexit (hid ▸ rfl)
    left
    rw [World.container_setContainer]
    cases hc : s.world.container sid with
    | none => rfl
    | some d =>
      have hne : d.sandboxId ≠ c.sandboxId := by
        rw [World.container_id hc, World.container_id found]
        exact Ne.symm hid
      simp [hne]
  | resumed pid how choice proc _ _ found _ _ world_eq =>
    refine .inr ⟨pid, how, choice, proc, rfl, found, ?_⟩
    rw [world_eq, World.record_container]
    exact containerChange_after ..
  | ended pid how choice proc _ _ found _ _ world_eq =>
    refine .inr ⟨pid, how, choice, proc, rfl, found, ?_⟩
    rw [world_eq, World.settleJob_container, World.record_container]
    exact containerChange_after ..
  | killed pid e r choice proc found world_eq =>
    refine .inr ⟨pid, _, choice, proc, rfl, found, ?_⟩
    rw [world_eq, World.settleJob_container]
    exact containerChange_after ..

theorem World.Keeps.container_step (hk : s.world.Keeps sid) (hp : Provenance s) (hs : StaleSafe before s)
    (hlate : Punctual before s) (hdie : a ≠ .die sid) (hexit : a ≠ .exit sid)
    (h : Stepped settings s t a) :
    t.world.container sid = s.world.container sid ∨
      ∃ pid how choice proc, a = .await pid how choice ∧ s.proc pid = some proc ∧
        proc.inSection sid = true := by
  rcases h.container_unless hdie hexit with hsame | ⟨pid, how, choice, proc, rfl, found, hchange⟩
  · exact .inl hsame
  · generalize t.world.container sid = x at hchange ⊢
    cases hchange with
    | same => exact .inl rfl
    | removed cause =>
      exact .inr ⟨pid, how, choice, proc, rfl, found,
        hk.remover hp hs hlate found (Proc.removes_of_request cause)⟩
    | created time isCreate absent =>
      obtain ⟨d, rfl, hid, r, hpc⟩ := Proc.start_of_create isCreate
      exact .inr ⟨pid, how, choice, _, rfl, found, Proc.inSection_iff.mpr ⟨d, rfl, hid, by rw [hpc]; rfl⟩⟩
    | started n port c isStart found' =>
      refine .inr ⟨pid, how, choice, proc, rfl, found, ?_⟩
      cases Proc.asks_of isStart
      simp [Proc.inSection, StartPc.section]

/-! ## The call of a delivery -/

theorem StartSandbox.relies_goes {d : StartSandbox} {how : How} {choice : Choice} {pc : StartPc}
    (lives : ∀ e r, how ≠ .killed e r)
    (h : d.Goes settings d.pc (w.reply .startSandbox how choice d.request) pc)
    (hports : ∀ c, w.container d.sandboxId = some c → c.hostPort.isSome → c.running = true)
    (hd : d.pc.Relies settings (w.container d.sandboxId)) :
    pc.Relies settings ((w.after .startSandbox how choice d.request).container d.sandboxId) := by
  generalize hq : w.reply _ how choice _ = reply at h
  obtain ⟨sid, jobTry, pool, pc₀⟩ := d
  cases h with
  | bound r n port =>
    obtain ⟨hafter, hreply⟩ := World.after_of_reply lives hq (by simp)
    rw [hafter]
    simp only [request, World.perform] at hreply ⊢
    split at hreply
    · rename_i c hobject
      obtain ⟨hc, -⟩ := World.object_eq_some hobject
      have hport : c.hostPort = some port := Reply.port.inj hreply
      dsimp only
      exact ⟨c, hc, hports c hc (by simp [hport]), hport⟩
    · cases hreply
  | ready r port =>
    obtain ⟨hafter, -⟩ := World.after_of_reply lives hq (by simp)
    obtain ⟨c, hc, hanswers⟩ := hd
    rw [hafter]
    exact ⟨c, port, hc, hanswers, rfl⟩
  | _ => trivial

/-! ## One step -/

theorem Serving.ports_step (hs : Serving settings sid s) (hsafe : StaleSafe before s)
    (hnew : IdsNew before t) (hdie : a ≠ .die sid) (hexit : a ≠ .exit sid) (h : Stepped settings s t a)
    (hk : t.world.Keeps sid) {c : Container} (hc : t.world.container sid = some c)
    (hport : c.hostPort.isSome) : c.running = true := by
  have hold : s.world.container sid = some c → c.running = true := by
    intro hc
    by_cases hrow : s.world.Reached sid 0
    · exact hs.ports (hk.back hrow h.forward h.now_le) c hc hport
    · obtain ⟨r, hr, -⟩ := hk
      have hbefore := (hsafe.containers sid (by simp [hc])).resolve_right hrow
      cases (hnew.rows sid hbefore).symm.trans hr
  rcases h.container_unless hdie hexit with hsame | ⟨pid, how, choice, proc, rfl, found, hchange⟩
  · exact hold (hsame ▸ hc)
  · rw [hc] at hchange
    generalize hx : some c = x at hchange
    cases hchange with
    | same => exact hold hx.symm
    | removed cause => cases hx
    | created time isCreate absent =>
      cases hx
      cases hport
    | started n port c₀ isStart found' =>
      cases hx
      rfl

theorem Serving.relies_step (hs : Serving settings sid s) (hp : Provenance s) (hsafe : StaleSafe before s)
    (hlate : Punctual before s) (hdie : a ≠ .die sid) (hexit : a ≠ .exit sid)
    (h : Stepped settings s t a) {pid : Nat} {d : StartSandbox} (hd : t.proc pid = some (.start d))
    (hid : d.sandboxId = sid) (hk : t.world.Keeps sid) :
    d.pc.Relies settings (t.world.container sid) := by
  cases h.came hd with
  | stayed found other =>
    have hrow : s.world.Reached d.sandboxId 0 := hp.procs pid _ found
    have hks := hk.back (hid ▸ hrow) h.forward h.now_le
    have hold := hs.relies pid d found hid hks
    cases hsec : d.pc.section with
    | false => cases hpc : d.pc <;> first | trivial | (rw [hpc] at hsec; cases hsec)
    | true =>
      rcases hks.container_step hp hsafe hlate hdie hexit h with
        hsame | ⟨q, how, choice, proc, rfl, hq, hin⟩
      · exact hsame ▸ hold
      · obtain rfl := hs.sole q pid proc _ hq found (Proc.startsOf_of_inSection hin)
          (Proc.startsOf_iff.mpr ⟨d, rfl, hid⟩)
        exact absurd rfl (other how choice)
  | spawned world drawn spawn =>
    obtain ⟨job, -, -, rfl⟩ := spawn.of_start
    trivial
  | resumed how choice old events isAwait found lives goes world_eq =>
    obtain ⟨d₀, pc, rfl, rfl, hgoes⟩ := goes.of_start
    obtain rfl : d₀.sandboxId = sid := hid
    have hks := hk.back (hp.procs pid _ found) h.forward h.now_le
    rw [world_eq, World.record_container]
    exact StartSandbox.relies_goes lives hgoes (hs.ports hks) (hs.relies pid d₀ found rfl hks)

theorem Serving.apart_step (hs : Serving settings sid s) (hp : Provenance s) (h : Stepped settings s t a)
    {pid : Nat} {proc : Proc} (hproc : t.proc pid = some proc) (hin : proc.inSection sid = true) :
    t.world.status sid ≠ some .running := by
  intro hrun
  rcases h.running hp.not_running_of_insert hrun with
    hold | ⟨-, q, how, choice, d, r, url, rfl, hd, hid, -, hend⟩
  · rcases (h.came hproc).inSection hin with ⟨old, found, hold'⟩ | ⟨hpick, -⟩
    · exact hs.apart pid old found hold' hold
    · obtain ⟨r, hr, hstartable⟩ := picksUp_status hpick
      simp_all [World.status, startable]
  · have hne : q ≠ pid := fun hq => by cases hend.symm.trans (hq ▸ hproc)
    have hsame : s.proc pid = some proc := (h.beside.1 pid (Ne.symm hne)).symm.trans hproc
    exact hne (hs.sole q pid _ _ hd hsame (Proc.startsOf_iff.mpr ⟨d, rfl, hid⟩)
      (Proc.startsOf_of_inSection hin))

theorem Stepped.running_row (hp : Provenance s) (h : Stepped settings s t a) {r : Sandbox}
    (hr : t.world.row sid = some r) (hrun : r.status = .running) :
    s.world.row sid = some r ∨
      ∃ pid how choice d sandbox url, a = .await pid how choice ∧ s.proc pid = some (.start d) ∧
        d.sandboxId = sid ∧ d.pc = .succeed sandbox url ∧ r.url = some url := by
  rcases h.row sid with hsame | ⟨pid, how, choice, proc, rfl, found, hchange⟩
  · exact .inl (hsame ▸ hr)
  · generalize hx : t.world.row sid = x at hchange
    rw [hx] at hr
    cases hchange with
    | same => exact .inl hr
    | wrote r₀ v found' writes =>
      cases hr
      right
      cases Proc.writes_of writes with
      | succeed jobTry pool r₁ url status =>
        exact ⟨pid, how, choice, _, r₁, url, rfl, found, World.row_id found', rfl, rfl⟩
      | _ => cases hrun
    | inserted r₀ isInsert =>
      cases hr
      exact absurd hrun (hp.not_running_of_insert pid proc r₀ found isInsert)

theorem Serving.served_step (hs : Serving settings sid s) (hp : Provenance s) (hsafe : StaleSafe before s)
    (hlate : Punctual before s) (hdie : a ≠ .die sid) (hexit : a ≠ .exit sid)
    (h : Stepped settings s t a) {r : Sandbox} (hr : t.world.row sid = some r)
    (hrun : r.status = .running) (hk : t.world.Keeps sid) :
    ∃ c port, t.world.container sid = some c ∧ c.Answers port ∧ r.url = some (launchUrl settings port) := by
  rcases h.running_row hp hr hrun with hold | ⟨pid, how, choice, d, r₀, url, rfl, found, hid, hpc, hurl⟩
  · have hks := hk.back ⟨r, hold, Nat.zero_le _⟩ h.forward h.now_le
    obtain ⟨c, port, hc, hserves⟩ := hs.served r hold hrun hks
    rcases hks.container_step hp hsafe hlate hdie hexit h with hsame | ⟨q, how, choice, proc, -, hq, hin⟩
    · exact ⟨c, port, hsame.trans hc, hserves⟩
    · exact absurd (World.status_eq_some.mpr ⟨r, hold, hrun⟩) (hs.apart q proc hq hin)
  · have hrow : s.world.Reached d.sandboxId 0 := hp.procs pid _ found
    have hks := hk.back (hid ▸ hrow) h.forward h.now_le
    have hrelies := hs.relies pid d found hid hks
    rw [hpc] at hrelies
    obtain ⟨c, port, hc, hanswers, rfl⟩ := hrelies
    refine ⟨c, port, ?_, hanswers, hurl⟩
    rw [(h.called found).2 sid, ← hc]
    have hchange := containerChange_after s.world (Proc.start d).actor how choice (Proc.start d).request sid
    have hreq : (Proc.start d).request = .transition d.sandboxId [.starting]
        { status := .running, url := some (some (launchUrl settings port)), error := some none } := by
      simp [Proc.request, StartSandbox.request, hpc]
    rw [State.worldAfter]
    generalize (s.world.after (Proc.start d).actor how choice (Proc.start d).request).container sid = x
      at hchange ⊢
    cases hchange with
    | same => rfl
    | removed cause => rcases cause with hq | ⟨n, hq⟩ <;> cases hreq.symm.trans hq
    | created time isCreate => cases hreq.symm.trans isCreate
    | started n port c isStart => cases hreq.symm.trans isStart

theorem serving_step (hp : Provenance s) (hsafe : StaleSafe before s) (hlate : Punctual before s)
    (hs : Serving settings sid s) (ha : Undisturbed before sid s a t) (h : step settings s a = some t) :
    Serving settings sid t where
  sole := startSole_step hs.sole ha.2.1 (stepped h)
  apart _ _ hproc hin := hs.apart_step hp (stepped h) hproc hin
  ports hk _ hc hport := hs.ports_step hsafe (idsNew_step hp hsafe.toIdsNew ha.1 h) ha.2.2.1 ha.2.2.2
    (stepped h) hk hc hport
  relies _ _ hd hid hk := hs.relies_step hp hsafe hlate ha.2.2.1 ha.2.2.2 (stepped h) hd hid hk
  served _ hr hrun hk := hs.served_step hp hsafe hlate ha.2.2.1 ha.2.2.2 (stepped h) hr hrun hk

theorem punctual_init (now : Time) (containers : Containers) (nextObject : Nat) :
    Punctual before (State.init now containers nextObject) := by
  intro _ _ h
  cases h

theorem serving_init (now : Time) (containers : Containers) (nextObject : Nat) :
    Serving settings sid (State.init now containers nextObject) where
  sole _ _ _ _ h := by cases h
  apart _ _ h := by cases h
  ports h := by
    obtain ⟨r, hr, -⟩ := h
    cases hr
  relies _ _ h := by cases h
  served _ h := by cases h

/-! ## A call of a thread -/

/-- What is left of a launch is about a row, and has its expiry. -/
def Threaded.Rooted (s : Threaded) : Prop :=
  ∀ sid expiresAt pc, .ensureContainer sid expiresAt pc ∈ s.threads →
    ∃ r, s.state.world.row sid = some r ∧ r.expiresAt = expiresAt

section

variable {s t : Threaded} {a : ThreadedAction} {how : How} {choice : Choice} {th : Thread}

theorem EnsureContainer.sandbox_of_ofStart {pc : StartPc} {r : Sandbox} {pc' : EnsureContainer.Pc}
    (h : EnsureContainer.ofStart pc = some (r, pc')) : pc.sandbox? = some r := by
  cases pc <;> cases h <;> rfl

theorem rooted_step (hd : Dates before s.state) (hs : s.Rooted) (h : s.step settings a = some t) :
    t.Rooted := by
  intro sid expiresAt pc hth
  have hold : (∃ r, s.state.world.row sid = some r ∧ r.expiresAt = expiresAt) →
      ∃ r, t.state.world.row sid = some r ∧ r.expiresAt = expiresAt := by
    rintro ⟨r, hr, hexp⟩
    obtain ⟨r', hr', hf⟩ := Threaded.forward h sid r hr
    exact ⟨r', hr', hf.expiresAt.trans hexp⟩
  refine hold ?_
  rcases Threaded.mem_threads h hth with hmem | ⟨pid, how, proc, -, hp, hthread⟩ | ⟨th₀, reply, hmem, hnext⟩
  · exact hs sid expiresAt pc hmem
  · obtain ⟨d, r, rfl, rfl, hr, rfl⟩ := Proc.thread_launch hthread
    exact hd.starts pid d r hp (EnsureContainer.sandbox_of_ofStart hr)
  · obtain ⟨pc₀, rfl⟩ := Thread.resume_launch hnext
    exact hs sid expiresAt pc₀ hmem

theorem Thread.seen {w : World} {c : Container} (hc : (th.after w how choice).container sid = some c) :
    (∃ c₀, w.container sid = some c₀ ∧ c₀.seen = c.seen) ∨
      ∃ expiresAt, th = .ensureContainer sid expiresAt .create ∧ c.seen = ⟨sid, labelExpiry expiresAt⟩ := by
  have hchange := th.containerChange w how choice sid
  rw [hc] at hchange
  generalize hx : some c = x at hchange
  cases hchange with
  | same => exact .inl ⟨c, hx.symm, rfl⟩
  | removed => cases hx
  | created time isCreate =>
    cases hx
    refine .inr ⟨time, ?_, rfl⟩
    cases th with
    | ensureContainer id t pc =>
      cases pc <;> cases isCreate
      rfl
    | remove => cases isCreate
    | removeObject => cases isCreate
  | started n port c₀ isStart found =>
    cases hx
    exact .inl ⟨c₀, found, rfl⟩

theorem staleSafe_thread (hs : StaleSafe before s.state) (hr : s.Rooted) (hth : th ∈ s.threads) :
    StaleSafe before { s.state with world := th.after s.state.world how choice } where
  toIdsNew := idsNew_thread hs.toIdsNew how choice th
  containers sid hsid := by
    obtain ⟨c, hc⟩ := Option.isSome_iff_exists.mp hsid
    have hf := th.forward_after s.state.world how choice
    rcases Thread.seen hc with ⟨c₀, hc₀, -⟩ | ⟨expiresAt, rfl, -⟩
    · exact (hs.containers sid (by simp [hc₀])).forward hf
    · obtain ⟨r, hr, -⟩ := hr sid expiresAt .create hth
      exact .inr (World.Reached.forward ⟨r, hr, Nat.zero_le _⟩ hf)
  sweeps pid p hp := (hs.sweeps pid p hp).forward (th.forward_after s.state.world how choice)
  found sid := by
    rw [Thread.log_after]
    exact hs.found sid

theorem dates_thread (hs : Dates before s.state) (hr : s.Rooted) (hth : th ∈ s.threads) :
    Dates before { s.state with world := th.after s.state.world how choice } where
  containers sid c hc := by
    have hf := th.forward_after s.state.world how choice
    rcases Thread.seen hc with ⟨c₀, hc₀, hseen⟩ | ⟨expiresAt, rfl, hseen⟩
    · exact hseen ▸ (hs.containers sid c₀ hc₀).forward hf
    · obtain ⟨r, hr, rfl⟩ := hr sid expiresAt .create hth
      rw [hseen]
      exact World.Dated.forward (.inr ⟨r, hr, rfl⟩) hf
  starts pid d r hd hpc := by
    obtain ⟨r', hr', hexp⟩ := hs.starts pid d r hd hpc
    exact ⟨r', (th.row_after s.state.world how choice d.sandboxId).trans hr', hexp⟩
  listed pid p cs hp hcs c hc :=
    (hs.listed pid p cs hp hcs c hc).forward (th.forward_after s.state.world how choice)

theorem punctual_thread (hs : Punctual before s.state) :
    Punctual before { s.state with world := th.after s.state.world how choice } :=
  fun pid p hp sid hsid => (hs pid p hp sid hsid).forward (th.forward_after s.state.world how choice)
    (Int.le_of_eq (th.now_after s.state.world how choice).symm)

theorem serving_thread (hs : Serving settings sid s.state) (hother : th.sandboxId ≠ sid) :
    Serving settings sid { s.state with world := th.after s.state.world how choice } := by
  have hrow := th.row_after s.state.world how choice sid
  have hcontainer : (th.after s.state.world how choice).container sid = s.state.world.container sid :=
    Thread.container_other hother
  have hstatus := th.status_after s.state.world how choice sid
  have hkeeps : (th.after s.state.world how choice).Keeps sid → s.state.world.Keeps sid := by
    intro hk
    rwa [World.Keeps, hrow, th.now_after s.state.world how choice] at hk
  exact
    { sole := hs.sole
      apart := fun pid proc hp hin hrun => hs.apart pid proc hp hin (hstatus.symm.trans hrun)
      ports := fun hk c hc => hs.ports (hkeeps hk) c (hcontainer.symm.trans hc)
      relies := fun pid d hd hid hk => hcontainer.symm ▸ hs.relies pid d hd hid (hkeeps hk)
      served := fun r hr hrun hk => hcontainer.symm ▸ hs.served r (hrow.symm.trans hr) hrun (hkeeps hk) }

end

/-! ## Every run -/

structure Served (settings : Settings) (before : Containers) (sid : Uuid) (s : Threaded) : Prop where
  known : Provenance s.state
  safe : StaleSafe before s.state
  dates : Dates before s.state
  punctual : Punctual before s.state
  serving : Serving settings sid s.state
  rooted : s.Rooted

theorem served_step {s t : Threaded} {a : ThreadedAction} (hs : Served settings before sid s)
    (hbase : OnBase (Undisturbed before sid) s a t) (hspare : ThreadsSpare sid s a t)
    (h : s.step settings a = some t) : Served settings before sid t := by
  have hrooted := rooted_step hs.dates hs.rooted h
  cases threadedStep h with
  | base b isBase step =>
    have hb := hbase b isBase
    exact ⟨provenance_step hs.known step, staleSafe_step hs.known hs.safe hb.1 step,
      dates_step hs.dates step, punctual_step hs.dates hs.punctual (stepped step),
      serving_step hs.known hs.safe hs.punctual hs.serving hb step, hrooted⟩
  | thread i how choice th isThread found result =>
    subst isThread
    have hth := List.mem_of_getElem? found
    have hother := hspare.other found
    obtain ⟨hknown, hsafe, hdates, hpunctual, hserving, hrooted₀⟩ := hs
    refine ⟨?_, ?_, ?_, ?_, ?_, hrooted⟩ <;> rw [result]
    · exact provenance_thread hknown how choice th
    · exact staleSafe_thread hsafe hrooted₀ hth
    · exact dates_thread hdates hrooted₀ hth
    · exact punctual_thread hpunctual
    · exact serving_thread hserving hother

/-- While the label of a `running` sandbox is not over, its container runs, has the label of the
row, and publishes the port in `url`: in every run in which the deliveries of one start job do
not overlap, the container neither exits nor is lost from outside, and no thread left over by an
earlier launch or removal acts on it. -/
theorem running_is_served (settings : Settings) (now : Time) (before : Containers) (nextObject : Nat)
    (as : List ThreadedAction) (t : Threaded) (sid : Uuid)
    (hrun : (Threaded.init now before nextObject).run settings as = some t)
    (halong : (Threaded.init now before nextObject).Along settings
      (fun s a t => OnBase (Undisturbed before sid) s a t ∧ ThreadsSpare sid s a t) as) (r : Sandbox)
    (hr : t.state.world.row sid = some r) (hst : r.status = .running)
    (hlabel : t.state.world.now < labelExpiry r.expiresAt) :
    ∃ c port, t.state.world.container sid = some c ∧ c.running = true ∧ c.hostPort = some port ∧
      r.url = some (launchUrl settings port) ∧ c.expiresAt = labelExpiry r.expiresAt := by
  have hinit : Served settings before sid (Threaded.init now before nextObject) :=
    ⟨provenance_init .., staleSafe_init .., dates_init .., punctual_init now before nextObject,
      serving_init .., fun _ _ _ hth => (by cases hth)⟩
  have ht := LabelledRuns.invariant (I := Served settings before sid)
    (fun _ _ _ hs ha h => served_step hs ha.1 ha.2 h) hinit halong hrun
  have hkeeps : t.state.world.Keeps sid := ⟨r, hr, by rw [hst]; exact Nat.le_refl 1, hlabel⟩
  obtain ⟨c, port, hc, ⟨hrunning, hport⟩, hurl⟩ := ht.serving.served r hr hst hkeeps
  refine ⟨c, port, hc, hrunning, hport, hurl, ?_⟩
  have hseen : c.seen.sandboxId = sid := World.container_id hc
  rcases ht.dates.containers sid c hc with hbefore | ⟨r', hr', hexp⟩
  · cases (ht.safe.rows sid (hseen ▸ hbefore)).symm.trans hr
  · rw [hseen] at hr'
    cases hr.symm.trans hr'
    exact hexp

/-- The first delivery loses the reply to its start call and its removal fails; the second takes
over the container that runs, and a sweep leaves it. -/
def servedRun : List Action :=
  posted 0 1 ++ .ok 0 :: .deliver 1 ⟨.startSandbox, 1, .stable, 1⟩ :: List.replicate 5 (.ok 1) ++
    .timesOut 1 :: .fails 1 :: .ok 1 :: .deliver 2 ⟨.startSandbox, 1, .stable, 2⟩ ::
    List.replicate 7 (.ok 2) ++ .sweep 3 :: List.replicate 5 (.ok 3)

theorem running_is_served_retried : ∃ t r c,
    (Threaded.init 0 KeyedTable.empty 0).run ⟨3, 4, "localhost"⟩ (steps servedRun) = some t ∧
      t.state.world.row 1 = some r ∧ r.attempts = 2 ∧ t.state.world.container 1 = some c ∧
      c.running = true := by
  have hrun : ((Threaded.init 0 KeyedTable.empty 0).run ⟨3, 4, "localhost"⟩ (steps servedRun)).any
      (fun t => (t.state.world.row 1).any fun r => decide (r.status = .running) &&
        decide (r.attempts = 2) &&
        decide (t.state.world.now < labelExpiry r.expiresAt)) = true := by decide
  obtain ⟨t, ht, hp⟩ := LabelledRuns.exists_run hrun
  simp only [Option.any_eq_true, Bool.and_eq_true, decide_eq_true_eq] at hp
  obtain ⟨r, hr, ⟨hst, hattempts⟩, hlabel⟩ := hp
  obtain ⟨c, -, hc, hrunning, -⟩ := running_is_served _ 0 KeyedTable.empty 0 (steps servedRun) t 1 ht
    (LabelledRuns.along_of_check (by decide)) r hr hst hlabel
  exact ⟨t, r, c, ht, hr, hattempts, hc, hrunning⟩

end SandboxOrchestrator
