import SandboxOrchestrator.JobKeys

/-!
# Who goes on with an unsettled sandbox

A `queued` or `starting` sandbox is attended while its start job is queued, a delivery of it
is at a point from which it will still move the row, or its POST has committed the row and is
about to enqueue or to record that the enqueue failed. Every step keeps it so, but for the few
that lose the job: those are named by `loses`.
-/

namespace SandboxOrchestrator

set_option autoImplicit false

def StartPc.early : StartPc → Bool
  | .get => true
  | .expiryCheck _ => true
  | .expire => true
  | .pickUp _ => true
  | _ => false

/-- A delivery at this point will still move a row of this status. -/
def StartPc.serves (st : SandboxStatus) (pc : StartPc) : Bool :=
  match st with
  | .queued => pc.early
  | .starting => decide (pc ≠ .discardUnwanted)
  | _ => false

def Proc.attends (sid : Uuid) (st : SandboxStatus) : Proc → Bool
  | .create c => decide (c.sandboxId = sid) && c.committed
  | .start d => decide (d.sandboxId = sid) && d.pc.serves st
  | _ => false

def Job.starts (sid : Uuid) (job : Job) : Bool := decide (job.key = (.startSandbox, sid))

/-- Somebody goes on with the sandbox, which has this status. -/
def State.Attends (sid : Uuid) (st : SandboxStatus) (s : State) : Prop :=
  (∃ job ∈ s.world.queue, job.starts sid = true) ∨
    ∃ pid proc, s.proc pid = some proc ∧ proc.attends sid st = true

/-- Somebody goes on with the sandbox as long as it is to be started. -/
def AttendedRow (sid : Uuid) (s : State) : Prop :=
  ∀ r, s.world.row sid = some r → r.status ∈ startable → s.Attends sid r.status

/-! ## The steps that lose a job -/

/-- The POST ends between the commit of its row and the enqueue, or its failure goes unrecorded. -/
def CreatePc.loses : How → CreatePc → Bool
  | .raises _ true, .insert _ => true
  | .raises _ false, .enqueueFailed _ _ => true
  | .killed true _, .insert _ => true
  | .killed false _, .enqueue _ => true
  | .killed false _, .enqueueFailed _ _ => true
  | _, _ => false

/-- The call settles the row, if it takes effect on a row that the delivery launches. -/
def StartPc.settles : StartPc → Bool
  | .expire => true
  | .fail _ => true
  | .succeed _ _ => true
  | _ => false

/-- The delivery ends by an exception arq drops the job on, or is cancelled and not run again. -/
def StartPc.loses : How → StartPc → Bool
  | .ok, _ => false
  | .raises _ effect, pc => !pc.handles && !(effect && pc.settles)
  | .killed effect requeue, pc =>
    !requeue && !(effect && pc.settles) && decide (pc ≠ .discardUnwanted)

def Proc.loses (sid : Uuid) (how : How) : Proc → Bool
  | .create c => decide (c.sandboxId = sid) && c.pc.loses how
  | .start d => decide (d.sandboxId = sid) && d.pc.loses how
  | _ => false

/-- The step loses the start job of the sandbox; arq drops a job that is out of tries. -/
def loses (settings : Settings) (sid : Uuid) (s : State) : Action → Bool
  | .await pid how _ => (s.proc pid).any (Proc.loses sid how)
  | .deliver _ job => job.starts sid && decide (settings.jobMaxTries < job.jobTry)
  | _ => false

def NotLost (settings : Settings) (sid : Uuid) (s : State) (a : Action) (_ : State) : Prop :=
  loses settings sid s a = false

instance (settings : Settings) (sid : Uuid) (s : State) (a : Action) (t : State) :
    Decidable (NotLost settings sid s a t) := inferInstanceAs (Decidable (_ = false))

/-! ## The row over one call -/

theorem World.status_cas {w : World} (actor : Actor) (how : How) (choice : Choice) {sid : Uuid}
    (from_ : List SandboxStatus) (v : Values) {st : SandboxStatus} (hst : w.status sid = some st) :
    (w.after actor how choice (.transition sid from_ v)).status sid =
      some (if how.effect = true ∧ st ∈ from_ then v.status else st) := by
  obtain ⟨r, hr, rfl⟩ := World.status_eq_some.mp hst
  unfold World.after World.status
  by_cases heffect : how.effect = true
  · rw [if_pos heffect]
    simp only [heffect, true_and]
    change Option.map _ ((w.transition actor sid from_ v).1.row sid) = _
    rw [(World.transition_of_row actor from_ v hr).2]
    split <;> rfl
  · rw [if_neg heffect, if_neg fun h => heffect h.1, hr]
    rfl

theorem World.changed_status {w : World} {actor : Actor} {how : How} {choice : Choice} {sid : Uuid}
    {from_ : List SandboxStatus} {v : Values} {b : Bool} {st : SandboxStatus}
    (lives : ∀ e r, how ≠ .killed e r)
    (h : w.reply actor how choice (.transition sid from_ v) = .changed b)
    (hst : w.status sid = some st) : how = .ok ∧ b = decide (st ∈ from_) := by
  obtain ⟨r, hr, rfl⟩ := World.status_eq_some.mp hst
  have hok := World.ok_of_reply lives h (by simp)
  obtain ⟨-, hreply⟩ := World.after_of_reply lives h (by simp)
  change (w.transition actor sid from_ v).2 = _ at hreply
  rw [(World.transition_of_row actor from_ v hr).1, Reply.changed.injEq] at hreply
  exact ⟨hok, hreply.symm⟩

theorem World.status_markFailed {w : World} (actor : Actor) {how : How} (choice : Choice) {sid : Uuid}
    (error : String) (hr : (w.row sid).isSome) (heffect : how.effect = true) :
    (w.after actor how choice (.markFailed sid error)).status sid = some .failed := by
  obtain ⟨r, hr⟩ := Option.isSome_iff_exists.mp hr
  have hid := World.row_id hr
  rw [World.after, if_pos heffect, World.status]
  simp only [World.perform, World.row_update, hr, Option.map_some, hid, decide_true, if_true]
  rfl

theorem World.mem_queue_mono {w : World} (actor : Actor) (how : How) (choice : Choice) (q : Request)
    {job : Job} (h : job ∈ w.queue) : job ∈ (w.after actor how choice q).queue := by
  cases jobCall_after w actor how choice q with
  | same queue => exact queue ▸ h
  | placed j _ _ queue => exact queue ▸ List.mem_append_left [j] h

theorem World.mem_queue_settle {w : World} {proc : Proc} {again : Bool} {job : Job} (h : job ∈ w.queue) :
    job ∈ (w.settleJob proc again).queue := by
  rw [World.settleJob_queue]
  split
  · exact List.mem_append_left _ h
  · exact h

/-! ## A delivery -/

def StartPc.moves (effect : Bool) (st : SandboxStatus) : StartPc → SandboxStatus
  | .expire => if effect = true ∧ st ∈ startable then .stopped else st
  | .pickUp _ => if effect = true ∧ st ∈ startable then .starting else st
  | .retry _ => if effect = true ∧ st ∈ [.starting] then .queued else st
  | .fail _ => if effect = true ∧ st ∈ [.starting] then .failed else st
  | .succeed _ _ => if effect = true ∧ st ∈ [.starting] then .running else st
  | _ => st

namespace StartSandbox

variable {settings : Settings} {w : World} {d : StartSandbox} {how : How} {choice : Choice}
  {st : SandboxStatus}

theorem status_after (hst : w.status d.sandboxId = some st) :
    (w.after .startSandbox how choice d.request).status d.sandboxId =
      some (d.pc.moves how.effect st) := by
  obtain ⟨sid, jobTry, pool, pc⟩ := d
  have kept : (∀ r, (request ⟨sid, jobTry, pool, pc⟩).writes r = none) →
      (∀ r, request ⟨sid, jobTry, pool, pc⟩ ≠ .insert r) →
      (w.after .startSandbox how choice (request ⟨sid, jobTry, pool, pc⟩)).status sid = some st := by
    intro hwrites hinsert
    rw [World.status_after hwrites hinsert]
    exact hst
  cases pc with
  | expire => exact World.status_cas _ how choice _ _ hst
  | pickUp r => exact World.status_cas _ how choice _ _ hst
  | retry reason => exact World.status_cas _ how choice _ _ hst
  | fail reason => exact World.status_cas _ how choice _ _ hst
  | succeed r url => exact World.status_cas _ how choice _ _ hst
  | _ => exact kept (fun _ => rfl) (by simp [request])

theorem serves_goes {pc : StartPc} (lives : ∀ e r, how ≠ .killed e r)
    (hst : w.status d.sandboxId = some st) (hstart : st ∈ startable)
    (h : Goes settings d d.pc (w.reply .startSandbox how choice d.request) pc)
    (hserves : d.pc.serves st = true ∨ d.pc.moves how.effect st ≠ st) :
    pc.serves (d.pc.moves how.effect st) = true := by
  obtain ⟨sid, jobTry, pool, pc₀⟩ := d
  generalize hreply : w.reply .startSandbox how choice _ = reply at h
  simp only [startable, List.mem_cons, List.not_mem_nil, or_false] at hstart
  cases h with
  | pickedUp r =>
    obtain ⟨rfl, -⟩ := World.changed_status lives hreply hst
    rcases hstart with rfl | rfl <;> rfl
  | unwanted r url =>
    obtain ⟨rfl, hb⟩ := World.changed_status lives hreply hst
    rcases hstart with rfl | rfl
    · simp [StartPc.serves, StartPc.early, StartPc.moves] at hserves
    · cases hb
  | launchFailed _ _ e launching =>
    rcases hstart with rfl | rfl <;> cases pc₀ <;>
      simp_all [StartPc.serves, StartPc.early, StartPc.moves, StartPc.launching]
  | _ => rcases hstart with rfl | rfl <;> simp_all [StartPc.serves, StartPc.early, StartPc.moves]

theorem retries_of_ends {counted : Option JobOutcome} {outcome : End}
    (lives : ∀ e r, how ≠ .killed e r) (hst : w.status d.sandboxId = some st)
    (hstart : st ∈ startable)
    (h : d.Ends d.pc (w.reply .startSandbox how choice d.request) counted outcome)
    (hloses : d.pc.loses how = false) (hnew : d.pc.moves how.effect st ∈ startable)
    (hserves : d.pc.serves st = true ∨ d.pc.moves how.effect st ≠ st) : outcome = .retry := by
  obtain ⟨sid, jobTry, pool, pc⟩ := d
  generalize hreply : w.reply .startSandbox how choice _ = reply at h
  simp only [startable, List.mem_cons, List.not_mem_nil, or_false] at hstart
  cases h with
  | retried reason => rfl
  | missing =>
    obtain ⟨-, hperform⟩ := World.after_of_reply lives hreply (by simp)
    obtain ⟨r, hr, -⟩ := World.status_eq_some.mp hst
    cases hperform.symm.trans (congrArg Reply.row hr)
  | settled r hsettled =>
    obtain ⟨-, hperform⟩ := World.after_of_reply lives hreply (by simp)
    obtain ⟨r₀, hr, rfl⟩ := World.status_eq_some.mp hst
    cases hperform.symm.trans (congrArg Reply.row hr)
    exact absurd (by simpa [startable] using hstart) hsettled
  | expired b =>
    obtain ⟨rfl, -⟩ := World.changed_status lives hreply hst
    rcases hstart with rfl | rfl <;> simp [StartPc.moves, How.effect, startable] at hnew
  | overtaken r =>
    obtain ⟨-, hb⟩ := World.changed_status lives hreply hst
    rcases hstart with rfl | rfl <;> cases hb
  | cancelled reason =>
    obtain ⟨rfl, hb⟩ := World.changed_status lives hreply hst
    rcases hstart with rfl | rfl
    · simp [StartPc.serves, StartPc.early, StartPc.moves] at hserves
    · cases hb
  | failed reason b =>
    obtain ⟨rfl, -⟩ := World.changed_status lives hreply hst
    rcases hstart with rfl | rfl
    · simp [StartPc.serves, StartPc.early, StartPc.moves] at hserves
    · simp [StartPc.moves, How.effect, startable] at hnew
  | running r url =>
    obtain ⟨rfl, hb⟩ := World.changed_status lives hreply hst
    rcases hstart with rfl | rfl
    · cases hb
    · simp [StartPc.moves, How.effect, startable] at hnew
  | discarded _ _ =>
    rcases hstart with rfl | rfl <;> simp [StartPc.serves, StartPc.early, StartPc.moves] at hserves
  | raised _ e other =>
    obtain ⟨effect, rfl⟩ : ∃ effect, how = .raises e effect := by
      rcases w.reply_eq .startSandbox how choice _ lives with ⟨-, hp⟩ | ⟨e', effect, hhow, hr⟩
      · exact absurd (hp.symm.trans hreply) (World.perform_ne_raised w _ choice _ e)
      · cases hr.symm.trans hreply
        exact ⟨effect, hhow⟩
    exact absurd hserves (by
      cases pc <;> cases effect <;> rcases hstart with rfl | rfl <;>
        simp_all [StartPc.loses, StartPc.settles, StartPc.serves, StartPc.early, StartPc.moves,
          How.effect, startable])

theorem requeued_of_killed {effect requeue : Bool} (hstart : st ∈ startable)
    (hloses : d.pc.loses (.killed effect requeue) = false) (hnew : d.pc.moves effect st ∈ startable)
    (hserves : d.pc.serves st = true ∨ d.pc.moves effect st ≠ st) : requeue = true := by
  obtain ⟨sid, jobTry, pool, pc⟩ := d
  simp only [startable, List.mem_cons, List.not_mem_nil, or_false] at hstart
  cases requeue with
  | true => rfl
  | false =>
    cases pc <;> cases effect <;> rcases hstart with rfl | rfl <;>
      simp_all [StartPc.loses, StartPc.settles, StartPc.serves, StartPc.early, StartPc.moves, startable]

end StartSandbox

variable {settings : Settings} {s t : State} {a : Action} {sid : Uuid} {st : SandboxStatus}

theorem attends_of_requeued {d : StartSandbox} {w : World} (hqueue : t.world.queue =
    (w.settleJob (.start d) true).queue) : t.Attends d.sandboxId st := by
  rw [World.settleJob_queue] at hqueue
  refine .inl ⟨⟨.startSandbox, d.sandboxId, d.pool, d.jobTry + 1⟩, ?_, decide_eq_true rfl⟩
  rw [hqueue]
  exact List.mem_append_right _ List.mem_cons_self

theorem attends_start {pid : Nat} {how : How} {choice : Choice} {d : StartSandbox}
    (h : Stepped settings s t (.await pid how choice)) (found : s.proc pid = some (.start d))
    (hst : s.world.status d.sandboxId = some st) (hstart : st ∈ startable)
    (hloses : d.pc.loses how = false) (hnew : d.pc.moves how.effect st ∈ startable)
    (hserves : d.pc.serves st = true ∨ d.pc.moves how.effect st ≠ st) :
    t.Attends d.sandboxId (d.pc.moves how.effect st) := by
  cases h with
  | resumed _ _ _ _ proc' events found' lives resume world_eq drawn_eq procs =>
    cases found.symm.trans found'
    cases Proc.goes_of_resume resume with
    | start _ _ pc goes =>
      have hpc := StartSandbox.serves_goes lives hst hstart goes hserves
      refine .inr ⟨pid, _, by rw [procs, if_pos rfl], ?_⟩
      simp only [Proc.attends, decide_true, Bool.true_and]
      exact hpc
  | ended _ _ _ _ outcome events found' lives resume world_eq =>
    cases found.symm.trans found'
    cases Proc.ends_of_resume resume with
    | start _ _ counted _ ends =>
      have hretry := StartSandbox.retries_of_ends lives hst hstart ends hloses hnew hserves
      subst hretry
      exact attends_of_requeued (by rw [world_eq]; rfl)
  | killed _ effect requeue _ _ found' world_eq =>
    cases found.symm.trans found'
    have hrequeue := StartSandbox.requeued_of_killed hstart hloses hnew hserves
    subst hrequeue
    exact attends_of_requeued (by rw [world_eq])
  | spawned _ _ _ _ spawn => cases spawn

/-! ## A POST -/

def KeysPlaced (s : State) : Prop := ∀ key ∈ s.world.jobKeys, 1 ≤ s.world.placedCount key

theorem keysPlaced_step (hs : KeysPlaced s) (h : step settings s a = some t) : KeysPlaced t := by
  have kept : (∀ key ∈ t.world.jobKeys, key ∈ s.world.jobKeys) →
      (∀ key, t.world.placedCount key = s.world.placedCount key) → KeysPlaced t := by
    intro hkeys hplaced key hkey
    rw [hplaced]
    exact hs key (hkeys key hkey)
  cases jobStep (stepped h) with
  | same _ keys placed => exact kept (fun _ hkey => keys ▸ hkey) placed
  | placed job _ _ _ keys placed =>
    intro key hkey
    rw [keys] at hkey
    rw [placed]
    rcases List.mem_cons.mp hkey with rfl | hkey
    · rw [if_pos rfl]
      omega
    · have hold := hs key hkey
      omega
  | delivered _ _ _ _ keys placed => exact kept (fun _ hkey => keys ▸ hkey) placed
  | dropped _ _ _ _ keys placed => exact kept (fun _ hkey => List.mem_of_mem_erase (keys ▸ hkey)) placed
  | redelivered _ _ _ keys placed => exact kept (fun _ hkey => keys ▸ hkey) placed
  | requeued _ _ keys placed => exact kept (fun _ hkey => keys ▸ hkey) placed
  | finished _ _ keys placed => exact kept (fun _ hkey => List.mem_of_mem_erase (keys ▸ hkey)) placed

theorem fresh_of_enqueue (hp : Posting s) (hkeys : KeysPlaced s) {pid : Nat} {c : CreateSandbox}
    {r : Sandbox} (found : s.proc pid = some (.create c)) (hpc : c.pc = .enqueue r) :
    (.startSandbox, c.sandboxId) ∉ s.world.jobKeys := by
  intro hmem
  have hplaced := hkeys _ hmem
  rw [World.placedCount_start, hp.unplaced pid c r found hpc] at hplaced
  cases hplaced

theorem World.mem_queue_enqueue {w : World} (actor : Actor) {how : How} (choice : Choice) {job : Job}
    (heffect : how.effect = true) (hfresh : job.key ∉ w.jobKeys) :
    job ∈ (w.after actor how choice (.enqueue job)).queue := by
  have henqueue : w.enqueue job = if job.key ∈ w.jobKeys then _ else _ := rfl
  rw [World.after, if_pos heffect]
  change job ∈ (w.enqueue job).1.queue
  rw [henqueue, if_neg hfresh]
  exact List.mem_append_right w.queue List.mem_cons_self

theorem Stepped.mem_queue_mono {pid : Nat} {how : How} {choice : Choice} {proc : Proc} {job : Job}
    (h : Stepped settings s t (.await pid how choice)) (found : s.proc pid = some proc)
    (hjob : job ∈ (s.worldAfter proc how choice).queue) : job ∈ t.world.queue := by
  cases h with
  | resumed _ _ _ _ proc' events found' lives resume world_eq =>
    cases found.symm.trans found'
    exact world_eq ▸ hjob
  | ended _ _ _ _ outcome events found' lives resume world_eq =>
    cases found.symm.trans found'
    exact world_eq ▸ World.mem_queue_settle hjob
  | killed _ effect requeue _ _ found' world_eq =>
    cases found.symm.trans found'
    exact world_eq ▸ World.mem_queue_settle hjob
  | spawned _ _ _ _ spawn => cases spawn

theorem attends_create {pid : Nat} {how : How} {choice : Choice} {c : CreateSandbox}
    (h : Stepped settings s t (.await pid how choice)) (found : s.proc pid = some (.create c))
    (hc : c.committed = true) (hk : c.Known s.world)
    (hfresh : ∀ r, c.pc = .enqueue r → (.startSandbox, c.sandboxId) ∉ s.world.jobKeys)
    (hloses : c.pc.loses how = false) :
    t.Attends c.sandboxId st ∨ t.world.status c.sandboxId = some .failed := by
  obtain ⟨body, key, sid, pc⟩ := c
  cases pc with
  | enqueue r =>
    left
    obtain ⟨⟨hid, -⟩, -⟩ := hk
    cases heffect : how.effect with
    | true =>
      have hkey : (CreateSandbox.startJob r).key = (.startSandbox, sid) :=
        congrArg (Prod.mk Task.startSandbox) hid
      have hnew := World.mem_queue_enqueue .createSandbox choice heffect
        (hkey ▸ hfresh r rfl : (CreateSandbox.startJob r).key ∉ s.world.jobKeys)
      exact .inl ⟨CreateSandbox.startJob r, h.mem_queue_mono found hnew, decide_eq_true hkey⟩
    | false =>
      cases how with
      | ok => cases heffect
      | killed effect requeue =>
        obtain rfl : effect = false := heffect
        cases hloses
      | raises e effect =>
        cases h with
        | resumed _ _ _ _ proc' events found' lives resume world_eq drawn_eq procs =>
          cases found.symm.trans found'
          cases Proc.goes_of_resume resume with
          | create _ _ pc goes =>
            refine .inr ⟨pid, _, by rw [procs, if_pos rfl], ?_⟩
            cases goes
            simp [Proc.attends, CreateSandbox.committed]
        | ended _ _ _ _ outcome events found' lives resume =>
          cases found.symm.trans found'
          simp only [Proc.resume, World.reply, CreateSandbox.resume, Option.map_some, Option.some.injEq,
            Prod.mk.injEq] at resume
          cases resume.2
        | spawned _ _ _ _ spawn => cases spawn
  | enqueueFailed r e =>
    right
    obtain ⟨⟨hid, -⟩, hinserted⟩ := hk
    have heffect : how.effect = true := by
      cases how with
      | ok => rfl
      | raises e' effect => cases effect with
        | true => rfl
        | false => cases hloses
      | killed effect requeue => cases effect with
        | true => rfl
        | false => cases hloses
    obtain ⟨r', hr', -⟩ := hinserted
    have hfailed := World.status_markFailed .createSandbox choice ("enqueue: " ++ e.name)
      (Option.isSome_iff_exists.mpr ⟨r', hr'⟩) heffect
    rw [World.status, (h.called found).1]
    change World.status (s.world.after .createSandbox how choice (.markFailed r.id _)) sid = _
    have hsame : r.id = sid := hid
    rw [← hsame]
    exact hfailed
  | _ => cases hc

theorem attends_insert {pid : Nat} {how : How} {choice : Choice} {c : CreateSandbox} {r : Sandbox}
    (h : Stepped settings s t (.await pid how choice)) (found : s.proc pid = some (.create c))
    (hpc : c.pc = .insert r) (absent : s.world.row c.sandboxId = none)
    (present : (t.world.row c.sandboxId).isSome) (hloses : c.pc.loses how = false) :
    t.Attends c.sandboxId st := by
  obtain ⟨body, key, sid, pc⟩ := c
  obtain rfl : pc = .insert r := hpc
  rw [(h.called found).1] at present
  have hok : how = .ok := by
    cases how with
    | ok => rfl
    | raises e effect => cases effect with
      | true => cases hloses
      | false => cases (congrArg Option.isSome absent).symm.trans present
    | killed effect requeue => cases effect with
      | true => cases hloses
      | false => cases (congrArg Option.isSome absent).symm.trans present
  subst hok
  have hreply : (s.world.perform .createSandbox choice (.insert r)).2 = .inserted := by
    change (((s.world.perform .createSandbox choice (.insert r)).1.row sid).isSome) = true at present
    simp only [World.perform] at present ⊢
    split
    · rfl
    · rename_i hnone
      rw [hnone] at present
      rw [absent] at present
      cases present
  rcases h.ok found with ⟨proc', goes, hproc⟩ | ⟨outcome, ends, -⟩
  · have hgoes : (Proc.create ⟨body, key, sid, .insert r⟩).Goes settings .inserted proc' := hreply ▸ goes
    cases hgoes with
    | create _ _ pc hgoes =>
      cases hgoes with
      | inserted => exact .inr ⟨pid, _, hproc, by simp [Proc.attends, CreateSandbox.committed]⟩
  · have hends : (Proc.create ⟨body, key, sid, .insert r⟩).Ends settings .inserted outcome := hreply ▸ ends
    cases hends with
    | create _ _ _ ends => cases ends

/-! ## The system -/

theorem State.Attends.beside {pid : Nat} {how : How} {choice : Choice} {proc : Proc}
    (ha : s.Attends sid st) (h : Stepped settings s t (.await pid how choice))
    (found : s.proc pid = some proc) : t.Attends sid st ∨ proc.attends sid st = true := by
  rcases ha with ⟨job, hjob, hstarts⟩ | ⟨q, proc', hq, hattends⟩
  · exact .inl (.inl ⟨job, h.mem_queue_mono found (s.world.mem_queue_mono _ _ _ _ hjob), hstarts⟩)
  · by_cases hpid : q = pid
    · subst hpid
      cases found.symm.trans hq
      exact .inr hattends
    · exact .inl (.inr ⟨q, proc', by rw [h.beside.1 q hpid, hq], hattends⟩)

theorem Proc.start_of_moves {proc : Proc} {r : Sandbox} {v : Values} {now : Time}
    (h : proc.request.writes r = some v) (hnew : (v.apply now r).status ∈ startable) :
    ∃ d, proc = .start d ∧ d.sandboxId = r.id ∧ (v.status = .starting ∨ v.status = .queued) := by
  cases Proc.writes_of h with
  | pickUp => exact ⟨_, rfl, rfl, .inl rfl⟩
  | retry => exact ⟨_, rfl, rfl, .inr rfl⟩
  | _ => simp [startable] at hnew

theorem State.Attends.delivered {pid : Nat} {job : Job} (ha : s.Attends sid st) (hst : st ∈ startable)
    (absent : s.proc pid = none) (queue : t.world.queue = s.world.queue.erase job)
    (procs : ∀ q, t.proc q = if pid = q then some (.ofJob job) else s.proc q) : t.Attends sid st := by
  rcases ha with ⟨job', hjob, hstarts⟩ | ⟨q, proc, hq, hattends⟩
  · by_cases hsame : job' = job
    · subst hsame
      obtain ⟨task, id, pool, jobTry⟩ := job'
      have hkey := of_decide_eq_true hstarts
      cases hkey
      refine .inr ⟨pid, _, by rw [procs, if_pos rfl], ?_⟩
      simp only [startable, List.mem_cons, List.not_mem_nil, or_false] at hst
      rcases hst with rfl | rfl <;>
        simp [Proc.ofJob, Proc.attends, StartSandbox.start, StartPc.serves, StartPc.early]
    · exact .inl ⟨job', queue ▸ (List.mem_erase_of_ne hsame).mpr hjob, hstarts⟩
  · refine .inr ⟨q, proc, ?_, hattends⟩
    rw [procs, if_neg (fun hpid => by rw [hpid, hq] at absent; cases absent), hq]

theorem Stepped.startable_before (h : Stepped settings s t a) {r r' : Sandbox}
    (hr : s.world.row sid = some r) (hr' : t.world.row sid = some r') (hstart' : r'.status ∈ startable) :
    r.status ∈ startable := by
  obtain ⟨r₁, hr₁, hforward⟩ := h.forward sid r hr
  cases hr'.symm.trans hr₁
  rw [mem_startable] at hstart' ⊢
  have hrank := hforward.rank
  omega

theorem attends_or_own (hs : AttendedRow sid s) {pid : Nat} {how : How} {choice : Choice} {proc : Proc}
    (h : Stepped settings s t (.await pid how choice)) (found : s.proc pid = some proc) {r r' : Sandbox}
    (hr : s.world.row sid = some r) (hr' : t.world.row sid = some r') (hstart' : r'.status ∈ startable) :
    t.Attends sid r'.status ∨
      (∃ d, proc = .start d ∧ d.sandboxId = sid ∧
        (d.pc.serves r.status = true ∨ r'.status ≠ r.status)) ∨
      ∃ c, proc = .create c ∧ c.sandboxId = sid ∧ c.committed = true := by
  by_cases hsame : r'.status = r.status
  · rcases (hs r hr (h.startable_before hr hr' hstart')).beside h found with hbeside | hattends
    · exact .inl (hsame ▸ hbeside)
    · right
      cases proc with
      | start d =>
        simp only [Proc.attends, Bool.and_eq_true, decide_eq_true_eq] at hattends
        exact .inl ⟨d, rfl, hattends.1, .inl hattends.2⟩
      | create c =>
        simp only [Proc.attends, Bool.and_eq_true, decide_eq_true_eq] at hattends
        exact .inr ⟨c, rfl, hattends⟩
      | _ => cases hattends
  · have hchange := rowChange_after s.world proc.actor how choice proc.request sid
    change RowChange s.world proc.request sid ((s.worldAfter proc how choice).row sid) at hchange
    rw [← (h.called found).1 sid, hr'] at hchange
    generalize hx : some r' = x at hchange
    cases hchange with
    | same =>
      cases hx.trans hr
      exact absurd rfl hsame
    | inserted r₀ isInsert hid absent => cases hr.symm.trans absent
    | wrote r₀ v found' writes =>
      cases hx
      cases hr.symm.trans found'
      obtain ⟨d, rfl, hid, -⟩ := Proc.start_of_moves writes hstart'
      exact .inr (.inl ⟨d, rfl, hid.trans (World.row_id hr), .inr hsame⟩)

theorem create_of_inserted (hk : Provenance s) {pid : Nat} {how : How} {choice : Choice} {proc : Proc}
    (h : Stepped settings s t (.await pid how choice)) (found : s.proc pid = some proc) {r' : Sandbox}
    (hr : s.world.row sid = none) (hr' : t.world.row sid = some r') :
    ∃ c r, proc = .create c ∧ c.sandboxId = sid ∧ c.pc = .insert r := by
  have hchange := rowChange_after s.world proc.actor how choice proc.request sid
  change RowChange s.world proc.request sid ((s.worldAfter proc how choice).row sid) at hchange
  rw [← (h.called found).1 sid, hr'] at hchange
  generalize hx : some r' = x at hchange
  cases hchange with
  | same => cases hx.trans hr
  | wrote r₀ v found' => cases hr.symm.trans found'
  | inserted r₀ isInsert hid =>
    obtain ⟨c, rfl, hpc⟩ := Proc.create_of_insert isInsert
    obtain ⟨hdrafted, -⟩ : c.Drafted r₀ := by
      simpa only [Proc.Known, CreateSandbox.Known, hpc] using hk.procs pid _ found
    exact ⟨c, r₀, rfl, hdrafted.symm.trans hid, hpc⟩

theorem attendedRow_await (hk : Provenance s) (hp : Posting s) (hkeys : KeysPlaced s)
    (hs : AttendedRow sid s) {pid : Nat} {how : How} {choice : Choice}
    (hnot : NotLost settings sid s (.await pid how choice) t)
    (h : Stepped settings s t (.await pid how choice)) : AttendedRow sid t := by
  intro r' hr' hstart'
  obtain ⟨proc, found⟩ := h.awaited
  have hloses : proc.loses sid how = false := by
    simpa only [NotLost, loses, found, Option.any_some] using hnot
  have hstatus : t.world.status sid = some r'.status := by rw [World.status, hr', Option.map_some]
  cases hr : s.world.row sid with
  | none =>
    obtain ⟨c, r, rfl, rfl, hpc⟩ := create_of_inserted hk h found hr hr'
    simp only [Proc.loses, decide_true, Bool.true_and] at hloses
    exact attends_insert h found hpc hr (by rw [hr']; rfl) hloses
  | some r =>
    have hstart := h.startable_before hr hr' hstart'
    have hold : s.world.status sid = some r.status := by rw [World.status, hr, Option.map_some]
    rcases attends_or_own hs h found hr hr' hstart' with
      hattends | ⟨d, rfl, rfl, hserves⟩ | ⟨c, rfl, rfl, hc⟩
    · exact hattends
    · simp only [Proc.loses, decide_true, Bool.true_and] at hloses
      have hmoves : d.pc.moves how.effect r.status = r'.status := by
        have hafter := @StartSandbox.status_after _ _ how choice _ hold
        rw [World.status, (h.called found).1] at hstatus
        exact Option.some.inj (hafter.symm.trans hstatus)
      rw [← hmoves] at hserves hstart' ⊢
      exact attends_start h found hold hstart hloses hstart' hserves
    · simp only [Proc.loses, decide_true, Bool.true_and] at hloses
      rcases attends_create h found hc (hk.procs pid _ found)
        (fun r₀ hpc => fresh_of_enqueue hp hkeys found hpc) hloses with hattends | hfailed
      · exact hattends
      · rw [hstatus, Option.some.injEq] at hfailed
        rw [hfailed] at hstart'
        simp [startable] at hstart'

/-- Nothing but a step that loses the job leaves a startable row to nobody. -/
theorem attendedRow_step (hk : Provenance s) (hp : Posting s) (hkeys : KeysPlaced s)
    (hs : AttendedRow sid s) (hnot : NotLost settings sid s a t) (h : step settings s a = some t) :
    AttendedRow sid t := by
  have hst := stepped h
  cases hst with
  | tick _ _ result =>
    subst result
    exact hs
  | spawned pid proc world drawn spawn absent world_eq drawn_eq procs =>
    intro r' hr' hstart'
    have kept : s.Attends sid r'.status → t.world.queue = s.world.queue → t.Attends sid r'.status := by
      rintro (⟨job, hjob, hstarts⟩ | ⟨q, proc', hq, hattends⟩) hqueue
      · exact .inl ⟨job, hqueue ▸ hjob, hstarts⟩
      · refine .inr ⟨q, proc', ?_, hattends⟩
        rw [procs, if_neg (fun hpid => by rw [hpid, hq] at absent; cases absent), hq]
    rw [world_eq] at hr'
    cases spawn with
    | deliver _ job => exact (hs r' hr' hstart').delivered hstart' absent (by rw [world_eq]) procs
    | _ => exact kept (hs r' hr' hstart') (by rw [world_eq])
  | dropped pid job queued tries result =>
    subst result
    intro r' hr' hstart'
    rcases hs r' hr' hstart' with ⟨job', hjob, hstarts⟩ | hattends
    · have hne : job' ≠ job := by
        rintro rfl
        simp [NotLost, loses, hstarts, tries] at hnot
      exact .inl ⟨job', (List.mem_erase_of_ne hne).mpr hjob, hstarts⟩
    · exact .inr hattends
  | died _ _ _ result =>
    subst result
    exact hs
  | exited _ _ _ result =>
    subst result
    exact hs
  | resumed => exact attendedRow_await hk hp hkeys hs hnot (stepped h)
  | ended => exact attendedRow_await hk hp hkeys hs hnot (stepped h)
  | killed => exact attendedRow_await hk hp hkeys hs hnot (stepped h)

/-- In every run that does not lose the start job of a sandbox, however handlers overlap, fail
and are killed: while the sandbox is `queued` or `starting`, its job is queued, a delivery in
flight will still move it, or its POST still is to enqueue or to record its failed enqueue. -/
theorem startable_attended (settings : Settings) (now : Time) (containers : Containers)
    (nextObject : Nat) (actions : List Action) (s : State) (sid : Uuid)
    (h : run settings (State.init now containers nextObject) actions = some s)
    (hnot : Along settings (NotLost settings sid) (State.init now containers nextObject) actions)
    (r : Sandbox) (hr : s.world.row sid = some r) (hstart : r.status ∈ startable) :
    s.Attends sid r.status := by
  have hs : Grounded s ∧ KeysPlaced s ∧ AttendedRow sid s :=
    LabelledRuns.invariant (P := NotLost settings sid)
      (I := fun s => Grounded s ∧ KeysPlaced s ∧ AttendedRow sid s)
      (fun s a t hs hn (h : step settings s a = some t) =>
        ⟨grounded_step hs.1 h, keysPlaced_step hs.2.1 h,
          attendedRow_step hs.1.provenance hs.1.posting hs.2.1 hs.2.2 hn h⟩)
      ⟨grounded_init .., fun _ h => (by cases h), fun _ h => by cases h⟩ hnot h
  exact hs.2.2 r hr hstart

/-- A launch that failed: the sandbox is `queued`, its job too. -/
theorem startable_attended_retried : ∃ (s : State) (r : Sandbox),
    s.world.row 1 = some r ∧ r.status = .queued ∧ s.Attends 1 r.status := by
  have hrun : (run ⟨2, 4, "localhost"⟩ (State.init 0 KeyedTable.empty 0)
      (posted 0 1 ++ failedOnce.take 8)).any
      (fun s => (s.world.row 1).any fun r => decide (r.status = .queued)) = true := by decide
  obtain ⟨s, hs, hp⟩ := LabelledRuns.exists_run hrun
  obtain ⟨r, hr, hqueued⟩ := (Option.any_eq_true _ _).mp hp
  have hqueued := of_decide_eq_true hqueued
  exact ⟨s, r, hr, hqueued, startable_attended _ _ _ _ _ s 1 hs
    (LabelledRuns.along_of_check (by decide)) r hr (by rw [hqueued]; decide)⟩

end SandboxOrchestrator
