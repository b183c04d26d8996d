import SandboxOrchestrator.Attended
import SandboxOrchestrator.ExpiryChecks
import SandboxOrchestrator.Idempotency

/-!
# What a client was answered stays true

An answer is written down when its handler ends, and the world goes on. A POST's answer
is read off a row that keeps its key, its deployment and its expiry, a POST that was
refused never left a row, and a DELETE answers `stopping` only once Redis has a stop job.
-/

namespace SandboxOrchestrator

set_option autoImplicit false

/-! ## The answers of a POST -/

/-- What a POST with this key and this drawn id may be answered, as long as it is true. -/
structure Honored (w : World) (key : Option IdempotencyKey) (sid : Uuid) (a : SandboxAccepted) :
    Prop where
  jobId : a.jobId = sandboxJobId .startSandbox a.sandboxId
  row : ∃ r, w.row a.sandboxId = some r ∧ r.idempotencyKey = key ∧ a.type = r.type ∧
    a.deployment = r.deployment ∧ a.expiresAt = r.expiresAt ∧ a.status.rank ≤ r.status.rank
  placed : a.replayed = false →
    a.sandboxId = sid ∧ .placed ⟨.startSandbox, sid, a.deployment, 1⟩ ∈ w.log
  replayed : a.replayed = true → key.isSome = true

def End.rowless : End → Bool
  | .answered .capacityReached => true
  | .answered (.accepted a) => a.replayed
  | .integrityError => true
  | _ => false

def World.Unqueued (w : World) (key : Option IdempotencyKey) (sid : Uuid) : Prop :=
  ∃ r e, w.row sid = some r ∧ r.idempotencyKey = key ∧ r.status = .failed ∧
    r.error = some ("enqueue: " ++ e)

structure AnswersKept (s : State) : Prop where
  drawn : ∀ key sid outcome, .created key sid outcome ∈ s.world.log → sid ∈ s.drawn
  gone : ∀ key sid outcome, .created key sid outcome ∈ s.world.log →
    ∀ p c, s.proc p = some (.create c) → c.sandboxId ≠ sid
  accepted : ∀ key sid a, .created key sid (.answered (.accepted a)) ∈ s.world.log →
    Honored s.world key sid a
  rowless : ∀ key sid outcome, .created key sid outcome ∈ s.world.log → outcome.rowless = true →
    s.world.row sid = none
  unqueued : ∀ key sid, .created key sid (.answered .unavailable) ∈ s.world.log →
    s.world.Unqueued key sid

theorem answersKept_init (now : Time) (containers : Containers) (nextObject : Nat) :
    AnswersKept (State.init now containers nextObject) where
  drawn _ _ _ h := by cases h
  gone _ _ _ h := by cases h
  accepted _ _ _ h := by cases h
  rowless _ _ _ h := by cases h
  unqueued _ _ h := by cases h

/-! ### At the end of the POST -/

section

variable {cap : Nat} {s : State} {pid : Nat} {how : How} {choice : Choice} {c : CreateSandbox}
  {outcome : End}

theorem honored_of_replay {key : IdempotencyKey} {sid : Uuid} {w : World} {r : Sandbox}
    (lives : ∀ e r, how ≠ .killed e r)
    (h : w.reply .createSandbox how choice (.replay key) = .row (some r)) :
    Honored (w.after .createSandbox how choice (.replay key)) (some key) sid (accepted r true) := by
  obtain ⟨hafter, -⟩ := World.after_of_reply lives h (by simp)
  obtain ⟨hr, hkey⟩ := (World.row_of_replay lives h).1 r rfl
  rw [hafter]
  refine ⟨rfl, ⟨r, hr, hkey, rfl, rfl, rfl, Nat.le_refl _⟩, ?_, fun _ => rfl⟩
  intro hreplayed
  cases hreplayed

theorem World.placed_of_enqueued {w : World} {actor : Actor} {job : Job} {b : Bool}
    (lives : ∀ e r, how ≠ .killed e r)
    (h : w.reply actor how choice (.enqueue job) = .enqueued b) (hfresh : job.key ∉ w.jobKeys) :
    .placed job ∈ (w.after actor how choice (.enqueue job)).log := by
  obtain ⟨hafter, -⟩ := World.after_of_reply lives h (by simp)
  have henqueue : w.enqueue job = if job.key ∈ w.jobKeys then _ else _ := rfl
  rw [hafter]
  change _ ∈ (w.enqueue job).1.log
  rw [henqueue, if_neg hfresh]
  exact List.mem_cons_self

theorem CreateSandbox.honored_of_ends {a : SandboxAccepted} (hs : Grounded s) (hkeys : KeysPlaced s)
    (found : s.proc pid = some (.create c)) (lives : ∀ e r, how ≠ .killed e r)
    (h : c.Ends cap c.pc (s.world.reply .createSandbox how choice c.request)
      (.answered (.accepted a))) :
    Honored (s.world.after .createSandbox how choice c.request) c.key c.sandboxId a := by
  have hk : c.Known s.world := hs.provenance.procs pid _ found
  have hfresh := fun r => @fresh_of_enqueue s hs.posting hkeys pid c r found
  have hf : RowsForward s.world (s.world.after .createSandbox how choice c.request) :=
    Proc.forward_after (.create c) s.world how choice
  clear found
  generalize hq : s.world.reply _ how choice _ = reply at h
  obtain ⟨body, key, sid, pc⟩ := c
  cases h with
  | replayed r =>
    obtain ⟨key, rfl⟩ := Option.isSome_iff_exists.mp hk
    exact honored_of_replay lives hq
  | replayedWinner r =>
    obtain ⟨key, rfl⟩ := Option.isSome_iff_exists.mp hk.1
    exact honored_of_replay lives hq
  | enqueued r b =>
    obtain ⟨⟨hid, hstatus, hkey⟩, hinserted⟩ := hk
    obtain ⟨r', hr', htype, hdeployment, hexpires, hkey'⟩ := hinserted.forward hf
    refine ⟨rfl, ⟨r', hr', hkey'.trans hkey, htype.symm, hdeployment.symm, hexpires.symm, ?_⟩, ?_, ?_⟩
    · change r.status.rank ≤ _
      rw [hstatus]
      exact Nat.zero_le _
    · refine fun _ => ⟨hid, ?_⟩
      have hkey : (startJob r).key ∉ s.world.jobKeys := by
        rw [Job.key, startJob, hid]
        exact hfresh r rfl
      have hjob : Job.mk .startSandbox sid (SandboxOrchestrator.accepted r false).deployment 1 =
          startJob r := by
        rw [startJob, hid]
        rfl
      rw [hjob]
      exact World.placed_of_enqueued lives hq hkey
    · intro hreplayed
      cases hreplayed

theorem CreateSandbox.rowless_of_ends (hk : c.Known s.world)
    (habsent : c.committed = false → s.world.row c.sandboxId = none)
    (lives : ∀ e r, how ≠ .killed e r)
    (h : c.Ends cap c.pc (s.world.reply .createSandbox how choice c.request) outcome)
    (hrowless : outcome.rowless = true) :
    (s.world.after .createSandbox how choice c.request).row c.sandboxId = none := by
  generalize hq : s.world.reply _ how choice _ = reply at h
  obtain ⟨body, key, sid, pc⟩ := c
  have hquiet : ∀ k : IdempotencyKey, ∀ x, s.world.reply .createSandbox how choice (.replay k) = .row x →
      s.world.after .createSandbox how choice (.replay k) = s.world := by
    intro k x hq
    exact (World.after_of_reply lives hq (by simp)).1
  cases h with
  | replayed r =>
    obtain ⟨key, rfl⟩ := Option.isSome_iff_exists.mp hk
    exact (congrArg (fun w => w.row sid) (hquiet key _ hq)).trans (habsent rfl)
  | refused active full =>
    have hafter := (World.after_of_reply lives hq (by simp)).1
    exact (congrArg (fun w => w.row sid) hafter).trans (habsent rfl)
  | taken r keyless =>
    exact (congrArg (fun w => w.row sid) (World.insert_refused lives hq)).trans (habsent rfl)
  | replayedWinner r =>
    obtain ⟨key, rfl⟩ := Option.isSome_iff_exists.mp hk.1
    exact (congrArg (fun w => w.row sid) (hquiet key _ hq)).trans (habsent rfl)
  | noWinner =>
    obtain ⟨key, rfl⟩ := Option.isSome_iff_exists.mp hk.1
    exact (congrArg (fun w => w.row sid) (hquiet key _ hq)).trans (habsent rfl)
  | _ => cases hrowless

theorem CreateSandbox.unqueued_of_ends (hk : c.Known s.world) (lives : ∀ e r, how ≠ .killed e r)
    (h : c.Ends cap c.pc (s.world.reply .createSandbox how choice c.request)
      (.answered .unavailable)) :
    (s.world.after .createSandbox how choice c.request).Unqueued c.key c.sandboxId := by
  generalize hq : s.world.reply _ how choice _ = reply at h
  obtain ⟨body, key, sid, pc⟩ := c
  cases h with
  | unavailable r e =>
    obtain ⟨⟨hid, -, hkey⟩, r', hr', -, -, -, hkey'⟩ := hk
    change r.id = sid at hid
    have hafter := (World.after_of_reply lives hq (by simp)).1
    let v : Values := { status := .failed, error := some (some ("enqueue: " ++ e.name)) }
    refine ⟨v.apply s.world.now r', e.name, ?_, hkey'.trans hkey, rfl, rfl⟩
    rw [hafter]
    change (s.world.update .createSandbox (fun r' => decide (r'.id = r.id)) v).1.row sid = _
    rw [World.row_update, ← hid, hr']
    simp [World.row_id hr']

end

/-! ### One step -/

theorem Honored.forward {w w' : World} {key : Option IdempotencyKey} {sid : Uuid}
    {a : SandboxAccepted} (h : Honored w key sid a) (hf : RowsForward w w')
    (hlog : ∀ e ∈ w.log, e ∈ w'.log) : Honored w' key sid a := by
  obtain ⟨r, hr, hkey, htype, hdeployment, hexpires, hrank⟩ := h.row
  obtain ⟨r', hr', hfr⟩ := hf _ _ hr
  refine ⟨h.jobId, ⟨r', hr', hfr.key.trans hkey, htype.trans hfr.type.symm,
    hdeployment.trans hfr.deployment.symm, hexpires.trans hfr.expiresAt.symm,
    Nat.le_trans hrank hfr.rank⟩, ?_, h.replayed⟩
  intro hreplayed
  obtain ⟨hid, hplaced⟩ := h.placed hreplayed
  exact ⟨hid, hlog _ hplaced⟩

section

variable {settings : Settings} {s t : State} {a : Action} {key : Option IdempotencyKey} {sid : Uuid}
  {outcome : End}

theorem Stepped.mem_created (h : Stepped settings s t a)
    (he : .created key sid outcome ∈ t.world.log) :
    .created key sid outcome ∈ s.world.log ∨
      ∃ pid how choice c, a = .await pid how choice ∧ s.proc pid = some (.create c) ∧
        (∀ e r, how ≠ .killed e r) ∧ t.proc pid = none ∧ c.key = key ∧ c.sandboxId = sid ∧
        c.Ends settings.sandboxMaxActive c.pc
          (s.world.reply .createSandbox how choice c.request) outcome := by
  refine (h.mem_log_of_end rfl he).imp_right ?_
  rintro ⟨pid, how, choice, proc, outcome', ha, found, lives, hgone, ends, he'⟩
  cases ends with
  | create c reply outcome' ends =>
    injection he' with hkey hsid hout
    subst hout
    exact ⟨pid, how, choice, c, ha, found, lives, hgone, hkey.symm, hsid.symm, ends⟩
  | _ => cases he'

theorem Stepped.log_of_after {pid : Nat} {how : How} {choice : Choice} {proc : Proc}
    (h : Stepped settings s t (.await pid how choice)) (found : s.proc pid = some proc) {e : Event}
    (he : e ∈ (s.worldAfter proc how choice).log) : e ∈ t.world.log := by
  cases h with
  | spawned _ _ _ _ spawn => cases spawn
  | resumed _ _ _ proc' _ events found' _ _ world_eq =>
    cases found.symm.trans found'
    rw [world_eq, World.record_log]
    exact List.mem_append_right events he
  | ended _ _ _ proc' outcome events found' _ _ world_eq =>
    cases found.symm.trans found'
    rw [world_eq, World.settleJob_log, World.record_log]
    exact List.mem_append_right _ he
  | killed _ _ _ _ proc' found' world_eq =>
    cases found.symm.trans found'
    rw [world_eq, World.settleJob_log]
    exact he

theorem AnswersKept.drawn_step (hs : AnswersKept s) (hi : FreshIds s) (hst : Stepped settings s t a)
    (he : .created key sid outcome ∈ t.world.log) : sid ∈ t.drawn := by
  rcases hst.mem_created he with hold | ⟨pid, how, choice, c, -, found, -, -, -, hsid, -⟩
  · exact hst.drawn_mono (hs.drawn _ _ _ hold)
  · exact hst.drawn_mono (hsid ▸ hi.proc pid c found)

theorem AnswersKept.gone_step (hs : AnswersKept s) (hi : FreshIds s) (hf : Fresh s a t)
    (hst : Stepped settings s t a) (he : .created key sid outcome ∈ t.world.log) {p : Nat}
    {c : CreateSandbox} (hp : t.proc p = some (.create c)) : c.sandboxId ≠ sid := by
  intro hid
  rcases (hst.came hp).create with ⟨body, key', sid', rfl, rfl, -⟩ | ⟨c₀, hc₀, hid₀⟩
  · obtain rfl : sid' = sid := hid
    rcases hst.mem_created he with hold | ⟨_, _, _, _, ha, -⟩
    · exact hf.not_drawn (hs.drawn _ _ _ hold)
    · cases ha
  · rcases hst.mem_created he with hold | ⟨pid, how, choice, d, -, found, -, hgone, -, hsid, -⟩
    · exact hs.gone _ _ _ hold p c₀ hc₀ (hid₀.trans hid)
    · obtain rfl := hi.unique p pid c₀ d hc₀ found (hid₀.trans (hid.trans hsid.symm))
      cases hp.symm.trans hgone

theorem AnswersKept.not_inserted (hs : AnswersKept s) (hk : Provenance s)
    (he : .created key sid outcome ∈ s.world.log) {pid : Nat} {proc : Proc} {r : Sandbox}
    (found : s.proc pid = some proc) (isInsert : proc.request = .insert r) : r.id ≠ sid := by
  obtain ⟨c, rfl, -, hid, -⟩ := Proc.drafted_of_insert (hk.procs pid proc found) isInsert
  rw [hid]
  exact hs.gone _ _ _ he pid c found

theorem AnswersKept.accepted_step (hs : AnswersKept s) (hg : Grounded s) (hkeys : KeysPlaced s)
    (hst : Stepped settings s t a) {b : SandboxAccepted}
    (he : .created key sid (.answered (.accepted b)) ∈ t.world.log) : Honored t.world key sid b := by
  rcases hst.mem_created he with
    hold | ⟨pid, how, choice, c, rfl, found, lives, -, rfl, rfl, ends⟩
  · exact (hs.accepted _ _ _ hold).forward hst.forward fun _ => hst.logChange.mono
  · refine (CreateSandbox.honored_of_ends hg hkeys found lives ends).forward ?_ ?_
    · exact fun sid r hr => ⟨r, ((hst.called found).1 sid).trans hr, .refl r⟩
    · exact fun _ => hst.log_of_after found

theorem AnswersKept.rowless_step (hs : AnswersKept s) (hk : Provenance s) (hi : FreshIds s)
    (hst : Stepped settings s t a) (he : .created key sid outcome ∈ t.world.log)
    (hrowless : outcome.rowless = true) : t.world.row sid = none := by
  rcases hst.mem_created he with hold | ⟨pid, how, choice, c, rfl, found, lives, -, -, rfl, ends⟩
  · have hnone := hs.rowless _ _ _ hold hrowless
    rcases hst.row sid with hsame | ⟨pid, how, choice, proc, -, found, hchange⟩
    · exact hsame.trans hnone
    · generalize t.world.row sid = x at hchange
      cases hchange with
      | same => exact hnone
      | wrote r v found' => cases hnone.symm.trans found'
      | inserted r isInsert id => exact absurd id (hs.not_inserted hk hold found isInsert)
  · rw [(hst.called found).1]
    exact CreateSandbox.rowless_of_ends (hk.procs pid _ found) (hi.absent pid c found) lives ends
      hrowless

theorem AnswersKept.unqueued_step (hs : AnswersKept s) (hk : Provenance s)
    (hst : Stepped settings s t a) (he : .created key sid (.answered .unavailable) ∈ t.world.log) :
    t.world.Unqueued key sid := by
  rcases hst.mem_created he with
    hold | ⟨pid, how, choice, c, rfl, found, lives, -, rfl, rfl, ends⟩
  · obtain ⟨r, e, hr, hkey, hstatus, herror⟩ := hs.unqueued _ _ hold
    rcases hst.row sid with hsame | ⟨pid, how, choice, proc, -, found, hchange⟩
    · exact ⟨r, e, hsame.trans hr, hkey, hstatus, herror⟩
    · generalize hx : t.world.row sid = x at hchange
      cases hchange with
      | same => exact ⟨r, e, hx.trans hr, hkey, hstatus, herror⟩
      | wrote r' v found' writes =>
        cases hr.symm.trans found'
        have hmoves := Proc.writes_moves writes
        rw [hstatus] at hmoves
        have hactor : proc.actor = .createSandbox := by
          cases hact : proc.actor <;> rw [hact] at hmoves <;>
            simp [moves, activeStatuses, startable] at hmoves
        obtain ⟨c, -, -, rfl, -, hid⟩ := Proc.create_of_writes (hk.procs pid proc found) writes hactor
        exact absurd (hid.trans (World.row_id hr)) (hs.gone _ _ _ hold pid c found)
      | inserted r' isInsert id absent => cases hr.symm.trans absent
  · obtain ⟨r, e, hr, hrest⟩ := CreateSandbox.unqueued_of_ends (hk.procs pid _ found) lives ends
    exact ⟨r, e, ((hst.called found).1 _).trans hr, hrest⟩

theorem answersKept_step (hg : Grounded s) (hi : FreshIds s) (hkeys : KeysPlaced s)
    (hs : AnswersKept s) (hf : Fresh s a t) (h : step settings s a = some t) : AnswersKept t where
  drawn _ _ _ he := hs.drawn_step hi (stepped h) he
  gone _ _ _ he _ _ hp := hs.gone_step hi hf (stepped h) he hp
  accepted _ _ _ he := hs.accepted_step hg hkeys (stepped h) he
  rowless _ _ _ he := hs.rowless_step hg.provenance hi (stepped h) he
  unqueued _ _ he := hs.unqueued_step hg.provenance (stepped h) he

end

/-! ## The answers of a DELETE -/

def World.Seen (w : World) (sid : Uuid) (r : Sandbox) : Prop :=
  ∃ r', w.row sid = some r' ∧ Forward r r'

theorem World.Seen.forward {w w' : World} {sid : Uuid} {r : Sandbox} (h : w.Seen sid r)
    (hf : RowsForward w w') : w'.Seen sid r := by
  obtain ⟨r', hr', hfr⟩ := h
  obtain ⟨r'', hr'', hfr'⟩ := hf _ _ hr'
  exact ⟨r'', hr'', hfr.trans hfr'⟩

def DeletePc.sandbox? : DeletePc → Option Sandbox
  | .pick r => some r
  | .enqueue r _ => some r
  | _ => none

def DeleteSandbox.Reads (d : DeleteSandbox) (w : World) : Prop :=
  ∀ r, d.pc.sandbox? = some r → r.status = .stopping ∧ w.Seen d.sandboxId r

def World.StopPlaced (w : World) (sid : Uuid) : Prop :=
  ∃ job, .placed job ∈ w.log ∧ job.key = (.stopSandbox, sid)

def World.Deleted (w : World) (sid : Uuid) (r : Sandbox) : Prop :=
  w.Seen sid r ∧ (r.status ∉ activeStatuses ∨ r.status = .stopping ∧ w.StopPlaced sid)

structure DeletesKept (s : State) : Prop where
  reads : ∀ p d, s.proc p = some (.delete d) → d.Reads s.world
  answered : ∀ sid r, .deleted sid (.answered (.sandbox r)) ∈ s.world.log → s.world.Deleted sid r

theorem deletesKept_init (now : Time) (containers : Containers) (nextObject : Nat) :
    DeletesKept (State.init now containers nextObject) where
  reads _ _ h := by cases h
  answered _ _ h := by cases h

theorem DeleteSandbox.reads_goes {d : DeleteSandbox} {w : World} {how : How} {choice : Choice}
    {pc : DeletePc} (hd : d.Reads w) (lives : ∀ e r, how ≠ .killed e r)
    (h : d.Goes d.pc (w.reply .deleteSandbox how choice d.request) pc) :
    ({ d with pc := pc } : DeleteSandbox).Reads (w.after .deleteSandbox how choice d.request) := by
  have hf : RowsForward w (w.after .deleteSandbox how choice d.request) :=
    Proc.forward_after (.delete d) w how choice
  generalize hq : w.reply _ how choice _ = reply at h
  obtain ⟨sid, pc₀⟩ := d
  intro r hr
  cases h with
  | active => cases hr
  | marked => cases hr
  | stopping r' st =>
    cases hr
    exact ⟨st, World.Seen.forward ⟨r, World.row_of_get lives hq, .refl r⟩ hf⟩
  | picked r' reply dep pick =>
    cases hr
    obtain ⟨hstatus, hseen⟩ := hd r rfl
    exact ⟨hstatus, hseen.forward hf⟩

theorem World.placed_of_accepted {w : World} {actor : Actor} {how : How} {choice : Choice} {job : Job}
    {b : Bool} (lives : ∀ e r, how ≠ .killed e r)
    (hkeys : ∀ key ∈ w.jobKeys, 1 ≤ w.placedCount key)
    (h : w.reply actor how choice (.enqueue job) = .enqueued b) :
    ∃ j, .placed j ∈ (w.after actor how choice (.enqueue job)).log ∧ j.key = job.key := by
  by_cases hmem : job.key ∈ w.jobKeys
  · obtain ⟨hafter, -⟩ := World.after_of_reply lives h (by simp)
    have henqueue : w.enqueue job = if job.key ∈ w.jobKeys then _ else _ := rfl
    have hlog : (w.enqueue job).1.log = w.log := by rw [henqueue, if_pos hmem]
    obtain ⟨e, he, hplaced⟩ := List.countP_pos_iff.mp (hkeys _ hmem)
    cases e <;> simp only [isPlaced, decide_eq_true_eq, reduceCtorEq] at hplaced
    rw [hafter]
    exact ⟨_, hlog ▸ he, hplaced⟩
  · exact ⟨job, World.placed_of_enqueued lives h hmem, rfl⟩

theorem DeleteSandbox.deleted_of_ends {d : DeleteSandbox} {s : State} {how : How} {choice : Choice}
    {r : Sandbox} (hk : d.Known s.world) (hd : d.Reads s.world) (hkeys : KeysPlaced s)
    (lives : ∀ e r, how ≠ .killed e r)
    (h : d.Ends d.pc (s.world.reply .deleteSandbox how choice d.request) (.answered (.sandbox r))) :
    (s.world.after .deleteSandbox how choice d.request).Deleted d.sandboxId r := by
  have hf : RowsForward s.world (s.world.after .deleteSandbox how choice d.request) :=
    Proc.forward_after (.delete d) s.world how choice
  generalize hq : s.world.reply _ how choice _ = reply at h
  obtain ⟨sid, pc⟩ := d
  cases h with
  | settled r st => exact ⟨World.Seen.forward ⟨r, World.row_of_get lives hq, .refl r⟩ hf, .inl st⟩
  | settledMeanwhile r st =>
    -- the row was moved to `stopping` before it was read again, and it is past that now
    have hr := World.row_of_get lives hq
    refine ⟨World.Seen.forward ⟨r, hr, .refl r⟩ hf, .inl fun hactive => st ?_⟩
    have hrank : 2 ≤ r.status.rank := World.Reached.of_row hk hr
    rw [mem_activeStatuses] at hactive
    cases hstatus : r.status <;> rw [hstatus] at hrank hactive <;> simp [SandboxStatus.rank] at *
  | enqueued r dep b =>
    obtain ⟨hstatus, hseen⟩ := hd r rfl
    exact ⟨hseen.forward hf, .inr ⟨hstatus, World.placed_of_accepted lives hkeys hq⟩⟩

section

variable {settings : Settings} {s t : State} {a : Action} {sid : Uuid} {outcome : End}

theorem World.Deleted.forward {w w' : World} {sid : Uuid} {r : Sandbox} (h : w.Deleted sid r)
    (hf : RowsForward w w') (hlog : ∀ e ∈ w.log, e ∈ w'.log) : w'.Deleted sid r := by
  obtain ⟨hseen, hsettled | ⟨hstopping, job, hjob, hkey⟩⟩ := h
  · exact ⟨hseen.forward hf, .inl hsettled⟩
  · exact ⟨hseen.forward hf, .inr ⟨hstopping, job, hlog _ hjob, hkey⟩⟩

theorem Stepped.mem_deleted (h : Stepped settings s t a)
    (he : .deleted sid outcome ∈ t.world.log) :
    .deleted sid outcome ∈ s.world.log ∨
      ∃ pid how choice d, a = .await pid how choice ∧ s.proc pid = some (.delete d) ∧
        (∀ e r, how ≠ .killed e r) ∧ d.sandboxId = sid ∧
        d.Ends d.pc (s.world.reply .deleteSandbox how choice d.request) outcome := by
  refine (h.mem_log_of_end rfl he).imp_right ?_
  rintro ⟨pid, how, choice, proc, outcome', ha, found, lives, -, ends, he'⟩
  cases ends with
  | delete d reply outcome' ends =>
    injection he' with hsid hout
    subst hout
    exact ⟨pid, how, choice, d, ha, found, lives, hsid.symm, ends⟩
  | _ => cases he'

theorem DeletesKept.reads_step (hs : DeletesKept s) (hst : Stepped settings s t a) {p : Nat}
    {d : DeleteSandbox} (hp : t.proc p = some (.delete d)) : d.Reads t.world := by
  cases hst.came hp with
  | stayed found =>
    intro r hr
    obtain ⟨hstatus, hseen⟩ := hs.reads p d found r hr
    exact ⟨hstatus, hseen.forward hst.forward⟩
  | spawned world drawn spawn =>
    obtain ⟨-, hpc⟩ := spawn.of_delete
    intro r hr
    rw [hpc] at hr
    cases hr
  | resumed how choice old events isAwait found lives goes world_eq =>
    generalize hreply : s.world.reply _ how choice _ = reply at goes
    cases goes with
    | delete d₀ reply pc goes =>
      subst hreply
      rw [world_eq]
      exact DeleteSandbox.reads_goes (hs.reads p d₀ found) lives goes

theorem DeletesKept.answered_step (hs : DeletesKept s) (hk : Provenance s) (hkeys : KeysPlaced s)
    (hst : Stepped settings s t a) {r : Sandbox}
    (he : .deleted sid (.answered (.sandbox r)) ∈ t.world.log) : t.world.Deleted sid r := by
  rcases hst.mem_deleted he with hold | ⟨pid, how, choice, d, rfl, found, lives, rfl, ends⟩
  · exact (hs.answered sid r hold).forward hst.forward fun _ => hst.logChange.mono
  · refine (DeleteSandbox.deleted_of_ends (hk.procs pid _ found) (hs.reads pid d found) hkeys lives
      ends).forward ?_ ?_
    · exact fun sid r hr => ⟨r, ((hst.called found).1 sid).trans hr, .refl r⟩
    · exact fun _ => hst.log_of_after found

theorem deletesKept_step (hk : Provenance s) (hkeys : KeysPlaced s) (hs : DeletesKept s)
    (h : step settings s a = some t) : DeletesKept t where
  reads _ _ hp := hs.reads_step (stepped h) hp
  answered _ _ he := hs.answered_step hk hkeys (stepped h) he

end

/-! ## Every run -/

/-- In every run with fresh ids, of every answer a POST was ever given. An accepted one names a
row that carries the key, the deployment and the expiry it was answered with, and either its own
drawn id, whose start job Redis took for that deployment, or an older row that replays the key.
After a 503 the row is there and stays failed by its enqueue. Refused and replaying POSTs
left neither a row nor a job of their own id. -/
theorem post_answers_hold (settings : Settings) (now : Time) (containers : Containers)
    (nextObject : Nat) (actions : List Action) (t : State)
    (h : run settings (State.init now containers nextObject) actions = some t)
    (hfresh : Along settings Fresh (State.init now containers nextObject) actions)
    (key : Option IdempotencyKey) (sid : Uuid) :
    (∀ a, .created key sid (.answered (.accepted a)) ∈ t.world.log → Honored t.world key sid a) ∧
      (.created key sid (.answered .unavailable) ∈ t.world.log → t.world.Unqueued key sid) ∧
      ∀ outcome, .created key sid outcome ∈ t.world.log → outcome.rowless = true →
        t.world.row sid = none ∧ ∀ job, .placed job ∈ t.world.log → job.sandboxId ≠ sid := by
  obtain ⟨hg, -, -, hkept⟩ : Grounded t ∧ FreshIds t ∧ KeysPlaced t ∧ AnswersKept t :=
    LabelledRuns.invariant (P := Fresh)
      (I := fun s => Grounded s ∧ FreshIds s ∧ KeysPlaced s ∧ AnswersKept s)
      (fun s a t hs hf (h : step settings s a = some t) =>
        ⟨grounded_step hs.1 h, freshIds_step hs.1.provenance hs.2.1 hf h, keysPlaced_step hs.2.2.1 h,
          answersKept_step hs.1 hs.2.1 hs.2.2.1 hs.2.2.2 hf h⟩)
      ⟨grounded_init .., freshIds_init .., fun _ h => (by cases h), answersKept_init ..⟩ hfresh h
  refine ⟨hkept.accepted key sid, hkept.unqueued key sid, fun outcome he hrowless => ?_⟩
  have hnone := hkept.rowless key sid outcome he hrowless
  refine ⟨hnone, fun job hjob hid => ?_⟩
  obtain ⟨r, hr, -⟩ := hg.provenance.placed job hjob
  rw [hid, hnone] at hr
  cases hr

/-- One keyed POST that is accepted, one that replays its key, and one that finds no room. -/
def threePosts : List Action :=
  [.post 0 oneMinute (some someKey) 1, .ok 0, .ok 0, .fails 0, .ok 0, .ok 0, .ok 0,
    .post 1 oneMinute (some someKey) 2, .ok 1, .post 2 oneMinute none 3, .ok 2]

theorem post_answers_hold_replayed : ∃ (t : State) (a : SandboxAccepted),
    Honored t.world (some someKey) 2 a ∧ a.replayed = true ∧ t.world.row 2 = none ∧
      t.world.row 3 = none := by
  have hrun : (run ⟨4, 1, "localhost"⟩ (State.init 0 KeyedTable.empty 0) threePosts).any
      (fun t => t.world.log.any (fun e =>
          match e with
          | .created key sid (.answered (.accepted a)) =>
            decide (key = some someKey) && decide (sid = 2) && a.replayed
          | _ => false) &&
        decide (.created none 3 (.answered .capacityReached) ∈ t.world.log)) = true := by decide
  obtain ⟨t, ht, hp⟩ := LabelledRuns.exists_run hrun
  simp only [Bool.and_eq_true, List.any_eq_true, decide_eq_true_eq] at hp
  obtain ⟨⟨e, he, hreplayed⟩, hrefused⟩ := hp
  have hfresh : Along ⟨4, 1, "localhost"⟩ Fresh (State.init 0 KeyedTable.empty 0) threePosts :=
    LabelledRuns.along_of_check (by decide)
  split at hreplayed
  · rename_i key sid a
    simp only [Bool.and_eq_true, decide_eq_true_eq] at hreplayed
    obtain ⟨⟨rfl, rfl⟩, hreplayed⟩ := hreplayed
    have hreplay := post_answers_hold _ 0 _ 0 threePosts t ht hfresh (some someKey) 2
    have hfull := post_answers_hold _ 0 _ 0 threePosts t ht hfresh none 3
    exact ⟨t, a, hreplay.1 a he, hreplayed, (hreplay.2.2 _ he hreplayed).1,
      (hfull.2.2 _ hrefused rfl).1⟩
  · cases hreplayed

/-- In every run, of every row a DELETE ever answered with: it was settled, or it was `stopping`
and Redis had accepted a stop job of it. The row of that id is still there and only moved on. -/
theorem delete_answers_hold (settings : Settings) (now : Time) (containers : Containers)
    (nextObject : Nat) (actions : List Action) (t : State)
    (h : run settings (State.init now containers nextObject) actions = some t) (sid : Uuid)
    (r : Sandbox) (he : .deleted sid (.answered (.sandbox r)) ∈ t.world.log) :
    (r.status ∉ activeStatuses ∨ r.status = .stopping ∧
        ∃ job, .placed job ∈ t.world.log ∧ job.task = .stopSandbox ∧ job.sandboxId = sid) ∧
      ∃ r', t.world.row sid = some r' ∧ Forward r r' := by
  obtain ⟨-, -, hkept⟩ : Provenance t ∧ KeysPlaced t ∧ DeletesKept t :=
    LabelledRuns.always (I := fun s => Provenance s ∧ KeysPlaced s ∧ DeletesKept s)
      (fun s a t hs (h : step settings s a = some t) =>
        ⟨provenance_step hs.1 h, keysPlaced_step hs.2.1 h, deletesKept_step hs.1 hs.2.1 hs.2.2 h⟩)
      ⟨provenance_init .., fun _ h => (by cases h), deletesKept_init ..⟩ h
  obtain ⟨hseen, hdeleted⟩ := hkept.answered sid r he
  refine ⟨hdeleted.imp_right ?_, hseen⟩
  rintro ⟨hstopping, job, hjob, hkey⟩
  obtain ⟨htask, hid⟩ := Prod.mk.inj hkey
  exact ⟨hstopping, job, hjob, htask, hid⟩

/-- A sandbox is posted and then deleted, both jobs are enqueued. -/
def postedThenDeleted : List Action :=
  posted 0 1 ++ [.ok 0, .delete 1 1, .ok 1, .ok 1, .ok 1, .fails 1, .ok 1]

theorem delete_answers_hold_queued : ∃ (t : State) (r : Sandbox),
    .deleted 1 (.answered (.sandbox r)) ∈ t.world.log ∧ r.status = .stopping ∧
      ∃ r', t.world.row 1 = some r' ∧ Forward r r' := by
  have hrun : (run ⟨1, 4, "localhost"⟩ (State.init 0 KeyedTable.empty 0) postedThenDeleted).any
      (fun t => t.world.log.any (fun e =>
        match e with
        | .deleted sid (.answered (.sandbox r)) => decide (sid = 1) && decide (r.status = .stopping)
        | _ => false)) = true := by decide
  obtain ⟨t, ht, hp⟩ := LabelledRuns.exists_run hrun
  obtain ⟨e, he, hstopping⟩ := List.any_eq_true.mp hp
  split at hstopping
  · rename_i sid r
    simp only [Bool.and_eq_true, decide_eq_true_eq] at hstopping
    obtain ⟨rfl, hstopping⟩ := hstopping
    exact ⟨t, r, he, hstopping, (delete_answers_hold _ 0 _ 0 postedThenDeleted t ht 1 r he).2⟩
  · cases hstopping

end SandboxOrchestrator
