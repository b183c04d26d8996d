import SandboxOrchestrator.Lifecycle

/-!
# What a handler knows about the rows it works on

A handler acts on what it read earlier. What it read about a row can only have moved
forward since, so every handler in flight and every job ever accepted stays right about
how far its row has come. No overlap, failure or kill changes that.
-/

namespace SandboxOrchestrator

set_option autoImplicit false

def Job.Known (job : Job) (w : World) : Prop :=
  w.Reached job.sandboxId (match job.task with | .startSandbox => 0 | .stopSandbox => 2)

/-- The row a POST inserted, or will insert, is the one it answers with. -/
def CreateSandbox.Drafted (c : CreateSandbox) (r : Sandbox) : Prop :=
  r.id = c.sandboxId ∧ r.status = .queued ∧ r.idempotencyKey = c.key

def World.Inserted (w : World) (r : Sandbox) : Prop :=
  ∃ r', w.row r.id = some r' ∧ r'.type = r.type ∧ r'.deployment = r.deployment ∧
    r'.expiresAt = r.expiresAt ∧ r'.idempotencyKey = r.idempotencyKey

def CreateSandbox.Lost (c : CreateSandbox) (w : World) : Prop :=
  (w.row c.sandboxId).isSome ∨
    ∃ key r, c.key = some key ∧ w.row r.id = some r ∧ r.idempotencyKey = some key

def CreateSandbox.Known (c : CreateSandbox) (w : World) : Prop :=
  match c.pc with
  | .replay => c.key.isSome
  | .insert r => c.Drafted r
  | .lostInsert => c.key.isSome ∧ c.Lost w
  | .enqueue r => c.Drafted r ∧ w.Inserted r
  | .enqueueFailed r _ => c.Drafted r ∧ w.Inserted r
  | _ => True

def DeleteSandbox.Known (d : DeleteSandbox) (w : World) : Prop :=
  match d.pc with
  | .get => True
  | .mark => w.Reached d.sandboxId 0
  | _ => w.Reached d.sandboxId 2

def Proc.Known (w : World) : Proc → Prop
  | .create c => c.Known w
  | .delete d => d.Known w
  | .start d => w.Reached d.sandboxId 0
  | .stop d => w.Reached d.sandboxId 2
  | _ => True

structure Provenance (s : State) : Prop where
  procs : ∀ pid proc, s.proc pid = some proc → proc.Known s.world
  queue : ∀ job ∈ s.world.queue, job.Known s.world
  placed : ∀ job, Event.placed job ∈ s.world.log → job.Known s.world

theorem provenance_init (now : Time) (containers : Containers) (nextObject : Nat) :
    Provenance (State.init now containers nextObject) where
  procs _ _ h := by cases h
  queue _ h := by cases h
  placed _ h := by cases h

/-! ## Knowledge is kept -/

theorem Job.Known.forward {job : Job} {w w' : World} (h : job.Known w) (hf : RowsForward w w') :
    job.Known w' := World.Reached.forward h hf

theorem World.Inserted.forward {r : Sandbox} {w w' : World} (h : w.Inserted r)
    (hf : RowsForward w w') : w'.Inserted r := by
  obtain ⟨r', hr, ht, hd, he, hk⟩ := h
  obtain ⟨r'', hr', hfr⟩ := hf _ _ hr
  exact ⟨r'', hr', hfr.type.trans ht, hfr.deployment.trans hd, hfr.expiresAt.trans he,
    hfr.key.trans hk⟩

theorem CreateSandbox.Lost.forward {c : CreateSandbox} {w w' : World} (h : c.Lost w)
    (hf : RowsForward w w') : c.Lost w' := by
  rcases h with h | ⟨key, r, hc, hr, hk⟩
  · obtain ⟨r, hr⟩ := Option.isSome_iff_exists.mp h
    obtain ⟨r', hr', -⟩ := hf _ _ hr
    exact .inl (by simp [hr'])
  · obtain ⟨r', hr', hfr⟩ := hf _ _ hr
    refine .inr ⟨key, r', hc, ?_, hfr.key.trans hk⟩
    rw [World.row_id hr']
    exact hr'

theorem Proc.Known.forward {proc : Proc} {w w' : World} (h : proc.Known w)
    (hf : RowsForward w w') : proc.Known w' := by
  cases proc with
  | create c =>
    obtain ⟨body, key, sid, pc⟩ := c
    cases pc with
    | lostInsert => exact ⟨h.1, CreateSandbox.Lost.forward h.2 hf⟩
    | enqueue r => exact ⟨h.1, World.Inserted.forward h.2 hf⟩
    | enqueueFailed r exc => exact ⟨h.1, World.Inserted.forward h.2 hf⟩
    | _ => exact h
  | delete d =>
    obtain ⟨sid, pc⟩ := d
    cases pc with
    | get => trivial
    | _ => exact World.Reached.forward h hf
  | start d => exact World.Reached.forward h hf
  | stop d => exact World.Reached.forward h hf
  | put p => trivial
  | sweep p => trivial

/-! ## Knowledge is gained -/

theorem World.inserted_of_reply {w : World} {actor : Actor} {how : How} {choice : Choice}
    {r : Sandbox} (lives : ∀ e r, how ≠ .killed e r)
    (h : w.reply actor how choice (.insert r) = .inserted) :
    (w.after actor how choice (.insert r)).Inserted r := by
  obtain ⟨hafter, hreply⟩ := World.after_of_reply lives h (by simp)
  rw [hafter]
  simp only [World.perform] at hreply ⊢
  split at hreply
  · rename_i sandboxes hs
    refine ⟨{ r with createdAt := w.now, updatedAt := w.now }, ?_, rfl, rfl, rfl, rfl⟩
    exact (KeyedTable.find?_insert hs r.id).trans (if_pos rfl)
  · cases hreply

theorem CreateSandbox.lost_of_reply {c : CreateSandbox} {w : World} {how : How} {choice : Choice}
    {r : Sandbox} (hr : c.Drafted r) (lives : ∀ e r, how ≠ .killed e r)
    (h : w.reply .createSandbox how choice (.insert r) = .integrityError) : c.Lost w := by
  obtain ⟨-, hreply⟩ := World.after_of_reply lives h (by simp)
  simp only [World.perform] at hreply
  split at hreply
  · cases hreply
  · rename_i hnone
    obtain ⟨hid, -, hkey⟩ := hr
    rcases (KeyedTable.insert_eq_none_iff _ _).mp hnone with hk | ⟨key, hk, ha⟩
    · left
      rw [← hid]
      exact hk
    · obtain ⟨r', hr'⟩ := Option.isSome_iff_exists.mp ha
      obtain ⟨hmem, hkr⟩ := (KeyedTable.findAlt?_eq_some_iff _).mp hr'
      exact .inr ⟨key, r', hkey.symm.trans hk, World.mem_rows_iff.mp hmem, hkr⟩

theorem CreateSandbox.known_goes {cap : Nat} {c : CreateSandbox} {w : World} {how : How}
    {choice : Choice} {pc : CreatePc} (hc : c.Known w) (lives : ∀ e r, how ≠ .killed e r)
    (h : c.Goes cap c.pc (w.reply .createSandbox how choice c.request) pc) :
    ({ c with pc := pc } : CreateSandbox).Known (w.after .createSandbox how choice c.request) := by
  have hf : RowsForward w (w.after .createSandbox how choice c.request) :=
    Proc.forward_after (.create c) w how choice
  generalize hq : w.reply _ how choice _ = reply at h
  obtain ⟨body, key, sid, pc₀⟩ := c
  cases h with
  | stamped d t => exact ⟨rfl, rfl, rfl⟩
  | inserted r => exact ⟨hc, World.inserted_of_reply lives hq⟩
  | lost r keyed => exact ⟨keyed, (CreateSandbox.lost_of_reply hc lives hq).forward hf⟩
  | enqueueFailed r e => exact ⟨hc.1, hc.2.forward hf⟩
  | _ => trivial

theorem World.reached_of_mark {w : World} {how : How} {choice : Choice} {sid : Uuid} {b : Bool}
    (hs : w.Reached sid 0) (lives : ∀ e r, how ≠ .killed e r)
    (h : w.reply .deleteSandbox how choice
      (.transition sid activeStatuses { status := .stopping }) = .changed b) :
    (w.after .deleteSandbox how choice
      (.transition sid activeStatuses { status := .stopping })).Reached sid 2 := by
  cases b with
  | true =>
    obtain ⟨r, -, -, hr⟩ := World.changed_true lives h
    exact ⟨_, hr, Nat.le_refl 2⟩
  | false =>
    obtain ⟨r, hr, -⟩ := hs
    have hst := World.changed_false lives h hr
    rw [mem_activeStatuses] at hst
    obtain ⟨r', hr', hf⟩ := Proc.forward_after (.delete ⟨sid, .mark⟩) w how choice sid r hr
    exact ⟨r', hr', by have := hf.rank; omega⟩

theorem DeleteSandbox.known_goes {d : DeleteSandbox} {w : World} {how : How} {choice : Choice}
    {pc : DeletePc} (hd : d.Known w) (lives : ∀ e r, how ≠ .killed e r)
    (h : d.Goes d.pc (w.reply .deleteSandbox how choice d.request) pc) :
    ({ d with pc := pc } : DeleteSandbox).Known (w.after .deleteSandbox how choice d.request) := by
  have hf : RowsForward w (w.after .deleteSandbox how choice d.request) :=
    Proc.forward_after (.delete d) w how choice
  generalize hq : w.reply _ how choice _ = reply at h
  obtain ⟨sid, pc₀⟩ := d
  cases h with
  | active r st =>
    obtain ⟨hafter, hreply⟩ := World.after_of_reply lives hq (by simp)
    have hrow : w.row sid = some r := by simpa [request, World.perform] using hreply
    exact World.Reached.forward ⟨r, hrow, Nat.zero_le _⟩ hf
  | marked b => exact World.reached_of_mark hd lives hq
  | stopping r st => exact World.Reached.forward hd hf
  | picked r reply dep pick => exact World.Reached.forward hd hf

theorem Proc.known_goes {settings : Settings} {proc proc' : Proc} {w : World} {how : How}
    {choice : Choice} (hp : proc.Known w) (lives : ∀ e r, how ≠ .killed e r)
    (h : proc.Goes settings (w.reply proc.actor how choice proc.request) proc') :
    proc'.Known (w.after proc.actor how choice proc.request) := by
  have hf := proc.forward_after w how choice
  cases h with
  | create c reply pc goes => exact CreateSandbox.known_goes hp lives goes
  | delete d reply pc goes => exact DeleteSandbox.known_goes hp lives goes
  | start d reply pc goes => exact World.Reached.forward hp hf
  | stop d reply pc goes => exact World.Reached.forward hp hf
  | sweep p reply p' goes => trivial

theorem Job.known_ofJob {job : Job} {w : World} (h : job.Known w) : (Proc.ofJob job).Known w := by
  obtain ⟨task, sid, queue, jobTry⟩ := job
  cases task <;> exact h

theorem Proc.known_job {proc : Proc} {job : Job} {w : World} (h : proc.Known w)
    (hj : proc.job? = some job) : job.Known w := by
  cases proc with
  | start d => cases hj; exact h
  | stop d => cases hj; exact h
  | _ => cases hj

theorem Proc.known_enqueue {proc : Proc} {job : Job} {w : World} (h : proc.Known w)
    (hq : proc.request = .enqueue job) : job.Known w := by
  cases Proc.asks_of hq with
  | enqueueStart =>
    obtain ⟨-, r, hr, -⟩ := h
    exact ⟨r, hr, Nat.zero_le _⟩
  | enqueueStop => exact h

theorem Proc.create_of_insert {proc : Proc} {r : Sandbox} (h : proc.request = .insert r) :
    ∃ c, proc = .create c ∧ c.pc = .insert r := by
  cases Proc.asks_of h with
  | insert => exact ⟨_, rfl, rfl⟩

theorem Proc.drafted_of_insert {proc : Proc} {r : Sandbox} {w : World} (hk : proc.Known w)
    (h : proc.request = .insert r) : ∃ c, proc = .create c ∧ c.pc = .insert r ∧ c.Drafted r := by
  obtain ⟨⟨body, key, sid, pc⟩, rfl, rfl⟩ := Proc.create_of_insert h
  exact ⟨_, rfl, rfl, hk⟩

theorem Proc.start_of_create {proc : Proc} {sid : Uuid} {time : Time}
    (h : proc.request = .create sid time) :
    ∃ d, proc = .start d ∧ d.sandboxId = sid ∧ ∃ r, d.pc = .create r := by
  cases Proc.asks_of h with
  | create => exact ⟨_, rfl, rfl, _, rfl⟩

theorem Proc.Known.row_congr {proc : Proc} {w w' : World} (h : proc.Known w)
    (hrow : ∀ sid, w'.row sid = w.row sid) : proc.Known w' :=
  h.forward fun sid r hr => ⟨r, (hrow sid).trans hr, .refl r⟩

theorem provenance_step {settings : Settings} {s t : State} {a : Action} (hs : Provenance s)
    (h : step settings s a = some t) : Provenance t := by
  have hst := stepped h
  have hf := hst.forward
  refine ⟨fun pid proc hp => ?_, fun job hj => ?_, fun job hj => ?_⟩
  · cases hst.came hp with
    | stayed found => exact (hs.procs pid proc found).forward hf
    | spawned world drawn spawn absent =>
      cases spawn with
      | post _ body key sid =>
        cases key with
        | none => trivial
        | some key => exact Option.isSome_some
      | delete => trivial
      | put => trivial
      | deliver _ job queued => exact (Job.known_ofJob (hs.queue job queued)).forward hf
      | redeliver _ job placed =>
        obtain ⟨j, hj, htask, hid⟩ := placed
        refine (Job.known_ofJob ?_).forward hf
        have hk := hs.placed j hj
        simpa only [Job.Known, htask, hid] using hk
      | sweep => trivial
    | resumed how choice old events isAwait found lives goes world_eq =>
      rw [world_eq]
      exact (Proc.known_goes (hs.procs pid old found) lives goes).row_congr fun _ => rfl
  · rcases hst.mem_queue hj with hold | ⟨pid, how, choice, proc, -, found, hq | ⟨old, hold, rfl⟩⟩
    · exact (hs.queue job hold).forward hf
    · exact (Proc.known_enqueue (hs.procs pid proc found) hq).forward hf
    · exact (Proc.known_job (hs.procs pid proc found) hold).forward hf
  · rcases hst.logChange.mem rfl hj with
      hold | ⟨pid, how, choice, proc, -, found, ⟨j, hq, he⟩ | ⟨r, v, -, -, -, he⟩⟩
    · exact (hs.placed job hold).forward hf
    · cases he
      exact (Proc.known_enqueue (hs.procs pid proc found) hq).forward hf
    · cases he

end SandboxOrchestrator
