import SandboxOrchestrator.Steps

/-!
# The lifecycle of a row

`moves` is the abstract state machine: which actor may take a row from which status to
which. Every UPDATE of the program is one of these moves, and no move lowers the rank.
-/

namespace SandboxOrchestrator

set_option autoImplicit false

/-- How far a sandbox has come; `starting` and `queued` alternate between retries. -/
def SandboxStatus.rank : SandboxStatus → Nat
  | .queued => 0
  | .starting => 0
  | .running => 1
  | .stopping => 2
  | .stopped => 3
  | .failed => 3

/-- The moves each actor may make. Only the failure write of `create_sandbox` looks at
no status. -/
def moves : Actor → SandboxStatus → SandboxStatus → Bool
  | .createSandbox, _, new => decide (new = .failed)
  | .deleteSandbox, old, new => decide (old ∈ activeStatuses) && decide (new = .stopping)
  | .startSandbox, old, new =>
    decide (old ∈ startable ∧ new ∈ [.starting, .stopped]) ||
      decide (old = .starting ∧ new ∈ [.queued, .running, .failed])
  | .stopSandbox, old, new => decide (old = .stopping) && decide (new = .stopped)
  | .reconcileSandboxes, old, new =>
    decide (old ∈ activeStatuses ∧ new = .stopped) || decide (old = .running ∧ new = .failed)
  | .putRollout, _, _ => false

theorem moves_rank (actor : Actor) (old new : SandboxStatus) (h : moves actor old new = true) :
    old.rank ≤ new.rank := by
  cases actor <;> cases old <;> cases new <;> revert h <;> decide

/-- The statuses in which a sandbox keeps an unexpired container. -/
def wanted : List SandboxStatus := [.queued, .starting, .running]

theorem mem_noContainerWanted (st : SandboxStatus) : st ∈ noContainerWanted ↔ 2 ≤ st.rank := by
  cases st <;> decide

theorem mem_startable (st : SandboxStatus) : st ∈ startable ↔ st.rank = 0 := by
  cases st <;> decide

theorem mem_activeStatuses (st : SandboxStatus) : st ∈ activeStatuses ↔ st.rank ≤ 2 := by
  cases st <;> decide

theorem mem_wanted (st : SandboxStatus) : st ∈ wanted ↔ st.rank ≤ 1 := by
  cases st <;> decide

/-! ## The UPDATEs -/

/-- Every UPDATE of the program: the handler that makes it, what it asks of the row, and the
values it sets. -/
inductive Proc.Writes (r : Sandbox) : Proc → Values → Prop where
  | markFailed (body : SandboxCreate) (key : Option IdempotencyKey) (sid : Uuid) (r₀ : Sandbox)
      (e : Exc) (id : r.id = r₀.id) :
      Writes r (.create ⟨body, key, sid, .enqueueFailed r₀ e⟩)
        { status := .failed, error := some (some ("enqueue: " ++ e.name)) }
  | mark (status : r.status ∈ activeStatuses) :
      Writes r (.delete ⟨r.id, .mark⟩) { status := .stopping }
  | expire (jobTry : Nat) (pool : Deployment) (status : r.status ∈ startable) :
      Writes r (.start ⟨r.id, jobTry, pool, .expire⟩)
        { status := .stopped, error := some (some "expired") }
  | pickUp (jobTry : Nat) (pool : Deployment) (r₀ : Sandbox) (status : r.status ∈ startable) :
      Writes r (.start ⟨r.id, jobTry, pool, .pickUp r₀⟩)
        { status := .starting, attempts := some jobTry }
  | retry (jobTry : Nat) (pool : Deployment) (reason : String) (status : r.status = .starting) :
      Writes r (.start ⟨r.id, jobTry, pool, .retry reason⟩)
        { status := .queued, error := some (some reason) }
  | fail (jobTry : Nat) (pool : Deployment) (reason : String) (status : r.status = .starting) :
      Writes r (.start ⟨r.id, jobTry, pool, .fail reason⟩)
        { status := .failed, error := some (some reason) }
  | succeed (jobTry : Nat) (pool : Deployment) (r₀ : Sandbox) (url : String)
      (status : r.status = .starting) :
      Writes r (.start ⟨r.id, jobTry, pool, .succeed r₀ url⟩)
        { status := .running, url := some (some url), error := some none }
  | finish (jobTry : Nat) (pool : Deployment) (status : r.status = .stopping) :
      Writes r (.stop ⟨r.id, jobTry, pool, .finish⟩) { status := .stopped }
  | settle (n : Reaped) (view : Snapshot) (c : RuntimeSandbox) (reason : ReapReason)
      (rest : List RuntimeSandbox) (id : r.id = c.sandboxId) (status : r.status ∈ activeStatuses) :
      Writes r (.sweep ⟨n, .settle view c reason rest⟩) { status := .stopped }
  | vanish (n : Reaped) (view : Snapshot) (rest : List Uuid) (status : r.status = .running) :
      Writes r (.sweep ⟨n, .vanish view r.id rest⟩)
        { status := .failed, error := some (some "container disappeared") }
  | finishStops (n : Reaped) (view : Snapshot) (status : r.status = .stopping)
      (gone : r.id ∉ view.live) :
      Writes r (.sweep ⟨n, .finishStops view⟩) { status := .stopped }

theorem Proc.writes_of {proc : Proc} {r : Sandbox} {v : Values}
    (h : proc.request.writes r = some v) : proc.Writes r v := by
  have hasks := proc.asks
  generalize proc.request = request at h hasks
  cases hasks <;>
    simp only [Request.writes, guard_eq_true, List.mem_singleton, Option.ite_none_right_eq_some,
      Option.some.injEq, reduceCtorEq] at h
  case markFailed =>
    obtain ⟨hid, rfl⟩ := h
    exact .markFailed _ _ _ _ _ hid
  case mark =>
    obtain ⟨⟨rfl, hst⟩, rfl⟩ := h
    exact .mark hst
  case expire =>
    obtain ⟨⟨rfl, hst⟩, rfl⟩ := h
    exact .expire _ _ hst
  case pickUp =>
    obtain ⟨⟨rfl, hst⟩, rfl⟩ := h
    exact .pickUp _ _ _ hst
  case retry =>
    obtain ⟨⟨rfl, hst⟩, rfl⟩ := h
    exact .retry _ _ _ hst
  case fail =>
    obtain ⟨⟨rfl, hst⟩, rfl⟩ := h
    exact .fail _ _ _ hst
  case succeed =>
    obtain ⟨⟨rfl, hst⟩, rfl⟩ := h
    exact .succeed _ _ _ _ hst
  case finish =>
    obtain ⟨⟨rfl, hst⟩, rfl⟩ := h
    exact .finish _ _ hst
  case settle =>
    obtain ⟨⟨hid, hst⟩, rfl⟩ := h
    exact .settle _ _ _ _ _ hid hst
  case vanish =>
    obtain ⟨⟨rfl, hst⟩, rfl⟩ := h
    exact .vanish _ _ _ hst
  case finishStops =>
    obtain ⟨⟨hst, hgone⟩, rfl⟩ := h
    exact .finishStops _ _ hst hgone

theorem Proc.writes_moves {proc : Proc} {r : Sandbox} {v : Values}
    (h : proc.request.writes r = some v) : moves proc.actor r.status v.status = true := by
  cases Proc.writes_of h with
  | markFailed => rfl
  | mark status => simp [actor, moves, status]
  | expire _ _ status => simp [actor, moves, status]
  | pickUp _ _ _ status => simp [actor, moves, status]
  | retry _ _ _ status => simp [actor, moves, status]
  | fail _ _ _ status => simp [actor, moves, status]
  | succeed _ _ _ _ status => simp [actor, moves, status]
  | finish _ _ status => simp [actor, moves, status]
  | settle _ _ _ _ _ _ status => simp [actor, moves, status]
  | vanish _ _ _ status => simp [actor, moves, status]
  | finishStops _ _ status => simp [actor, moves, status, activeStatuses]

/-! ## Rows only move forward -/

/-- Rows are never deleted, and what their client was told about them, and the key, stay. -/
structure Forward (r r' : Sandbox) : Prop where
  id : r'.id = r.id
  type : r'.type = r.type
  deployment : r'.deployment = r.deployment
  expiresAt : r'.expiresAt = r.expiresAt
  key : r'.idempotencyKey = r.idempotencyKey
  created : r'.createdAt = r.createdAt
  rank : r.status.rank ≤ r'.status.rank

theorem Forward.refl (r : Sandbox) : Forward r r := ⟨rfl, rfl, rfl, rfl, rfl, rfl, Nat.le_refl _⟩

theorem Forward.trans {r r' r'' : Sandbox} (h : Forward r r') (h' : Forward r' r'') :
    Forward r r'' :=
  ⟨h'.id.trans h.id, h'.type.trans h.type, h'.deployment.trans h.deployment,
    h'.expiresAt.trans h.expiresAt, h'.key.trans h.key, h'.created.trans h.created,
    Nat.le_trans h.rank h'.rank⟩

/-- Every row of one world is still there in the other, moved forward. -/
def RowsForward (w w' : World) : Prop :=
  ∀ sid r, w.row sid = some r → ∃ r', w'.row sid = some r' ∧ Forward r r'

theorem RowsForward.refl (w : World) : RowsForward w w := fun _ r h => ⟨r, h, .refl r⟩

theorem RowsForward.trans {w w' w'' : World} (h : RowsForward w w') (h' : RowsForward w' w'') :
    RowsForward w w'' := by
  intro sid r hr
  obtain ⟨r', hr', hf⟩ := h sid r hr
  obtain ⟨r'', hr'', hf'⟩ := h' sid r' hr'
  exact ⟨r'', hr'', hf.trans hf'⟩

theorem Proc.forward_of_rowChange {proc : Proc} {w : World} {sid : Uuid} {x : Option Sandbox}
    (h : RowChange w proc.request sid x) {r : Sandbox} (hr : w.row sid = some r) :
    ∃ r', x = some r' ∧ Forward r r' := by
  cases h with
  | same => exact ⟨r, hr, .refl r⟩
  | wrote r' v found writes =>
    obtain rfl : r = r' := Option.some.inj (hr.symm.trans found)
    exact ⟨_, rfl, rfl, rfl, rfl, rfl, rfl, rfl, moves_rank _ _ _ (Proc.writes_moves writes)⟩
  | inserted _ _ _ absent => cases hr.symm.trans absent

theorem Proc.forward_after (proc : Proc) (w : World) (how : How) (choice : Choice) :
    RowsForward w (w.after proc.actor how choice proc.request) :=
  fun _ _ hr => proc.forward_of_rowChange (rowChange_after ..) hr

theorem Stepped.forward {settings : Settings} {s t : State} {a : Action}
    (h : Stepped settings s t a) : RowsForward s.world t.world := by
  intro sid r hr
  rcases h.row sid with hsame | ⟨pid, how, choice, proc, -, -, hchange⟩
  · exact ⟨r, hsame.trans hr, .refl r⟩
  · exact proc.forward_of_rowChange hchange hr

theorem run_forward {settings : Settings} {s t : State} {as : List Action}
    (h : run settings s as = some t) : RowsForward s.world t.world :=
  LabelledRuns.always (I := fun t => RowsForward s.world t.world)
    (fun _ _ _ hm ht => hm.trans (stepped ht).forward) (.refl s.world) h

/-- The row exists and has come at least as far as `n`. -/
def World.Reached (w : World) (sid : Uuid) (n : Nat) : Prop :=
  ∃ r, w.row sid = some r ∧ n ≤ r.status.rank

theorem World.Reached.mono {w : World} {sid : Uuid} {m n : Nat} (h : w.Reached sid n) (hmn : m ≤ n) :
    w.Reached sid m := by
  obtain ⟨r, hr, hn⟩ := h
  exact ⟨r, hr, Nat.le_trans hmn hn⟩

theorem World.Reached.of_row {w : World} {sid : Uuid} {r : Sandbox} {n : Nat} (h : w.Reached sid n)
    (hr : w.row sid = some r) : n ≤ r.status.rank := by
  obtain ⟨r', hr', hn⟩ := h
  obtain rfl : r = r' := Option.some.inj (hr.symm.trans hr')
  exact hn

theorem World.Reached.forward {w w' : World} {sid : Uuid} {n : Nat} (h : w.Reached sid n)
    (hf : RowsForward w w') : w'.Reached sid n := by
  obtain ⟨r, hr, hn⟩ := h
  obtain ⟨r', hr', hr''⟩ := hf sid r hr
  exact ⟨r', hr', Nat.le_trans hn hr''.rank⟩

theorem World.status_eq_some {w : World} {sid : Uuid} {st : SandboxStatus} :
    w.status sid = some st ↔ ∃ r, w.row sid = some r ∧ r.status = st := by
  simp [World.status]

theorem World.status_of_changed {w : World} {actor : Actor} {how : How} {choice : Choice}
    {sid : Uuid} {from_ : List SandboxStatus} {v : Values} {st : SandboxStatus} {b : Bool}
    (lives : ∀ e r, how ≠ .killed e r) (hst : w.status sid = some st)
    (h : w.reply actor how choice (.transition sid from_ v) = .changed b) :
    b = decide (st ∈ from_) ∧
      (w.after actor how choice (.transition sid from_ v)).status sid =
        some (if st ∈ from_ then v.status else st) := by
  obtain ⟨hafter, hreply⟩ := World.after_of_reply lives h (by simp)
  obtain ⟨r, hr, rfl⟩ := World.status_eq_some.mp hst
  constructor
  · rw [World.perform, World.transition_reply] at hreply
    simpa [hr] using hreply.symm
  · have hrow := World.row_update w actor (guard sid from_) v sid
    rw [hr, Option.map_some] at hrow
    rw [hafter]
    change ((w.update actor (guard sid from_) v).1.row sid).map _ = _
    rw [hrow]
    by_cases hm : r.status ∈ from_ <;> simp [guard, World.row_id hr, hm, Values.apply]

end SandboxOrchestrator
