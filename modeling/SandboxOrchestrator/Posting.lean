import SandboxOrchestrator.History

/-!
# One POST for each row

The insert of a row succeeds once, so at most one POST is ever past it. That POST
enqueues the start job at most once and fails its row at most once.
-/

namespace SandboxOrchestrator

set_option autoImplicit false

def CreateSandbox.committed (c : CreateSandbox) : Bool :=
  match c.pc with
  | .enqueue _ => true
  | .enqueueFailed _ _ => true
  | _ => false

def isStartOf (sid : Uuid) : Event → Bool
  | .placed job => decide (job.task = .startSandbox) && decide (job.sandboxId = sid)
  | _ => false

structure Posting (s : State) : Prop where
  sole : ∀ p q c d, s.proc p = some (.create c) → s.proc q = some (.create d) →
    c.committed = true → d.committed = true → c.sandboxId = d.sandboxId → p = q
  failed : ∀ p c old new at_, s.proc p = some (.create c) → c.committed = true →
    .wrote .createSandbox c.sandboxId old new at_ ∉ s.world.log
  placed : ∀ sid, s.world.log.countP (isStartOf sid) ≤ 1
  unplaced : ∀ p c r, s.proc p = some (.create c) → c.pc = .enqueue r →
    s.world.log.countP (isStartOf c.sandboxId) = 0

theorem posting_init (now : Time) (containers : Containers) (nextObject : Nat) :
    Posting (State.init now containers nextObject) where
  sole _ _ _ _ h := by cases h
  failed _ _ _ _ _ h := by cases h
  placed _ := Nat.zero_le 1
  unplaced _ _ _ h := by cases h

theorem CreateSandbox.row_of_committed {c : CreateSandbox} {w : World} (hk : c.Known w)
    (hc : c.committed = true) : ∃ r, w.row c.sandboxId = some r := by
  obtain ⟨body, key, sid, pc⟩ := c
  cases pc with
  | enqueue r =>
    obtain ⟨⟨hid, -⟩, r', hr', -⟩ := hk
    exact ⟨r', hid ▸ hr'⟩
  | enqueueFailed r e =>
    obtain ⟨⟨hid, -⟩, r', hr', -⟩ := hk
    exact ⟨r', hid ▸ hr'⟩
  | _ => cases hc

theorem Proc.create_of_enqueue {proc : Proc} {w : World} {job : Job} {sid : Uuid} (hk : proc.Known w)
    (hq : proc.request = .enqueue job) (hj : isStartOf sid (.placed job) = true) :
    ∃ c r, proc = .create c ∧ c.pc = .enqueue r ∧ c.sandboxId = sid := by
  simp only [isStartOf, Bool.and_eq_true, decide_eq_true_eq] at hj
  obtain ⟨htask, hid⟩ := hj
  cases Proc.asks_of hq with
  | enqueueStart body key sid' r =>
    obtain ⟨⟨hr, -⟩, -⟩ := hk
    exact ⟨_, _, rfl, rfl, hr.symm.trans hid⟩
  | enqueueStop => cases htask

theorem Proc.create_of_writes {proc : Proc} {w : World} {r : Sandbox} {v : Values}
    (hk : proc.Known w) (hw : proc.request.writes r = some v) (ha : proc.actor = .createSandbox) :
    ∃ c r' e, proc = .create c ∧ c.pc = .enqueueFailed r' e ∧ c.sandboxId = r.id := by
  cases Proc.writes_of hw with
  | markFailed body key sid r₀ e hid =>
    obtain ⟨⟨hr, -⟩, -⟩ := hk
    exact ⟨_, _, _, rfl, rfl, hr.symm.trans hid.symm⟩
  | _ => cases ha

theorem Came.committed {settings : Settings} {s t : State} {a : Action} {p : Nat}
    {c : CreateSandbox} (h : Came settings s t a p (.create c)) (hp : Provenance s)
    (hc : c.committed = true) :
    (s.proc p = some (.create c) ∧ ∀ how choice, a ≠ .await p how choice) ∨
      (∃ how choice c₀ r, a = .await p how choice ∧ s.proc p = some (.create c₀) ∧
        c₀.pc = .enqueue r ∧ c₀.sandboxId = c.sandboxId ∧ ∀ r', c.pc ≠ .enqueue r') ∨
      ∃ how choice c₀ r, a = .await p how choice ∧ s.proc p = some (.create c₀) ∧
        c₀.pc = .insert r ∧ s.world.row c.sandboxId = none := by
  cases h with
  | stayed found other => exact .inl ⟨found, other⟩
  | spawned world drawn spawn absent =>
    obtain ⟨body, key, sid, -, rfl, -⟩ := spawn.of_create
    cases key <;> cases hc
  | resumed how choice old events isAwait found lives goes world_eq =>
    right
    have hk := hp.procs p old found
    obtain ⟨c₀, pc, rfl, rfl, hgoes⟩ := goes.of_create
    generalize hq : s.world.reply _ how choice _ = reply at hgoes
    generalize hpc : c₀.pc = pc₀ at hgoes
    cases hgoes with
    | inserted r =>
      have hreq : (Proc.create c₀).request = .insert r := by
        simp [Proc.request, CreateSandbox.request, hpc]
      rw [hreq] at hq
      obtain ⟨-, hreply⟩ := World.after_of_reply lives hq (by simp)
      simp only [World.perform] at hreply
      split at hreply
      · rename_i sandboxes hs
        refine .inr ⟨how, choice, c₀, r, isAwait, found, hpc, ?_⟩
        obtain ⟨hid, -⟩ : c₀.Drafted r := by
          simpa only [Proc.Known, CreateSandbox.Known, hpc] using hk
        have hfree := KeyedTable.find?_of_insert hs
        simpa only [World.row, ← hid] using hfree
      · cases hreply
    | enqueueFailed r e =>
      exact .inl ⟨how, choice, c₀, r, isAwait, found, hpc, rfl, by simp⟩
    | _ => cases hc

theorem countP_called {s t : State} {proc : Proc} {how : How} {choice : Choice} {own : List Event}
    {sid : Uuid} (hown : ∀ e ∈ own, e.byCall = false)
    (hlog : t.world.log = own ++ (s.worldAfter proc how choice).log) :
    t.world.log.countP (isStartOf sid) = s.world.log.countP (isStartOf sid) ∨
      ∃ job, proc.request = .enqueue job ∧ isStartOf sid (.placed job) = true ∧
        t.world.log.countP (isStartOf sid) = s.world.log.countP (isStartOf sid) + 1 := by
  have hzero : own.countP (isStartOf sid) = 0 := by
    rw [List.countP_eq_zero]
    intro e he
    have := hown e he
    cases e <;> simp_all [isStartOf, Event.byCall]
  rw [hlog, List.countP_append, hzero, Nat.zero_add]
  exact World.countP_after fun _ _ _ _ _ => rfl

/-! ## One step -/

section

variable {settings : Settings} {s t : State} {a : Action}

theorem CreateSandbox.committed_of_enqueue {c : CreateSandbox} {r : Sandbox}
    (hpc : c.pc = .enqueue r) : c.committed = true := by
  simp [committed, hpc]

theorem Posting.sole_step (hs : Posting s) (hk : Provenance s) (hst : Stepped settings s t a)
    {p q : Nat} {c d : CreateSandbox} (hp : t.proc p = some (.create c))
    (hq : t.proc q = some (.create d)) (hc : c.committed = true) (hd : d.committed = true)
    (hid : c.sandboxId = d.sandboxId) : p = q := by
  have hrow : ∀ {p c}, s.proc p = some (.create c) → c.committed = true →
      s.world.row c.sandboxId ≠ none := by
    intro p c hp hc hnone
    obtain ⟨r, hr⟩ := CreateSandbox.row_of_committed (hk.procs p _ hp) hc
    cases hnone.symm.trans hr
  rcases (hst.came hp).committed hk hc with
    ⟨hp, -⟩ | ⟨how, choice, c₀, r, rfl, hp, hpc, hcid, -⟩ | ⟨how, choice, c₀, r, rfl, hp, -, hnone⟩ <;>
  rcases (hst.came hq).committed hk hd with
    ⟨hq, -⟩ | ⟨how', choice', d₀, r', ha, hq, hqc, hdid, -⟩ | ⟨how', choice', d₀, r', ha, hq, -, hnone'⟩
  · exact hs.sole p q c d hp hq hc hd hid
  · exact hs.sole p q c d₀ hp hq hc (CreateSandbox.committed_of_enqueue hqc) (hid.trans hdid.symm)
  · exact absurd (hid ▸ hnone') (hrow hp hc)
  · exact hs.sole p q c₀ d hp hq (CreateSandbox.committed_of_enqueue hpc) hd (hcid.trans hid)
  · cases ha; rfl
  · cases ha; rfl
  · exact absurd (hid ▸ hnone) (hrow hq hd)
  · cases ha; rfl
  · cases ha; rfl

theorem Posting.failed_step (hs : Posting s) (hk : Provenance s) (hh : History s)
    (hst : Stepped settings s t a) {p : Nat} {c : CreateSandbox} {old new : SandboxStatus} {at_ : Time}
    (hp : t.proc p = some (.create c)) (hc : c.committed = true) :
    .wrote .createSandbox c.sandboxId old new at_ ∉ t.world.log := by
  intro he
  rcases hst.logChange.mem rfl he with
    hold | ⟨q, how', choice', proc, ha, hq, ⟨j, -, he'⟩ | ⟨r, v, -, hw, -, he'⟩⟩
  · rcases (hst.came hp).committed hk hc with
      ⟨hp, -⟩ | ⟨how, choice, c₀, r, -, hp, hpc, hcid, -⟩ | ⟨-, -, -, -, -, -, -, hnone⟩
    · exact hs.failed p c old new at_ hp hc hold
    · exact hs.failed p c₀ old new at_ hp (CreateSandbox.committed_of_enqueue hpc) (hcid ▸ hold)
    · obtain ⟨r, hr, -⟩ := (hh.moves _ _ _ _ _ hold).2
      cases hnone.symm.trans hr
  · cases he'
  · injection he' with hactor hid
    obtain ⟨d, r', e, rfl, hdpc, hdid⟩ := Proc.create_of_writes (hk.procs q proc hq) hw hactor.symm
    have hd : d.committed = true := by simp [CreateSandbox.committed, hdpc]
    rcases (hst.came hp).committed hk hc with
      ⟨hp, hother⟩ | ⟨how, choice, c₀, r₀, hb, hp, hpc, -, -⟩ |
        ⟨how, choice, c₀, r₀, hb, hp, hpc, -⟩
    · obtain rfl := hs.sole p q c d hp hq hc hd (hid.trans hdid.symm)
      exact hother _ _ ha
    · cases ha.symm.trans hb
      cases hq.symm.trans hp
      cases hdpc.symm.trans hpc
    · cases ha.symm.trans hb
      cases hq.symm.trans hp
      cases hdpc.symm.trans hpc

theorem Posting.placed_step (hs : Posting s) (hk : Provenance s) (hst : Stepped settings s t a)
    (sid : Uuid) : t.world.log.countP (isStartOf sid) ≤ 1 := by
  cases hst.logChange with
  | same log_eq => exact log_eq ▸ hs.placed sid
  | died id log_eq => rw [log_eq, List.countP_cons_of_neg (by simp [isStartOf])]; exact hs.placed sid
  | called q how choice proc own isAwait found own_byCall log_eq =>
    rcases countP_called own_byCall log_eq with heq | ⟨job, hq, hj, heq⟩
    · exact heq ▸ hs.placed sid
    · obtain ⟨c, r, rfl, hpc, rfl⟩ := Proc.create_of_enqueue (hk.procs q proc found) hq hj
      have := hs.unplaced q c r found hpc
      omega

theorem Provenance.unplaced_of_none (hk : Provenance s) {sid : Uuid} (hnone : s.world.row sid = none) :
    s.world.log.countP (isStartOf sid) = 0 := by
  by_contra hne
  obtain ⟨e, he, hst⟩ := List.countP_pos_iff.mp (Nat.pos_of_ne_zero hne)
  cases e <;> simp only [isStartOf, Bool.and_eq_true, decide_eq_true_eq, reduceCtorEq] at hst
  obtain ⟨r, hr, -⟩ := hk.placed _ he
  rw [hst.2] at hr
  cases hnone.symm.trans hr

theorem Posting.unplaced_step (hs : Posting s) (hk : Provenance s) (hst : Stepped settings s t a)
    {p : Nat} {c : CreateSandbox} {r : Sandbox} (hp : t.proc p = some (.create c))
    (hpc : c.pc = .enqueue r) : t.world.log.countP (isStartOf c.sandboxId) = 0 := by
  have henq := CreateSandbox.committed_of_enqueue hpc
  have hzero : s.world.log.countP (isStartOf c.sandboxId) = 0 := by
    rcases (hst.came hp).committed hk henq with
      ⟨hp, -⟩ | ⟨-, -, -, -, -, -, -, -, hne⟩ | ⟨-, -, -, -, -, -, -, hnone⟩
    · exact hs.unplaced p c r hp hpc
    · exact absurd hpc (hne r)
    · exact hk.unplaced_of_none hnone
  cases hst.logChange with
  | same log_eq => exact log_eq ▸ hzero
  | died id log_eq => rw [log_eq, List.countP_cons_of_neg (by simp [isStartOf])]; exact hzero
  | called q how choice proc own isAwait found own_byCall log_eq =>
    rcases countP_called own_byCall log_eq with heq | ⟨job, hq, hj, heq⟩
    · exact heq.trans hzero
    · obtain ⟨d, r', rfl, hdpc, hdid⟩ := Proc.create_of_enqueue (hk.procs q proc found) hq hj
      rcases (hst.came hp).committed hk henq with
        ⟨hp, hother⟩ | ⟨-, -, -, -, -, -, -, -, hne⟩ | ⟨_, _, c₀, r₀, hb, hp, hc₀, -⟩
      · obtain rfl := hs.sole p q c d hp found henq (CreateSandbox.committed_of_enqueue hdpc) hdid.symm
        exact absurd isAwait (hother _ _)
      · exact absurd hpc (hne r)
      · cases isAwait.symm.trans hb
        cases found.symm.trans hp
        cases hdpc.symm.trans hc₀

theorem posting_step (hk : Provenance s) (hh : History s) (hs : Posting s)
    (h : step settings s a = some t) : Posting t where
  sole _ _ _ _ hp hq hc hd hid := hs.sole_step hk (stepped h) hp hq hc hd hid
  failed _ _ _ _ _ hp hc := hs.failed_step hk hh (stepped h) hp hc
  placed := hs.placed_step hk (stepped h)
  unplaced _ _ _ hp hpc := hs.unplaced_step hk (stepped h) hp hpc

end

structure Grounded (s : State) : Prop where
  provenance : Provenance s
  history : History s
  posting : Posting s

theorem grounded_init (now : Time) (containers : Containers) (nextObject : Nat) :
    Grounded (State.init now containers nextObject) :=
  ⟨provenance_init now containers nextObject, history_init now containers nextObject,
    posting_init now containers nextObject⟩

theorem grounded_step {settings : Settings} {s t : State} {a : Action} (hs : Grounded s)
    (h : step settings s a = some t) : Grounded t :=
  ⟨provenance_step hs.provenance h, history_step hs.provenance hs.history h,
    posting_step hs.provenance hs.history hs.posting h⟩

end SandboxOrchestrator
