import SandboxOrchestrator.Provenance

/-!
# Deliveries and their container

The parts of a start delivery that matter to the container of its sandbox, and who can
remove a container or make a row `running`.
-/

namespace SandboxOrchestrator

set_option autoImplicit false

def StartPc.section : StartPc → Bool
  | .get => false
  | .expiryCheck _ => false
  | .expire => false
  | .pickUp _ => false
  | _ => true

def StartPc.holding : StartPc → Bool
  | .waitReady _ _ => true
  | .succeed _ _ => true
  | _ => false

def StartPc.removing : StartPc → Bool
  | .removeLeftover _ _ => true
  | .discardBroken _ => true
  | .discardUnwanted => true
  | _ => false

theorem StartPc.section_of_holding {pc : StartPc} (h : pc.holding = true) : pc.section = true := by
  cases pc <;> first | rfl | cases h

theorem StartPc.not_removing_of_holding {pc : StartPc} (h : pc.holding = true) :
    pc.removing = false := by
  cases pc <;> first | rfl | cases h

theorem StartPc.section_of_removing {pc : StartPc} (h : pc.removing = true) : pc.section = true := by
  cases pc <;> first | rfl | cases h

def Proc.inSection (sid : Uuid) : Proc → Bool
  | .start d => decide (d.sandboxId = sid) && d.pc.section
  | _ => false

theorem Proc.inSection_iff {sid : Uuid} {proc : Proc} :
    proc.inSection sid = true ↔ ∃ d, proc = .start d ∧ d.sandboxId = sid ∧ d.pc.section = true := by
  cases proc <;> simp [inSection]

def Proc.removes : Proc → Option Uuid
  | .start d => if d.pc.removing then some d.sandboxId else none
  | .stop d => if d.pc = .remove then some d.sandboxId else none
  | .sweep ⟨_, .remove _ c _ _⟩ => some c.sandboxId
  | _ => none

theorem Proc.removes_of_request {proc : Proc} {sid : Uuid}
    (h : proc.request = .remove sid ∨ ∃ n, proc.request = .removeObject sid n) :
    proc.removes = some sid := by
  rcases h with h | ⟨n, h⟩
  · cases Proc.asks_of h <;> simp [removes, StartPc.removing]
  · cases Proc.asks_of h
    simp [removes, StartPc.removing]

theorem Stepped.container_kept {settings : Settings} {s t : State} {a : Action} {sid : Uuid}
    (h : Stepped settings s t a) (hc : (s.world.container sid).isSome) :
    (t.world.container sid).isSome ∨ (a = .die sid ∧ .died sid ∈ t.world.log) ∨
      ∃ pid how choice proc, a = .await pid how choice ∧ s.proc pid = some proc ∧
        proc.removes = some sid := by
  rcases h.container sid with hsame | ⟨ha, hlog, -⟩ | ⟨pid, how, choice, proc, ha, hp, hchange⟩
  · exact .inl (hsame ▸ hc)
  · exact .inr (.inl ⟨ha, hlog⟩)
  · generalize t.world.container sid = x at hchange ⊢
    cases hchange with
    | same => exact .inl hc
    | removed cause => exact .inr (.inr ⟨pid, how, choice, proc, ha, hp, Proc.removes_of_request cause⟩)
    | created => exact .inl rfl
    | started => exact .inl rfl

theorem Proc.succeed_of_writes {proc : Proc} {r : Sandbox} {v : Values}
    (hw : proc.request.writes r = some v) (hv : v.status = .running) :
    r.status = .starting ∧
      ∃ d sandbox url, proc = .start d ∧ d.sandboxId = r.id ∧ d.pc = .succeed sandbox url := by
  cases Proc.writes_of hw with
  | succeed jobTry pool r₀ url status => exact ⟨status, _, _, _, rfl, rfl, rfl⟩
  | _ => cases hv

/-! ## A row becomes `running` -/

theorem Stepped.running {settings : Settings} {s t : State} {a : Action} {sid : Uuid}
    (h : Stepped settings s t a)
    (hins : ∀ pid proc r, s.proc pid = some proc → proc.request = .insert r → r.status ≠ .running)
    (ht : t.world.status sid = some .running) :
    s.world.status sid = some .running ∨
      s.world.status sid = some .starting ∧
        ∃ pid how choice d sandbox url, a = .await pid how choice ∧ s.proc pid = some (.start d) ∧
          d.sandboxId = sid ∧ d.pc = .succeed sandbox url ∧ t.proc pid = none := by
  obtain ⟨r', hr', hrun⟩ := World.status_eq_some.mp ht
  rcases h.row sid with hsame | ⟨pid, how, choice, proc, rfl, hp, hchange⟩
  · exact .inl (World.status_eq_some.mpr ⟨r', hsame ▸ hr', hrun⟩)
  · generalize hx : t.world.row sid = x at hchange
    rw [hx] at hr'
    cases hchange with
    | same => exact .inl (World.status_eq_some.mpr ⟨r', hr', hrun⟩)
    | wrote r v found writes =>
      cases hr'
      obtain ⟨hst, d, sandbox, url, rfl, hid, hpc⟩ := Proc.succeed_of_writes writes hrun
      refine .inr ⟨World.status_eq_some.mpr ⟨r, found, hst⟩, pid, how, choice, d, sandbox, url, rfl, hp,
        hid.trans (World.row_id found), hpc, ?_⟩
      cases hnone : t.proc pid with
      | none => rfl
      | some proc =>
        exfalso
        cases h.came hnone with
        | stayed _ other => exact other how choice rfl
        | spawned world drawn spawn => cases spawn
        | resumed how' choice' old events isAwait found' lives goes =>
          cases isAwait
          cases hp.symm.trans found'
          cases goes with
          | start d reply pc goes =>
            generalize hq : s.world.reply _ how choice _ = reply at goes
            rw [hpc] at goes
            cases goes with
            | unwanted =>
              have hreq : (Proc.start d).request = .transition d.sandboxId [.starting]
                  { status := .running, url := some (some url), error := some none } := by
                simp [Proc.request, StartSandbox.request, hpc]
              rw [hreq, hid] at hq
              have hno := World.changed_false lives hq ((World.row_id found).symm ▸ found)
              simp [hst] at hno
            | launchFailed pc reply e launching => cases launching
    | inserted r isInsert =>
      cases hr'
      exact absurd hrun (hins pid proc r hp isInsert)

/-! ## A delivery enters its section and gets hold of the container -/

theorem StartSandbox.section_of_goes {settings : Settings} {d : StartSandbox} {pc pc' : StartPc}
    {reply : Reply} (h : d.Goes settings pc reply pc') (hs : pc'.section = true) :
    pc.section = true ∨ ∃ r, pc = .pickUp r ∧ reply = .changed true := by
  cases h with
  | pickedUp r => exact .inr ⟨r, rfl, rfl⟩
  | startable => cases hs
  | late => cases hs
  | inTime => cases hs
  | launchFailed pc reply e launching => left; cases pc <;> first | rfl | cases launching
  | _ => exact .inl rfl

theorem World.isSome_of_inspect {w : World} {actor : Actor} {how : How} {choice : Choice}
    {sid : Uuid} {x : Nat × Bool} (lives : ∀ e r, how ≠ .killed e r)
    (h : w.reply actor how choice (.inspect sid) = .object (some x)) :
    ((w.after actor how choice (.inspect sid)).container sid).isSome := by
  obtain ⟨hafter, hreply⟩ := World.after_of_reply lives h (by simp)
  rw [hafter]
  simp only [World.perform, Reply.object.injEq, Option.map_eq_some_iff] at hreply ⊢
  obtain ⟨c, hc, -⟩ := hreply
  simp [hc]

theorem World.isSome_of_create {w : World} {actor : Actor} {how : How} {choice : Choice}
    {sid : Uuid} {t : Time} {reply : Reply} (lives : ∀ e r, how ≠ .killed e r)
    (h : w.reply actor how choice (.create sid t) = reply) (hr : ∀ e, reply ≠ .raised e) :
    ((w.after actor how choice (.create sid t)).container sid).isSome := by
  obtain ⟨hafter, -⟩ := World.after_of_reply lives h hr
  rw [hafter]
  simp only [World.perform, World.createContainer]
  split
  · rename_i cs hcs
    change (cs.find? sid).isSome
    rw [KeyedTable.find?_insert hcs, if_pos rfl]
    rfl
  · rename_i hnone
    rcases (KeyedTable.insert_eq_none_iff _ _).mp hnone with hk | ⟨i, hi, -⟩
    · exact hk
    · cases hi

theorem World.isSome_of_reload {w : World} {actor : Actor} {how : How} {choice : Choice}
    {sid : Uuid} {n : Nat} {p : Option Nat} (lives : ∀ e r, how ≠ .killed e r)
    (h : w.reply actor how choice (.reload sid n) = .port p) :
    ((w.after actor how choice (.reload sid n)).container sid).isSome := by
  obtain ⟨hafter, hreply⟩ := World.after_of_reply lives h (by simp)
  rw [hafter]
  cases hobject : w.object sid n with
  | none => simp [World.perform, hobject] at hreply
  | some c =>
    obtain ⟨hc, -⟩ := World.object_eq_some hobject
    simp [World.perform, hobject, hc]

theorem World.isSome_after {w : World} {actor : Actor} {how : How} {choice : Choice} {q : Request}
    {sid : Uuid} (hr : ¬(q = .remove sid ∨ ∃ n, q = .removeObject sid n))
    (hc : ∀ t, q ≠ .create sid t) :
    ((w.after actor how choice q).container sid).isSome = (w.container sid).isSome := by
  have hchange := containerChange_after w actor how choice q sid
  generalize (w.after actor how choice q).container sid = x at hchange ⊢
  cases hchange with
  | same => rfl
  | removed cause => exact absurd cause hr
  | created t isCreate => exact absurd isCreate (hc t)
  | started n port c isStart found => simp [found]

theorem StartSandbox.holding_goes {settings : Settings} {d : StartSandbox} {w : World} {how : How}
    {choice : Choice} {pc : StartPc} (lives : ∀ e r, how ≠ .killed e r)
    (h : d.Goes settings d.pc (w.reply .startSandbox how choice d.request) pc)
    (hp : pc.holding = true) :
    ((w.after .startSandbox how choice d.request).container d.sandboxId).isSome ∨
      d.pc.holding = true ∧
        ((w.after .startSandbox how choice d.request).container d.sandboxId).isSome =
          (w.container d.sandboxId).isSome := by
  generalize hq : w.reply _ how choice _ = reply at h
  obtain ⟨sid, jobTry, pool, pc₀⟩ := d
  cases h with
  | bound r n p => exact .inl (World.isSome_of_reload lives hq)
  | ready r p => exact .inr ⟨rfl, World.isSome_after (by simp [request]) (by simp [request])⟩
  | _ => cases hp

def picksUp (sid : Uuid) (s : State) : Action → Bool
  | .await pid .ok _ =>
    match s.proc pid with
    | some (.start ⟨id, _, _, .pickUp _⟩) =>
      decide (id = sid) && (s.world.row sid).any fun r => decide (r.status ∈ startable)
    | _ => false
  | _ => false

theorem picksUp_status {sid : Uuid} {s : State} {a : Action} (h : picksUp sid s a = true) :
    ∃ r, s.world.row sid = some r ∧ r.status ∈ startable := by
  unfold picksUp at h
  split at h
  · split at h
    · simp only [Bool.and_eq_true, Option.any_eq_true, decide_eq_true_eq] at h
      exact h.2
    · cases h
  · cases h

theorem Came.inSection {settings : Settings} {s t : State} {a : Action} {sid : Uuid} {p : Nat}
    {proc : Proc} (h : Came settings s t a p proc) (hs : proc.inSection sid = true) :
    (∃ old, s.proc p = some old ∧ old.inSection sid = true) ∨
      picksUp sid s a = true ∧ ∃ choice, a = .await p .ok choice := by
  cases h with
  | stayed found => exact .inl ⟨proc, found, hs⟩
  | spawned world drawn spawn =>
    obtain ⟨d, rfl, -, hsec⟩ := Proc.inSection_iff.mp hs
    obtain ⟨job, -, -, rfl⟩ := spawn.of_start
    cases hsec
  | resumed how choice old events isAwait found lives goes =>
    obtain ⟨d', rfl, hid, hsec⟩ := Proc.inSection_iff.mp hs
    obtain ⟨d, pc, rfl, rfl, hgoes⟩ := goes.of_start
    rcases StartSandbox.section_of_goes hgoes hsec with hold | ⟨r, hpc, hreply⟩
    · exact .inl ⟨_, found, Proc.inSection_iff.mpr ⟨d, rfl, hid, hold⟩⟩
    · right
      have hreq : (Proc.start d).request =
          .transition d.sandboxId startable { status := .starting, attempts := some d.jobTry } := by
        simp [Proc.request, StartSandbox.request, hpc]
      rw [hreq] at hreply
      obtain ⟨r', hr', hst, -⟩ := World.changed_true lives hreply
      rcases s.world.reply_eq _ how choice _ lives with ⟨rfl, -⟩ | ⟨e, b, rfl, hraised⟩
      · refine ⟨?_, choice, isAwait⟩
        subst isAwait hid
        obtain ⟨id, jobTry, pool, pc₀⟩ := d
        subst hpc
        simp only [picksUp, found, decide_true, Bool.true_and, Option.any_eq_true,
          decide_eq_true_eq]
        exact ⟨r', hr', hst⟩
      · cases hreply.symm.trans hraised

/-- The calls that leave every row in its status and every container in or out of place. -/
def Request.quiet : Request → Bool
  | .get _ => true
  | .clock => true
  | .getWeight => true
  | .enqueue _ => true
  | .inspect _ => true
  | .startObject _ _ => true
  | .reload _ _ => true
  | .probe => true
  | _ => false

theorem World.quiet_after {w : World} {actor : Actor} {how : How} {choice : Choice} {q : Request}
    {sid : Uuid} (h : q.quiet = true) :
    (w.after actor how choice q).status sid = w.status sid ∧
      ((w.after actor how choice q).container sid).isSome = (w.container sid).isSome := by
  refine ⟨World.status_after (fun r => ?_) (fun r hr => ?_),
    World.isSome_after (fun hr => ?_) (fun t hc => ?_)⟩
  · cases q <;> first | rfl | cases h
  · cases hr
    cases h
  · rcases hr with rfl | ⟨n, rfl⟩ <;> cases h
  · subst hc
    cases h

end SandboxOrchestrator
