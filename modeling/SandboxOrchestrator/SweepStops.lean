import SandboxOrchestrator.Vanished

/-!
# When a sweep declares a sandbox stopped

A sweep writes `stopped` to the row of a container it removed a call ago, and at its end
to every stopping row it did not list a container for. By then a delivery may have put a
container there, or the thread that a launch has left over. `doomed` rows are the ones the
sweep will write, `unattended` containers the ones that no delivery will discard; the sweep is
right as long as nothing brings the two together.
-/

namespace SandboxOrchestrator

set_option autoImplicit false

def SweepPc.listed : SweepPc → Option (List RuntimeSandbox)
  | .statuses _ cs => some cs
  | .clock _ cs _ => some cs
  | .remove v _ _ _ => some v.containers
  | .settle v _ _ _ => some v.containers
  | .vanish v _ _ => some v.containers
  | .finishStops v => some v.containers
  | _ => none

/-- The sweep has listed the containers and found none of `sid`. -/
def Proc.overlooks (sid : Uuid) : Proc → Bool
  | .sweep p => p.pc.listed.any fun cs => decide (sid ∉ cs.map (·.sandboxId))
  | _ => false

/-- The delivery removes the container before it ends, unless it gets the row `running`. -/
def StartPc.discards (pc : StartPc) : Bool := pc.launching || pc.removing ||
  match pc with
  | .succeed _ _ => true
  | _ => false

def Proc.willDiscard (sid : Uuid) : Proc → Bool
  | .start d => decide (d.sandboxId = sid) && d.pc.discards
  | _ => false

def State.has (s : State) (f : Proc → Bool) : Bool := s.procs.rows.any fun e => f e.2

def doomed (sid : Uuid) (s : State) : Bool :=
  s.has (Proc.settling sid) ||
    (s.has (Proc.overlooks sid) && decide (s.world.status sid = some .stopping))

/-- There is a container that no delivery in flight will discard. -/
def unattended (sid : Uuid) (s : State) : Bool :=
  (s.world.container sid).isSome && !s.has (Proc.willDiscard sid)

/-- No DELETE marks a sandbox that a sweep has overlooked and whose container is unattended. -/
def marksAttended (s : State) : Action → Bool
  | .await pid how _ =>
    match s.proc pid with
    | some (.delete ⟨sid, .mark⟩) =>
      !(how.effect && (s.world.row sid).any (fun r => decide (r.status ∈ activeStatuses)) &&
        s.has (Proc.overlooks sid) && unattended sid s)
    | _ => true
  | _ => true

/-- The delivery stops being one that will discard the container. -/
def StartSandbox.abandons (w : World) (d : StartSandbox) : How → Bool
  | .ok =>
    match d.pc with
    | .succeed _ _ => decide (w.status d.sandboxId = some .starting)
    | _ => false
  | .raises _ effect =>
    match d.pc with
    | .succeed _ _ => true
    | .discardBroken _ => !effect
    | .discardUnwanted => !effect
    | _ => false
  | .killed _ _ => true

/-- No delivery abandons a container, the last one to attend to it, while a sweep is about
to stop its row. -/
def leavesAttended (s : State) : Action → Bool
  | .await pid how choice =>
    match s.proc pid with
    | some (.start d) =>
      !(d.pc.discards && d.abandons s.world how && doomed d.sandboxId s &&
        ((s.worldAfter (.start d) how choice).container d.sandboxId).isSome &&
        !s.procs.rows.any fun e => decide (e.1 ≠ pid) && e.2.willDiscard d.sandboxId)
    | _ => true
  | _ => true

def Attended (s : State) (a : Action) (_ : State) : Prop :=
  marksAttended s a = true ∧ leavesAttended s a = true

instance (s : State) (a : Action) (t : State) : Decidable (Attended s a t) :=
  inferInstanceAs (Decidable (_ ∧ _))

/-- What a sweep moves to `stopped` has no container, or a delivery will discard it. -/
def StopsGone (s : State) (a : Action) (t : State) : Prop :=
  ∀ pid how choice p sid, a = .await pid how choice → s.proc pid = some (.sweep p) →
    s.world.status sid ≠ some .stopped → t.world.status sid = some .stopped →
    unattended sid t = false

/-- A delivery that will discard the container of a stopped row does, unless its call fails. -/
def DiscardsDone (s : State) (a : Action) (t : State) : Prop :=
  ∀ pid choice d, a = .await pid .ok choice → s.proc pid = some (.start d) →
    d.pc.discards = true → s.world.status d.sandboxId = some .stopped →
    t.has (Proc.willDiscard d.sandboxId) = true ∨ t.world.container d.sandboxId = none

theorem State.has_iff {s : State} {f : Proc → Bool} :
    s.has f = true ↔ ∃ p x, s.proc p = some x ∧ f x = true := by
  simp only [has, List.any_eq_true]
  constructor
  · rintro ⟨⟨p, x⟩, hmem, hf⟩
    exact ⟨p, x, State.mem_procs_iff.mp hmem, hf⟩
  · rintro ⟨p, x, hp, hf⟩
    exact ⟨(p, x), State.mem_procs_iff.mpr hp, hf⟩

theorem unattended_eq_false {sid : Uuid} {s : State} :
    unattended sid s = false ↔
      s.world.container sid = none ∨ s.has (Proc.willDiscard sid) = true := by
  cases hc : s.world.container sid <;> cases hd : s.has (Proc.willDiscard sid) <;>
    simp [unattended, hc, hd]

theorem Proc.willDiscard_iff {sid : Uuid} {proc : Proc} :
    proc.willDiscard sid = true ↔ ∃ d, proc = .start d ∧ d.sandboxId = sid ∧ d.pc.discards = true := by
  cases proc <;> simp [willDiscard]

/-! ## How a container loses its delivery -/

theorem StartSandbox.discards_of_goes {settings : Settings} {d : StartSandbox} {pc pc' : StartPc}
    {reply : Reply} (h : d.Goes settings pc reply pc') (hl : pc.launching = true) :
    pc'.discards = true := by
  cases h <;> first | rfl | cases hl

/-- A delivery that does not abandon the container still will discard it, or has. -/
theorem discards_step {settings : Settings} {s t : State} {pid : Nat} {how : How} {choice : Choice}
    {d : StartSandbox} (h : Stepped settings s t (.await pid how choice))
    (hp : s.proc pid = some (.start d)) (hd : d.pc.discards = true)
    (ha : d.abandons s.world how = false) :
    t.has (Proc.willDiscard d.sandboxId) = true ∨ t.world.container d.sandboxId = none := by
  have hlives : ∀ e r, how ≠ .killed e r := by
    rintro e r rfl
    cases ha
  have hremoved : d.request = .remove d.sandboxId → how.effect = true →
      t.world.container d.sandboxId = none := by
    intro hq he
    rw [(h.called hp).2, State.worldAfter, World.after, if_pos he]
    simp [Proc.request, hq, World.perform, World.container_removeContainer]
  have hheld : ∀ {pc}, t.proc pid = some (.start { d with pc := pc }) → pc.discards = true →
      t.has (Proc.willDiscard d.sandboxId) = true := fun ht hpc =>
    State.has_iff.mpr ⟨pid, _, ht, Proc.willDiscard_iff.mpr ⟨_, rfl, rfl, hpc⟩⟩
  by_cases hl : d.pc.launching = true
  · left
    rcases h.lived hlives hp with ⟨proc', goes, ht⟩ | ⟨outcome, ends, -⟩
    · cases goes with
      | start d reply pc goes => exact hheld ht (StartSandbox.discards_of_goes goes hl)
    · cases ends with
      | start d reply counted outcome ends =>
        generalize s.world.reply _ how choice _ = reply at ends
        generalize d.pc = pc at ends hl
        cases ends with
        | raised pc e other => simp [StartPc.handles, hl] at other
        | _ => cases hl
  · cases hpc : d.pc with
    | discardBroken reason =>
      refine .inr (hremoved (by simp [StartSandbox.request, hpc]) ?_)
      cases how with
      | ok => rfl
      | raises e effect => simpa [StartSandbox.abandons, hpc, How.effect] using ha
      | killed e r => cases ha
    | discardUnwanted =>
      refine .inr (hremoved (by simp [StartSandbox.request, hpc]) ?_)
      cases how with
      | ok => rfl
      | raises e effect => simpa [StartSandbox.abandons, hpc, How.effect] using ha
      | killed e r => cases ha
    | succeed r url =>
      cases how with
      | ok =>
        have hst : s.world.status d.sandboxId ≠ some .starting := by
          simpa [StartSandbox.abandons, hpc] using ha
        have hreply : (s.world.perform .startSandbox choice d.request).2 = .changed false := by
          simp only [StartSandbox.request, hpc, World.perform, World.transition_reply]
          simpa [World.status] using hst
        rcases h.ok hp with ⟨proc', goes, ht⟩ | ⟨outcome, ends, -⟩
        · cases goes with
          | start d reply pc goes =>
            have hreply' : (s.world.perform (Proc.start d).actor choice (Proc.start d).request).2 =
              .changed false := hreply
            rw [hreply', hpc] at goes
            cases goes with
            | unwanted => exact .inl (hheld ht rfl)
            | launchFailed _ _ e launching => cases launching
        · cases ends with
          | start d reply counted outcome ends =>
            have hreply' : (s.world.perform (Proc.start d).actor choice (Proc.start d).request).2 =
              .changed false := hreply
            rw [hreply', hpc] at ends
            cases ends
      | raises e effect => simp [StartSandbox.abandons, hpc] at ha
      | killed e r => cases ha
    | _ =>
      rw [hpc] at hd hl
      first | exact absurd rfl hl | cases hd

/-- A container keeps its delivery unless that delivery abandons it. -/
theorem attended_step {settings : Settings} {s t : State} {a : Action} {sid : Uuid}
    (h : Stepped settings s t a) (hs : unattended sid s = false)
    (ha : ∀ pid how choice d, a = .await pid how choice → s.proc pid = some (.start d) →
      leavesAttended s a = true ∧ doomed sid s = true) :
    unattended sid t = false := by
  rw [unattended_eq_false]
  by_cases hown : ∃ pid how choice d, a = .await pid how choice ∧ s.proc pid = some (.start d) ∧
      d.sandboxId = sid ∧ d.pc.discards = true
  · obtain ⟨pid, how, choice, d, rfl, hp, rfl, hd⟩ := hown
    obtain ⟨hleaves, hdoomed⟩ := ha pid how choice d rfl hp
    cases hab : d.abandons s.world how with
    | false => exact (discards_step h hp hd hab).symm
    | true =>
      simp only [leavesAttended, hp, hd, hab, hdoomed, Bool.and_self, Bool.true_and,
        Bool.not_eq_true', Bool.and_eq_false_iff, Bool.not_eq_false'] at hleaves
      rcases hleaves with hnone | hother
      · left
        rw [(h.called hp).2]
        simpa using hnone
      · obtain ⟨⟨q, x⟩, hmem, hx⟩ := List.any_eq_true.mp hother
        simp only [Bool.and_eq_true, decide_eq_true_eq] at hx
        refine .inr (State.has_iff.mpr ⟨q, x, h.proc_stays (State.mem_procs_iff.mp hmem) ?_, hx.2⟩)
        rintro how' choice' ha
        cases ha
        exact hx.1 rfl
  · rcases unattended_eq_false.mp hs with hnone | hhas
    · left
      rcases h.container sid with hsame | ⟨-, -, hdied⟩ | ⟨pid, how, choice, proc, rfl, hp, hchange⟩
      · simpa [hnone] using hsame
      · exact hdied
      · generalize t.world.container sid = x at hchange ⊢
        cases hchange with
        | same => exact hnone
        | removed cause => rfl
        | created time isCreate absent =>
          obtain ⟨d, rfl, hid, r, hpc⟩ := Proc.start_of_create isCreate
          exact absurd ⟨pid, how, choice, d, rfl, hp, hid, by simp [hpc, StartPc.discards,
            StartPc.launching]⟩ hown
        | started n port c isStart found => cases hnone.symm.trans found
    · right
      obtain ⟨q, x, hq, hx⟩ := State.has_iff.mp hhas
      obtain ⟨d, rfl, hid, hd⟩ := Proc.willDiscard_iff.mp hx
      exact State.has_iff.mpr ⟨q, _, h.proc_stays hq fun how choice ha =>
        hown ⟨q, how, choice, d, ha, hq, hid, hd⟩, hx⟩

/-! ## How a row becomes doomed -/

theorem SweepPc.listed_of_view {pc : SweepPc} {v : Snapshot} (h : pc.view = some v) :
    pc.listed = some v.containers := by
  cases pc <;> simp_all [view, listed]

theorem ReconcileSandboxes.listed_of_goes {p p' : ReconcileSandboxes} {reply : Reply}
    {cs : List RuntimeSandbox} (h : p.Goes reply p') (hc : p'.pc.listed = some cs) :
    p.pc.listed = some cs ∨ (∃ running, p.pc = .list running) ∧ reply = .containers cs := by
  cases h with
  | snapshot => cases hc
  | listed n running => cases hc; exact .inr ⟨⟨running, rfl⟩, rfl⟩
  | clocked => rw [SweepPc.listed_of_view (nextContainer_view _ _)] at hc; exact .inl hc
  | settled => rw [SweepPc.listed_of_view (nextContainer_view _ _)] at hc; exact .inl hc
  | vanished => rw [SweepPc.listed_of_view (nextMissing_view _ _)] at hc; exact .inl hc
  | kept => rw [SweepPc.listed_of_view (nextMissing_view _ _)] at hc; exact .inl hc
  | _ => exact .inl hc

theorem nextMissing_settling (n : Reaped) (v : Snapshot) (l : List Uuid) (sid : Uuid) :
    Proc.settling sid (.sweep ⟨n, ReconcileSandboxes.nextMissing v l⟩) = false := by
  cases l <;> rfl

theorem nextContainer_settling (n : Reaped) (v : Snapshot) (cs : List RuntimeSandbox) (sid : Uuid) :
    Proc.settling sid (.sweep ⟨n, ReconcileSandboxes.nextContainer v cs⟩) = false := by
  rcases nextContainer_cases v cs with ⟨h, -⟩ | ⟨_, _, _, _, -, -, -, h⟩
  · rw [h, nextMissing_settling]
  · rw [h]
    rfl

theorem World.container_of_removed {w : World} {actor : Actor} {how : How} {choice : Choice}
    {sid : Uuid} {b : Bool} (lives : ∀ e r, how ≠ .killed e r)
    (h : w.reply actor how choice (.remove sid) = .removed b) :
    (w.after actor how choice (.remove sid)).container sid = none := by
  rw [(World.after_of_reply lives h (by simp)).1]
  simp [World.perform, World.container_removeContainer]

theorem Came.settling {settings : Settings} {s t : State} {a : Action} {sid : Uuid} {p : Nat}
    {proc : Proc} (h : Came settings s t a p proc) (hs : proc.settling sid = true) :
    s.proc p = some proc ∨ t.world.container sid = none := by
  cases h with
  | stayed found => exact .inl found
  | spawned world drawn spawn =>
    cases proc with
    | sweep q => obtain ⟨-, rfl⟩ := spawn.of_sweep; cases hs
    | _ => cases hs
  | resumed how choice old events isAwait found lives goes world_eq =>
    right
    rw [world_eq, World.record_container]
    cases goes with
    | sweep q reply q' goes =>
      generalize hq : s.world.reply _ how choice _ = reply at goes
      cases goes with
      | removed n v c reason rest b =>
        obtain rfl : c.sandboxId = sid := of_decide_eq_true hs
        exact World.container_of_removed lives hq
      | clocked => rw [nextContainer_settling] at hs; cases hs
      | settled => rw [nextContainer_settling] at hs; cases hs
      | vanished => rw [nextMissing_settling] at hs; cases hs
      | kept => rw [nextMissing_settling] at hs; cases hs
      | _ => cases hs
    | _ => cases hs

theorem Proc.overlooks_iff {sid : Uuid} {proc : Proc} :
    proc.overlooks sid = true ↔
      ∃ p cs, proc = .sweep p ∧ p.pc.listed = some cs ∧ sid ∉ cs.map (·.sandboxId) := by
  cases proc <;> simp [overlooks, Option.any_eq_true]

theorem Came.overlooks {settings : Settings} {s t : State} {a : Action} {sid : Uuid} {p : Nat}
    {proc : Proc} (h : Came settings s t a p proc) (hs : proc.overlooks sid = true) :
    s.has (Proc.overlooks sid) = true ∨ t.world.container sid = none := by
  obtain ⟨q', cs, rfl, hcs, hnot⟩ := Proc.overlooks_iff.mp hs
  cases h with
  | stayed found => exact .inl (State.has_iff.mpr ⟨p, _, found, hs⟩)
  | spawned world drawn spawn => obtain ⟨-, rfl⟩ := spawn.of_sweep; cases hs
  | resumed how choice old events isAwait found lives goes world_eq =>
    obtain ⟨q, rfl, hgoes⟩ := goes.of_sweep
    rcases ReconcileSandboxes.listed_of_goes hgoes hcs with hold | ⟨⟨running, hpc⟩, hreply⟩
    · exact .inl (State.has_iff.mpr ⟨p, _, found, Proc.overlooks_iff.mpr ⟨q, cs, rfl, hold, hnot⟩⟩)
    · right
      have hreq : (Proc.sweep q).request = .listSandboxes := by
        simp [Proc.request, ReconcileSandboxes.request, hpc]
      rw [hreq] at hreply
      obtain ⟨hafter, hlist⟩ := World.after_of_reply lives hreply (by simp)
      rw [world_eq, World.record_container, State.worldAfter, hreq, hafter]
      cases hc : s.world.container sid with
      | none => exact hc
      | some c => exact absurd (World.listed_of_isSome hlist (by simp [hc])) hnot

theorem Proc.mark_of_writes {proc : Proc} {r : Sandbox} {v : Values}
    (hw : proc.request.writes r = some v) (hv : v.status = .stopping) :
    proc = .delete ⟨r.id, .mark⟩ ∧ r.status ∈ activeStatuses := by
  cases Proc.writes_of hw with
  | mark status => exact ⟨rfl, status⟩
  | _ => cases hv

theorem Stepped.stopping {settings : Settings} {s t : State} {a : Action} {sid : Uuid}
    (h : Stepped settings s t a) (hk : Provenance s) (ht : t.world.status sid = some .stopping) :
    s.world.status sid = some .stopping ∨
      ∃ pid how choice, a = .await pid how choice ∧ how.effect = true ∧
        s.proc pid = some (.delete ⟨sid, .mark⟩) ∧
        ∃ r, s.world.row sid = some r ∧ r.status ∈ activeStatuses := by
  obtain ⟨r', hr', hst⟩ := World.status_eq_some.mp ht
  rcases h.row sid with hsame | ⟨pid, how, choice, proc, rfl, hp, hchange⟩
  · exact .inl (World.status_eq_some.mpr ⟨r', hsame ▸ hr', hst⟩)
  · by_cases he : how.effect = true
    · rw [hr'] at hchange
      generalize hx : some r' = x at hchange
      cases hchange with
      | same => exact .inl (World.status_eq_some.mpr ⟨r', hx.symm, hst⟩)
      | wrote r v found writes =>
        cases hx
        obtain ⟨rfl, hactive⟩ := Proc.mark_of_writes writes hst
        rw [World.row_id found] at hp
        exact .inr ⟨pid, how, choice, rfl, he, hp, r, found, hactive⟩
      | inserted r isInsert =>
        cases hx
        obtain ⟨c, -, -, -, hqueued, -⟩ := Proc.drafted_of_insert (hk.procs pid proc hp) isInsert
        simp [hqueued] at hst
    · left
      have hrow := (h.called hp).1 sid
      rw [State.worldAfter, World.after, if_neg he, hr'] at hrow
      exact World.status_eq_some.mpr ⟨r', hrow.symm, hst⟩

def DoomedAttended (s : State) : Prop :=
  ∀ sid, doomed sid s = true → unattended sid s = false

theorem doomedAttended_step {settings : Settings} {s t : State} {a : Action} (hk : Provenance s)
    (hs : DoomedAttended s) (ha : Attended s a t) (h : step settings s a = some t) :
    DoomedAttended t := by
  have hst := stepped h
  intro sid hdoomed
  by_cases hnone : t.world.container sid = none
  · exact unattended_eq_false.mpr (.inl hnone)
  have hkeep : doomed sid s = true → unattended sid t = false := fun hd =>
    attended_step hst (hs sid hd) fun _ _ _ _ _ _ => ⟨ha.2, hd⟩
  simp only [doomed, Bool.or_eq_true, Bool.and_eq_true, decide_eq_true_eq] at hdoomed
  rcases hdoomed with hsettling | ⟨hoverlooks, hstopping⟩
  · obtain ⟨p, x, hp, hx⟩ := State.has_iff.mp hsettling
    have hold := ((hst.came hp).settling hx).resolve_right hnone
    have hsettling : s.has (Proc.settling sid) = true := State.has_iff.mpr ⟨p, x, hold, hx⟩
    exact hkeep (by simp [doomed, hsettling])
  · obtain ⟨p, x, hp, hx⟩ := State.has_iff.mp hoverlooks
    have hover := ((hst.came hp).overlooks hx).resolve_right hnone
    rcases hst.stopping hk hstopping with
      hstop | ⟨pid, how, choice, rfl, he, hdel, r, hr, hactive⟩
    · exact hkeep (by simp [doomed, hover, hstop])
    · have hmarks := ha.1
      simp only [marksAttended, hdel, he, hr, Option.any_some, hactive, decide_true, hover,
        Bool.and_self, Bool.true_and, Bool.not_eq_true'] at hmarks
      refine attended_step hst hmarks ?_
      rintro _ _ _ d ⟨⟩ hd
      cases hdel.symm.trans hd

/-- What a sweep makes `stopped` it was about to stop. -/
theorem ReconcileSandboxes.stops_of_writes {p : ReconcileSandboxes} {r : Sandbox} {v : Values}
    (hw : p.request.writes r = some v) (hv : v.status = .stopped) :
    (Proc.sweep p).settling r.id = true ∨
      (Proc.sweep p).overlooks r.id = true ∧ r.status = .stopping := by
  cases @Proc.writes_of (.sweep p) r v hw with
  | settle n view c reason rest hid => exact .inl (decide_eq_true hid.symm)
  | vanish => cases hv
  | finishStops n view status gone => exact .inr ⟨decide_eq_true gone, status⟩

theorem sweep_stops {settings : Settings} {s t : State} {a : Action} (hk : DoomedAttended s)
    (h : step settings s a = some t) : StopsGone s a t := by
  rintro pid how choice p sid rfl hp hs ht
  have hst := stepped h
  suffices hdoomed : doomed sid s = true by
    refine attended_step hst (hk sid hdoomed) ?_
    rintro _ _ _ d ⟨⟩ hd
    cases hp.symm.trans hd
  obtain ⟨r', hr', hstopped⟩ := World.status_eq_some.mp ht
  rcases hst.row sid with hsame | ⟨_, _, _, proc, ha, hproc, hchange⟩
  · exact absurd (World.status_eq_some.mpr ⟨r', hsame ▸ hr', hstopped⟩) hs
  · cases ha
    cases hp.symm.trans hproc
    rw [hr'] at hchange
    generalize hx : some r' = x at hchange
    cases hchange with
    | same => exact absurd (World.status_eq_some.mpr ⟨r', hx.symm, hstopped⟩) hs
    | wrote r v found writes =>
      cases hx
      obtain rfl := World.row_id found
      rcases ReconcileSandboxes.stops_of_writes writes hstopped with hsettling | ⟨hover, hstopping⟩
      · have hhas : s.has (Proc.settling r.id) = true := State.has_iff.mpr ⟨pid, _, hp, hsettling⟩
        simp [doomed, hhas]
      · have hhas : s.has (Proc.overlooks r.id) = true := State.has_iff.mpr ⟨pid, _, hp, hover⟩
        have hstatus := World.status_eq_some.mpr ⟨r, found, hstopping⟩
        simp [doomed, hhas, hstatus]
    | inserted r isInsert =>
      obtain ⟨n, pc⟩ := p
      cases pc <;> cases isInsert

theorem discards_done {settings : Settings} {s t : State} {a : Action}
    (h : step settings s a = some t) : DiscardsDone s a t := by
  rintro pid choice d rfl hp hd hstopped
  refine discards_step (stepped h) hp hd ?_
  cases hpc : d.pc <;> simp [StartSandbox.abandons, hpc, hstopped]

/-! ## A call of a thread -/

/-- No thread creates a container that nobody will discard while a sweep is about to stop its
row. -/
def CreatesAttended (s : Threaded) (a : ThreadedAction) (_ : Threaded) : Prop :=
  match a with
  | .thread i how _ => (s.threads[i]?.all fun th =>
      !(how.effect && th.creates && (s.state.world.container th.sandboxId).isNone &&
        doomed th.sandboxId s.state && !s.state.has (Proc.willDiscard th.sandboxId))) = true
  | _ => True

instance (s : Threaded) (a : ThreadedAction) (t : Threaded) : Decidable (CreatesAttended s a t) :=
  match a with
  | .step _ => inferInstanceAs (Decidable True)
  | .leave _ _ => inferInstanceAs (Decidable True)
  | .thread _ _ _ => inferInstanceAs (Decidable (_ = true))

theorem doomedAttended_thread {s t : Threaded} {i : Nat} {how : How} {choice : Choice} {th : Thread}
    (hs : DoomedAttended s.state) (ha : CreatesAttended s (.thread i how choice) t)
    (found : s.threads[i]? = some th) :
    DoomedAttended { s.state with world := th.after s.state.world how choice } := by
  intro sid hdoomed
  have hstatus := th.status_after s.state.world how choice sid
  have hdoomed : doomed sid s.state = true := by
    simpa only [doomed, hstatus, State.has] using hdoomed
  refine unattended_eq_false.mpr ?_
  rcases unattended_eq_false.mp (hs sid hdoomed) with hnone | hhas
  · by_cases hhas : s.state.has (Proc.willDiscard sid) = true
    · exact .inr hhas
    · refine .inl (Thread.container_none (fun hcreates hid => hhas ?_) hnone)
      subst hid
      obtain ⟨heffect, hcreates⟩ := Bool.and_eq_true_iff.mp hcreates
      simpa [CreatesAttended, found, heffect, hcreates, hnone, hdoomed] using ha
  · exact .inr hhas

/-- A DELETE of sandbox 1 by handler 3, whose weight read and enqueue fail. -/
def unqueuedDelete : List Action := [.delete 3 1, .ok 3, .ok 3, .ok 3, .fails 3, .fails 3]

/-- A launch times out before its first call; the sandbox is deleted and a sweep stops it. The
thread of the launch creates the container after that, and the next sweep removes it. -/
def createdLate : List ThreadedAction :=
  steps (posted 0 1 ++ [.ok 0, .deliver 1 ⟨.startSandbox, 1, .stable, 1⟩, .ok 1, .ok 1, .ok 1]) ++
    [.leave 1 (.raises ⟨"TimeoutError", ""⟩ false)] ++
    steps ([.ok 1, .ok 1] ++ unqueuedDelete ++ .sweep 2 :: List.replicate 5 (.ok 2)) ++
    [.thread 0 .ok {}, .thread 0 .ok {}, .thread 0 .ok {}, .thread 0 .ok {}] ++
    steps (.sweep 2 :: List.replicate 7 (.ok 2))

/-- The sweep lists the containers before the launch creates one, and the DELETE comes
after the launch is done. -/
def deletedAfterLaunch : List Action :=
  posted 0 1 ++ .ok 0 :: .deliver 1 ⟨.startSandbox, 1, .stable, 1⟩ :: List.replicate 3 (.ok 1) ++
    .sweep 2 :: .ok 2 :: .ok 2 :: List.replicate 6 (.ok 1) ++ unqueuedDelete ++
    List.replicate 2 (.ok 2)

end SandboxOrchestrator
