import SandboxOrchestrator.Standing
import SandboxOrchestrator.SweepStops

/-!
# Sweeps that overlap or are cut short

"A rare double sweep is harmless: CAS writes, idempotent removes." It is as long as every
container that is removed has a sweep left that writes its row, and no sweep takes such a
sandbox for vanished in between.
-/

namespace SandboxOrchestrator

set_option autoImplicit false

def Action.ofSweeps : Action → Bool
  | .sweep _ => true
  | .await _ _ _ => true
  | _ => false

/-- The containers a sweep still has to go through, with the one in hand. -/
def SweepPc.ahead : SweepPc → List RuntimeSandbox
  | .statuses _ cs => cs
  | .clock _ cs _ => cs
  | .remove _ c _ rest => c :: rest
  | .settle _ c _ rest => c :: rest
  | _ => []

def Proc.owes (sid : Uuid) : Proc → Bool
  | .sweep p => decide (sid ∈ p.pc.ahead.map (·.sandboxId))
  | _ => false

/-- A sweep other than `pid` still has to go through the container. -/
def State.owedBeside (s : State) (pid : Nat) (sid : Uuid) : Bool :=
  s.procs.rows.any fun e => decide (e.1 ≠ pid) && e.2.owes sid

/-- The sweep stops at this call, after which the sandbox is half reaped and no other sweep
will write its row. -/
def deserts (s : State) (pid : Nat) (how : How) (choice : Choice) (p : ReconcileSandboxes)
    (sid : Uuid) : Bool :=
  decide (how ≠ .ok) && ((s.worldAfter (.sweep p) how choice).standing sid).halfReaped &&
    !s.owedBeside pid sid

/-- The sweep takes the sandbox for vanished and finds its row running. -/
def misjudges (s : State) (how : How) (p : ReconcileSandboxes) (sid : Uuid) : Bool :=
  match p.pc with
  | .vanish _ id _ => decide (id = sid) && how.effect && decide (s.world.status sid = some .running)
  | _ => false

/-- The step neither deserts nor misjudges a sandbox that was due in `w₀`. -/
def harmless (w₀ : World) (s : State) (a : Action) (_ : State) : Bool :=
  match a with
  | .await pid how choice =>
    match s.proc pid with
    | some (.sweep p) => w₀.sandboxes.rows.all fun r => !(w₀.standing r.id).due ||
        (!deserts s pid how choice p r.id && !misjudges s how p r.id)
    | _ => true
  | _ => true

variable {settings : Settings} {w₀ : World} {s t : State} {a : Action}

theorem harmless_iff {pid : Nat} {how : How} {choice : Choice} {p : ReconcileSandboxes}
    (found : s.proc pid = some (.sweep p)) :
    harmless w₀ s (.await pid how choice) t = true ↔ ∀ sid, (w₀.standing sid).due = true →
      deserts s pid how choice p sid = false ∧ misjudges s how p sid = false := by
  simp only [harmless, found, List.all_eq_true, Bool.or_eq_true, Bool.and_eq_true,
    Bool.not_eq_true']
  constructor
  · intro h sid hdue
    obtain ⟨r, hr⟩ : ∃ r, w₀.row sid = some r := by
      cases hr : w₀.row sid with
      | some r => exact ⟨r, rfl⟩
      | none => simp [World.standing, World.status, hr, Standing.due] at hdue
    have hid := World.row_id hr
    subst hid
    exact (h r (World.mem_rows_iff.mpr hr)).resolve_left (by simp [hdue])
  · intro h r _
    cases hdue : (w₀.standing r.id).due with
    | false => exact .inl rfl
    | true => exact .inr (h r.id hdue)

theorem State.owedBeside_iff {pid : Nat} {sid : Uuid} :
    s.owedBeside pid sid = true ↔ ∃ q x, q ≠ pid ∧ s.proc q = some x ∧ x.owes sid = true := by
  simp only [owedBeside, List.any_eq_true, Bool.and_eq_true, decide_eq_true_eq]
  constructor
  · rintro ⟨⟨q, x⟩, hmem, hq, hx⟩
    exact ⟨q, x, hq, State.mem_procs_iff.mp hmem, hx⟩
  · rintro ⟨q, x, hq, hp, hx⟩
    exact ⟨(q, x), State.mem_procs_iff.mpr hp, hq, hx⟩

/-! ## What a sweep in flight has read -/

/-- The containers listed are some of those of `w₀`, and none that stays is missing. -/
structure Listed (w₀ : World) (cs : List RuntimeSandbox) : Prop where
  seen : ∀ c ∈ cs, ∃ c₀, w₀.container c.sandboxId = some c₀ ∧ c₀.seen = c
  kept : ∀ sid, (w₀.standing sid).swept.expired ≠ none → sid ∈ cs.map (·.sandboxId)

def StatusesKept (w₀ : World) (statuses : List (Uuid × SandboxStatus)) : Prop :=
  ∀ sid, (w₀.standing sid).swept.expired ≠ none → statuses.lookup sid = w₀.status sid

structure SweepPc.Planned (w₀ : World) (pc : SweepPc) : Prop where
  listed : ∀ cs, pc.listed = some cs → Listed w₀ cs
  read : ∀ running cs rows, pc = .clock running cs rows → StatusesKept w₀ rows
  view : ∀ v, pc.view = some v → StatusesKept w₀ v.statuses ∧ v.now = w₀.now
  ahead : ∀ v, pc.view = some v → ∀ c ∈ pc.ahead, c ∈ v.containers
  reason : ∀ v c reason rest, pc = .remove v c reason rest ∨ pc = .settle v c reason rest →
    v.reason c = some reason
  missing : ∀ cs, pc.listed = some cs → ∀ sid ∈ pc.candidates, sid ∉ cs.map (·.sandboxId)

theorem World.seen_expired {c : RuntimeSandbox} {c₀ : Container}
    (hc : w₀.container c.sandboxId = some c₀) (hseen : c₀.seen = c) :
    (w₀.standing c.sandboxId).expired = some (decide (c.expiresAt ≤ w₀.now)) := by
  rw [World.standing, hc, ← hseen]
  rfl

theorem SweepPc.Planned.reaps {pc : SweepPc} (h : pc.Planned w₀) {v : Snapshot} {c : RuntimeSandbox}
    {reason : ReapReason} {rest : List RuntimeSandbox}
    (hpc : pc = .remove v c reason rest ∨ pc = .settle v c reason rest) :
    (w₀.standing c.sandboxId).expired ≠ none ∧ (w₀.standing c.sandboxId).swept.expired = none := by
  have hview : pc.view = some v := by rcases hpc with rfl | rfl <;> rfl
  have hahead : c ∈ pc.ahead := by rcases hpc with rfl | rfl <;> exact List.mem_cons_self
  obtain ⟨hstatuses, hnow⟩ := h.view v hview
  obtain ⟨c₀, hc, hseen⟩ := (h.listed _ (SweepPc.listed_of_view hview)).seen c (h.ahead v hview c hahead)
  have hexpired := World.seen_expired hc hseen
  refine ⟨by simp [hexpired], ?_⟩
  by_contra hkept
  have hreason := h.reason v c reason rest hpc
  have hstatus : v.status c.sandboxId = w₀.status c.sandboxId := hstatuses _ hkept
  unfold Snapshot.reason at hreason
  rw [hstatus, hnow] at hreason
  have hst : (w₀.standing c.sandboxId).status = w₀.status c.sandboxId := rfl
  generalize w₀.standing c.sandboxId = x at hkept hexpired hst
  obtain ⟨st, e⟩ := x
  obtain rfl : st = w₀.status c.sandboxId := hst
  obtain rfl : e = _ := hexpired
  cases hx : w₀.status c.sandboxId with
  | none => simp [hx, Standing.swept] at hkept
  | some st =>
    by_cases hpast : c.expiresAt ≤ w₀.now
    · cases st <;> simp [hx, hpast, Standing.swept] at hkept
    · cases st <;> simp_all [Standing.swept, wanted, noContainerWanted]

theorem SweepPc.Planned.gone {pc : SweepPc} (h : pc.Planned w₀) {v : Snapshot} {sid : Uuid}
    {rest : List Uuid} (hpc : pc = .vanish v sid rest) : (w₀.standing sid).swept.expired = none := by
  subst hpc
  by_contra hkept
  exact h.missing v.containers rfl sid List.mem_cons_self ((h.listed v.containers rfl).kept sid hkept)

theorem SweepPc.Planned.touch {pc : SweepPc} (h : pc.Planned w₀) {sid : Uuid} {x : Standing}
    (hx : Standing.Partly (w₀.standing sid) x) : Standing.Partly (w₀.standing sid) (pc.touch sid x) := by
  cases pc with
  | remove v c reason rest =>
    simp only [SweepPc.touch]
    split
    · rename_i hid
      subst hid
      exact hx.removed (h.reaps (.inl rfl)).2
    · exact hx
  | settle v c reason rest =>
    simp only [SweepPc.touch]
    split
    · rename_i hif
      obtain ⟨rfl, hactive⟩ := hif
      obtain ⟨st, hst, hactive⟩ := (Option.any_eq_true _ _).mp hactive
      obtain ⟨hthere, hgone⟩ := h.reaps (.inr rfl)
      exact hx.stopped hthere hgone hst (of_decide_eq_true hactive)
    · exact hx
  | vanish v id rest =>
    simp only [SweepPc.touch]
    split
    · rename_i hif
      obtain ⟨rfl, hrunning⟩ := hif
      exact hx.failed (h.gone rfl) hrunning
    · exact hx
  | finishStops v =>
    simp only [SweepPc.touch]
    split
    · rename_i hif
      exact hx.finished hif.2
    · exact hx
  | _ => exact hx

/-! ### The plan goes on -/

theorem planned_nextMissing {v : Snapshot} (hl : Listed w₀ v.containers)
    (hs : StatusesKept w₀ v.statuses) (hnow : v.now = w₀.now) {l : List Uuid}
    (hmissing : ∀ sid ∈ l, sid ∉ v.live) : (ReconcileSandboxes.nextMissing v l).Planned w₀ where
  listed cs hcs := by
    rw [SweepPc.listed_of_view (nextMissing_view v l)] at hcs
    cases hcs
    exact hl
  read running cs rows hpc := by cases l <;> cases hpc
  view v' hv := by
    cases (nextMissing_view v l).symm.trans hv
    exact ⟨hs, hnow⟩
  ahead v' hv c hc := by cases l <;> cases hc
  reason v' c reason rest hpc := by cases l <;> rcases hpc with hpc | hpc <;> cases hpc
  missing cs hcs sid hsid := by
    rw [SweepPc.listed_of_view (nextMissing_view v l)] at hcs
    rw [nextMissing_candidates] at hsid
    cases hcs
    exact hmissing sid hsid

theorem planned_nextContainer {v : Snapshot} (hl : Listed w₀ v.containers)
    (hs : StatusesKept w₀ v.statuses) (hnow : v.now = w₀.now) {cs : List RuntimeSandbox}
    (hcs : ∀ c ∈ cs, c ∈ v.containers) : (ReconcileSandboxes.nextContainer v cs).Planned w₀ := by
  rcases nextContainer_cases v cs with ⟨hnext, -⟩ | ⟨_, c, reason, rest, rfl, -, hreason, hnext⟩
  · rw [hnext]
    exact planned_nextMissing hl hs hnow fun sid hsid => of_decide_eq_true (List.mem_filter.mp hsid).2
  · rw [hnext]
    exact {
      listed := fun cs' h => by cases h; exact hl
      read := fun _ _ _ h => by cases h
      view := fun v' h => by cases h; exact ⟨hs, hnow⟩
      ahead := fun v' h c' hc => by
        cases h
        exact hcs c' (List.mem_append_right _ hc)
      reason := fun v' c' reason' rest h => by
        rcases h with h | h <;> cases h
        exact hreason
      missing := fun cs' h sid hsid => by
        cases h
        exact of_decide_eq_true (List.mem_filter.mp hsid).2 }

structure SweptSoFar (w₀ : World) (s : State) : Prop where
  now : s.world.now = w₀.now
  sweeps : ∀ pid proc, s.proc pid = some proc → ∃ p, proc = .sweep p ∧ p.pc.Planned w₀
  containers : ∀ sid, s.world.container sid = w₀.container sid ∨ s.world.container sid = none
  standings : ∀ sid, Standing.Partly (w₀.standing sid) (s.world.standing sid)

theorem SweptSoFar.kept (hs : SweptSoFar w₀ s) {sid : Uuid}
    (hkept : (w₀.standing sid).swept.expired ≠ none) :
    s.world.status sid = w₀.status sid ∧ (s.world.container sid).isSome := by
  have hsame := (hs.standings sid).kept hkept
  refine ⟨congrArg Standing.status hsame, ?_⟩
  have hexpired : (s.world.standing sid).swept.expired ≠ none := by rwa [hsame]
  unfold World.standing at hexpired
  cases hc : s.world.container sid with
  | some c => rfl
  | none =>
    rw [hc] at hexpired
    cases hst : s.world.status sid with
    | none => exact absurd (by rw [hst]; rfl) hexpired
    | some st => cases st <;> simp [hst, Standing.swept] at hexpired

theorem planned_goes (hs : SweptSoFar w₀ s) {p p' : ReconcileSandboxes} {choice : Choice}
    (hp : p.pc.Planned w₀)
    (goes : p.Goes (s.world.perform .reconcileSandboxes choice p.request).2 p') :
    p'.pc.Planned w₀ := by
  generalize hq : (s.world.perform .reconcileSandboxes choice p.request).2 = reply at goes
  cases goes with
  | snapshot n running =>
    exact {
      listed := fun _ h => by cases h
      read := fun _ _ _ h => by cases h
      view := fun _ h => by cases h
      ahead := fun _ h => by cases h
      reason := fun _ _ _ _ h => by rcases h with h | h <;> cases h
      missing := fun _ h => by cases h }
  | listed n running cs =>
    have hcs : cs = s.world.containers.rows.map Container.seen := (Reply.containers.inj hq).symm
    exact {
      listed := fun cs' h => by
        cases h
        refine ⟨fun c hc => ?_, fun sid hkept => World.listed_of_isSome hq (hs.kept hkept).2⟩
        rw [hcs] at hc
        obtain ⟨c₀, hc₀, rfl⟩ := List.mem_map.mp hc
        have hfound := World.mem_containers_iff.mp hc₀
        rcases hs.containers c₀.sandboxId with hsame | hnone
        · exact ⟨c₀, hsame.symm.trans hfound, rfl⟩
        · cases hnone.symm.trans hfound
      read := fun _ _ _ h => by cases h
      view := fun _ h => by cases h
      ahead := fun _ h => by cases h
      reason := fun _ _ _ _ h => by rcases h with h | h <;> cases h
      missing := fun cs' h sid hsid => by
        cases h
        exact of_decide_eq_true (List.mem_filter.mp hsid).2 }
  | read n running cs rows =>
    have hl := hp.listed cs rfl
    have hrows := (Reply.statuses.inj hq).symm
    exact {
      listed := fun cs' h => by cases h; exact hl
      read := fun running' cs' rows' h => by
        cases h
        intro sid hkept
        rw [hrows, lookup_rows _ _ _ (hl.kept sid hkept)]
        exact (hs.kept hkept).1
      view := fun _ h => by cases h
      ahead := fun _ h => by cases h
      reason := fun _ _ _ _ h => by rcases h with h | h <;> cases h
      missing := fun cs' h sid hsid => by
        cases h
        exact hp.missing cs rfl sid hsid }
  | clocked n running cs rows now =>
    have hnow : now = w₀.now := (Reply.time.inj hq).symm.trans hs.now
    exact planned_nextContainer (hp.listed cs rfl) (hp.read running cs rows rfl) hnow fun _ h => h
  | removed n v c reason rest b =>
    exact {
      listed := fun cs' h => hp.listed cs' h
      read := fun _ _ _ h => by cases h
      view := fun v' h => hp.view v' h
      ahead := fun v' h => hp.ahead v' h
      reason := fun v' c' reason' rest' h => by
        rcases h with h | h <;> cases h
        exact hp.reason v c reason rest (.inl rfl)
      missing := fun cs' h sid hsid => hp.missing cs' h sid hsid }
  | settled n v c reason rest b =>
    obtain ⟨hstatuses, hnow⟩ := hp.view v rfl
    exact planned_nextContainer (hp.listed _ rfl) hstatuses hnow
      fun c' hc => hp.ahead v rfl c' (List.mem_cons_of_mem c hc)
  | vanished n v sid rest =>
    obtain ⟨hstatuses, hnow⟩ := hp.view v rfl
    exact planned_nextMissing (hp.listed _ rfl) hstatuses hnow
      fun id hid => hp.missing _ rfl id (List.mem_cons_of_mem sid hid)
  | kept n v sid rest =>
    obtain ⟨hstatuses, hnow⟩ := hp.view v rfl
    exact planned_nextMissing (hp.listed _ rfl) hstatuses hnow
      fun id hid => hp.missing _ rfl id (List.mem_cons_of_mem sid hid)

/-! ### What it owes -/

theorem ahead_nextMissing (v : Snapshot) (l : List Uuid) :
    (ReconcileSandboxes.nextMissing v l).ahead = [] := by
  cases l <;> rfl

theorem ahead_nextContainer_sub (v : Snapshot) (cs : List RuntimeSandbox) {c : RuntimeSandbox}
    (hc : c ∈ (ReconcileSandboxes.nextContainer v cs).ahead) : c ∈ cs := by
  rcases nextContainer_cases v cs with ⟨hnext, -⟩ | ⟨_, _, _, _, rfl, -, -, hnext⟩
  · rw [hnext, ahead_nextMissing] at hc
    cases hc
  · rw [hnext] at hc
    exact List.mem_append_right _ hc

theorem mem_ahead_nextContainer (v : Snapshot) {cs : List RuntimeSandbox} {c : RuntimeSandbox}
    (hc : c ∈ cs) (hreason : (v.reason c).isSome) :
    c ∈ (ReconcileSandboxes.nextContainer v cs).ahead := by
  rcases nextContainer_cases v cs with ⟨-, hnone⟩ | ⟨_, _, _, _, rfl, hskipped, -, hnext⟩
  · rw [hnone c hc] at hreason
    cases hreason
  · rw [hnext]
    rcases List.mem_append.mp hc with hc | hc
    · rw [hskipped c hc] at hreason
      cases hreason
    · exact hc

theorem reason_of_due {v : Snapshot} {c : RuntimeSandbox} (hl : Listed w₀ v.containers)
    (hnow : v.now = w₀.now) (hc : c ∈ v.containers) (hdue : (w₀.standing c.sandboxId).due = true) :
    (v.reason c).isSome := by
  obtain ⟨c₀, hfound, hseen⟩ := hl.seen c hc
  have hexpired := World.seen_expired hfound hseen
  have hpast : c.expiresAt ≤ w₀.now := by
    have hboth := (Bool.and_eq_true_iff.mp hdue).1
    rw [hexpired] at hboth
    simpa using hboth
  simp [Snapshot.reason, hnow, hpast]

theorem owes_of_goes (hs : SweptSoFar w₀ s) {p p' : ReconcileSandboxes} {choice : Choice} {sid : Uuid}
    (hp : p.pc.Planned w₀) (hdue : (w₀.standing sid).due = true)
    (goes : p.Goes (s.world.perform .reconcileSandboxes choice p.request).2 p')
    (howes : sid ∈ p.pc.ahead.map (·.sandboxId)) :
    sid ∈ p'.pc.ahead.map (·.sandboxId) ∨
      ∃ v c reason rest, p.pc = .settle v c reason rest ∧ c.sandboxId = sid := by
  obtain ⟨c₁, hc₁, rfl⟩ := List.mem_map.mp howes
  generalize hq : (s.world.perform .reconcileSandboxes choice p.request).2 = reply at goes
  cases goes with
  | snapshot n running => cases hc₁
  | listed n running cs => cases hc₁
  | read n running cs rows => exact .inl howes
  | clocked n running cs rows now =>
    have hnow : now = w₀.now := (Reply.time.inj hq).symm.trans hs.now
    exact .inl (List.mem_map_of_mem (mem_ahead_nextContainer _ hc₁
      (reason_of_due (v := ⟨running, cs, rows, now⟩) (hp.listed cs rfl) hnow hc₁ hdue)))
  | removed n v c reason rest b => exact .inl howes
  | settled n v c reason rest b =>
    rcases List.mem_cons.mp hc₁ with rfl | hrest
    · exact .inr ⟨v, c₁, reason, rest, rfl, rfl⟩
    · have hmem := hp.ahead v rfl c₁ (List.mem_cons_of_mem c hrest)
      exact .inl (List.mem_map_of_mem (mem_ahead_nextContainer _ hrest
        (reason_of_due (hp.listed _ rfl) (hp.view v rfl).2 hmem hdue)))
  | vanished n v sid rest => cases hc₁
  | kept n v sid rest => cases hc₁

theorem ahead_of_goes {p p' : ReconcileSandboxes} {reply : Reply} {sid : Uuid}
    (goes : p.Goes reply p') (howes : sid ∈ p'.pc.ahead.map (·.sandboxId)) :
    sid ∈ p.pc.ahead.map (·.sandboxId) ∨
      ∃ running cs, p.pc = .list running ∧ reply = .containers cs ∧ sid ∈ cs.map (·.sandboxId) := by
  obtain ⟨c₁, hc₁, rfl⟩ := List.mem_map.mp howes
  cases goes with
  | snapshot n running => cases hc₁
  | listed n running cs => exact .inr ⟨running, cs, rfl, rfl, howes⟩
  | read n running cs rows => exact .inl howes
  | clocked n running cs rows now => exact .inl (List.mem_map_of_mem (ahead_nextContainer_sub _ _ hc₁))
  | removed n v c reason rest b => exact .inl howes
  | settled n v c reason rest b =>
    exact .inl (List.mem_map_of_mem (List.mem_cons_of_mem c (ahead_nextContainer_sub _ _ hc₁)))
  | vanished n v sid rest =>
    rw [ahead_nextMissing] at hc₁
    cases hc₁
  | kept n v sid rest =>
    rw [ahead_nextMissing] at hc₁
    cases hc₁

/-! ## One step -/

/-- A step while only sweeps run: one starts, or a call of one resolves. -/
inductive SweepStep (s t : State) : Action → Prop where
  | started (pid : Nat) (absent : s.proc pid = none) (world : t.world = s.world)
      (procs : ∀ q, t.proc q = if pid = q then some (.sweep .start) else s.proc q) :
      SweepStep s t (.sweep pid)
  | called (pid : Nat) (how : How) (choice : Choice) (p : ReconcileSandboxes)
      (found : s.proc pid = some (.sweep p)) (now : t.world.now = s.world.now)
      (container : ∀ sid, t.world.container sid = s.world.container sid ∨ t.world.container sid = none)
      (standing : ∀ sid,
        t.world.standing sid = (s.worldAfter (.sweep p) how choice).standing sid ∧
        t.world.standing sid =
          if how.effect then p.pc.touch sid (s.world.standing sid) else s.world.standing sid)
      (others : ∀ q, q ≠ pid → t.proc q = s.proc q)
      (next : (∃ p', how = .ok ∧ t.proc pid = some (.sweep p') ∧
          p.Goes (s.world.perform .reconcileSandboxes choice p.request).2 p') ∨
        t.proc pid = none ∧ (how ≠ .ok ∨ p.pc.ahead = [])) :
      SweepStep s t (.await pid how choice)

theorem sweepStep (hs : SweptSoFar w₀ s) (ha : a.ofSweeps = true) (h : step settings s a = some t) :
    SweepStep s t a := by
  cases a with
  | sweep pid =>
    cases stepped h with
    | spawned pid' proc world drawn spawn absent world_eq _ procs =>
      cases spawn
      exact .started pid absent world_eq procs
  | await pid how choice =>
    have hstep := stepped h
    obtain ⟨proc, found⟩ := hstep.awaited
    obtain ⟨p, rfl, -⟩ := hs.sweeps pid proc found
    obtain ⟨hrow, hcontainer⟩ := hstep.called found
    obtain ⟨hothers, hnow⟩ := hstep.beside
    have hafter : (s.worldAfter (.sweep p) how choice).now = s.world.now := s.world.now_after ..
    have hstanding : ∀ sid, t.world.standing sid = (s.worldAfter (.sweep p) how choice).standing sid := by
      intro sid
      simp only [World.standing, World.status, hrow, hcontainer, hnow, hafter]
    refine .called pid how choice p found hnow (fun sid => ?_) (fun sid => ⟨hstanding sid, ?_⟩) hothers ?_
    · rw [hcontainer, State.worldAfter, World.after]
      split
      · exact s.world.container_perform choice p sid
      · exact .inl rfl
    · rw [hstanding, State.worldAfter, World.after]
      split
      · exact s.world.standing_perform choice p sid
      · rfl
    · by_cases hk : ∃ e r, how = .killed e r
      · obtain ⟨e, r, rfl⟩ := hk
        exact .inr ⟨hstep.dies, .inl (by simp)⟩
      · have lives : ∀ e r, how ≠ .killed e r := fun e r he => hk ⟨e, r, he⟩
        rcases hstep.lived lives found with ⟨proc', goes, hp'⟩ | ⟨outcome, ends, hnone⟩
        · cases goes with
          | sweep _ _ p' goes =>
            rcases s.world.reply_eq .reconcileSandboxes how choice p.request lives with
              ⟨rfl, -⟩ | ⟨e, b, rfl, hreply⟩
            · exact .inl ⟨p', rfl, hp', goes⟩
            · change p.Goes (s.world.reply .reconcileSandboxes (.raises e b) choice p.request) p' at goes
              rw [hreply] at goes
              cases goes
        · refine .inr ⟨hnone, ?_⟩
          cases ends with
          | sweep _ _ _ ends =>
            generalize hq : s.world.reply _ how choice _ = reply at ends
            cases ends with
            | finished n v => exact .inr rfl
            | aborted n pc e =>
              refine .inl ?_
              rintro rfl
              exact World.perform_ne_raised _ _ _ _ _ hq
  | _ => cases ha

theorem sweptSoFar_init (s₀ : State) (alone : s₀.procs.rows = []) : SweptSoFar s₀.world s₀ where
  now := rfl
  sweeps pid proc h := by
    rw [State.idle_of_rows alone] at h
    cases h
  containers _ := .inl rfl
  standings _ := .refl _

theorem planned_start : (ReconcileSandboxes.start).pc.Planned w₀ where
  listed _ h := by cases h
  read _ _ _ h := by cases h
  view _ h := by cases h
  ahead _ h := by cases h
  reason _ _ _ _ h := by rcases h with h | h <;> cases h
  missing _ h := by cases h

theorem sweptSoFar_step (hs : SweptSoFar w₀ s) (h : SweepStep s t a) : SweptSoFar w₀ t := by
  cases h with
  | started pid absent world procs =>
    refine ⟨world ▸ hs.now, fun q proc hq => ?_, world ▸ hs.containers, world ▸ hs.standings⟩
    rw [procs] at hq
    split at hq
    · cases hq
      exact ⟨_, rfl, planned_start⟩
    · exact hs.sweeps q proc hq
  | called pid how choice p found now container standing others next =>
    obtain ⟨p₀, hp₀, hplanned⟩ := hs.sweeps pid _ found
    cases hp₀
    refine ⟨now.trans hs.now, fun q proc hq => ?_, fun sid => ?_, fun sid => ?_⟩
    · by_cases hqp : q = pid
      · subst hqp
        rcases next with ⟨p', -, hp', goes⟩ | ⟨hnone, -⟩
        · cases hp'.symm.trans hq
          exact ⟨p', rfl, planned_goes hs hplanned goes⟩
        · cases hnone.symm.trans hq
      · exact hs.sweeps q proc ((others q hqp).symm.trans hq)
    · rcases container sid with hsame | hnone
      · rw [hsame]
        exact hs.containers sid
      · exact .inr hnone
    · rw [(standing sid).2]
      split
      · exact hplanned.touch (hs.standings sid)
      · exact hs.standings sid

/-! ## Nothing is left half reaped -/

/-- No sandbox that was due is failed, and one that is half reaped has a sweep left that
writes its row. -/
def Guarded (w₀ : World) (s : State) : Prop :=
  ∀ sid, (w₀.standing sid).due = true → s.world.status sid ≠ some .failed ∧
    ((s.world.standing sid).halfReaped = true → s.has (Proc.owes sid) = true)

theorem touch_failed {pc : SweepPc} {sid : Uuid} {x : Standing}
    (h : (pc.touch sid x).status = some .failed) :
    x.status = some .failed ∨ (∃ v rest, pc = .vanish v sid rest) ∧ x.status = some .running := by
  cases pc with
  | vanish v id rest =>
    simp only [SweepPc.touch] at h
    split at h
    · rename_i hif
      obtain ⟨rfl, hrunning⟩ := hif
      exact .inr ⟨⟨v, rest, rfl⟩, hrunning⟩
    · exact .inl h
  | _ =>
    simp only [SweepPc.touch] at h
    first
    | exact .inl h
    | (split at h
       · first | cases h | exact .inl h
       · exact .inl h)

theorem touch_of_failed {pc : SweepPc} {sid : Uuid} {x : Standing} (h : x.status = some .failed) :
    (pc.touch sid x).status = some .failed := by
  cases pc with
  | remove v c reason rest =>
    simp only [SweepPc.touch]
    split <;> exact h
  | settle v c reason rest => simp [SweepPc.touch, h, activeStatuses]
  | vanish v id rest => simp [SweepPc.touch, h]
  | finishStops v => simp [SweepPc.touch, h]
  | _ => exact h

theorem touch_halfReaped {pc : SweepPc} {sid : Uuid} {x : Standing}
    (h : (pc.touch sid x).halfReaped = true) :
    x.halfReaped = true ∨ sid ∈ pc.ahead.map (·.sandboxId) := by
  cases pc with
  | remove v c reason rest =>
    simp only [SweepPc.touch] at h
    split at h
    · rename_i hid
      exact .inr (List.mem_map.mpr ⟨c, List.mem_cons_self, hid⟩)
    · exact .inl h
  | settle v c reason rest =>
    simp only [SweepPc.touch] at h
    split at h
    · simp [Standing.halfReaped, wanted] at h
    · exact .inl h
  | vanish v id rest =>
    simp only [SweepPc.touch] at h
    split at h
    · simp [Standing.halfReaped, wanted] at h
    · exact .inl h
  | finishStops v =>
    simp only [SweepPc.touch] at h
    split at h
    · simp [Standing.halfReaped, wanted] at h
    · exact .inl h
  | _ => exact .inl h

theorem touch_settle {v : Snapshot} {c : RuntimeSandbox} {reason : ReapReason}
    {rest : List RuntimeSandbox} {x : Standing} :
    ((SweepPc.settle v c reason rest).touch c.sandboxId x).halfReaped = false := by
  simp only [SweepPc.touch, true_and]
  split
  · simp [Standing.halfReaped, wanted]
  · rename_i hnot
    obtain ⟨st, e⟩ := x
    rcases st with _ | st
    · simp [Standing.halfReaped]
    · cases st <;> simp_all [Standing.halfReaped, wanted, activeStatuses]

theorem touch_unowed {pc : SweepPc} {sid : Uuid} {x : Standing} (h : x.halfReaped = true)
    (hnot : sid ∉ pc.ahead.map (·.sandboxId)) :
    (pc.touch sid x).halfReaped = true ∨ (pc.touch sid x).status = some .failed := by
  cases pc with
  | remove v c reason rest =>
    have hid : c.sandboxId ≠ sid := fun hid => hnot (List.mem_map.mpr ⟨c, List.mem_cons_self, hid⟩)
    simp [SweepPc.touch, hid, h]
  | settle v c reason rest =>
    have hid : c.sandboxId ≠ sid := fun hid => hnot (List.mem_map.mpr ⟨c, List.mem_cons_self, hid⟩)
    simp [SweepPc.touch, hid, h]
  | vanish v id rest =>
    simp only [SweepPc.touch]
    split
    · exact .inr rfl
    · exact .inl h
  | finishStops v =>
    have hst : x.status ≠ some .stopping := by
      intro hst
      simp [Standing.halfReaped, hst, wanted] at h
    simp [SweepPc.touch, hst, h]
  | _ => exact .inl h

theorem has_owes_iff {sid : Uuid} : s.has (Proc.owes sid) = true ↔
    ∃ q p, s.proc q = some (.sweep p) ∧ sid ∈ p.pc.ahead.map (·.sandboxId) := by
  rw [State.has_iff]
  constructor
  · rintro ⟨q, x, hq, hx⟩
    cases x with
    | sweep p => exact ⟨q, p, hq, of_decide_eq_true hx⟩
    | _ => cases hx
  · rintro ⟨q, p, hq, hp⟩
    exact ⟨q, _, hq, decide_eq_true hp⟩

theorem guarded_of_harmless (hs : SweptSoFar w₀ s) (hg : Guarded w₀ s) (h : SweepStep s t a)
    (hsafe : harmless w₀ s a t = true) : Guarded w₀ t := by
  intro sid hdue
  obtain ⟨hfailed, howed⟩ := hg sid hdue
  cases h with
  | started pid absent world procs =>
    refine ⟨world ▸ hfailed, fun hhalf => ?_⟩
    obtain ⟨q, p, hq, hp⟩ := has_owes_iff.mp (howed (world ▸ hhalf))
    refine has_owes_iff.mpr ⟨q, p, ?_, hp⟩
    rw [procs, if_neg]
    · exact hq
    · rintro rfl
      cases absent.symm.trans hq
  | called pid how choice p found now container standing others next =>
    obtain ⟨p₀, hp₀, hplanned⟩ := hs.sweeps pid _ found
    cases hp₀
    obtain ⟨hdeserts, hmisjudges⟩ := (harmless_iff found).mp hsafe sid hdue
    obtain ⟨hsame, htouch⟩ := standing sid
    constructor
    · intro hst
      have hst : (t.world.standing sid).status = some .failed := hst
      rw [htouch] at hst
      split at hst
      · rename_i heffect
        rcases touch_failed hst with hbefore | ⟨⟨v, rest, hpc⟩, hrunning⟩
        · exact hfailed hbefore
        · have hrunning : s.world.status sid = some .running := hrunning
          simp [misjudges, hpc, heffect, hrunning] at hmisjudges
      · exact hfailed hst
    · intro hhalf
      by_cases hbeside : s.owedBeside pid sid = true
      · obtain ⟨q, x, hq, hx, howes⟩ := State.owedBeside_iff.mp hbeside
        exact State.has_iff.mpr ⟨q, x, (others q hq).trans hx, howes⟩
      · have hok : how = .ok := by
          by_contra hne
          rw [hsame] at hhalf
          simp [deserts, hne, hhalf, hbeside] at hdeserts
        subst hok
        rw [htouch, if_pos (show How.ok.effect = true from rfl)] at hhalf
        -- The write was owed before the call, by this sweep.
        have hahead : sid ∈ p.pc.ahead.map (·.sandboxId) := by
          rcases touch_halfReaped hhalf with hbefore | hahead
          · obtain ⟨q, x, hx, howes⟩ := State.has_iff.mp (howed hbefore)
            by_cases hq : q = pid
            · subst hq
              cases found.symm.trans hx
              exact of_decide_eq_true howes
            · exact absurd (State.owedBeside_iff.mpr ⟨q, x, hq, hx, howes⟩) hbeside
          · exact hahead
        rcases next with ⟨p', -, hp', goes⟩ | ⟨-, hnot | hnil⟩
        · rcases owes_of_goes hs hplanned hdue goes hahead with howes | ⟨v, c, reason, rest, hpc, rfl⟩
          · exact has_owes_iff.mpr ⟨pid, p', hp', howes⟩
          · rw [hpc, touch_settle] at hhalf
            cases hhalf
        · exact absurd rfl hnot
        · rw [hnil] at hahead
          cases hahead

theorem harmless_of_guarded (h : SweepStep s t a) (hguarded : Guarded w₀ t) :
    harmless w₀ s a t = true := by
  cases h with
  | started => rfl
  | called pid how choice p found now container standing others next =>
    refine (harmless_iff found).mpr fun sid hdue => ?_
    obtain ⟨hfailed, howed⟩ := hguarded sid hdue
    obtain ⟨hsame, htouch⟩ := standing sid
    constructor
    · by_contra hdeserts
      simp only [deserts, Bool.not_eq_false, Bool.and_eq_true, decide_eq_true_eq,
        Bool.not_eq_true'] at hdeserts
      obtain ⟨⟨hne, hhalf⟩, hbeside⟩ := hdeserts
      obtain ⟨q, x, hx, howes⟩ := State.has_iff.mp (howed (hsame ▸ hhalf))
      have hnone : t.proc pid = none := by
        rcases next with ⟨p', hok, -⟩ | ⟨hnone, -⟩
        · exact absurd hok hne
        · exact hnone
      have hq : q ≠ pid := by
        rintro rfl
        cases hnone.symm.trans hx
      have htrue := State.owedBeside_iff.mpr ⟨q, x, hq, (others q hq).symm.trans hx, howes⟩
      rw [hbeside] at htrue
      cases htrue
    · by_contra hmisjudges
      obtain ⟨n, pc⟩ := p
      cases pc with
      | vanish v id rest =>
        simp only [misjudges, Bool.not_eq_false, Bool.and_eq_true, decide_eq_true_eq] at hmisjudges
        obtain ⟨⟨rfl, heffect⟩, hrunning⟩ := hmisjudges
        refine hfailed ?_
        have hst : (s.world.standing id).status = some .running := hrunning
        change (t.world.standing id).status = some .failed
        rw [htouch, if_pos heffect]
        simp [SweepPc.touch, hst]
      | _ => simp [misjudges] at hmisjudges

/-- A step keeps every sandbox that was due guarded exactly if it is harmless. -/
theorem guarded_step (hs : SweptSoFar w₀ s) (hg : Guarded w₀ s) (h : SweepStep s t a) :
    harmless w₀ s a t = true ↔ Guarded w₀ t :=
  ⟨guarded_of_harmless hs hg h, harmless_of_guarded h⟩

theorem guarded_lost (h : SweepStep s t a) (hg : Guarded w₀ t) : Guarded w₀ s := by
  intro sid hdue
  obtain ⟨hfailed, howed⟩ := hg sid hdue
  cases h with
  | started pid absent world procs =>
    refine ⟨world ▸ hfailed, fun hhalf => ?_⟩
    obtain ⟨q, p, hq, hp⟩ := has_owes_iff.mp (howed (world ▸ hhalf))
    rw [procs] at hq
    split at hq
    · cases hq
      cases hp
    · exact has_owes_iff.mpr ⟨q, p, hq, hp⟩
  | called pid how choice p found now container standing others next =>
    obtain ⟨-, htouch⟩ := standing sid
    constructor
    · intro hst
      have hst : (s.world.standing sid).status = some .failed := hst
      refine hfailed ?_
      change (t.world.standing sid).status = some .failed
      rw [htouch]
      split
      · exact touch_of_failed hst
      · exact hst
    · intro hhalf
      by_contra hunowed
      have hnot : sid ∉ p.pc.ahead.map (·.sandboxId) :=
        fun hahead => hunowed (has_owes_iff.mpr ⟨pid, p, found, hahead⟩)
      have hlater : (t.world.standing sid).halfReaped = true := by
        rw [htouch]
        split
        · rename_i heffect
          refine (touch_unowed hhalf hnot).resolve_right fun hst => hfailed ?_
          change (t.world.standing sid).status = some .failed
          rw [htouch, if_pos heffect]
          exact hst
        · exact hhalf
      obtain ⟨q, p', hq, hp'⟩ := has_owes_iff.mp (howed hlater)
      by_cases hqp : q = pid
      · subst hqp
        rcases next with ⟨p₁, -, hp₁, goes⟩ | ⟨hnone, -⟩
        · cases hp₁.symm.trans hq
          rcases ahead_of_goes goes hp' with hahead | ⟨running, cs, hpc, hreply, hmem⟩
          · exact hnot hahead
          · have hcs : cs = s.world.containers.rows.map Container.seen := by
              rw [show p.request = .listSandboxes by rw [ReconcileSandboxes.request, hpc]] at hreply
              exact (Reply.containers.inj hreply).symm
            rw [hcs, List.map_map] at hmem
            obtain ⟨c, hc, hid⟩ := List.mem_map.mp hmem
            obtain rfl : c.sandboxId = sid := hid
            have hfound := World.mem_containers_iff.mp hc
            simp [Standing.halfReaped, World.standing, hfound] at hhalf
        · cases hnone.symm.trans hq
      · exact hunowed (has_owes_iff.mpr ⟨q, p', (others q hqp).symm.trans hq, hp'⟩)

theorem guarded_init (s₀ : State) : Guarded s₀.world s₀ := by
  intro sid hdue
  have hdue : (s₀.world.standing sid).due = true := hdue
  change (s₀.world.standing sid).status ≠ _ ∧ _
  generalize s₀.world.standing sid = x at hdue ⊢
  obtain ⟨st, e⟩ := x
  simp only [Standing.due, Bool.and_eq_true, decide_eq_true_eq] at hdue
  obtain ⟨rfl, hwanted⟩ := hdue
  refine ⟨?_, by simp [Standing.halfReaped]⟩
  rintro rfl
  simp [wanted] at hwanted

/-! ## And one sweep to end with -/

/-- Any sweeps that overlap and stop anywhere, and then one alone: the statuses and the
containers are those of one sweep alone from the start, if and only if no sweep stopped as
the last one to write a sandbox whose container was removed, and none took such a sandbox
for vanished. -/
theorem overlapping_sweeps_iff (settings : Settings) (s₀ s : State) (as : List Action) (pid pid₀ : Nat)
    (choices choices₀ : Nat → Choice) (alone : s₀.procs.rows = [])
    (sweeps : ∀ a ∈ as, a.ofSweeps = true) (hrun : run settings s₀ as = some s)
    (ended : s.procs.rows = []) :
    ∃ n t m u, run settings s (sweepAlone pid choices n) = some t ∧ t.proc pid = none ∧
      run settings s₀ (sweepAlone pid₀ choices₀ m) = some u ∧ u.proc pid₀ = none ∧
      ((∀ sid, t.world.status sid = u.world.status sid ∧
          t.world.container sid = u.world.container sid) ↔
        Along settings (fun v a w => harmless s₀.world v a w = true) s₀ as) := by
  obtain ⟨n, t, ht, htend, hswept⟩ := sweep_runs settings s pid (State.idle_of_rows ended pid) choices
  obtain ⟨m, u, hu, huend, hswept₀⟩ :=
    sweep_runs settings s₀ pid₀ (State.idle_of_rows alone pid₀) choices₀
  refine ⟨n, t, m, u, ht, htend, hu, huend, ?_⟩
  have hQ : Along settings (fun _ a _ => a.ofSweeps = true) s₀ as := LabelledRuns.along_of_mem sweeps s₀
  have hkeeps : ∀ v a w, SweptSoFar s₀.world v → a.ofSweeps = true → step settings v a = some w →
      SweptSoFar s₀.world w := fun v a w hv ha h => sweptSoFar_step hv (sweepStep hv ha h)
  have hs : SweptSoFar s₀.world s :=
    LabelledRuns.invariant hkeeps (sweptSoFar_init s₀ alone) hQ hrun
  have hguarded : Along settings (fun v a w => harmless s₀.world v a w = true) s₀ as ↔
      Guarded s₀.world s :=
    LabelledRuns.along_iff_last (I := Guarded s₀.world) hkeeps
      (fun v a w hv ha h hg => guarded_step hv hg (sweepStep hv ha h))
      (fun v a w hv ha h hg => guarded_lost (sweepStep hv ha h) hg)
      (sweptSoFar_init s₀ alone) (guarded_init s₀) hQ hrun
  have hidle : ∀ sid, s.has (Proc.owes sid) = false := by simp [State.has, ended]
  have hwhole : Guarded s₀.world s ↔ ∀ sid, (s₀.world.standing sid).due = true →
      (s.world.standing sid).Whole := by
    simp only [Guarded, hidle, Standing.Whole, Bool.false_eq_true, imp_false, Bool.not_eq_true]
    rfl
  have hstatus : ∀ sid, t.world.status sid = u.world.status sid ↔
      ((s₀.world.standing sid).due = true → (s.world.standing sid).Whole) := by
    intro sid
    rw [← (hs.standings sid).swept_status, ← hswept.standing, ← hswept₀.standing]
    rfl
  have hcontainer : ∀ sid, t.world.container sid = u.world.container sid := by
    intro sid
    have hexpired := (hs.standings sid).swept_expired
    rw [← hswept.standing, ← hswept₀.standing] at hexpired
    simp only [World.standing] at hexpired
    cases hct : t.world.container sid with
    | none => cases hcu : u.world.container sid <;> simp_all
    | some c =>
      cases hcu : u.world.container sid with
      | none => simp_all
      | some c' =>
        have hc := (hswept.container_left hct).1
        have hc' := (hswept₀.container_left hcu).1
        rcases hs.containers sid with hsame | hnone
        · exact hc.symm.trans (hsame.trans hc')
        · cases hnone.symm.trans hc
  rw [hguarded, hwhole]
  exact ⟨fun h sid => (hstatus sid).mp (h sid).1,
    fun h sid => ⟨(hstatus sid).mpr (h sid), hcontainer sid⟩⟩

def pastExpiry : List Action := posted 0 1 ++ [.ok 0] ++ started 1 1 ++ [.tick 60000000]

/-- Two sweeps list the container; the first removes it and dies, and the second writes the
row. -/
def takenOver : List Action :=
  .sweep 2 :: List.replicate 4 (.ok 2) ++ .sweep 3 :: List.replicate 4 (.ok 3) ++
    [.ok 2, .await 2 (.killed false false) {}] ++ List.replicate 3 (.ok 3)

theorem overlapping_sweeps_taken_over : ∃ s₀ s n t m u,
    run ⟨3, 10, "localhost"⟩ (State.init 0 KeyedTable.empty 0) pastExpiry = some s₀ ∧
      run ⟨3, 10, "localhost"⟩ s₀ takenOver = some s ∧
      run ⟨3, 10, "localhost"⟩ s (sweepAlone 9 (fun _ => {}) n) = some t ∧
      run ⟨3, 10, "localhost"⟩ s₀ (sweepAlone 9 (fun _ => {}) m) = some u ∧
      ∀ sid, t.world.status sid = u.world.status sid ∧ t.world.container sid = u.world.container sid := by
  have hrun : (run ⟨3, 10, "localhost"⟩ (State.init 0 KeyedTable.empty 0) pastExpiry).any (fun s₀ =>
      decide (s₀.procs.rows = []) &&
      LabelledRuns.check (step ⟨3, 10, "localhost"⟩) (fun v a w => harmless s₀.world v a w = true) s₀
        takenOver &&
      (run ⟨3, 10, "localhost"⟩ s₀ takenOver).any fun s => decide (s.procs.rows = [])) = true := by
    decide
  obtain ⟨s₀, hs₀, hp⟩ := LabelledRuns.exists_run hrun
  simp only [Bool.and_eq_true] at hp
  obtain ⟨⟨halone, hsafe⟩, hend⟩ := hp
  obtain ⟨s, hs, hended⟩ := LabelledRuns.exists_run hend
  obtain ⟨n, t, m, u, ht, -, hu, -, hiff⟩ :=
    overlapping_sweeps_iff ⟨3, 10, "localhost"⟩ s₀ s takenOver 9 9 (fun _ => {}) (fun _ => {})
      (of_decide_eq_true halone) (by decide) hs (of_decide_eq_true hended)
  exact ⟨s₀, s, n, t, m, u, hs₀, hs, ht, hu, hiff.mpr (LabelledRuns.along_of_check hsafe)⟩

/-- A sweep has removed the container, and before it writes the row a second one finds a
running row without a container; no call fails and nothing is cut short. -/
theorem overlapping_sweeps_vanished : ∃ s₀ s t u,
    run ⟨3, 10, "localhost"⟩ (State.init 0 KeyedTable.empty 0) pastExpiry = some s₀ ∧
      s₀.procs.rows = [] ∧
      run ⟨3, 10, "localhost"⟩ s₀ (.sweep 2 :: List.replicate 5 (.ok 2) ++
        .sweep 3 :: List.replicate 6 (.ok 3) ++ [.ok 2, .ok 2]) = some s ∧ s.procs.rows = [] ∧
      run ⟨3, 10, "localhost"⟩ s (sweepAlone 9 (fun _ => {}) 5) = some t ∧ t.procs.rows = [] ∧
      run ⟨3, 10, "localhost"⟩ s₀ (sweepAlone 9 (fun _ => {}) 7) = some u ∧ u.procs.rows = [] ∧
      t.world.status 1 = some .failed ∧ u.world.status 1 = some .stopped := by
  have hrun : (run ⟨3, 10, "localhost"⟩ (State.init 0 KeyedTable.empty 0) pastExpiry).any (fun s₀ =>
      decide (s₀.procs.rows = []) &&
      ((run ⟨3, 10, "localhost"⟩ s₀ (.sweep 2 :: List.replicate 5 (.ok 2) ++
        .sweep 3 :: List.replicate 6 (.ok 3) ++ [.ok 2, .ok 2])).any fun s =>
          decide (s.procs.rows = []) &&
          (run ⟨3, 10, "localhost"⟩ s (sweepAlone 9 (fun _ => {}) 5)).any fun t =>
            decide (t.procs.rows = []) && decide (t.world.status 1 = some .failed)) &&
      (run ⟨3, 10, "localhost"⟩ s₀ (sweepAlone 9 (fun _ => {}) 7)).any fun u =>
        decide (u.procs.rows = []) && decide (u.world.status 1 = some .stopped)) = true := by
    decide
  obtain ⟨s₀, hs₀, hp⟩ := LabelledRuns.exists_run hrun
  simp only [Bool.and_eq_true, decide_eq_true_eq] at hp
  obtain ⟨⟨halone, hend⟩, hsolo⟩ := hp
  obtain ⟨s, hs, hend⟩ := LabelledRuns.exists_run hend
  simp only [Bool.and_eq_true, decide_eq_true_eq] at hend
  obtain ⟨hsidle, hend⟩ := hend
  obtain ⟨t, ht, hend⟩ := LabelledRuns.exists_run hend
  obtain ⟨u, hu, hsolo⟩ := LabelledRuns.exists_run hsolo
  simp only [Bool.and_eq_true, decide_eq_true_eq] at hend hsolo
  exact ⟨s₀, s, t, u, hs₀, halone, hs, hsidle, ht, hend.1, hu, hsolo.1, hend.2, hsolo.2⟩

end SandboxOrchestrator
