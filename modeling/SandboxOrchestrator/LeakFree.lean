import SandboxOrchestrator.FastPath
import SandboxOrchestrator.Launch
import Mathlib.Algebra.BigOperators.Group.Multiset.Basic

/-!
# The fast path leaks nothing

The handlers of one sandbox, without the reaper, refine the protocol `Move`: every step
of the code is one move of the protocol or none. So `Settles` holds throughout, and once
nothing is queued or in flight the row and the container agree.
-/

namespace SandboxOrchestrator

set_option autoImplicit false

/-! ## The abstraction -/

def StartPc.token : StartPc → Token
  | .get => .early
  | .expiryCheck _ => .early
  | .expire => .early
  | .pickUp _ => .early
  | .inspect _ => .launching
  | .removeLeftover _ _ => .launching
  | .create _ => .launching
  | .conflict _ => .launching
  | .startObject _ _ => .holding
  | .reload _ _ => .holding
  | .waitReady _ _ => .holding
  | .succeed _ _ => .holding
  | .discardBroken _ => .broken
  | .retry _ => .settling
  | .fail _ => .settling
  | .discardUnwanted => .unwanted

def StopPc.token : StopPc → Token
  | .remove => .removing
  | .finish => .finishing

def DeletePc.token : DeletePc → Token
  | .get => .requested
  | .mark => .requested
  | .refresh => .marked
  | .pick _ => .marked
  | .enqueue _ _ => .marked

def Task.token : Task → Token
  | .startSandbox => .startJob
  | .stopSandbox => .stopJob

def Job.tokens (sid : Uuid) (job : Job) : Multiset Token :=
  if job.sandboxId = sid then {job.task.token} else 0

def Proc.tokens (sid : Uuid) : Proc → Multiset Token
  | .start d => if d.sandboxId = sid then {d.pc.token} else 0
  | .stop d => if d.sandboxId = sid then {d.pc.token} else 0
  | .delete d => if d.sandboxId = sid then {d.pc.token} else 0
  | _ => 0

def State.jobTokens (sid : Uuid) (s : State) : Multiset Token :=
  (s.world.queue.map (Job.tokens sid)).sum

def State.procTokens (sid : Uuid) (s : State) : Multiset Token :=
  (s.procs.rows.map fun e => e.2.tokens sid).sum

def State.fast (sid : Uuid) (st : SandboxStatus) (s : State) : Fast :=
  ⟨st, (s.world.container sid).isSome, s.procTokens sid + s.jobTokens sid⟩

def State.ownTokens (sid : Uuid) (s : State) (pid : Nat) : Multiset Token :=
  ((s.proc pid).map (Proc.tokens sid)).getD 0

theorem State.procTokens_frame {s t : State} (sid : Uuid) (pid : Nat)
    (h : ∀ q, q ≠ pid → t.proc q = s.proc q) :
    ∃ R, s.procTokens sid = s.ownTokens sid pid + R ∧ t.procTokens sid = t.ownTokens sid pid + R := by
  have hsum : ∀ u : State, (∀ q, q ≠ pid → u.proc q = s.proc q) → u.procTokens sid =
      u.ownTokens sid pid + ((s.procs.rows.filter fun e => decide (e.1 ≠ pid)).map
        fun e => e.2.tokens sid).sum := by
    intro u hu
    unfold procTokens ownTokens
    rw [((State.rows_perm hu).map _).sum_eq, List.map_append, List.sum_append]
    cases u.proc pid <;> simp
  exact ⟨_, hsum s fun _ _ => rfl, hsum t h⟩

/-! ## What a call does to the fast path -/

/-- What happened to the world between the two is one move of the protocol, or none. -/
def Plays (sid : Uuid) (w w' : World) (T T' : Multiset Token) : Prop :=
  ∀ st, w.status sid = some st → ∃ st', w'.status sid = some st' ∧
    Relation.ReflGen Move ⟨st, (w.container sid).isSome, T⟩ ⟨st', (w'.container sid).isSome, T'⟩

theorem Plays.still {sid : Uuid} {w w' : World} {T : Multiset Token}
    (hs : w'.status sid = w.status sid)
    (hc : (w'.container sid).isSome = (w.container sid).isSome) : Plays sid w w' T T := by
  intro st hst
  refine ⟨st, hs.trans hst, ?_⟩
  rw [hc]

theorem Plays.of_quiet {sid : Uuid} {w : World} {actor : Actor} {how : How} {choice : Choice}
    {q : Request} {T : Multiset Token} (h : q.quiet = true) :
    Plays sid w (w.after actor how choice q) T T :=
  .still (World.quiet_after h).1 (World.quiet_after h).2

theorem Plays.of_changed {sid : Uuid} {w : World} {actor : Actor} {how : How} {choice : Choice}
    {from_ : List SandboxStatus} {v : Values} {T T' : Multiset Token} {b : Bool}
    (lives : ∀ e r, how ≠ .killed e r)
    (h : w.reply actor how choice (.transition sid from_ v) = .changed b)
    (hyes : ∀ st c, b = true → st ∈ from_ → Move ⟨st, c, T⟩ ⟨v.status, c, T'⟩)
    (hno : ∀ st c, b = false → st ∉ from_ → Move ⟨st, c, T⟩ ⟨st, c, T'⟩) :
    Plays sid w (w.after actor how choice (.transition sid from_ v)) T T' := by
  intro st hst
  obtain ⟨hb, hafter⟩ := World.status_of_changed lives hst h
  refine ⟨_, hafter, .single ?_⟩
  rw [World.isSome_after (by simp) (by simp)]
  by_cases hm : st ∈ from_
  · rw [if_pos hm]
    exact hyes st _ (by simpa [hm] using hb) hm
  · rw [if_neg hm]
    exact hno st _ (by simpa [hm] using hb) hm

theorem Plays.of_container {sid : Uuid} {w w' : World} {T T' : Multiset Token} {c' : Bool}
    (hs : w'.status sid = w.status sid) (hc : (w'.container sid).isSome = c')
    (hmove : ∀ st c, Move ⟨st, c, T⟩ ⟨st, c', T'⟩) : Plays sid w w' T T' := by
  intro st hst
  refine ⟨st, hs.trans hst, .single ?_⟩
  rw [hc]
  exact hmove st _

theorem Plays.congr {sid : Uuid} {w w' w'' : World} {T T' : Multiset Token}
    (h : Plays sid w w' T T') (hrow : w''.row sid = w'.row sid)
    (hcontainer : w''.container sid = w'.container sid) : Plays sid w w'' T T' := by
  intro st hst
  simp only [World.status, hrow, hcontainer]
  exact h st hst

theorem Plays.of_tokens {sid : Uuid} {w w' : World} {T T' : Multiset Token}
    (hs : w'.status sid = w.status sid)
    (hc : (w'.container sid).isSome = (w.container sid).isSome)
    (hmove : ∀ st c, w.status sid = some st → Move ⟨st, c, T⟩ ⟨st, c, T'⟩) : Plays sid w w' T T' := by
  intro st hst
  refine ⟨st, hs.trans hst, .single ?_⟩
  rw [hc]
  exact hmove st _ hst

theorem Plays.of_quiet_move {sid : Uuid} {w : World} {actor : Actor} {how : How} {choice : Choice}
    {q : Request} {T T' : Multiset Token} (h : q.quiet = true)
    (hmove : ∀ st c, w.status sid = some st → Move ⟨st, c, T⟩ ⟨st, c, T'⟩) :
    Plays sid w (w.after actor how choice q) T T' :=
  .of_tokens (World.quiet_after h).1 (World.quiet_after h).2 hmove

/-! ## A start delivery -/

theorem World.isSome_of_cleared {w : World} {actor : Actor} {how : How} {choice : Choice}
    {sid : Uuid} {n : Nat} (lives : ∀ e r, how ≠ .killed e r)
    (h : w.reply actor how choice (.removeObject sid n) = .done) :
    ((w.after actor how choice (.removeObject sid n)).container sid).isSome = false := by
  obtain ⟨hafter, hreply⟩ := World.after_of_reply lives h (by simp)
  rw [hafter]
  simp only [World.perform] at hreply ⊢
  split at hreply
  · simp [World.container_removeContainer]
  · cases hreply

theorem World.isSome_of_remove (w : World) (actor : Actor) (choice : Choice) (sid : Uuid) :
    ((w.after actor .ok choice (.remove sid)).container sid).isSome = false := by
  simp [World.after, How.effect, World.perform, World.container_removeContainer]

theorem StartSandbox.plays_goes {settings : Settings} {d : StartSandbox} {w : World} {how : How}
    {choice : Choice} {pc : StartPc} (lives : ∀ e r, how ≠ .killed e r)
    (hcall : how = .ok ∨ d.pc.launching = true)
    (h : d.Goes settings d.pc (w.reply .startSandbox how choice d.request) pc) (R : Multiset Token) :
    Plays d.sandboxId w (w.after .startSandbox how choice d.request) (d.pc.token ::ₘ R)
      (pc.token ::ₘ R) := by
  obtain ⟨sid, jobTry, pool, pc₀⟩ := d
  generalize hq : w.reply .startSandbox how choice _ = reply at h
  have hstatus : ∀ {q}, (∀ r, q.writes r = none) → (∀ r, q ≠ .insert r) →
      (w.after .startSandbox how choice q).status sid = w.status sid := World.status_after
  cases h with
  | startable r st => exact .of_quiet rfl
  | late r t past => exact .of_quiet rfl
  | inTime r t ahead => exact .of_quiet rfl
  | pickedUp r =>
    exact .of_changed lives hq (fun st c _ hm => .pickUp st c R hm) (fun _ _ hb => by cases hb)
  | absent r => exact .of_quiet rfl
  | reuse r n =>
    exact .of_container (hstatus (fun _ => rfl) (by simp [request]))
      (World.isSome_of_inspect lives hq) fun st c => .hold st c R
  | leftover r n => exact .of_quiet rfl
  | cleared r n =>
    exact .of_container (hstatus (fun _ => rfl) (by simp [request]))
      (World.isSome_of_cleared lives hq) fun st c => .launch st c _ R
  | created r n =>
    exact .of_container (hstatus (fun _ => rfl) (by simp [request]))
      (World.isSome_of_create lives hq (by simp)) fun st c => .hold st c R
  | raced r =>
    exact .of_container (hstatus (fun _ => rfl) (by simp [request])) rfl
      fun st c => .launch st c _ R
  | createRefused r e conflict =>
    exact .of_container (hstatus (fun _ => rfl) (by simp [request])) rfl
      fun st c => .launch st c _ R
  | startRefused r n e conflict => exact .of_quiet_move rfl fun st c _ => .startRefused st c R
  | reuseWinner r n b =>
    exact .of_container (hstatus (fun _ => rfl) (by simp [request]))
      (World.isSome_of_inspect lives hq) fun st c => .hold st c R
  | started r n => exact .of_quiet rfl
  | bound r n p => exact .of_quiet rfl
  | ready r p => exact .of_quiet rfl
  | launchFailed _ _ e launching =>
    cases pc₀ with
    | inspect r =>
      exact .of_container (hstatus (fun _ => rfl) (by simp [request])) rfl
        fun st c => .launchFails st c _ R
    | removeLeftover r n =>
      exact .of_container (hstatus (fun _ => rfl) (by simp [request])) rfl
        fun st c => .launchFails st c _ R
    | create r =>
      exact .of_container (hstatus (fun _ => rfl) (by simp [request])) rfl
        fun st c => .launchFails st c _ R
    | conflict r =>
      exact .of_container (hstatus (fun _ => rfl) (by simp [request])) rfl
        fun st c => .launchFails st c _ R
    | startObject r n => exact .of_quiet_move rfl fun st c _ => .startFails st c R
    | reload r n => exact .of_quiet_move rfl fun st c _ => .startFails st c R
    | waitReady r p => exact .of_quiet_move rfl fun st c _ => .startFails st c R
    | _ => cases launching
  | retrying reason reply discarded tries =>
    obtain rfl : how = .ok := hcall.resolve_right (by simp [StartPc.launching])
    exact .of_container (hstatus (fun _ => rfl) (by simp [request]))
      (w.isSome_of_remove _ choice sid) fun st c => .discardBroken st c R
  | failing reason reply discarded tries =>
    obtain rfl : how = .ok := hcall.resolve_right (by simp [StartPc.launching])
    exact .of_container (hstatus (fun _ => rfl) (by simp [request]))
      (w.isSome_of_remove _ choice sid) fun st c => .discardBroken st c R
  | unwanted r url =>
    refine .of_changed lives hq (fun _ _ hb => by cases hb) fun st c _ hm => .overtaken st c R ?_
    simpa using hm

def End.requeued (outcome : End) (T : Multiset Token) : Multiset Token :=
  if outcome = .retry then T else 0

theorem StartSandbox.plays_ends {d : StartSandbox} {w : World} {how : How} {choice : Choice}
    {counted : Option JobOutcome} {outcome : End} (lives : ∀ e r, how ≠ .killed e r)
    (hcall : how = .ok ∨ d.pc.launching = true)
    (h : d.Ends d.pc (w.reply .startSandbox how choice d.request) counted outcome)
    (R : Multiset Token) :
    Plays d.sandboxId w (w.after .startSandbox how choice d.request) (d.pc.token ::ₘ R)
      (outcome.requeued {.startJob} + R) := by
  obtain ⟨sid, jobTry, pool, pc₀⟩ := d
  generalize hq : w.reply .startSandbox how choice _ = reply at h
  have hrow : ∀ {x}, w.reply .startSandbox how choice (.get sid) = .row x → w.row sid = x := by
    intro x hx
    obtain ⟨-, hreply⟩ := World.after_of_reply lives hx (by simp)
    simpa [World.perform] using hreply
  cases h with
  | missing =>
    intro st hst
    simp [World.status, hrow hq] at hst
  | settled r settled =>
    refine .of_quiet_move rfl fun st c hst => ?_
    obtain rfl : r.status = st := by simpa [World.status, hrow hq] using hst
    simpa [End.requeued, StartPc.token] using Move.skip r.status c R settled
  | expired b =>
    refine .of_changed lives hq (fun st c _ hm => ?_) fun st c _ hm => ?_
    · simpa [End.requeued, StartPc.token] using Move.expire st c R hm
    · simpa [End.requeued, StartPc.token] using Move.skip st c R hm
  | overtaken r =>
    refine .of_changed lives hq (fun _ _ hb => by cases hb) fun st c _ hm => ?_
    simpa [End.requeued, StartPc.token] using Move.skip st c R hm
  | retried reason =>
    refine .of_changed lives hq (fun st c _ hm => ?_) fun _ _ hb => by cases hb
    obtain rfl : st = .starting := by simpa using hm
    simpa [End.requeued, StartPc.token] using Move.retry c R
  | cancelled reason =>
    refine .of_changed lives hq (fun _ _ hb => by cases hb) fun st c _ hm => ?_
    simpa [End.requeued, StartPc.token] using Move.giveUp st c R (by simpa using hm)
  | failed reason b =>
    refine .of_changed lives hq (fun st c _ hm => ?_) fun st c _ hm => ?_
    · obtain rfl : st = .starting := by simpa using hm
      simpa [End.requeued, StartPc.token] using Move.fail c R
    · simpa [End.requeued, StartPc.token] using Move.giveUp st c R (by simpa using hm)
  | running r url =>
    refine .of_changed lives hq (fun st c _ hm => ?_) fun _ _ hb => by cases hb
    obtain rfl : st = .starting := by simpa using hm
    simpa [End.requeued, StartPc.token] using Move.succeed c R
  | discarded reply discarded =>
    obtain rfl : how = .ok := hcall.resolve_right (by simp [StartPc.launching])
    refine .of_container (World.status_after (fun _ => rfl) (by simp [request]))
      (w.isSome_of_remove _ choice sid) fun st c => ?_
    simpa [End.requeued, StartPc.token] using Move.discardUnwanted st c R
  | raised pc e other =>
    obtain rfl : how = .ok := hcall.resolve_right fun hl => by simp [StartPc.handles, hl] at other
    exact absurd hq (w.perform_ne_raised _ choice _ e)

/-! ## A stop delivery -/

theorem StopSandbox.plays_goes {d : StopSandbox} {w : World} {choice : Choice} {pc : StopPc}
    (h : d.Goes d.pc (w.reply .stopSandbox .ok choice d.request) pc) (R : Multiset Token) :
    Plays d.sandboxId w (w.after .stopSandbox .ok choice d.request) (d.pc.token ::ₘ R)
      (pc.token ::ₘ R) := by
  obtain ⟨sid, jobTry, pool, pc₀⟩ := d
  generalize hq : w.reply .stopSandbox .ok choice _ = reply at h
  cases h with
  | removed b =>
    exact .of_container (World.status_after (fun _ => rfl) (by simp [request]))
      (w.isSome_of_remove _ choice sid) fun st c => .remove st c R

theorem StopSandbox.plays_ends {settings : Settings} {d : StopSandbox} {w : World} {choice : Choice}
    {outcome : End} (h : d.Ends settings d.pc (w.reply .stopSandbox .ok choice d.request) outcome)
    (R : Multiset Token) :
    outcome ≠ .retry ∧ d.pc = .finish ∧
      Plays d.sandboxId w (w.after .stopSandbox .ok choice d.request) (d.pc.token ::ₘ R) R := by
  obtain ⟨sid, jobTry, pool, pc₀⟩ := d
  generalize hq : w.reply .stopSandbox .ok choice _ = reply at h
  have hok : ∀ e, reply ≠ .raised e := fun e he => w.perform_ne_raised _ choice _ e (hq.trans he)
  cases h with
  | stopped b =>
    refine ⟨by simp, rfl, .of_changed (by simp) hq (fun st c _ hm => ?_) fun st c _ hm => ?_⟩
    · obtain rfl : st = .stopping := by simpa using hm
      exact .finish c R
    · exact .finished st c R (by simpa using hm)
  | retried e => exact absurd rfl (hok e)
  | failed e => exact absurd rfl (hok e)
  | raised e => exact absurd rfl (hok e)

/-! ## A DELETE -/

/-- The calls of a DELETE that may raise here: only its read of the weight. -/
def DeletePc.picking : DeletePc → Bool
  | .pick _ => true
  | _ => false

theorem DeleteSandbox.plays_goes {d : DeleteSandbox} {w : World} {how : How} {choice : Choice}
    {pc : DeletePc} (lives : ∀ e r, how ≠ .killed e r)
    (h : d.Goes d.pc (w.reply .deleteSandbox how choice d.request) pc) (R : Multiset Token) :
    Plays d.sandboxId w (w.after .deleteSandbox how choice d.request) (d.pc.token ::ₘ R)
      (pc.token ::ₘ R) := by
  obtain ⟨sid, pc₀⟩ := d
  generalize hq : w.reply .deleteSandbox how choice _ = reply at h
  cases h with
  | active r st => exact .of_quiet rfl
  | marked b =>
    exact .of_changed lives hq (fun st c _ hm => .mark st c R hm) fun st c _ hm => .marked st c R hm
  | stopping r st => exact .of_quiet rfl
  | picked r reply dep pick => exact .of_quiet rfl

theorem DeleteSandbox.plays_ends {d : DeleteSandbox} {w : World} {how : How} {choice : Choice}
    {outcome : End} (lives : ∀ e r, how ≠ .killed e r) (hcall : how = .ok ∨ d.pc.picking = true)
    (hpc : ∀ r dep, d.pc ≠ .enqueue r dep)
    (h : d.Ends d.pc (w.reply .deleteSandbox how choice d.request) outcome) (R : Multiset Token) :
    Plays d.sandboxId w (w.after .deleteSandbox how choice d.request) (d.pc.token ::ₘ R) R := by
  obtain ⟨sid, pc₀⟩ := d
  generalize hq : w.reply .deleteSandbox how choice _ = reply at h
  have hrow : ∀ {x}, w.reply .deleteSandbox how choice (.get sid) = .row x → w.row sid = x := by
    intro x hx
    obtain ⟨-, hreply⟩ := World.after_of_reply lives hx (by simp)
    simpa [World.perform] using hreply
  cases h with
  | unknown => exact .of_quiet_move rfl fun st c _ => .answer st c R
  | settled r st => exact .of_quiet_move rfl fun st c _ => .answer st c R
  | settledMeanwhile r hr =>
    refine .of_quiet_move rfl fun st c hst => .stoppedMeanwhile st c R ?_
    obtain rfl : r.status = st := by simpa [World.status, hrow hq] using hst
    exact hr
  | deleted =>
    intro st hst
    simp [World.status, hrow hq] at hst
  | enqueued r dep b => exact absurd rfl (hpc r dep)
  | unavailable r dep e => exact absurd rfl (hpc r dep)
  | raised pc e passes =>
    obtain rfl : how = .ok := hcall.resolve_right fun hp => by
      cases pc₀ <;> simp_all [DeletePc.picking, DeletePc.passes]
    exact absurd hq (w.perform_ne_raised _ choice _ e)

/-! ## Every step -/

/-- What happens on the fast path of `sid`: no reaper, no redelivery, nobody is killed, and
only a launch, and a DELETE's read of the weight, may fail. -/
def fastPath (sid : Uuid) (s : State) : Action → Bool
  | .tick _ => true
  | .exit _ => true
  | .delete _ id => decide (id = sid)
  | .deliver _ job => decide (job.sandboxId = sid)
  | .await _ .ok _ => true
  | .await pid (.raises _ _) _ =>
    match s.proc pid with
    | some (.start d) => d.pc.launching
    | some (.delete d) => d.pc.picking
    | _ => false
  | _ => false

def Proc.concerns (sid : Uuid) : Proc → Prop
  | .start d => d.sandboxId = sid
  | .stop d => d.sandboxId = sid
  | .delete d => d.sandboxId = sid
  | _ => False

structure OnFastPath (settings : Settings) (sid : Uuid) (s : State) (st : SandboxStatus) : Prop where
  status : s.world.status sid = some st
  settles : Settles (s.fast sid st)
  ours : ∀ pid x, s.proc pid = some x → x.concerns sid
  key : s.world.jobKeys.count (.stopSandbox, sid) = (s.fast sid st).stops
  tries : ∀ job ∈ s.world.queue, job.sandboxId = sid → job.jobTry ≤ settings.jobMaxTries
  retrying : ∀ pid d reason, s.proc pid = some (.start d) → d.pc = .retry reason →
    d.jobTry < settings.jobMaxTries

theorem OnFastPath.of_plays {settings : Settings} {sid : Uuid} {s t : State} {st : SandboxStatus}
    {T U R : Multiset Token} (h : OnFastPath settings sid s st)
    (hs : s.procTokens sid + s.jobTokens sid = T + R)
    (ht : t.procTokens sid + t.jobTokens sid = U + R)
    (hplays : Plays sid s.world t.world (T + R) (U + R))
    (hkey : t.world.jobKeys.count (.stopSandbox, sid) + Fast.stops ⟨st, true, T⟩ =
      s.world.jobKeys.count (.stopSandbox, sid) + Fast.stops ⟨st, true, U⟩)
    (hours : ∀ pid x, t.proc pid = some x → x.concerns sid)
    (htries : ∀ job ∈ t.world.queue, job.sandboxId = sid → job.jobTry ≤ settings.jobMaxTries)
    (hretrying : ∀ pid d reason, t.proc pid = some (.start d) → d.pc = .retry reason →
      d.jobTry < settings.jobMaxTries) :
    ∃ st', OnFastPath settings sid t st' := by
  obtain ⟨st', hst', hmove⟩ := hplays st h.status
  have hfs : s.fast sid st = ⟨st, (s.world.container sid).isSome, T + R⟩ := by rw [State.fast, hs]
  have hft : t.fast sid st' = ⟨st', (t.world.container sid).isSome, U + R⟩ := by rw [State.fast, ht]
  refine ⟨st', hst', ?_, hours, ?_, htries, hretrying⟩
  · have hbefore := h.settles
    rw [hfs] at hbefore
    rw [hft]
    exact hbefore.of_move hmove
  · have hbefore := h.key
    rw [hfs] at hbefore
    rw [hft]
    simp only [Fast.stops, Multiset.count_add] at hbefore hkey ⊢
    omega

theorem OnFastPath.of_still {settings : Settings} {sid : Uuid} {s t : State} {st : SandboxStatus}
    (h : OnFastPath settings sid s st) (hprocs : t.procs = s.procs)
    (hstatus : t.world.status sid = s.world.status sid)
    (hcontainer : (t.world.container sid).isSome = (s.world.container sid).isSome)
    (hqueue : t.world.queue = s.world.queue) (hkeys : t.world.jobKeys = s.world.jobKeys) :
    ∃ st', OnFastPath settings sid t st' := by
  have hproc : ∀ pid, t.proc pid = s.proc pid := fun pid => by simp only [State.proc, hprocs]
  refine h.of_plays (T := 0) (U := 0) (R := s.procTokens sid + s.jobTokens sid) (by simp) ?_
    (.still hstatus hcontainer) (by rw [hkeys]) ?_ ?_ ?_
  · simp [State.procTokens, State.jobTokens, hprocs, hqueue]
  · exact fun pid x hp => h.ours pid x ((hproc pid).symm.trans hp)
  · exact fun job hj => h.tries job (hqueue ▸ hj)
  · exact fun pid d reason hp => h.retrying pid d reason ((hproc pid).symm.trans hp)

theorem Job.tokens_of_erase (sid : Uuid) {s t : State} {job : Job} (h : job ∈ s.world.queue)
    (ht : t.world.queue = s.world.queue.erase job) :
    s.jobTokens sid = job.tokens sid + t.jobTokens sid := by
  unfold State.jobTokens
  rw [ht, ((List.perm_cons_erase h).map _).sum_eq, List.map_cons, List.sum_cons]

theorem OnFastPath.spawned {settings : Settings} {sid : Uuid} {s t : State} {st : SandboxStatus}
    {a : Action} {pid : Nat} {proc : Proc} {world : World} {drawn : List Uuid}
    (h : OnFastPath settings sid s st) (ha : fastPath sid s a = true)
    (spawn : Spawned settings s a pid proc world drawn) (absent : s.proc pid = none)
    (world_eq : t.world = world) (procs : ∀ q, t.proc q = if pid = q then some proc else s.proc q) :
    ∃ st', OnFastPath settings sid t st' := by
  obtain ⟨R, hs, ht⟩ := State.procTokens_frame sid pid (s := s) (t := t)
    fun q hq => by rw [procs, if_neg (Ne.symm hq)]
  have hown : s.ownTokens sid pid = 0 := by simp [State.ownTokens, absent]
  have hnew : t.ownTokens sid pid = proc.tokens sid := by simp [State.ownTokens, procs]
  rw [hown, zero_add] at hs
  rw [hnew] at ht
  have hours : proc.concerns sid → ∀ q x, t.proc q = some x → x.concerns sid := by
    intro hc q x hq
    rw [procs] at hq
    split at hq
    · cases hq; exact hc
    · exact h.ours q x hq
  have hretrying : (∀ d reason, proc = .start d → d.pc ≠ .retry reason) → ∀ q d reason,
      t.proc q = some (.start d) → d.pc = .retry reason → d.jobTry < settings.jobMaxTries := by
    intro hn q d reason hq hd
    rw [procs] at hq
    split at hq
    · exact absurd hd (hn d reason (by simpa using hq))
    · exact h.retrying q d reason hq hd
  cases spawn with
  | delete _ id =>
    obtain rfl : id = sid := of_decide_eq_true ha
    refine h.of_plays (T := 0) (U := {.requested}) (R := R + s.jobTokens id) ?_ ?_ ?_ ?_ ?_ ?_ ?_
    · rw [hs, zero_add]
    · simp [ht, Proc.tokens, DeletePc.token, State.jobTokens, world_eq]
    · rw [world_eq]
      exact .of_tokens rfl rfl fun st c _ => by simpa using Move.request st c (R + s.jobTokens id)
    · simp [world_eq, Fast.stops]
    · exact hours rfl
    · exact world_eq ▸ h.tries
    · exact hretrying fun _ _ hd => by cases hd
  | deliver _ job queued tries =>
    obtain rfl : job.sandboxId = sid := of_decide_eq_true ha
    obtain ⟨task, id, queue, jobTry⟩ := job
    have hjobs := Job.tokens_of_erase id (t := t) queued (by rw [world_eq])
    have htries : ∀ j ∈ t.world.queue, j.sandboxId = id → j.jobTry ≤ settings.jobMaxTries := by
      intro j hj
      rw [world_eq] at hj
      exact h.tries j (List.mem_of_mem_erase hj)
    cases task with
    | startSandbox =>
      refine h.of_plays (T := {.startJob}) (U := {.early}) (R := R + t.jobTokens id) ?_ ?_ ?_ ?_ ?_
        htries ?_
      · rw [hs, hjobs]
        simp [Job.tokens, Task.token, add_left_comm]
      · simp [ht, Proc.ofJob, Proc.tokens, StartSandbox.start, StartPc.token]
      · rw [world_eq]
        exact .of_tokens rfl rfl fun st c _ => .deliverStart st c _
      · simp [world_eq, Fast.stops]
      · exact hours rfl
      · exact hretrying fun _ _ hd => by cases hd; simp [StartSandbox.start]
    | stopSandbox =>
      refine h.of_plays (T := {.stopJob}) (U := {.removing}) (R := R + t.jobTokens id) ?_ ?_ ?_ ?_ ?_
        htries ?_
      · rw [hs, hjobs]
        simp [Job.tokens, Task.token, add_left_comm]
      · simp [ht, Proc.ofJob, Proc.tokens, StopSandbox.start, StopPc.token]
      · rw [world_eq]
        exact .of_tokens rfl rfl fun st c _ => .deliverStop st c _
      · simp [world_eq, Fast.stops]
      · exact hours rfl
      · exact hretrying fun _ _ hd => by cases hd
  | _ => cases ha

/-- On the fast path a call succeeds, unless it is one of a launch or the read of the weight. -/
theorem fastPath_call {sid : Uuid} {s : State} {pid : Nat} {how : How} {choice : Choice}
    (h : fastPath sid s (.await pid how choice) = true) :
    (∀ e r, how ≠ .killed e r) ∧
      (how = .ok ∨ (∃ d, s.proc pid = some (.start d) ∧ d.pc.launching = true) ∨
        ∃ d, s.proc pid = some (.delete d) ∧ d.pc.picking = true) := by
  cases how with
  | ok => exact ⟨by simp, .inl rfl⟩
  | raises e effect =>
    refine ⟨by simp, .inr ?_⟩
    simp only [fastPath] at h
    split at h
    · exact .inl ⟨_, ‹_›, h⟩
    · exact .inr ⟨_, ‹_›, h⟩
    · cases h
  | killed e r => cases h

theorem StartSandbox.tries_of_goes {settings : Settings} {d : StartSandbox} {pc pc' : StartPc}
    {reply : Reply} {reason : String} (h : d.Goes settings pc reply pc') (hr : pc' = .retry reason) :
    d.jobTry < settings.jobMaxTries := by
  cases h <;> first | assumption | cases hr

theorem StartPc.stops_token (pc : StartPc) (st : SandboxStatus) (c : Bool) :
    Fast.stops ⟨st, c, {pc.token}⟩ = 0 := by
  cases pc <;> simp [token, Fast.stops]

theorem StopPc.stops_token (pc : StopPc) (st : SandboxStatus) (c : Bool) :
    Fast.stops ⟨st, c, {pc.token}⟩ = 1 := by
  cases pc <;> simp [token, Fast.stops]

theorem DeletePc.stops_token (pc : DeletePc) (st : SandboxStatus) (c : Bool) :
    Fast.stops ⟨st, c, {pc.token}⟩ = 0 := by
  cases pc <;> simp [token, Fast.stops]

theorem Proc.plays_goes {settings : Settings} {sid : Uuid} {proc proc' : Proc} {w : World} {how : How}
    {choice : Choice} (hc : proc.concerns sid) (lives : ∀ e r, how ≠ .killed e r)
    (hcall : how = .ok ∨ (∃ d, proc = .start d ∧ d.pc.launching = true) ∨
      ∃ d, proc = .delete d ∧ d.pc.picking = true)
    (h : proc.Goes settings (w.reply proc.actor how choice proc.request) proc') :
    proc'.concerns sid ∧ (∀ job, proc.request ≠ .enqueue job) ∧
      ∃ a b, proc.tokens sid = {a} ∧ proc'.tokens sid = {b} ∧
        (∀ st, Fast.stops ⟨st, true, {a}⟩ = Fast.stops ⟨st, true, {b}⟩) ∧
        ∀ R, Plays sid w (w.after proc.actor how choice proc.request) (a ::ₘ R) (b ::ₘ R) := by
  cases h with
  | start d reply pc goes =>
    obtain rfl : d.sandboxId = sid := hc
    refine ⟨rfl, ?_, d.pc.token, pc.token, by simp [tokens], by simp [tokens], ?_, ?_⟩
    · intro job hq
      cases Proc.asks_of hq
    · intro st
      rw [StartPc.stops_token, StartPc.stops_token]
    · exact StartSandbox.plays_goes lives (by simpa using hcall) goes
  | stop d reply pc goes =>
    obtain rfl : d.sandboxId = sid := hc
    obtain rfl : how = .ok := by simpa using hcall
    refine ⟨rfl, ?_, d.pc.token, pc.token, by simp [tokens], by simp [tokens], ?_, ?_⟩
    · intro job hq
      cases Proc.asks_of hq
    · intro st
      rw [StopPc.stops_token, StopPc.stops_token]
    · exact StopSandbox.plays_goes goes
  | delete d reply pc goes =>
    obtain rfl : d.sandboxId = sid := hc
    refine ⟨rfl, ?_, d.pc.token, pc.token, by simp [tokens], by simp [tokens], ?_, ?_⟩
    · intro job hq
      generalize w.reply _ how choice _ = reply at goes
      obtain ⟨sid, pc₀⟩ := d
      cases goes <;> cases hq
    · intro st
      rw [DeletePc.stops_token, DeletePc.stops_token]
    · exact DeleteSandbox.plays_goes lives goes
  | _ => cases hc

theorem OnFastPath.resumed {settings : Settings} {sid : Uuid} {s t : State} {st : SandboxStatus}
    {pid : Nat} {how : How} {choice : Choice} {proc proc' : Proc} {events : List Event}
    (h : OnFastPath settings sid s st) (ha : fastPath sid s (.await pid how choice) = true)
    (found : s.proc pid = some proc)
    (goes : proc.Goes settings (s.world.reply proc.actor how choice proc.request) proc')
    (world_eq : t.world = (s.worldAfter proc how choice).record events)
    (procs : ∀ q, t.proc q = if pid = q then some proc' else s.proc q) :
    ∃ st', OnFastPath settings sid t st' := by
  obtain ⟨lives, hcall⟩ := fastPath_call ha
  simp only [found, Option.some.injEq] at hcall
  obtain ⟨hours, hnot, a, b, hold, hnew, hstops, hplays⟩ :=
    Proc.plays_goes (h.ours pid proc found) lives hcall goes
  obtain ⟨R, hs, ht⟩ := State.procTokens_frame sid pid (s := s) (t := t)
    fun q hq => by rw [procs, if_neg (Ne.symm hq)]
  simp only [State.ownTokens, found, procs, if_true, Option.map_some, Option.getD_some, hold, hnew]
    at hs ht
  have hqueue : t.world.queue = s.world.queue ∧ t.world.jobKeys = s.world.jobKeys := by
    rw [world_eq]
    exact World.queue_after hnot
  have hjobs : t.jobTokens sid = s.jobTokens sid := by rw [State.jobTokens, hqueue.1, State.jobTokens]
  refine h.of_plays (T := {a}) (U := {b}) (R := R + s.jobTokens sid) (by rw [hs, add_assoc])
    (by rw [ht, hjobs, add_assoc]) ?_ (by rw [hqueue.2, hstops]) ?_ ?_ ?_
  · rw [world_eq]
    exact (hplays _).congr rfl rfl
  · intro q x hq
    rw [procs] at hq
    split at hq
    · cases hq; exact hours
    · exact h.ours q x hq
  · exact fun job hj => h.tries job (hqueue.1 ▸ hj)
  · intro q d reason hq hd
    rw [procs] at hq
    split at hq
    · cases hq
      cases goes with
      | start d₀ reply pc goes => exact StartSandbox.tries_of_goes (d := d₀) goes hd
    · exact h.retrying q d reason hq hd

/-- What is left of the invariant when a handler of the sandbox is gone. -/
theorem OnFastPath.ended_of_plays {settings : Settings} {sid : Uuid} {s t : State}
    {st : SandboxStatus} {pid : Nat} {proc : Proc} {w : World} {T U : Multiset Token} {J : List Job}
    (h : OnFastPath settings sid s st) (found : s.proc pid = some proc)
    (procs : ∀ q, t.proc q = if pid = q then none else s.proc q)
    (hrow : t.world.row sid = w.row sid) (hcontainer : t.world.container sid = w.container sid)
    (hqueue : t.world.queue = s.world.queue ++ J)
    (hjobs : ∀ job ∈ J, job.jobTry ≤ settings.jobMaxTries)
    (hT : proc.tokens sid = T) (hU : (J.map (Job.tokens sid)).sum = U)
    (hplays : ∀ R, s.procTokens sid + s.jobTokens sid = T + R → Plays sid s.world w (T + R) (U + R))
    (hkey : t.world.jobKeys.count (.stopSandbox, sid) + Fast.stops ⟨st, true, T⟩ =
      s.world.jobKeys.count (.stopSandbox, sid) + Fast.stops ⟨st, true, U⟩) :
    ∃ st', OnFastPath settings sid t st' := by
  obtain ⟨R, hs, ht⟩ := State.procTokens_frame sid pid (s := s) (t := t)
    fun q hq => by rw [procs, if_neg (Ne.symm hq)]
  simp only [State.ownTokens, found, procs, if_true, Option.map_some, Option.map_none,
    Option.getD_some, Option.getD_none, hT, zero_add] at hs ht
  have hold : s.procTokens sid + s.jobTokens sid = T + (R + s.jobTokens sid) := by rw [hs, add_assoc]
  have hstays : ∀ {q x}, t.proc q = some x → s.proc q = some x := by
    intro q x hq
    rw [procs] at hq
    split at hq
    · cases hq
    · exact hq
  refine h.of_plays (T := T) (U := U) (R := R + s.jobTokens sid) hold ?_
    ((hplays _ hold).congr hrow hcontainer) hkey ?_ ?_ ?_
  · rw [ht, State.jobTokens, hqueue, List.map_append, List.sum_append, hU, State.jobTokens]
    simp only [add_comm, add_left_comm]
  · exact fun q x hq => h.ours q x (hstays hq)
  · intro job hj
    rw [hqueue] at hj
    rcases List.mem_append.mp hj with hj | hj
    · exact h.tries job hj
    · exact fun _ => hjobs job hj
  · exact fun q d reason hq => h.retrying q d reason (hstays hq)

theorem StartSandbox.tries_of_retry {settings : Settings} {d : StartSandbox} {reply : Reply}
    {counted : Option JobOutcome} (h : d.Ends d.pc reply counted .retry)
    (hr : ∀ reason, d.pc = .retry reason → d.jobTry < settings.jobMaxTries) :
    d.jobTry < settings.jobMaxTries := by
  generalize hpc : d.pc = pc at h
  cases h with
  | retried reason => exact hr reason hpc

theorem OnFastPath.ended_start {settings : Settings} {sid : Uuid} {s t : State} {st : SandboxStatus}
    {pid : Nat} {how : How} {choice : Choice} {d : StartSandbox} {outcome : End} {events : List Event}
    {counted : Option JobOutcome}
    (h : OnFastPath settings sid s st) (found : s.proc pid = some (.start d))
    (lives : ∀ e r, how ≠ .killed e r) (hcall : how = .ok ∨ d.pc.launching = true)
    (ends : d.Ends d.pc (s.world.reply .startSandbox how choice d.request) counted outcome)
    (world_eq : t.world = ((s.worldAfter (.start d) how choice).record events).settleJob (.start d)
      (decide (outcome = .retry)))
    (procs : ∀ q, t.proc q = if pid = q then none else s.proc q) :
    ∃ st', OnFastPath settings sid t st' := by
  obtain rfl : d.sandboxId = sid := h.ours pid _ found
  have hkept : (s.worldAfter (.start d) how choice).queue = s.world.queue ∧
      (s.worldAfter (.start d) how choice).jobKeys = s.world.jobKeys := by
    refine World.queue_after fun job hq => ?_
    obtain ⟨sid, jobTry, pool, pc₀⟩ := d
    cases pc₀ <;> cases hq
  have hplays : ∀ R, Plays d.sandboxId s.world (s.worldAfter (.start d) how choice)
      (d.pc.token ::ₘ R) (outcome.requeued {.startJob} + R) :=
    StartSandbox.plays_ends lives hcall ends
  have hstops : ∀ st', Fast.stops ⟨st', true, {d.pc.token}⟩ = 0 := by
    intro st'
    cases d.pc <;> simp [StartPc.token, Fast.stops]
  have hrow : t.world.row d.sandboxId = (s.worldAfter (.start d) how choice).row d.sandboxId := by
    simp [world_eq]
  have hcontainer : t.world.container d.sandboxId =
      (s.worldAfter (.start d) how choice).container d.sandboxId := by simp [world_eq]
  by_cases hr : outcome = .retry
  · subst hr
    have htry : d.jobTry < settings.jobMaxTries := StartSandbox.tries_of_retry ends fun reason =>
      h.retrying pid d reason found
    refine h.ended_of_plays (T := {d.pc.token}) (U := {.startJob}) found procs hrow hcontainer
      (J := [⟨.startSandbox, d.sandboxId, d.pool, d.jobTry + 1⟩]) ?_ ?_ ?_ ?_ ?_ ?_
    · simp [world_eq, World.settleJob_queue, Proc.job?, hkept]
    · simpa using Nat.succ_le_of_lt htry
    · simp [Proc.tokens]
    · simp [Job.tokens, Task.token]
    · exact fun R _ => by simpa [End.requeued] using hplays R
    · rw [hstops]
      simp [world_eq, World.settleJob_jobKeys, Proc.job?, hkept, Fast.stops]
  · refine h.ended_of_plays (T := {d.pc.token}) (U := 0) found procs hrow hcontainer (J := [])
      ?_ ?_ ?_ ?_ ?_ ?_
    · simp [world_eq, World.settleJob_queue, Proc.job?, hkept, hr]
    · simp
    · simp [Proc.tokens]
    · simp
    · exact fun R _ => by simpa [End.requeued, hr] using hplays R
    · rw [hstops]
      simp [world_eq, World.settleJob_jobKeys, Proc.job?, hkept, hr, Fast.stops]

theorem OnFastPath.ended_stop {settings : Settings} {sid : Uuid} {s t : State} {st : SandboxStatus}
    {pid : Nat} {choice : Choice} {d : StopSandbox} {outcome : End} {events : List Event}
    (h : OnFastPath settings sid s st) (found : s.proc pid = some (.stop d))
    (ends : d.Ends settings d.pc (s.world.reply .stopSandbox .ok choice d.request) outcome)
    (world_eq : t.world = ((s.worldAfter (.stop d) .ok choice).record events).settleJob (.stop d)
      (decide (outcome = .retry)))
    (procs : ∀ q, t.proc q = if pid = q then none else s.proc q) :
    ∃ st', OnFastPath settings sid t st' := by
  obtain rfl : d.sandboxId = sid := h.ours pid _ found
  have hkept : (s.worldAfter (.stop d) .ok choice).queue = s.world.queue ∧
      (s.worldAfter (.stop d) .ok choice).jobKeys = s.world.jobKeys := by
    refine World.queue_after fun job hq => ?_
    obtain ⟨sid, jobTry, pool, pc₀⟩ := d
    cases pc₀ <;> cases hq
  obtain ⟨hr, hpc, -⟩ := StopSandbox.plays_ends ends 0
  have hplays : ∀ R, Plays d.sandboxId s.world (s.worldAfter (.stop d) .ok choice)
      (d.pc.token ::ₘ R) R := fun R => (StopSandbox.plays_ends ends R).2.2
  refine h.ended_of_plays (w := s.worldAfter (.stop d) .ok choice) (T := {.finishing}) (U := 0) found
    procs (by simp [world_eq]) (by simp [world_eq]) (J := []) ?_ ?_ ?_ ?_ ?_ ?_
  · simp [world_eq, World.settleJob_queue, Proc.job?, hkept, hr]
  · simp
  · simp [Proc.tokens, hpc, StopPc.token]
  · simp
  · exact fun R _ => by simpa [hpc, StopPc.token] using hplays R
  · have hpos : 0 < s.world.jobKeys.count (.stopSandbox, d.sandboxId) := by
      obtain ⟨R, hs, -⟩ := State.procTokens_frame d.sandboxId pid (s := s) (t := s)
        fun _ _ => rfl
      have hown : s.ownTokens d.sandboxId pid = {.finishing} := by
        simp [State.ownTokens, found, Proc.tokens, hpc, StopPc.token]
      rw [h.key, State.fast, hs, hown]
      simp only [Fast.stops, Multiset.count_add, Multiset.count_singleton_self]
      omega
    simp [world_eq, World.settleJob_jobKeys, Proc.job?, hkept, hr, Fast.stops]
    omega

theorem OnFastPath.enqueued {settings : Settings} {sid : Uuid} {s t : State} {st : SandboxStatus}
    {pid : Nat} {choice : Choice} {r : Sandbox} {dep : Deployment} {events : List Event}
    (hmax : 1 ≤ settings.jobMaxTries) (h : OnFastPath settings sid s st)
    (found : s.proc pid = some (.delete ⟨sid, .enqueue r dep⟩))
    (world_eq : t.world = (s.worldAfter (.delete ⟨sid, .enqueue r dep⟩) .ok choice).record events)
    (procs : ∀ q, t.proc q = if pid = q then none else s.proc q) :
    ∃ st', OnFastPath settings sid t st' := by
  have hworld : t.world = (s.world.enqueue (DeleteSandbox.stopJob sid dep)).1.record events := world_eq
  have hkey : ∀ R, s.procTokens sid + s.jobTokens sid = {.marked} + R →
      s.world.jobKeys.count (.stopSandbox, sid) = Fast.stops ⟨st, true, R⟩ := by
    intro R hR
    rw [h.key, State.fast, hR]
    simp [Fast.stops]
  by_cases hin : (Task.stopSandbox, sid) ∈ s.world.jobKeys
  · simp only [World.enqueue, DeleteSandbox.stopJob, hin, if_true] at hworld
    refine h.ended_of_plays (w := s.world) (T := {.marked}) (U := 0) found procs (by simp [hworld])
      (by simp [hworld]) (J := []) ?_ ?_ ?_ ?_ ?_ ?_
    · simp [hworld]
    · simp
    · simp [Proc.tokens, DeletePc.token]
    · simp
    · intro R hR
      have htaken := hkey R hR ▸ List.count_pos_iff.mpr hin
      exact .of_tokens rfl rfl fun st' c _ => by
        simpa using Move.deduplicate st' c R (Nat.pos_iff_ne_zero.mp htaken)
    · simp [hworld, Fast.stops]
  · simp only [World.enqueue, DeleteSandbox.stopJob, hin, if_false] at hworld
    refine h.ended_of_plays (w := s.world) (T := {.marked}) (U := {.stopJob}) found procs ?_ ?_
      (J := [DeleteSandbox.stopJob sid dep]) ?_ ?_ ?_ ?_ ?_ ?_
    · rw [hworld]; rfl
    · rw [hworld]; rfl
    · rw [hworld]; rfl
    · simpa [DeleteSandbox.stopJob] using hmax
    · simp [Proc.tokens, DeletePc.token]
    · simp [Job.tokens, DeleteSandbox.stopJob, Task.token]
    · intro R hR
      have hfree := (hkey R hR).symm.trans (List.count_eq_zero.mpr hin)
      exact .of_tokens rfl rfl fun st' c _ => Move.enqueue st' c R hfree
    · simp [hworld, Fast.stops]

theorem OnFastPath.ended_delete {settings : Settings} {sid : Uuid} {s t : State} {st : SandboxStatus}
    {pid : Nat} {how : How} {choice : Choice} {d : DeleteSandbox} {outcome : End} {events : List Event}
    (hmax : 1 ≤ settings.jobMaxTries) (h : OnFastPath settings sid s st)
    (found : s.proc pid = some (.delete d))
    (lives : ∀ e r, how ≠ .killed e r) (hcall : how = .ok ∨ d.pc.picking = true)
    (ends : d.Ends d.pc (s.world.reply .deleteSandbox how choice d.request) outcome)
    (world_eq : t.world = (s.worldAfter (.delete d) how choice).record events)
    (procs : ∀ q, t.proc q = if pid = q then none else s.proc q) :
    ∃ st', OnFastPath settings sid t st' := by
  obtain rfl : d.sandboxId = sid := h.ours pid _ found
  by_cases hpc : ∃ r dep, d.pc = .enqueue r dep
  · obtain ⟨sid, pc⟩ := d
    obtain ⟨r, dep, rfl⟩ := hpc
    obtain rfl : how = .ok := hcall.resolve_right (by simp [DeletePc.picking])
    exact h.enqueued hmax found world_eq procs
  · simp only [not_exists] at hpc
    have hkept : (s.worldAfter (.delete d) how choice).queue = s.world.queue ∧
        (s.worldAfter (.delete d) how choice).jobKeys = s.world.jobKeys := by
      refine World.queue_after fun job hq => ?_
      obtain ⟨sid, pc⟩ := d
      cases pc with
      | enqueue r dep => exact hpc r dep rfl
      | _ => cases hq
    have hstops : ∀ st', Fast.stops ⟨st', true, {d.pc.token}⟩ = 0 := by
      intro st'
      cases d.pc <;> simp [DeletePc.token, Fast.stops]
    have hplays : ∀ R, Plays d.sandboxId s.world (s.worldAfter (.delete d) how choice)
        (d.pc.token ::ₘ R) R := DeleteSandbox.plays_ends lives hcall hpc ends
    refine h.ended_of_plays (w := s.worldAfter (.delete d) how choice) (T := {d.pc.token}) (U := 0)
      found procs (by simp [world_eq]) (by simp [world_eq]) (J := []) ?_ ?_ ?_ ?_ ?_ ?_
    · simp [world_eq, hkept]
    · simp
    · simp [Proc.tokens]
    · simp
    · exact fun R _ => by simpa using hplays R
    · rw [hstops]
      simp [world_eq, hkept, Fast.stops]

theorem onFastPath_step {settings : Settings} {sid : Uuid} {s t : State} {st : SandboxStatus}
    {a : Action} (hmax : 1 ≤ settings.jobMaxTries) (hs : OnFastPath settings sid s st)
    (ha : fastPath sid s a = true) (h : step settings s a = some t) :
    ∃ st', OnFastPath settings sid t st' := by
  cases stepped h with
  | tick now later result =>
    subst result
    exact hs.of_still rfl rfl rfl rfl rfl
  | spawned pid proc world drawn spawn absent world_eq drawn_eq procs =>
    exact hs.spawned ha spawn absent world_eq procs
  | dropped pid job queued tries =>
    have := hs.tries job queued (of_decide_eq_true ha)
    omega
  | died => cases ha
  | exited id c found result =>
    subst result
    refine hs.of_still rfl rfl ?_ rfl rfl
    rw [World.container_setContainer]
    simp
  | resumed pid how choice proc proc' events found lives resume world_eq drawn_eq procs =>
    exact hs.resumed ha found (Proc.goes_of_resume resume) world_eq procs
  | ended pid how choice proc outcome events found lives resume world_eq drawn_eq procs =>
    obtain ⟨-, hcall⟩ := fastPath_call ha
    simp only [found, Option.some.injEq] at hcall
    have hours := hs.ours pid proc found
    cases Proc.ends_of_resume resume with
    | start d reply counted outcome ends =>
      exact hs.ended_start found lives (by simpa using hcall) ends world_eq procs
    | stop d reply outcome ends =>
      obtain rfl : how = .ok := by simpa using hcall
      exact hs.ended_stop found ends world_eq procs
    | delete d reply outcome ends =>
      exact hs.ended_delete hmax found lives (by simpa using hcall) ends world_eq procs
    | _ => cases hours
  | killed => cases ha

/-! ## Quiescence -/

/-- The POST of the sandbox has committed its row and placed its start job; nothing else
about the sandbox has happened. -/
structure JustPosted (sid : Uuid) (s : State) : Prop where
  idle : s.procs.rows = []
  status : s.world.status sid = some .queued
  job : ∃ pool, s.world.queue.filter (fun job => decide (job.sandboxId = sid)) =
    [⟨.startSandbox, sid, pool, 1⟩]
  noStop : (Task.stopSandbox, sid) ∉ s.world.jobKeys
  noContainer : s.world.container sid = none

/-- No handler is in flight and no job of the sandbox is queued. -/
def Quiescent (sid : Uuid) (s : State) : Prop :=
  s.procs.rows = [] ∧ ∀ job ∈ s.world.queue, job.sandboxId ≠ sid

theorem State.jobTokens_eq_filter (sid : Uuid) (s : State) :
    s.jobTokens sid = ((s.world.queue.filter fun job => decide (job.sandboxId = sid)).map
      (Job.tokens sid)).sum := by
  unfold State.jobTokens
  induction s.world.queue with
  | nil => rfl
  | cons job jobs ih =>
    rw [List.map_cons, List.sum_cons, ih]
    by_cases hid : job.sandboxId = sid <;> simp [hid, Job.tokens]

theorem JustPosted.onFastPath {settings : Settings} {sid : Uuid} {s : State}
    (hmax : 1 ≤ settings.jobMaxTries) (h : JustPosted sid s) :
    OnFastPath settings sid s .queued := by
  obtain ⟨pool, hjob⟩ := h.job
  have hfast : s.fast sid .queued = ⟨.queued, false, {.startJob}⟩ := by
    simp [State.fast, h.noContainer, State.procTokens, h.idle, State.jobTokens_eq_filter, hjob,
      Job.tokens, Task.token]
  have hnone := State.idle_of_rows h.idle
  refine ⟨h.status, ?_, ?_, ?_, ?_, ?_⟩
  · rw [hfast]
    constructor <;> simp [Fast.starts, Fast.stops]
  · exact fun pid x hp => by cases (hnone pid).symm.trans hp
  · rw [hfast, List.count_eq_zero.mpr h.noStop]
    simp [Fast.stops]
  · intro job hj hid
    have hmem : job ∈ s.world.queue.filter fun job => decide (job.sandboxId = sid) :=
      List.mem_filter.mpr ⟨hj, decide_eq_true hid⟩
    rw [hjob, List.mem_singleton] at hmem
    exact hmem ▸ hmax
  · exact fun pid d reason hp => by cases (hnone pid).symm.trans hp

theorem OnFastPath.of_quiescent {settings : Settings} {sid : Uuid} {s : State} {st : SandboxStatus}
    (h : OnFastPath settings sid s st) (hq : Quiescent sid s) :
    st ∈ [SandboxStatus.running, .stopped, .failed] ∧
      ((s.world.container sid).isSome ↔ st = .running) := by
  have hjobs : s.jobTokens sid = 0 := by
    rw [State.jobTokens_eq_filter, List.filter_eq_nil_iff.mpr fun job hj => by simpa using hq.2 job hj]
    rfl
  have hfast : s.fast sid st = ⟨st, (s.world.container sid).isSome, 0⟩ := by
    simp [State.fast, State.procTokens, hq.1, hjobs]
  have hs := h.settles
  rw [hfast] at hs
  refine ⟨?_, fun hc => ?_, fun hst => hs.running hst⟩
  · cases st with
    | queued => simpa using hs.queued rfl
    | starting => simpa using hs.starting rfl
    | stopping => simpa [Fast.stops] using hs.stopping rfl
    | _ => simp
  · simpa [Fast.stops] using hs.attended hc

/-- Without the reaper: once nothing about a sandbox is queued or in flight, its row is
running, stopped or failed, and it has a container exactly if it is running. -/
theorem fast_path_leaks_nothing (settings : Settings) (hmax : 1 ≤ settings.jobMaxTries) (sid : Uuid)
    (s t : State) (as : List Action) (hs : JustPosted sid s)
    (hfast : Along settings (fun s a _ => fastPath sid s a = true) s as)
    (h : run settings s as = some t) (hq : Quiescent sid t) :
    ∃ st, t.world.status sid = some st ∧ st ∈ [SandboxStatus.running, .stopped, .failed] ∧
      ((t.world.container sid).isSome ↔ st = .running) := by
  have hstep : ∀ s a t, (∃ st, OnFastPath settings sid s st) → fastPath sid s a = true →
      step settings s a = some t → ∃ st, OnFastPath settings sid t st :=
    fun s a t ⟨_, hs⟩ ha hm => onFastPath_step hmax hs ha hm
  obtain ⟨st, ht⟩ := LabelledRuns.invariant (P := fun s a _ => fastPath sid s a = true) hstep
    ⟨_, hs.onFastPath hmax⟩ hfast h
  exact ⟨st, ht.status, ht.of_quiescent hq⟩

/-- A launch times out with its container created, and a DELETE comes while the second
try launches. -/
def deletedInRetry : List Action :=
  .deliver 1 ⟨.startSandbox, 1, .stable, 1⟩ :: List.replicate 4 (.ok 1) ++ .timesOut 1 ::
    List.replicate 2 (.ok 1) ++ .deliver 2 ⟨.startSandbox, 1, .stable, 2⟩ ::
    List.replicate 5 (.ok 2) ++ .delete 3 1 :: List.replicate 3 (.ok 3) ++ .fails 3 :: .ok 3 ::
    .deliver 4 ⟨.stopSandbox, 1, .stable, 1⟩ :: List.replicate 2 (.ok 4) ++ List.replicate 3 (.ok 2)

theorem fast_path_leaks_nothing_retried : ∃ s t,
    run ⟨2, 4, "localhost"⟩ (State.init 0 KeyedTable.empty 0) (posted 0 1 ++ [.ok 0]) = some s ∧
      run ⟨2, 4, "localhost"⟩ s deletedInRetry = some t ∧ Quiescent 1 t ∧
      ∃ st, t.world.status 1 = some st ∧ st ∈ [SandboxStatus.running, .stopped, .failed] ∧
        ((t.world.container 1).isSome ↔ st = .running) := by
  have hrun : (run ⟨2, 4, "localhost"⟩ (State.init 0 KeyedTable.empty 0) (posted 0 1 ++ [.ok 0])).any
      (fun s => decide (s.procs.rows = []) && decide (s.world.status 1 = some .queued) &&
        decide (s.world.queue.filter (fun job => decide (job.sandboxId = 1)) =
          [⟨.startSandbox, 1, .stable, 1⟩]) &&
        decide ((Task.stopSandbox, 1) ∉ s.world.jobKeys) && decide (s.world.container 1 = none) &&
        LabelledRuns.check (step ⟨2, 4, "localhost"⟩) (fun s a _ => fastPath 1 s a = true) s
          deletedInRetry &&
        (run ⟨2, 4, "localhost"⟩ s deletedInRetry).any fun t => decide (t.procs.rows = []) &&
          decide (t.world.queue = [])) = true := by decide
  obtain ⟨s, hs, hp⟩ := LabelledRuns.exists_run hrun
  simp only [Bool.and_eq_true, decide_eq_true_eq] at hp
  obtain ⟨⟨⟨⟨⟨⟨hidle, hst⟩, hjob⟩, hstop⟩, hcontainer⟩, hcheck⟩, hend⟩ := hp
  obtain ⟨t, ht, hquiet⟩ := LabelledRuns.exists_run hend
  simp only [Bool.and_eq_true, decide_eq_true_eq] at hquiet
  have hq : Quiescent 1 t := ⟨hquiet.1, by simp [hquiet.2]⟩
  exact ⟨s, t, hs, ht, hq, fast_path_leaks_nothing _ (by decide) 1 s t deletedInRetry
    ⟨hidle, hst, ⟨_, hjob⟩, hstop, hcontainer⟩ (LabelledRuns.along_of_check hcheck) ht hq⟩

end SandboxOrchestrator
