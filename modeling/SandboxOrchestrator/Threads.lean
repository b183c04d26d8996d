import SandboxOrchestrator.EnsureContainer
import SandboxOrchestrator.Launch

/-!
# Docker calls that outlive their caller

`DockerRuntime._run` bounds the wait for a thread, not the thread: once the deadline has
passed, or the job is cancelled, the caller goes on and the thread makes the daemon calls it
has left. `Threaded` is the system together with the threads nobody waits for any more. Its
runs without a step of theirs are the runs of the system.
-/

namespace SandboxOrchestrator

set_option autoImplicit false

/-- A thread nobody waits for, at its next call of the daemon. -/
inductive Thread where
  | ensureContainer (sid : Uuid) (expiresAt : Time) (pc : EnsureContainer.Pc)
  /-- `_remove`, before `containers.get(name)`. -/
  | remove (sid : Uuid)
  /-- `_remove`, with the container it got. -/
  | removeObject (sid : Uuid) (objectId : Nat)
  deriving DecidableEq

namespace Thread

def sandboxId : Thread → Uuid
  | .ensureContainer sid _ _ => sid
  | .remove sid => sid
  | .removeObject sid _ => sid

def request : Thread → Request
  | .ensureContainer sid expiresAt pc => EnsureContainer.request sid expiresAt pc
  | .remove sid => .inspect sid
  | .removeObject sid n => .removeObject sid n

def resume : Thread → Reply → Option Thread
  | .ensureContainer sid expiresAt pc, reply =>
    match EnsureContainer.resume sid pc reply with
    | some (.awaits pc') => some (.ensureContainer sid expiresAt pc')
    | _ => none
  | .remove sid, .object (some (n, _)) => some (.removeObject sid n)
  | _, _ => none

def after (w : World) (how : How) (choice : Choice) (th : Thread) : World :=
  w.after .startSandbox how choice th.request

/-- A thread dies with its process; no call of it is awaited. -/
def next (w : World) (how : How) (choice : Choice) (th : Thread) : Option Thread :=
  match how with
  | .killed _ _ => none
  | _ => th.resume (w.reply .startSandbox how choice th.request)

end Thread

/-- The thread that makes the call a handler waits for. -/
def Proc.thread : Proc → Option Thread
  | .start d =>
    match d.pc with
    | .discardBroken _ => some (.remove d.sandboxId)
    | .discardUnwanted => some (.remove d.sandboxId)
    | pc => (EnsureContainer.ofStart pc).map fun x => .ensureContainer d.sandboxId x.1.expiresAt x.2
  | .stop d => if d.pc = .remove then some (.remove d.sandboxId) else none
  | .sweep ⟨_, .remove _ c _ _⟩ => some (.remove c.sandboxId)
  | _ => none

structure Threaded where
  state : State
  threads : List Thread

inductive ThreadedAction where
  | step (a : Action)
  /-- The handler `pid` stops waiting for its call, or is cancelled, and the thread goes on. -/
  | leave (pid : Nat) (how : How)
  /-- The call of the thread at index `i` resolves. -/
  | thread (i : Nat) (how : How) (choice : Choice)
  deriving DecidableEq

namespace Threaded

def init (now : Time) (containers : Containers) (nextObject : Nat) : Threaded :=
  ⟨State.init now containers nextObject, []⟩

def step (settings : Settings) (s : Threaded) : ThreadedAction → Option Threaded
  | .step a => (SandboxOrchestrator.step settings s.state a).map fun t => { s with state := t }
  | .leave pid how =>
    if how.effect then none
    else ((s.state.proc pid).bind Proc.thread).bind fun th =>
      (SandboxOrchestrator.step settings s.state (.await pid how {})).map fun t =>
        ⟨t, s.threads ++ [th]⟩
  | .thread i how choice => s.threads[i]?.map fun th =>
    { state := { s.state with world := th.after s.state.world how choice }
      threads := s.threads.eraseIdx i ++ (th.next s.state.world how choice).toList }

abbrev run (settings : Settings) : Threaded → List ThreadedAction → Option Threaded :=
  LabelledRuns.run (step settings)

abbrev Along (settings : Settings) :
    (Threaded → ThreadedAction → Threaded → Prop) → Threaded → List ThreadedAction → Prop :=
  LabelledRuns.Along (step settings)

end Threaded

def ThreadedAction.base : ThreadedAction → Option Action
  | .step a => some a
  | .leave pid how => some (.await pid how {})
  | .thread _ _ _ => none

abbrev steps (as : List Action) : List ThreadedAction := as.map .step

/-- `P` of the steps that are not a thread's. -/
def OnBase (P : State → Action → State → Prop) (s : Threaded) (a : ThreadedAction) (t : Threaded) :
    Prop :=
  ∀ b ∈ a.base, P s.state b t.state

instance (P : State → Action → State → Prop) [∀ s a t, Decidable (P s a t)] (s : Threaded)
    (a : ThreadedAction) (t : Threaded) : Decidable (OnBase P s a t) :=
  inferInstanceAs (Decidable (∀ b ∈ a.base, _))

/-! ## The call of a thread -/

section

variable {w : World} {th : Thread} {how : How} {choice : Choice} {sid : Uuid}

/-- A thread changes nothing but containers. -/
theorem Thread.after_eq (w : World) (how : How) (choice : Choice) (th : Thread) :
    ∃ containers nextObject,
      th.after w how choice = { w with containers := containers, nextObject := nextObject } := by
  unfold Thread.after World.after
  split
  · have hsame : ∀ w' : World, w' = w → ∃ containers nextObject,
        w' = { w with containers := containers, nextObject := nextObject } := by
      rintro _ rfl
      exact ⟨_, _, rfl⟩
    have hremoved : ∀ id n, ∃ containers nextObject,
        (w.perform .startSandbox choice (.removeObject id n)).1 =
          { w with containers := containers, nextObject := nextObject } := by
      intro id n
      simp only [World.perform]
      split
      · exact ⟨_, _, rfl⟩
      · exact hsame _ rfl
    cases th with
    | remove sid => exact hsame _ rfl
    | removeObject sid n => exact hremoved sid n
    | ensureContainer sid expiresAt pc =>
      cases pc with
      | inspect => exact hsame _ rfl
      | conflict => exact hsame _ rfl
      | removeLeftover n => exact hremoved sid n
      | create =>
        simp only [Thread.request, EnsureContainer.request, World.perform, World.createContainer]
        split
        · exact ⟨_, _, rfl⟩
        · exact hsame _ rfl
      | startObject n =>
        simp only [Thread.request, EnsureContainer.request, World.perform]
        split
        · exact ⟨_, _, rfl⟩
        · exact hsame _ rfl
      | reload n =>
        simp only [Thread.request, EnsureContainer.request, World.perform]
        split <;> exact hsame _ rfl
  · exact ⟨w.containers, w.nextObject, rfl⟩

theorem Thread.row_after (w : World) (how : How) (choice : Choice) (th : Thread) (sid : Uuid) :
    (th.after w how choice).row sid = w.row sid := by
  obtain ⟨containers, nextObject, h⟩ := th.after_eq w how choice
  rw [h]
  rfl

theorem Thread.status_after (w : World) (how : How) (choice : Choice) (th : Thread) (sid : Uuid) :
    (th.after w how choice).status sid = w.status sid :=
  congrArg (Option.map _) (th.row_after w how choice sid)

theorem Thread.log_after (w : World) (how : How) (choice : Choice) (th : Thread) :
    (th.after w how choice).log = w.log := by
  obtain ⟨containers, nextObject, h⟩ := th.after_eq w how choice
  rw [h]

theorem Thread.now_after (w : World) (how : How) (choice : Choice) (th : Thread) :
    (th.after w how choice).now = w.now := by
  obtain ⟨containers, nextObject, h⟩ := th.after_eq w how choice
  rw [h]

theorem Thread.queue_after (w : World) (how : How) (choice : Choice) (th : Thread) :
    (th.after w how choice).queue = w.queue := by
  obtain ⟨containers, nextObject, h⟩ := th.after_eq w how choice
  rw [h]

theorem Thread.forward_after (w : World) (how : How) (choice : Choice) (th : Thread) :
    RowsForward w (th.after w how choice) :=
  fun sid r hr => ⟨r, (th.row_after w how choice sid).trans hr, .refl r⟩

theorem Thread.containerChange (w : World) (how : How) (choice : Choice) (th : Thread) (sid : Uuid) :
    ContainerChange w th.request sid ((th.after w how choice).container sid) :=
  containerChange_after w .startSandbox how choice th.request sid

theorem Thread.container_other (h : th.sandboxId ≠ sid) :
    (th.after w how choice).container sid = w.container sid := by
  have hid : ∀ q : Request, th.request = q →
      q ≠ .remove sid ∧ (∀ n, q ≠ .removeObject sid n) ∧ (∀ t, q ≠ .create sid t) ∧
        ∀ n, q ≠ .startObject sid n := by
    rintro q rfl
    cases th with
    | ensureContainer id t pc => cases pc <;> simp_all [request, EnsureContainer.request, sandboxId]
    | remove id => simp_all [request, sandboxId]
    | removeObject id n => simp_all [request, sandboxId]
  obtain ⟨hremove, hobject, hcreate, hstart⟩ := hid _ rfl
  have hchange := th.containerChange w how choice sid
  generalize (th.after w how choice).container sid = x at hchange ⊢
  cases hchange with
  | same => rfl
  | removed cause =>
    rcases cause with hq | ⟨n, hq⟩
    · exact absurd hq hremove
    · exact absurd hq (hobject n)
  | created t isCreate => exact absurd isCreate (hcreate t)
  | started n port c isStart => exact absurd isStart (hstart n)

/-- The container the next call of the thread removes, if it still is the one it got. -/
def Thread.removing : Thread → Option (Uuid × Nat)
  | .ensureContainer sid _ (.removeLeftover n) => some (sid, n)
  | .removeObject sid n => some (sid, n)
  | _ => none

def Thread.takes (sid : Uuid) (w : World) (how : How) (th : Thread) : Bool :=
  how.effect && th.removing.any fun x => decide (x.1 = sid) && (w.object sid x.2).isSome

def Thread.launches : Thread → Bool
  | .ensureContainer _ _ _ => true
  | _ => false

def Thread.creates : Thread → Bool
  | .ensureContainer _ _ .create => true
  | _ => false

/-- A thread brings a container about only by its create. -/
theorem Thread.container_none (h : (how.effect && th.creates) = true → th.sandboxId ≠ sid)
    (hc : w.container sid = none) : (th.after w how choice).container sid = none := by
  by_cases hid : th.sandboxId = sid
  · by_cases heffect : how.effect = true
    · have hchange := th.containerChange w how choice sid
      generalize (th.after w how choice).container sid = x at hchange ⊢
      cases hchange with
      | same => exact hc
      | removed => rfl
      | started n port c isStart found => cases hc.symm.trans found
      | created t isCreate =>
        exfalso
        cases th with
        | ensureContainer id expiresAt pc =>
          cases pc <;> cases isCreate
          exact h (by simp [heffect, Thread.creates]) hid
        | remove id => cases isCreate
        | removeObject id n => cases isCreate
    · rw [Thread.after, World.after, if_neg heffect]
      exact hc
  · exact (Thread.container_other hid).trans hc

theorem Thread.container_kept (h : th.takes sid w how = false) (hc : (w.container sid).isSome) :
    ((th.after w how choice).container sid).isSome := by
  have hchange := th.containerChange w how choice sid
  generalize hx : (th.after w how choice).container sid = x at hchange ⊢
  cases hchange with
  | same => exact hc
  | created => rfl
  | started => rfl
  | removed cause =>
    exfalso
    have hcause : ∃ n, th.request = .removeObject sid n := by
      refine cause.resolve_left fun hremove => ?_
      cases th with
      | ensureContainer id t pc => cases pc <;> cases hremove
      | remove id => cases hremove
      | removeObject id n => cases hremove
    obtain ⟨n, hn⟩ := hcause
    have hremoving : th.removing = some (sid, n) := by
      cases th with
      | ensureContainer id t pc => cases pc <;> cases hn; rfl
      | remove id => cases hn
      | removeObject id n => cases hn; rfl
    have hstays : ((th.after w how choice).container sid) = w.container sid := by
      unfold Thread.after World.after
      split
      · rename_i heffect
        simp only [Thread.takes, heffect, hremoving, Option.any_some, decide_true, Bool.true_and] at h
        have hnone : w.object sid n = none := by simpa using h
        rw [hn]
        simp only [World.perform, hnone]
      · rfl
    rw [hx] at hstays
    rw [← hstays] at hc
    cases hc

end

/-! ## A step of the whole -/

section

variable {settings : Settings} {s t : Threaded} {a : ThreadedAction}

inductive ThreadedStep (settings : Settings) (s t : Threaded) (a : ThreadedAction) : Prop where
  | base (b : Action) (isBase : a.base = some b)
      (step : step settings s.state b = some t.state)
  | thread (i : Nat) (how : How) (choice : Choice) (th : Thread) (isThread : a = .thread i how choice)
      (found : s.threads[i]? = some th)
      (result : t.state = { s.state with world := th.after s.state.world how choice })

theorem threadedStep (h : s.step settings a = some t) : ThreadedStep settings s t a := by
  cases a with
  | step a =>
    obtain ⟨t', ht', rfl⟩ := Option.map_eq_some_iff.mp h
    exact .base a rfl ht'
  | leave pid how =>
    simp only [Threaded.step] at h
    split at h
    · cases h
    · obtain ⟨th, -, h⟩ := Option.bind_eq_some_iff.mp h
      obtain ⟨t', ht', rfl⟩ := Option.map_eq_some_iff.mp h
      exact .base _ rfl ht'
  | thread i how choice =>
    obtain ⟨th, hth, rfl⟩ := Option.map_eq_some_iff.mp h
    exact .thread i how choice th rfl hth rfl

theorem Proc.thread_launch {proc : Proc} {sid : Uuid} {expiresAt : Time} {pc : EnsureContainer.Pc}
    (h : proc.thread = some (.ensureContainer sid expiresAt pc)) :
    ∃ d r, proc = .start d ∧ d.sandboxId = sid ∧ EnsureContainer.ofStart d.pc = some (r, pc) ∧
      r.expiresAt = expiresAt := by
  cases proc with
  | start d =>
    obtain ⟨id, jobTry, pool, pc₀⟩ := d
    cases pc₀ <;> cases h <;> exact ⟨_, _, rfl, rfl, rfl, rfl⟩
  | stop d =>
    simp only [thread, Option.ite_none_right_eq_some, reduceCtorEq, and_false, Option.some.injEq] at h
  | sweep p =>
    obtain ⟨n, pc₀⟩ := p
    cases pc₀ <;> cases h
  | _ => cases h

theorem Thread.resume_launch {th : Thread} {sid : Uuid} {reply : Reply} {expiresAt : Time}
    {pc : EnsureContainer.Pc} (h : th.resume reply = some (.ensureContainer sid expiresAt pc)) :
    ∃ pc₀, th = .ensureContainer sid expiresAt pc₀ := by
  unfold resume at h
  split at h
  · split at h
    · cases h
      exact ⟨_, rfl⟩
    · cases h
  · cases h
  · cases h

/-- A thread was left over before, or was left by the step, or goes on from one that was. -/
theorem Threaded.mem_threads (h : s.step settings a = some t) {th : Thread} (hth : th ∈ t.threads) :
    th ∈ s.threads ∨
      (∃ pid how proc, a = .leave pid how ∧ s.state.proc pid = some proc ∧ proc.thread = some th) ∨
      ∃ th₀ reply, th₀ ∈ s.threads ∧ th₀.resume reply = some th := by
  cases a with
  | step a =>
    obtain ⟨t', -, rfl⟩ := Option.map_eq_some_iff.mp h
    exact .inl hth
  | leave pid how =>
    simp only [Threaded.step] at h
    split at h
    · cases h
    · obtain ⟨th', hth', h⟩ := Option.bind_eq_some_iff.mp h
      obtain ⟨proc, hp, hthread⟩ := Option.bind_eq_some_iff.mp hth'
      obtain ⟨t', -, rfl⟩ := Option.map_eq_some_iff.mp h
      rcases List.mem_append.mp hth with hold | hnew
      · exact .inl hold
      · obtain rfl := List.mem_singleton.mp hnew
        exact .inr (.inl ⟨pid, how, proc, rfl, hp, hthread⟩)
  | thread i how choice =>
    obtain ⟨th₀, hth₀, rfl⟩ := Option.map_eq_some_iff.mp h
    rcases List.mem_append.mp hth with hold | hnew
    · exact .inl (List.mem_of_mem_eraseIdx hold)
    · have hnext : th₀.next s.state.world how choice = some th := by simpa using hnew
      unfold Thread.next at hnext
      split at hnext
      · cases hnext
      · exact .inr (.inr ⟨th₀, _, List.mem_of_getElem? hth₀, hnext⟩)

theorem Threaded.run_steps {s t : State} {as : List Action}
    (h : SandboxOrchestrator.run settings s as = some t) (threads : List Thread) :
    Threaded.run settings ⟨s, threads⟩ (steps as) = some ⟨t, threads⟩ := by
  induction as generalizing s with
  | nil =>
    cases h
    rfl
  | cons a as ih =>
    obtain ⟨m, hm, h⟩ := LabelledRuns.run_cons_eq_some.mp h
    refine LabelledRuns.run_cons_eq_some.mpr ⟨⟨m, threads⟩, ?_, ih h⟩
    rw [Threaded.step, hm, Option.map_some]

theorem Threaded.along_steps {P : State → Action → State → Prop} {s : State} {as : List Action}
    (h : SandboxOrchestrator.Along settings P s as) (threads : List Thread) :
    Threaded.Along settings (OnBase P) ⟨s, threads⟩ (steps as) := by
  induction as generalizing s with
  | nil => trivial
  | cons a as ih =>
    cases hm : SandboxOrchestrator.step settings s a with
    | none => simp [LabelledRuns.Along, Threaded.step, hm]
    | some m =>
      obtain ⟨hP, h⟩ := (LabelledRuns.along_cons hm).mp h
      refine (LabelledRuns.along_cons (t := ⟨m, threads⟩) ?_).mpr ⟨fun b hb => ?_, ih h⟩
      · rw [Threaded.step, hm, Option.map_some]
      · cases hb
        exact hP

theorem Threaded.forward (h : s.step settings a = some t) :
    RowsForward s.state.world t.state.world := by
  cases threadedStep h with
  | base b isBase step => exact (SandboxOrchestrator.stepped step).forward
  | thread i how choice th isThread found result =>
    rw [result]
    exact th.forward_after s.state.world how choice

theorem Threaded.run_forward {as : List ThreadedAction} (h : s.run settings as = some t) :
    RowsForward s.state.world t.state.world :=
  LabelledRuns.always (I := fun u : Threaded => RowsForward s.state.world u.state.world)
    (fun _ _ _ hu hv => hu.trans (Threaded.forward hv)) (.refl _) h

/-- What the system's steps keep and the threads' calls keep holds after every run. -/
theorem Threaded.invariant {I : State → Prop} {P : State → Action → State → Prop}
    {Q : Threaded → ThreadedAction → Threaded → Prop}
    (pres : ∀ s a t, I s → P s a t → SandboxOrchestrator.step settings s a = some t → I t)
    (threads : ∀ (s t : Threaded) (i : Nat) (how : How) (choice : Choice) (th : Thread), I s.state →
      Q s (.thread i how choice) t → s.threads[i]? = some th →
      I { s.state with world := th.after s.state.world how choice })
    {as : List ThreadedAction} (hs : I s.state)
    (hP : s.Along settings (fun s a t => OnBase P s a t ∧ Q s a t) as)
    (h : s.run settings as = some t) : I t.state := by
  refine LabelledRuns.invariant (I := fun u : Threaded => I u.state) (fun u b v hu hb hv => ?_) hs hP h
  cases threadedStep hv with
  | base b' isBase step => exact pres _ _ _ hu (hb.1 b' isBase) step
  | thread i how choice th isThread found result =>
    subst isThread
    rw [result]
    exact threads u v i how choice th hu hb.2 found

/-- A delivery of `sid` that has read the port of its container. -/
def Proc.holds (sid : Uuid) : Proc → Bool
  | .start d => decide (d.sandboxId = sid) && d.pc.holding
  | _ => false

/-- No thread takes the container of `sid` while its row runs, or a delivery that has read its
port has yet to write the row. -/
def SparesRunning (sid : Uuid) (s : Threaded) (a : ThreadedAction) (_ : Threaded) : Prop :=
  match a with
  | .thread i how _ => (s.threads[i]?.all fun th => !th.takes sid s.state.world how ||
      (decide (s.state.world.status sid ≠ some .running) &&
        s.state.procs.rows.all fun e => !e.2.holds sid)) = true
  | _ => True

instance (sid : Uuid) (s : Threaded) (a : ThreadedAction) (t : Threaded) :
    Decidable (SparesRunning sid s a t) :=
  match a with
  | .step _ => inferInstanceAs (Decidable True)
  | .leave _ _ => inferInstanceAs (Decidable True)
  | .thread _ _ _ => inferInstanceAs (Decidable (_ = true))

theorem SparesRunning.spares {sid : Uuid} {i : Nat} {how : How} {choice : Choice} {th : Thread}
    (h : SparesRunning sid s (.thread i how choice) t) (found : s.threads[i]? = some th)
    (hwanted : s.state.world.status sid = some .running ∨
      ∃ p proc, s.state.proc p = some proc ∧ proc.holds sid = true) :
    th.takes sid s.state.world how = false := by
  rw [SparesRunning, found] at h
  simp only [Option.all_some, Bool.or_eq_true, Bool.and_eq_true, Bool.not_eq_true',
    decide_eq_true_eq, List.all_eq_true] at h
  refine h.resolve_right fun ⟨hstatus, hprocs⟩ => ?_
  rcases hwanted with hrun | ⟨p, proc, hp, hholds⟩
  · exact hstatus hrun
  · cases hholds.symm.trans (hprocs (p, proc) (State.mem_procs_iff.mpr hp))

def ThreadsSpare (sid : Uuid) (s : Threaded) (a : ThreadedAction) (_ : Threaded) : Prop :=
  match a with
  | .thread i _ _ => (s.threads[i]?.all fun th => decide (th.sandboxId ≠ sid)) = true
  | _ => True

instance (sid : Uuid) (s : Threaded) (a : ThreadedAction) (t : Threaded) :
    Decidable (ThreadsSpare sid s a t) :=
  match a with
  | .step _ => inferInstanceAs (Decidable True)
  | .leave _ _ => inferInstanceAs (Decidable True)
  | .thread _ _ _ => inferInstanceAs (Decidable (_ = true))

theorem ThreadsSpare.other {sid : Uuid} {i : Nat} {how : How} {choice : Choice} {th : Thread}
    (h : ThreadsSpare sid s (.thread i how choice) t) (found : s.threads[i]? = some th) :
    th.sandboxId ≠ sid := by
  simpa [ThreadsSpare, found] using h

theorem provenance_thread {s : State} (hs : Provenance s) (how : How) (choice : Choice)
    (th : Thread) : Provenance { s with world := th.after s.world how choice } where
  procs pid proc hp := (hs.procs pid proc hp).forward (th.forward_after s.world how choice)
  queue job hj := by
    have hmem : job ∈ s.world.queue := th.queue_after s.world how choice ▸ hj
    exact (hs.queue job hmem).forward (th.forward_after s.world how choice)
  placed job hj := by
    have hmem : .placed job ∈ s.world.log := th.log_after s.world how choice ▸ hj
    exact (hs.placed job hmem).forward (th.forward_after s.world how choice)

theorem provenance_threaded (hs : Provenance s.state) (h : s.step settings a = some t) :
    Provenance t.state := by
  cases threadedStep h with
  | base b isBase step => exact provenance_step hs step
  | thread i how choice th isThread found result =>
    rw [result]
    exact provenance_thread hs how choice th

end

end SandboxOrchestrator
