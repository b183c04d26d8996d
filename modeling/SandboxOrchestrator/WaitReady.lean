import SandboxOrchestrator.Handlers
import SandboxOrchestrator.WorldLemmas
import SandboxOrchestrator.Library.Polling

/-!
# The readiness loop

`_wait_ready` is one call of the delivery in the other modules. Here it is the loop it is:
probe, sleep 0.2 s, probe again, until an answer below 500, another exception than a
transport error, or the deadline. The timeout of the whole launch runs around it: what
`_ensure_container` has left of it may end first. Times are microseconds.
-/

namespace SandboxOrchestrator

set_option autoImplicit false

inductive Probe where
  | status (code : Nat)
  | transportError
  /-- The built-in `TimeoutError`: the handler around the loop takes it for its own deadline. -/
  | timeoutError
  /-- Any other exception; nothing here handles it. -/
  | raises (e : Exc)
  deriving DecidableEq

def Probe.stops : Probe → Bool
  | .status code => decide (code < 500)
  | .transportError => false
  | .timeoutError => true
  | .raises _ => true

/-- `sandbox_port` and `sandbox_ready_timeout_s`, the latter also as it is printed. -/
structure ReadySettings where
  sandboxPort : Nat
  readyTimeout : Nat
  readyTimeoutText : String

def sleepTime : Nat := 200000

def probeUrl (settings : ReadySettings) (sid : Uuid) : String :=
  "http://" ++ containerName sid ++ ":" ++ toString settings.sandboxPort ++ "/"

def sandboxNotReady (settings : ReadySettings) (sid : Uuid) : Exc :=
  ⟨"SandboxNotReady", "no answer on " ++ probeUrl settings sid ++ " within " ++
    settings.readyTimeoutText ++ "s"⟩

def pollReady (settings : ReadySettings) (probes : Nat → Polling.Attempt Probe) :
    Polling.Verdict Probe :=
  Polling.poll Probe.stops sleepTime settings.readyTimeout probes
    (Polling.rounds sleepTime settings.readyTimeout) 0 0

def waitReady (settings : ReadySettings) (sid : Uuid) (probes : Nat → Polling.Attempt Probe) : How :=
  match pollReady settings probes with
  | .answered _ (.raises e) => .raises e false
  | .answered _ .timeoutError => .raises (sandboxNotReady settings sid) false
  | .answered _ _ => .ok
  | .timedOut => .raises (sandboxNotReady settings sid) false

def waitReadyTime (settings : ReadySettings) (probes : Nat → Polling.Attempt Probe) : Nat :=
  match pollReady settings probes with
  | .answered at_ _ => at_
  | .timedOut => settings.readyTimeout

def timeoutError : Exc := ⟨"TimeoutError", ""⟩

/-- How the await of `_wait_ready` resolves when the launch has `left` of its timeout. -/
def launchReady (settings : ReadySettings) (sid : Uuid) (left : Nat)
    (probes : Nat → Polling.Attempt Probe) : How :=
  if waitReadyTime settings probes < left then waitReady settings sid probes
  else .raises timeoutError false

def launchReadyTime (settings : ReadySettings) (left : Nat)
    (probes : Nat → Polling.Attempt Probe) : Nat :=
  min (waitReadyTime settings probes) left

/-- Probe `i` is the first that stops the loop, and it is done in the loop's time. -/
structure Stops (settings : ReadySettings) (probes : Nat → Polling.Attempt Probe) (i : Nat) :
    Prop where
  stops : (probes i).answer.stops = true
  inTime : Polling.finishOf sleepTime probes i < settings.readyTimeout
  first : ∀ j < i, (probes j).answer.stops = false

/-- Probe `i` stops the loop before the launch times out. -/
structure Decides (settings : ReadySettings) (left : Nat) (probes : Nat → Polling.Attempt Probe)
    (i : Nat) : Prop extends Stops settings probes i where
  inLaunch : Polling.finishOf sleepTime probes i < left

section

variable {settings : ReadySettings} {sid : Uuid} {left : Nat}
  {probes : Nat → Polling.Attempt Probe}

theorem pollReady_eq_answered_iff {at_ : Nat} {answer : Probe} :
    pollReady settings probes = .answered at_ answer ↔
      ∃ i, Stops settings probes i ∧ at_ = Polling.finishOf sleepTime probes i ∧
        answer = (probes i).answer := by
  rw [pollReady, Polling.poll_eq_answered_iff (by decide)]
  constructor
  · rintro ⟨i, rfl, rfl, hstop, hlt, hfirst⟩
    exact ⟨i, ⟨hstop, hlt, hfirst⟩, rfl, rfl⟩
  · rintro ⟨i, hi, rfl, rfl⟩
    exact ⟨i, rfl, rfl, hi.stops, hi.inTime, hi.first⟩

theorem pollReady_of_none (h : ∀ i, ¬Stops settings probes i) :
    pollReady settings probes = .timedOut := by
  cases hpoll : pollReady settings probes with
  | timedOut => rfl
  | answered at_ answer =>
    obtain ⟨i, hi, -⟩ := pollReady_eq_answered_iff.mp hpoll
    exact absurd hi (h i)

theorem launchReady_of_decides {i : Nat} (h : Decides settings left probes i) :
    launchReady settings sid left probes =
      match (probes i).answer with
      | .raises e => .raises e false
      | .timeoutError => .raises (sandboxNotReady settings sid) false
      | _ => .ok := by
  have hpoll := pollReady_eq_answered_iff.mpr ⟨i, h.toStops, rfl, rfl⟩
  simp only [launchReady, waitReadyTime, hpoll, if_pos h.inLaunch, waitReady]
  cases (probes i).answer <;> rfl

theorem launchReady_of_loop (sid : Uuid) (h : ∀ i, ¬Decides settings left probes i)
    (hless : settings.readyTimeout < left) :
    launchReady settings sid left probes = .raises (sandboxNotReady settings sid) false := by
  have hpoll := pollReady_of_none fun i (hi : Stops settings probes i) =>
    h i ⟨hi, hi.inTime.trans hless⟩
  simp only [launchReady, waitReadyTime, hpoll, if_pos hless, waitReady]

theorem launchReady_of_launch (sid : Uuid) (h : ∀ i, ¬Decides settings left probes i)
    (hle : left ≤ settings.readyTimeout) :
    launchReady settings sid left probes = .raises timeoutError false := by
  rw [launchReady, if_neg]
  cases hpoll : pollReady settings probes with
  | timedOut => simpa [waitReadyTime, hpoll] using hle
  | answered at_ answer =>
    obtain ⟨i, hi, rfl, -⟩ := pollReady_eq_answered_iff.mp hpoll
    simp only [waitReadyTime, hpoll]
    exact fun hlt => h i ⟨hi, hlt⟩

theorem launchReadyTime_le :
    launchReadyTime settings left probes ≤ min settings.readyTimeout left := by
  refine Nat.le_min.mpr ⟨(Nat.min_le_left ..).trans ?_, Nat.min_le_right ..⟩
  cases hpoll : pollReady settings probes with
  | timedOut => simp [waitReadyTime, hpoll]
  | answered at_ answer =>
    obtain ⟨i, hi, rfl, -⟩ := pollReady_eq_answered_iff.mp hpoll
    simpa [waitReadyTime, hpoll] using Nat.le_of_lt hi.inTime

end

theorem StartSandbox.resume_ready (settings : Settings) (now : Time) {d : StartSandbox} {r : Sandbox}
    {p : Nat} (hpc : d.pc = .waitReady r p) :
    d.resume settings now .done =
        some ([], .goto { d with pc := .succeed r (launchUrl settings p) }) ∧
      ∀ e, d.resume settings now (.raised e) =
        some ([], .goto { d with pc := .discardBroken e.reason }) := by
  obtain ⟨sid, jobTry, pool, pc⟩ := d
  obtain rfl := hpc
  exact ⟨rfl, fun _ => rfl⟩

def StartSandbox.waited (settings : Settings) (ready : ReadySettings) (left : Nat) (now : Time)
    (w : World) (choice : Choice) (d : StartSandbox) (probes : Nat → Polling.Attempt Probe) :
    Option (List Event × Next StartSandbox) :=
  d.resume settings now
    (w.reply .startSandbox (launchReady ready d.sandboxId left probes) choice d.request)

theorem StartSandbox.waited_of_how (settings : Settings) (ready : ReadySettings) (left : Nat)
    (now : Time) (w : World) (choice : Choice) {d : StartSandbox} {r : Sandbox} {p : Nat}
    (hpc : d.pc = .waitReady r p) (probes : Nat → Polling.Attempt Probe) :
    (launchReady ready d.sandboxId left probes = .ok →
        d.waited settings ready left now w choice probes =
          some ([], .goto { d with pc := .succeed r (launchUrl settings p) })) ∧
      ∀ e, launchReady ready d.sandboxId left probes = .raises e false →
        d.waited settings ready left now w choice probes =
          some ([], .goto { d with pc := .discardBroken e.reason }) := by
  have hrequest : d.request = .probe := by simp [request, hpc]
  obtain ⟨hdone, hraised⟩ := resume_ready settings now hpc
  constructor
  · intro hhow
    rw [waited, hhow, hrequest]
    exact hdone
  · intro e hhow
    rw [waited, hhow]
    exact hraised e

/-- However long the probes take and whatever they answer, the wait ends with the loop's timeout
or with what is left of the launch's. It sends the delivery on to the RUNNING write if and only
if the first probe to stop the loop by then has a status below 500; if that probe raised, the
launch failed with its exception. If that probe raised a `TimeoutError` or the loop's own timeout
came first, the launch failed with `SandboxNotReady`; if the launch's came first, with
`TimeoutError`. -/
theorem wait_ready_decides (settings : Settings) (ready : ReadySettings) (left : Nat) (now : Time)
    (w : World) (choice : Choice) (d : StartSandbox) (r : Sandbox) (p : Nat)
    (hpc : d.pc = .waitReady r p) (probes : Nat → Polling.Attempt Probe) :
    launchReadyTime ready left probes ≤ min ready.readyTimeout left ∧
      (d.waited settings ready left now w choice probes =
          some ([], .goto { d with pc := .succeed r (launchUrl settings p) }) ↔
        ∃ i code, Decides ready left probes i ∧ (probes i).answer = .status code) ∧
      (∀ i e, Decides ready left probes i → (probes i).answer = .raises e →
        d.waited settings ready left now w choice probes =
          some ([], .goto { d with pc := .discardBroken e.reason })) ∧
      ((∃ i, Decides ready left probes i ∧ (probes i).answer = .timeoutError) ∨
          (∀ i, ¬Decides ready left probes i) ∧ ready.readyTimeout < left →
        d.waited settings ready left now w choice probes =
          some ([], .goto { d with
            pc := .discardBroken (sandboxNotReady ready d.sandboxId).reason })) ∧
      ((∀ i, ¬Decides ready left probes i) → left ≤ ready.readyTimeout →
        d.waited settings ready left now w choice probes =
          some ([], .goto { d with pc := .discardBroken timeoutError.reason })) := by
  obtain ⟨hok, hraises⟩ := StartSandbox.waited_of_how settings ready left now w choice hpc probes
  have hfailed : ∀ i e, Decides ready left probes i → (probes i).answer = .raises e →
      d.waited settings ready left now w choice probes =
        some ([], .goto { d with pc := .discardBroken e.reason }) := by
    intro i e hi he
    refine hraises e ?_
    rw [launchReady_of_decides hi, he]
  have hnotReady : (∃ i, Decides ready left probes i ∧ (probes i).answer = .timeoutError) ∨
      (∀ i, ¬Decides ready left probes i) ∧ ready.readyTimeout < left →
      d.waited settings ready left now w choice probes = some ([], .goto { d with
        pc := .discardBroken (sandboxNotReady ready d.sandboxId).reason }) := by
    rintro (⟨i, hi, hlate⟩ | ⟨hnone, hless⟩)
    · refine hraises _ ?_
      rw [launchReady_of_decides hi, hlate]
    · exact hraises _ (launchReady_of_loop d.sandboxId hnone hless)
  have htimedOut : (∀ i, ¬Decides ready left probes i) → left ≤ ready.readyTimeout →
      d.waited settings ready left now w choice probes =
        some ([], .goto { d with pc := .discardBroken timeoutError.reason }) :=
    fun hnone hle => hraises _ (launchReady_of_launch d.sandboxId hnone hle)
  refine ⟨launchReadyTime_le, ⟨fun h => ?_, ?_⟩, hfailed, hnotReady, htimedOut⟩
  · by_contra hnot
    by_cases hany : ∃ i, Decides ready left probes i
    · obtain ⟨i, hi⟩ := hany
      cases hanswer : (probes i).answer with
      | status code => exact hnot ⟨i, code, hi, hanswer⟩
      | transportError =>
        have hstops := hi.stops
        rw [hanswer] at hstops
        cases hstops
      | timeoutError =>
        rw [hnotReady (.inl ⟨i, hi, hanswer⟩)] at h
        simp at h
      | raises e =>
        rw [hfailed i e hi hanswer] at h
        simp at h
    · have hnone : ∀ i, ¬Decides ready left probes i := fun i hi => hany ⟨i, hi⟩
      rcases Nat.lt_or_ge ready.readyTimeout left with hless | hle
      · rw [hnotReady (.inr ⟨hnone, hless⟩)] at h
        simp at h
      · rw [htimedOut hnone hle] at h
        simp at h
  · rintro ⟨i, code, hi, hanswer⟩
    refine hok ?_
    rw [launchReady_of_decides hi, hanswer]

/-- The first probe finds the server not ready, the second does. -/
def secondProbe (i : Nat) : Polling.Attempt Probe :=
  if i = 0 then ⟨100000, .status 503⟩ else ⟨100000, .status 200⟩

def anHttpRow : Sandbox := (CreateSandbox.start oneMinute none 1).draft .stable 0

theorem wait_ready_decides_second :
    (⟨1, 1, .stable, .waitReady anHttpRow 8080⟩ : StartSandbox).waited ⟨3, 50, "localhost"⟩
        ⟨8080, 15000000, "15.0"⟩ 2000000 0 (State.init 0 KeyedTable.empty 0).world {} secondProbe =
      some ([], .goto ⟨1, 1, .stable, .succeed anHttpRow "http://localhost:8080"⟩) := by
  have hdecides : Decides ⟨8080, 15000000, "15.0"⟩ 2000000 secondProbe 1 :=
    ⟨⟨rfl, by decide, fun j hj => by rw [Nat.lt_one_iff.mp hj]; rfl⟩, by decide⟩
  exact (wait_ready_decides ⟨3, 50, "localhost"⟩ ⟨8080, 15000000, "15.0"⟩ 2000000 0
    (State.init 0 KeyedTable.empty 0).world {} ⟨1, 1, .stable, .waitReady anHttpRow 8080⟩ anHttpRow
    8080 rfl secondProbe).2.1.mpr ⟨1, 200, hdecides, rfl⟩

end SandboxOrchestrator
