import SandboxOrchestrator.Handlers
import SandboxOrchestrator.Library.TimedPaths
import Mathlib.Tactic.Linarith
import Mathlib.Tactic.NormNum
import Mathlib.Tactic.Ring
import Mathlib.Data.Rat.Defs

/-!
# A delivery inside arq's timeout

The timeouts of `Settings`, as exact rationals, and its check that the launch fits in the
job. The check adds up the launch, its cleanup and two database calls; the longest path of
`start_sandbox` makes three.
-/

namespace SandboxOrchestrator

set_option autoImplicit false

open TimedPaths

structure Timeouts where
  jobTimeoutS : ℚ := 90
  launchTimeoutS : ℚ := 45
  dockerTimeoutS : ℚ := 10
  dbTimeoutS : ℚ := 5
  nonneg : 0 ≤ launchTimeoutS ∧ 0 ≤ dockerTimeoutS ∧ 0 ≤ dbTimeoutS := by decide
  deriving DecidableEq

/-- The `ValueError` of the check, with the number its text shows. -/
inductive SettingsError where
  | jobTimeoutTooShort (worst : ℚ)
  deriving DecidableEq

namespace Timeouts

def worst (t : Timeouts) : ℚ := t.launchTimeoutS + 3 * t.dockerTimeoutS + 2 * t.dbTimeoutS

def launchFitsInJob (t : Timeouts) : Except SettingsError Timeouts :=
  if t.worst > t.jobTimeoutS then .error (.jobTimeoutTooShort t.worst) else .ok t

theorem launchFitsInJob_eq_ok (t : Timeouts) :
    t.launchFitsInJob = .ok t ↔ t.worst ≤ t.jobTimeoutS := by
  simp [launchFitsInJob]

/-- The defaults pass their own check. -/
example : launchFitsInJob {} = .ok {} := (launchFitsInJob_eq_ok {}).mpr (by norm_num [worst])

/-- The bound a call sets itself, outside the launch. Reading the clock is no await. -/
def bound (t : Timeouts) : StartPc → ℚ
  | .expiryCheck _ => 0
  | .discardBroken _ => 3 * t.dockerTimeoutS
  | .discardUnwanted => 3 * t.dockerTimeoutS
  | _ => t.dbTimeoutS

def remaining (t : Timeouts) : StartPc → ℚ
  | .get => 3 * t.dockerTimeoutS + 3 * t.dbTimeoutS
  | .expiryCheck _ => 3 * t.dockerTimeoutS + 2 * t.dbTimeoutS
  | .expire => t.dbTimeoutS
  | .pickUp _ => 3 * t.dockerTimeoutS + 2 * t.dbTimeoutS
  | .retry _ => t.dbTimeoutS
  | .fail _ => t.dbTimeoutS
  | .discardUnwanted => 3 * t.dockerTimeoutS
  | _ => 3 * t.dockerTimeoutS + t.dbTimeoutS

theorem remaining_of_launching (t : Timeouts) {pc : StartPc} (h : pc.launching = true) :
    t.remaining pc = 3 * t.dockerTimeoutS + t.dbTimeoutS := by
  cases pc <;> first | rfl | cases h

end Timeouts

namespace StartSandbox

def GoesOn (settings : Settings) (d d' : StartSandbox) : Prop :=
  ∃ now reply events, d.resume settings now reply = some (events, .goto d')

def CanEnd (settings : Settings) (d : StartSandbox) : Prop :=
  ∃ now reply events outcome, d.resume settings now reply = some (events, .done outcome)

/-- The awaits of a delivery from its `session.get` to its last write or discard, with the
seconds each took. -/
abbrev AwaitPath (settings : Settings) : StartSandbox → List (StartSandbox × ℚ) → Prop :=
  Path (GoesOn settings) (CanEnd settings)

/-- Each await of the path keeps its own bound; those of the launch have one together. -/
structure Keeps (t : Timeouts) (path : List (StartSandbox × ℚ)) : Prop where
  nonneg : ∀ x ∈ path, 0 ≤ x.2
  each : ∀ x ∈ path, x.1.pc.launching = false → x.2 ≤ t.bound x.1.pc
  launch : spent (fun d => d.pc.launching) path ≤ t.launchTimeoutS

theorem remaining_goes {settings : Settings} {t : Timeouts} {d : StartSandbox} {pc pc' : StartPc}
    {reply : Reply} (h : d.Goes settings pc reply pc') :
    (if !pc.launching then t.bound pc else 0) + t.remaining pc' ≤ t.remaining pc := by
  obtain ⟨hlaunch, hdocker, hdb⟩ := t.nonneg
  cases h with
  | launchFailed pc reply e launching =>
    rw [t.remaining_of_launching launching]
    simp [launching, Timeouts.remaining]
  | _ => simp [StartPc.launching, Timeouts.bound, Timeouts.remaining] <;> linarith

theorem bound_le_remaining (t : Timeouts) (pc : StartPc) :
    (if !pc.launching then t.bound pc else 0) ≤ t.remaining pc := by
  obtain ⟨hlaunch, hdocker, hdb⟩ := t.nonneg
  cases pc <;> simp [StartPc.launching, Timeouts.bound, Timeouts.remaining] <;> linarith

theorem spent_le_remaining {settings : Settings} {t : Timeouts} {d : StartSandbox}
    {path : List (StartSandbox × ℚ)} (h : AwaitPath settings d path) (hk : Keeps t path) :
    spent (fun d => !d.pc.launching) path ≤ t.remaining d.pc := by
  have hgoes : ∀ d d', GoesOn settings d d' →
      (if !d.pc.launching then t.bound d.pc else 0) + t.remaining d'.pc ≤ t.remaining d.pc := by
    rintro d d' ⟨now, reply, events, hresume⟩
    obtain ⟨pc, rfl, -, hg⟩ := goes_of_resume hresume
    exact remaining_goes hg
  have heach : ∀ x ∈ path, (!x.1.pc.launching) = true → x.2 ≤ t.bound x.1.pc := by
    intro x hx hp
    exact hk.each x hx (by simpa using hp)
  have hends : ∀ d, CanEnd settings d →
      (if !d.pc.launching then t.bound d.pc else 0) ≤ t.remaining d.pc :=
    fun d _ => bound_le_remaining t d.pc
  exact spent_le_potential h (fun d => !d.pc.launching) (fun d => t.bound d.pc)
    (fun d => t.remaining d.pc) hgoes hends heach

theorem total_le {settings : Settings} {t : Timeouts} {sid : Uuid} {jobTry : Nat} {pool : Deployment}
    {path : List (StartSandbox × ℚ)} (h : AwaitPath settings (.start sid jobTry pool) path)
    (hk : Keeps t path) :
    total path ≤ t.launchTimeoutS + 3 * t.dockerTimeoutS + 3 * t.dbTimeoutS := by
  have hrest := spent_le_remaining h hk
  rw [start, Timeouts.remaining] at hrest
  have hsum := spent_add_spent_not (fun d : StartSandbox => d.pc.launching) path
  linarith [hk.launch]

/-! ## The longest path -/

/-- The launch of a startable row raises at its deadline, and every other call takes all of
its bound. -/
def longestPath (settings : Settings) (t : Timeouts) (d : StartSandbox) (r : Sandbox) (e : Exc) :
    List (StartSandbox × ℚ) :=
  [({ d with pc := .get }, t.dbTimeoutS), ({ d with pc := .expiryCheck r }, 0),
    ({ d with pc := .pickUp r }, t.dbTimeoutS), ({ d with pc := .inspect r }, t.launchTimeoutS),
    ({ d with pc := .discardBroken e.reason }, 3 * t.dockerTimeoutS),
    (d.afterDiscard settings e.reason, t.dbTimeoutS)]

theorem canEnd_afterDiscard (settings : Settings) (d : StartSandbox) (reason : String) :
    CanEnd settings (d.afterDiscard settings reason) := by
  by_cases htry : d.jobTry < settings.jobMaxTries
  · exact ⟨0, .changed true, _, _, by rw [afterDiscard, if_pos htry]; rfl⟩
  · exact ⟨0, .changed true, _, _, by rw [afterDiscard, if_neg htry]; rfl⟩

theorem awaitPath_longestPath (settings : Settings) (t : Timeouts) (d : StartSandbox) (e : Exc)
    {r : Sandbox} (hd : d.pc = .get) (hr : r.status ∈ startable) :
    AwaitPath settings d (longestPath settings t d r e) := by
  obtain ⟨sid, jobTry, pool, pc⟩ := d
  subst hd
  have hahead : ¬r.expiresAt ≤ r.expiresAt - 1 := by simp
  apply Path.next _ ⟨sid, jobTry, pool, .expiryCheck r⟩
  · exact ⟨0, .row (some r), [], if_pos hr⟩
  apply Path.next _ ⟨sid, jobTry, pool, .pickUp r⟩
  · exact ⟨0, .time (r.expiresAt - 1), [], if_neg hahead⟩
  apply Path.next _ ⟨sid, jobTry, pool, .inspect r⟩
  · exact ⟨0, .changed true, [], rfl⟩
  apply Path.next _ ⟨sid, jobTry, pool, .discardBroken e.reason⟩
  · exact ⟨0, .raised e, [], rfl⟩
  apply Path.next _ (afterDiscard settings ⟨sid, jobTry, pool, .discardBroken e.reason⟩ e.reason)
  · exact ⟨0, .removed true, [], rfl⟩
  apply Path.last
  exact canEnd_afterDiscard settings _ e.reason

theorem keeps_longestPath (settings : Settings) (t : Timeouts) (d : StartSandbox) (r : Sandbox)
    (e : Exc) : Keeps t (longestPath settings t d r e) := by
  obtain ⟨hlaunch, hdocker, hdb⟩ := t.nonneg
  have hpc : (d.afterDiscard settings e.reason).pc = .retry e.reason ∨
      (d.afterDiscard settings e.reason).pc = .fail e.reason := by
    by_cases htry : d.jobTry < settings.jobMaxTries <;> simp [afterDiscard, htry]
  refine ⟨?_, ?_, ?_⟩
  · simp [longestPath, hlaunch, hdocker, hdb]
  · rcases hpc with hpc | hpc <;> simp [longestPath, hpc, StartPc.launching, Timeouts.bound]
  · rcases hpc with hpc | hpc <;> simp [longestPath, hpc, spent, total, StartPc.launching]

theorem total_longestPath (settings : Settings) (t : Timeouts) (d : StartSandbox) (r : Sandbox)
    (e : Exc) : total (longestPath settings t d r e) =
      t.launchTimeoutS + 3 * t.dockerTimeoutS + 3 * t.dbTimeoutS := by
  simp only [longestPath, total_cons, total_nil]
  ring

/-- Settings are accepted and keep every path of every delivery inside the timeout of the job
exactly if that covers a third database call. -/
theorem delivery_fits_in_job (settings : Settings) (t : Timeouts) :
    (t.launchFitsInJob = .ok t ∧ ∀ sid jobTry pool path,
        AwaitPath settings (.start sid jobTry pool) path → Keeps t path →
          total path ≤ t.jobTimeoutS) ↔
      t.launchTimeoutS + 3 * t.dockerTimeoutS + 3 * t.dbTimeoutS ≤ t.jobTimeoutS := by
  constructor
  · rintro ⟨-, hpaths⟩
    let r : Sandbox := ⟨0, .http, .queued, none, none, 0, .stable, 0, none, 0, 0⟩
    have hr : r.status ∈ startable := by decide
    have hle := hpaths 0 1 .stable _ (awaitPath_longestPath settings t _ ⟨"TimeoutError", ""⟩ rfl hr)
      (keeps_longestPath ..)
    rwa [total_longestPath] at hle
  · intro hfits
    refine ⟨?_, fun sid jobTry pool path h hk => (total_le h hk).trans hfits⟩
    rw [Timeouts.launchFitsInJob_eq_ok, Timeouts.worst]
    linarith [t.nonneg.2.2]

/-- The check accepts a timeout of 85 seconds, and one database call too many breaks it. -/
theorem delivery_outlives_job : ¬∀ (settings : Settings) (t : Timeouts), t.launchFitsInJob = .ok t →
    ∀ sid jobTry pool path, AwaitPath settings (.start sid jobTry pool) path → Keeps t path →
      total path ≤ t.jobTimeoutS := by
  intro hfits
  let t : Timeouts := { jobTimeoutS := 85 }
  let r : Sandbox := ⟨0, .http, .queued, none, none, 0, .stable, 0, none, 0, 0⟩
  have hr : r.status ∈ startable := by decide
  have haccepted : t.launchFitsInJob = .ok t := by
    rw [Timeouts.launchFitsInJob_eq_ok]
    norm_num [Timeouts.worst, t]
  have hle := hfits ⟨3, 50, "localhost"⟩ t haccepted 0 1 .stable _
    (awaitPath_longestPath _ t _ ⟨"TimeoutError", ""⟩ rfl hr) (keeps_longestPath ..)
  rw [total_longestPath] at hle
  norm_num [t] at hle

end StartSandbox

end SandboxOrchestrator
