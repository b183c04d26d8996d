import SandboxOrchestrator.TryAlone
import Mathlib.Order.Nat
import Mathlib.Data.Set.Basic

/-!
# The retry ladder

One start job that is delivered again exactly when its delivery asks for a retry, and
nobody else around. What the environment still chooses is the clock reading of each try
and how each launch comes out; the row, the container and `jobs_total` at the end are a
function of these.
-/

namespace SandboxOrchestrator

set_option autoImplicit false

/-- The row as it is posted, the pool and the handler that try it, and for try `i` the
clock reading of its expiry check and the outcome of its launch. -/
structure Ladder where
  sandbox : Sandbox
  pool : Deployment
  pid : Nat
  clock : Nat → Time
  outcome : Nat → LaunchOutcome

namespace Ladder

def job (l : Ladder) (i : Nat) : Job := ⟨.startSandbox, l.sandbox.id, l.pool, i⟩

/-- Try `i`, from its delivery to its end. The third call writes `stopped` or `starting`. -/
def attempt (l : Ladder) (i : Nat) : List Action :=
  [.tick (l.clock i), .deliver l.pid (l.job i)] ++ ([.ok l.pid, .ok l.pid, .ok l.pid] ++
    if l.sandbox.expiresAt ≤ l.clock i then []
    else (l.outcome i).awaits l.pid ++ (l.outcome i).settles l.pid)

def tries (l : Ladder) (n : Nat) : List Action :=
  (List.range n).flatMap fun i => l.attempt (i + 1)

def expiries (l : Ladder) : Set Nat := {i | 1 ≤ i ∧ l.sandbox.expiresAt ≤ l.clock i}

def readies (l : Ladder) : Set Nat := {i | 1 ≤ i ∧ (l.outcome i).isReady = true}

/-- Before the first try: the row is as it was posted, its job is queued, and nothing else
of the sandbox is around. -/
structure Posted (l : Ladder) (s : State) : Prop where
  row : s.world.row l.sandbox.id = some l.sandbox
  status : l.sandbox.status = .queued
  attempts : l.sandbox.attempts = 0
  absent : s.world.container l.sandbox.id = none
  queued : l.job 1 ∈ s.world.queue
  idle : s.proc l.pid = none
  alone : ∀ p x, s.proc p = some x → x.startsOf l.sandbox.id = false
  begins : s.world.now ≤ l.clock 1

end Ladder

variable {settings : Settings} {b s : State} {pid : Nat} {d : StartSandbox} {r : Sandbox}
  {c : Option Container} {sid : Uuid}

/-! ## After the end -/

def deliveryOf (sid : Uuid) (s : State) : Action → Bool
  | .tick _ => true
  | .deliver _ job => decide (job.task = .startSandbox) && decide (job.sandboxId = sid)
  | .redeliver _ job => decide (job.task = .startSandbox) && decide (job.sandboxId = sid)
  | .await pid _ _ => (s.proc pid).any (Proc.startsOf sid)
  | _ => false

structure World.Same (w w' : World) : Prop where
  rows : ∀ id, w'.row id = w.row id
  containers : ∀ id, w'.container id = w.container id
  jobs : ∀ task o pool, w'.jobsTotal task o pool = w.jobsTotal task o pool

theorem World.Same.trans {w w' w'' : World} (h : w.Same w') (h' : w'.Same w'') : w.Same w'' where
  rows id := (h'.rows id).trans (h.rows id)
  containers id := (h'.containers id).trans (h.containers id)
  jobs task o pool := (h'.jobs task o pool).trans (h.jobs task o pool)

def Unread (sid : Uuid) (s : State) : Prop :=
  ∀ p d, s.proc p = some (.start d) → d.sandboxId = sid → d.pc = .get

theorem StartSandbox.get_settled {w : World} {how : How} {choice : Choice} {events : List Event}
    {next : Next StartSandbox} (hpc : d.pc = .get) (hr : w.row d.sandboxId = some r)
    (hst : r.status ∉ startable) (lives : ∀ e q, how ≠ .killed e q)
    (h : d.resume settings w.now (w.reply .startSandbox how choice d.request) = some (events, next)) :
    events = [] ∧ ∃ outcome, next = .done outcome ∧ outcome ≠ .retry := by
  obtain ⟨sid, i, pool, pc⟩ := d
  cases hpc
  rcases w.reply_eq .startSandbox how choice (.get sid) lives with ⟨-, hreply⟩ | ⟨e, q, -, hreply⟩
  · have hrow : w.row sid = some r := hr
    have hends : StartSandbox.resume settings w.now ⟨sid, i, pool, .get⟩ (.row (some r)) =
        some ([], .done (.returned r.status.value)) := if_neg hst
    rw [StartSandbox.request, hreply] at h
    simp only [World.perform, hrow] at h
    cases hends.symm.trans h
    exact ⟨rfl, _, rfl, by simp⟩
  · rw [StartSandbox.request, hreply] at h
    cases h
    exact ⟨rfl, _, rfl, by simp⟩

theorem World.after_get (w : World) (actor : Actor) (how : How) (choice : Choice) (sid : Uuid) :
    w.after actor how choice (.get sid) = w := by
  unfold World.after
  split <;> rfl

theorem unread_step {t : State} {a : Action} (hu : Unread sid s) (hr : s.world.row sid = some r)
    (hst : r.status ∉ startable) (ha : deliveryOf sid s a = true) (h : Stepped settings s t a) :
    Unread sid t ∧ s.world.Same t.world := by
  have hget : ∀ {p x how choice}, deliveryOf sid s (.await p how choice) = true → s.proc p = some x →
      ∃ d, x = .start d ∧ d.sandboxId = sid ∧ d.pc = .get := by
    intro p x how choice hany hp
    simp only [deliveryOf, hp, Option.any_some] at hany
    obtain ⟨d, rfl, hid⟩ := Proc.startsOf_iff.mp hany
    exact ⟨d, rfl, hid, hu p d hp hid⟩
  have hafter : ∀ {d : StartSandbox}, d.pc = .get → ∀ how choice,
      s.worldAfter (.start d) how choice = s.world := by
    rintro ⟨sid', i, pool, pc⟩ rfl how choice
    exact s.world.after_get ..
  have hremoved : ∀ {p}, (∀ q, t.proc q = if p = q then none else s.proc q) → Unread sid t := by
    intro p procs q d hq hid
    rw [procs] at hq
    split at hq
    · cases hq
    · exact hu q d hq hid
  cases h with
  | tick now later result => subst result; exact ⟨hu, fun _ => rfl, fun _ => rfl, fun _ _ _ => rfl⟩
  | spawned pid proc world drawn spawn absent world_eq drawn_eq procs =>
    refine ⟨fun q d hq hid => ?_, ?_⟩
    · rw [procs] at hq
      split at hq
      · cases hq
        obtain ⟨job, -, -, rfl⟩ := spawn.of_start
        rfl
      · exact hu q d hq hid
    · rw [world_eq]
      cases spawn <;> exact ⟨fun _ => rfl, fun _ => rfl, fun _ _ _ => rfl⟩
  | dropped pid job queued tries result =>
    subst result
    exact ⟨hu, fun _ => rfl, fun _ => rfl, fun _ _ _ => rfl⟩
  | died => cases ha
  | exited => cases ha
  | resumed pid how choice proc proc' events found lives resume world_eq drawn_eq procs =>
    obtain ⟨d, rfl, rfl, hpc⟩ := hget ha found
    obtain ⟨⟨es, next⟩, hresume, hnext⟩ := Option.map_eq_some_iff.mp resume
    obtain ⟨-, outcome, rfl, -⟩ := StartSandbox.get_settled hpc hr hst lives hresume
    cases hnext
  | ended pid how choice proc outcome events found lives resume world_eq drawn_eq procs =>
    obtain ⟨d, rfl, rfl, hpc⟩ := hget ha found
    obtain ⟨⟨es, next⟩, hresume, hnext⟩ := Option.map_eq_some_iff.mp resume
    obtain ⟨rfl, -⟩ := StartSandbox.get_settled hpc hr hst lives hresume
    obtain ⟨rfl, -⟩ := Prod.mk.inj hnext
    rw [hafter hpc] at world_eq
    refine ⟨hremoved procs, ?_, ?_, fun task o pool => ?_⟩
    · simp [world_eq]
    · simp [world_eq]
    · rw [World.jobsTotal, world_eq, World.settleJob_log]
      rfl
  | killed pid e q choice proc found world_eq drawn_eq procs =>
    obtain ⟨d, rfl, rfl, hpc⟩ := hget ha found
    rw [hafter hpc] at world_eq
    refine ⟨hremoved procs, ?_, ?_, fun task o pool => ?_⟩
    · simp [world_eq]
    · simp [world_eq]
    · rw [World.jobsTotal, world_eq, World.settleJob_log]
      rfl

/-- Deliveries after the end change nothing, however they go. -/
theorem settled_run {t : State} {as : List Action}
    (alone : ∀ p x, s.proc p = some x → x.startsOf sid = false) (hr : s.world.row sid = some r)
    (hst : r.status ∉ startable)
    (ha : Along settings (fun s a _ => deliveryOf sid s a = true) s as)
    (h : run settings s as = some t) : s.world.Same t.world := by
  have hinit : Unread sid s ∧ s.world.Same s.world := by
    refine ⟨fun p d hp hid => ?_, fun _ => rfl, fun _ => rfl, fun _ _ _ => rfl⟩
    have := alone p _ hp
    simp [Proc.startsOf, hid] at this
  refine (LabelledRuns.invariant (I := fun m => Unread sid m ∧ s.world.Same m.world)
    (fun m a u hm ha hu => ?_) hinit ha h).2
  obtain ⟨hunread, hsame⟩ := unread_step hm.1 ((hm.2.rows sid).trans hr) hst ha (stepped hu)
  exact ⟨hunread, hm.2.trans hsame⟩

/-! ## From try to try -/

namespace Ladder

def waiting (l : Ladder) (n : Nat) (e : Option String) (u : Time) : Sandbox :=
  { l.sandbox with status := .queued, error := e, attempts := n, updatedAt := u }

structure Rung (l : Ladder) (s : State) (n : Nat) (t : State) : Prop where
  row : ∃ e u, t.world.row l.sandbox.id = some (l.waiting n e u)
  absent : t.world.container l.sandbox.id = none
  queue : t.world.queue.Perm (l.job (n + 1) :: s.world.queue.erase (l.job 1))
  jobs : ∀ task o pool, t.world.jobsTotal task o pool = s.world.jobsTotal task o pool +
    if task = .startSandbox ∧ o = .retry ∧ pool = l.pool then n else 0
  procs : ∀ q, t.proc q = s.proc q
  now : t.world.now ≤ l.clock (n + 1)

structure Begun (l : Ladder) (s : State) (n : Nat) (b : State) : Prop where
  trying : ∃ e u, Trying b l.pid (.start l.sandbox.id (n + 1) l.pool) (l.waiting n e u) none b
  queue : b.world.queue.Perm (s.world.queue.erase (l.job 1))
  jobs : ∀ task o pool, b.world.jobsTotal task o pool = s.world.jobsTotal task o pool +
    if task = .startSandbox ∧ o = .retry ∧ pool = l.pool then n else 0
  others : ∀ q, q ≠ l.pid → b.proc q = s.proc q
  now : b.world.now = l.clock (n + 1)

/-- What `n` tries of which the last counts `o` leave of `s`: the row `r` and the container
`c`, the job gone, `n - 1` retries and one `o` counted, and nothing for a later delivery to
do. -/
structure Ends (settings : Settings) (l : Ladder) (s : State) (n : Nat) (o : JobOutcome)
    (r : Sandbox) (c : Option Container) (t : State) : Prop where
  runs : run settings s (l.tries n) = some t
  row : t.world.row l.sandbox.id = some r
  container : t.world.container l.sandbox.id = c
  jobs : ∀ task o' pool, t.world.jobsTotal task o' pool = s.world.jobsTotal task o' pool +
    if task = .startSandbox ∧ pool = l.pool then
      (if o' = .retry then n - 1 else 0) + (if o' = o then 1 else 0)
    else 0
  queue : t.world.queue.Perm (s.world.queue.erase (l.job 1))
  procs : ∀ q, t.proc q = s.proc q
  settled : ∀ as u, Along settings (fun s a _ => deliveryOf l.sandbox.id s a = true) t as →
    run settings t as = some u → t.world.Same u.world

variable {l : Ladder} {n : Nat} {t : State}

theorem Posted.rung (h : l.Posted s) : l.Rung s 0 s where
  row := by
    refine ⟨l.sandbox.error, l.sandbox.updatedAt, h.row.trans ?_⟩
    rw [waiting, ← h.status, ← h.attempts]
  absent := h.absent
  queue := List.perm_cons_erase h.queued
  jobs task o pool := by simp
  procs _ := rfl
  now := h.begins

theorem Rung.begins (h : l.Rung s n t) (hs : l.Posted s) (hn : n < settings.jobMaxTries) :
    ∃ b, run settings t [.tick (l.clock (n + 1)), .deliver l.pid (l.job (n + 1))] = some b ∧
      l.Begun s n b := by
  obtain ⟨e, u, hrow⟩ := h.row
  have hqueued : l.job (n + 1) ∈ t.world.queue := h.queue.mem_iff.mpr List.mem_cons_self
  have hidle : t.proc l.pid = none := (h.procs _).trans hs.idle
  obtain ⟨b, hb⟩ := State.spawn_of_idle (s := { t with world := { t.world with
    now := l.clock (n + 1), queue := t.world.queue.erase (l.job (n + 1)) } }) l.pid hidle
    (.start (.start l.sandbox.id (n + 1) l.pool))
  obtain ⟨hworld, -, -, hprocs⟩ := State.proc_spawn hb
  refine ⟨b, ?_, ⟨e, u, (hprocs _).trans (if_pos rfl), fun _ _ => rfl, ?_, ?_, rfl, rfl,
    fun _ _ _ => rfl⟩, ?_, ?_, fun q hq => ?_, ?_⟩
  · have htries : (l.job (n + 1)).jobTry ≤ settings.jobMaxTries := hn
    simp only [run, LabelledRuns.run, step, if_pos h.now, Option.bind_some, if_pos hqueued,
      if_pos htries]
    exact Option.bind_eq_some_iff.mpr ⟨b, hb, rfl⟩
  · rw [hworld]
    exact hrow
  · rw [hworld]
    exact h.absent
  · rw [hworld]
    exact (h.queue.erase _).trans (by rw [List.erase_cons_head])
  · intro task o pool
    rw [hworld]
    exact h.jobs task o pool
  · rw [hprocs, if_neg (Ne.symm hq)]
    exact h.procs q
  · rw [hworld]

theorem Begun.rung {e : String} (h : l.Begun s n b) (hs : l.Posted s)
    (later : l.clock (n + 1) ≤ l.clock (n + 2))
    (ht : Tried b l.pid (l.job (n + 1)) .retry (l.waiting (n + 1) (some e) b.world.now) none t) :
    l.Rung s (n + 1) t where
  row := ⟨_, _, ht.row⟩
  absent := ht.container
  queue := by
    rw [ht.queue, if_pos rfl]
    exact (List.perm_append_singleton _ _).trans (h.queue.cons _)
  jobs task o pool := by
    rw [ht.jobs, h.jobs, Nat.add_assoc]
    congr 1
    split <;> split <;> simp_all [job]
  procs q := by
    by_cases hq : q = l.pid
    · rw [hq, ht.idle, hs.idle]
    · rw [ht.others q hq, h.others q hq]
  now := by
    rw [ht.now, h.now]
    exact later

theorem Begun.ends {o : JobOutcome} (h : l.Begun s n b) (hs : l.Posted s)
    (hruns : run settings s (l.tries (n + 1)) = some t)
    (ht : Tried b l.pid (l.job (n + 1)) o r c t) (ho : o ≠ .retry) (hst : r.status ∉ startable) :
    l.Ends settings s (n + 1) o r c t := by
  have hprocs : ∀ q, t.proc q = s.proc q := by
    intro q
    by_cases hq : q = l.pid
    · rw [hq, ht.idle, hs.idle]
    · rw [ht.others q hq, h.others q hq]
  refine ⟨hruns, ht.row, ht.container, fun task o' pool => ?_, ?_, hprocs, fun as u ha hu => ?_⟩
  · rw [ht.jobs, h.jobs, Nat.add_assoc]
    congr 1
    by_cases htask : task = .startSandbox ∧ pool = l.pool
    · obtain ⟨rfl, rfl⟩ := htask
      simp [job]
    · rw [if_neg htask, if_neg fun hc => htask ⟨hc.1, hc.2.2⟩, if_neg fun hc => htask ⟨hc.1, hc.2.2⟩]
  · rw [ht.queue, if_neg ho]
    exact h.queue
  · exact settled_run (fun p x hp => hs.alone p x (hprocs p ▸ hp)) ht.row hst ha hu

theorem tries_succ (l : Ladder) (n : Nat) : l.tries (n + 1) = l.tries n ++ l.attempt (n + 1) := by
  simp [tries, List.range_succ]

/-- A try that is in time reaches its launch. -/
theorem Rung.launches (settings : Settings) (h : l.Rung s n t) (hs : l.Posted s) (hn : n < settings.jobMaxTries)
    (hlate : n + 1 ∉ l.expiries) :
    ∃ b m e u, run settings t ([.tick (l.clock (n + 1)), .deliver l.pid (l.job (n + 1))] ++
        [.ok l.pid, .ok l.pid, .ok l.pid]) = some m ∧ l.Begun s n b ∧
      Trying b l.pid ⟨l.sandbox.id, n + 1, l.pool, .inspect (l.waiting n e u)⟩
        { l.waiting n e u with status := .starting, attempts := n + 1, updatedAt := b.world.now }
        none m := by
  obtain ⟨b, hb, hbegun⟩ := h.begins hs hn
  obtain ⟨e, u, htrying⟩ := hbegun.trying
  have hahead : ¬(l.waiting n e u).expiresAt ≤ b.world.now := by
    rw [hbegun.now]
    exact fun hle => hlate ⟨Nat.le_add_left 1 n, hle⟩
  obtain ⟨m, hm, hpicked⟩ := htrying.picked settings (by simp [waiting, startable]) hahead
  exact ⟨b, m, e, u, LabelledRuns.run_trans hb hm, hbegun, hpicked⟩

theorem attempt_inTime (l : Ladder) (n : Nat) (hlate : n + 1 ∉ l.expiries) :
    l.attempt (n + 1) = ([.tick (l.clock (n + 1)), .deliver l.pid (l.job (n + 1))] ++
      [.ok l.pid, .ok l.pid, .ok l.pid]) ++
        ((l.outcome (n + 1)).awaits l.pid ++ (l.outcome (n + 1)).settles l.pid) := by
  rw [attempt, if_neg fun hle => hlate ⟨Nat.le_add_left 1 n, hle⟩, List.append_assoc]

theorem exists_broken {i : Nat} (hi : 1 ≤ i) (hready : i ∉ l.readies) :
    ∃ passed e effect uncaught, l.outcome i = .broken passed e effect uncaught := by
  cases ho : l.outcome i with
  | ready p => exact absurd ⟨hi, by rw [ho]; rfl⟩ hready
  | broken passed e effect uncaught => exact ⟨passed, e, effect, uncaught, rfl⟩

theorem Rung.retries (h : l.Rung s n t) (hs : l.Posted s) (hn : n + 1 < settings.jobMaxTries)
    (hlate : n + 1 ∉ l.expiries) (hready : n + 1 ∉ l.readies)
    (later : l.clock (n + 1) ≤ l.clock (n + 2)) :
    ∃ u, run settings t (l.attempt (n + 1)) = some u ∧ l.Rung s (n + 1) u := by
  obtain ⟨b, m, e, u, hm, hbegun, hlaunch⟩ := h.launches settings hs (by omega) hlate
  obtain ⟨passed, exc, effect, uncaught, ho⟩ := exists_broken (Nat.le_add_left 1 n) hready
  obtain ⟨v, hv, htried⟩ := hlaunch.broken settings rfl passed exc effect uncaught
  simp only [if_pos hn] at htried
  refine ⟨v, ?_, hbegun.rung hs later htried⟩
  rw [attempt_inTime l n hlate, ho]
  exact LabelledRuns.run_trans hm hv

theorem Posted.climbs (settings : Settings) (hs : l.Posted s) (clock : ∀ i, 1 ≤ i → l.clock i ≤ l.clock (i + 1)) (n : Nat)
    (hn : n < settings.jobMaxTries) (hlate : ∀ i ≤ n, i ∉ l.expiries)
    (hready : ∀ i ≤ n, i ∉ l.readies) :
    ∃ t, run settings s (l.tries n) = some t ∧ l.Rung s n t := by
  induction n with
  | zero => exact ⟨s, rfl, hs.rung⟩
  | succ n ih =>
    obtain ⟨t, ht, hrung⟩ := ih (by omega) (fun i hi => hlate i (by omega))
      fun i hi => hready i (by omega)
    obtain ⟨u, hu, hrung'⟩ := hrung.retries hs hn (hlate _ (Nat.le_refl _)) (hready _ (Nat.le_refl _))
      (clock _ (Nat.le_add_left 1 n))
    rw [tries_succ]
    exact ⟨u, LabelledRuns.run_trans ht hu, hrung'⟩

/-! ## The end of the ladder -/

theorem Rung.succeeds (h : l.Rung s n t) (hs : l.Posted s) (hrun : run settings s (l.tries n) = some t)
    (hn : n < settings.jobMaxTries) (hlate : n + 1 ∉ l.expiries) {p : Nat}
    (ho : l.outcome (n + 1) = .ready p) :
    ∃ u object, l.Ends settings s (n + 1) .success
      { l.sandbox with
        status := .running
        url := some (launchUrl settings p)
        error := none
        attempts := n + 1
        updatedAt := l.clock (n + 1) }
      (some ⟨l.sandbox.id, labelExpiry l.sandbox.expiresAt, object, true, some p⟩) u := by
  obtain ⟨b, m, e, u, hm, hbegun, hlaunch⟩ := h.launches settings hs hn hlate
  obtain ⟨v, object, hv, htried⟩ := hlaunch.ready settings rfl p
  rw [hbegun.now] at htried
  refine ⟨v, object, hbegun.ends hs ?_ htried (by simp) (by simp [startable])⟩
  rw [tries_succ, attempt_inTime l n hlate, ho]
  exact LabelledRuns.run_trans hrun (LabelledRuns.run_trans hm hv)

theorem Rung.expires (h : l.Rung s n t) (hs : l.Posted s) (hrun : run settings s (l.tries n) = some t)
    (hn : n < settings.jobMaxTries) (hlate : n + 1 ∈ l.expiries) :
    ∃ u, l.Ends settings s (n + 1) .expired
      { l.sandbox with
        status := .stopped
        error := some "expired"
        attempts := n
        updatedAt := l.clock (n + 1) } none u := by
  obtain ⟨b, hb, hbegun⟩ := h.begins hs hn
  obtain ⟨e, u, htrying⟩ := hbegun.trying
  obtain ⟨v, hv, htried⟩ := htrying.expires settings (by simp [waiting, startable])
    (hbegun.now ▸ hlate.2)
  rw [hbegun.now] at htried
  refine ⟨v, hbegun.ends hs ?_ htried (by simp) (by simp [startable])⟩
  rw [tries_succ, attempt, if_pos hlate.2]
  exact LabelledRuns.run_trans hrun (LabelledRuns.run_trans hb hv)

theorem Rung.fails (h : l.Rung s n t) (hs : l.Posted s) (hrun : run settings s (l.tries n) = some t)
    (hn : n + 1 = settings.jobMaxTries) (hlate : n + 1 ∉ l.expiries) {passed : Fin 5} {e : Exc}
    {effect : Bool} {uncaught : catches passed e = false}
    (ho : l.outcome (n + 1) = .broken passed e effect uncaught) :
    ∃ u, l.Ends settings s (n + 1) .failed
      { l.sandbox with
        status := .failed
        error := some e.reason
        attempts := n + 1
        updatedAt := l.clock (n + 1) } none u := by
  obtain ⟨b, m, e', u, hm, hbegun, hlaunch⟩ := h.launches settings hs (by omega) hlate
  obtain ⟨v, hv, htried⟩ := hlaunch.broken settings rfl passed e effect uncaught
  simp only [if_neg (by omega : ¬n + 1 < settings.jobMaxTries)] at htried
  rw [hbegun.now] at htried
  refine ⟨v, hbegun.ends hs ?_ htried (by simp) (by simp [startable])⟩
  rw [tries_succ, attempt_inTime l n hlate, ho]
  exact LabelledRuns.run_trans hrun (LabelledRuns.run_trans hm hv)

/-- Try `k` has the first launch that is ready, and comes before the first that expires. -/
def Succeeds (l : Ladder) (max k : Nat) : Prop :=
  IsLeast l.readies k ∧ (∀ j, IsLeast l.expiries j → k < j) ∧ k ≤ max

/-- Try `j` is the first that expires, and no launch is ready before it. -/
def Expires (l : Ladder) (max j : Nat) : Prop :=
  IsLeast l.expiries j ∧ (∀ k, IsLeast l.readies k → j ≤ k) ∧ j ≤ max

theorem exists_isLeast {p : Set Nat} {i : Nat} (hi : i ∈ p) : ∃ m, IsLeast p m ∧ m ≤ i := by
  classical
  have hex : ∃ i, i ∈ p := ⟨i, hi⟩
  exact ⟨Nat.find hex, Nat.isLeast_find hex, Nat.find_min' hex hi⟩

theorem Succeeds.inTime {max k : Nat} (h : l.Succeeds max k) {i : Nat} (hi : i ≤ k) :
    i ∉ l.expiries := by
  intro hlate
  obtain ⟨j, hj, hji⟩ := exists_isLeast hlate
  have := h.2.1 j hj
  omega

theorem Succeeds.notReady {max k : Nat} (h : l.Succeeds max k) {i : Nat} (hi : i < k) :
    i ∉ l.readies := fun hready => absurd (h.1.2 hready) (by omega)

theorem Expires.inTime {max j : Nat} (h : l.Expires max j) {i : Nat} (hi : i < j) :
    i ∉ l.expiries := fun hlate => absurd (h.1.2 hlate) (by omega)

theorem Expires.notReady {max j : Nat} (h : l.Expires max j) {i : Nat} (hi : i < j) :
    i ∉ l.readies := by
  intro hready
  obtain ⟨k, hk, hki⟩ := exists_isLeast hready
  have := h.2.1 k hk
  omega

theorem decided {max i : Nat} (hi : i ≤ max) (h : i ∈ l.readies ∪ l.expiries) :
    (∃ k, l.Succeeds max k) ∨ ∃ j, l.Expires max j := by
  obtain ⟨m, hm, hmi⟩ := exists_isLeast h
  have hleast : ∀ p : Set Nat, p ⊆ l.readies ∪ l.expiries → ∀ q, IsLeast p q → m ≤ q :=
    fun p hp q hq => hm.2 (hp hq.1)
  by_cases hlate : m ∈ l.expiries
  · refine .inr ⟨m, ⟨hlate, fun q hq => hm.2 (.inr hq)⟩, fun k hk => ?_, hmi.trans hi⟩
    exact hleast _ Set.subset_union_left k hk
  · have hready : m ∈ l.readies := hm.1.resolve_right hlate
    refine .inl ⟨m, ⟨hready, fun q hq => hm.2 (.inl hq)⟩, fun j hj => ?_, hmi.trans hi⟩
    refine lt_of_le_of_ne (hleast _ Set.subset_union_right j hj) ?_
    rintro rfl
    exact hlate hj.1

end Ladder

/-- The three ends of the ladder, for every sequence of launch outcomes and clock readings:
running at the first launch that is ready, stopped at the first try that is past the expiry,
or failed with the reason of the last try. -/
theorem retry_ladder (settings : Settings) (l : Ladder) (s : State) (posted : l.Posted s)
    (tries : 1 ≤ settings.jobMaxTries) (clock : ∀ i, 1 ≤ i → l.clock i ≤ l.clock (i + 1)) :
    (∀ k, l.Succeeds settings.jobMaxTries k → ∃ p object t, l.outcome k = .ready p ∧
      l.Ends settings s k .success
        { l.sandbox with
          status := .running
          url := some (launchUrl settings p)
          error := none
          attempts := k
          updatedAt := l.clock k }
        (some ⟨l.sandbox.id, labelExpiry l.sandbox.expiresAt, object, true, some p⟩) t) ∧
    (∀ j, l.Expires settings.jobMaxTries j → ∃ t,
      l.Ends settings s j .expired
        { l.sandbox with
          status := .stopped
          error := some "expired"
          attempts := j - 1
          updatedAt := l.clock j } none t) ∧
    ((¬∃ k, l.Succeeds settings.jobMaxTries k) → (¬∃ j, l.Expires settings.jobMaxTries j) →
      ∃ passed e effect uncaught t,
        l.outcome settings.jobMaxTries = .broken passed e effect uncaught ∧
        l.Ends settings s settings.jobMaxTries .failed
          { l.sandbox with
            status := .failed
            error := some e.reason
            attempts := settings.jobMaxTries
            updatedAt := l.clock settings.jobMaxTries } none t) := by
  refine ⟨fun k hk => ?_, fun j hj => ?_, fun hnoSuccess hnoExpiry => ?_⟩
  · obtain ⟨n, rfl⟩ : ∃ n, k = n + 1 := Nat.exists_eq_add_of_le' hk.1.1.1
    have hn : n < settings.jobMaxTries := hk.2.2
    obtain ⟨t, ht, hrung⟩ := posted.climbs settings clock n hn (fun i hi => hk.inTime (by omega))
      fun i hi => hk.notReady (by omega)
    cases ho : l.outcome (n + 1) with
    | ready p =>
      obtain ⟨u, object, hends⟩ := hrung.succeeds posted ht hn (hk.inTime (Nat.le_refl _)) ho
      exact ⟨p, object, u, rfl, hends⟩
    | broken passed e effect uncaught =>
      have hready := hk.1.1.2
      rw [ho] at hready
      cases hready
  · obtain ⟨n, rfl⟩ : ∃ n, j = n + 1 := Nat.exists_eq_add_of_le' hj.1.1.1
    have hn : n < settings.jobMaxTries := hj.2.2
    obtain ⟨t, ht, hrung⟩ := posted.climbs settings clock n hn (fun i hi => hj.inTime (by omega))
      fun i hi => hj.notReady (by omega)
    exact hrung.expires posted ht hn hj.1.1
  · have hnone : ∀ i ≤ settings.jobMaxTries, i ∉ l.readies ∪ l.expiries := by
      intro i hi hdecided
      exact (Ladder.decided hi hdecided).elim hnoSuccess hnoExpiry
    obtain ⟨n, hn⟩ : ∃ n, settings.jobMaxTries = n + 1 := Nat.exists_eq_add_of_le' tries
    rw [hn] at hnone ⊢
    obtain ⟨t, ht, hrung⟩ := posted.climbs settings clock n (by omega)
      (fun i hi hlate => hnone i (by omega) (.inr hlate))
      fun i hi hready => hnone i (by omega) (.inl hready)
    obtain ⟨passed, e, effect, uncaught, ho⟩ := Ladder.exists_broken (l := l) (Nat.le_add_left 1 n)
      fun hready => hnone _ (Nat.le_refl _) (.inl hready)
    obtain ⟨u, hends⟩ := hrung.fails posted ht hn.symm
      (fun hlate => hnone _ (Nat.le_refl _) (.inr hlate)) ho
    exact ⟨passed, e, effect, uncaught, u, ho, hends⟩

/-- The first launch times out after its container was created; the second is ready. -/
def secondTry : Ladder where
  sandbox := postedRow
  pool := .stable
  pid := 1
  clock := fun i => (i : Int) * 1000000
  outcome := fun i => if i = 1 then .broken ⟨1, by decide⟩ ⟨"TimeoutError", ""⟩ true (by decide)
    else .ready 4000

theorem retry_ladder_second : ∃ s t object,
    run ⟨3, 4, "localhost"⟩ (State.init 0 KeyedTable.empty 0) (posted 0 1 ++ [.ok 0]) = some s ∧
      secondTry.Ends ⟨3, 4, "localhost"⟩ s 2 .success
        { postedRow with
          status := .running
          url := some (launchUrl ⟨3, 4, "localhost"⟩ 4000)
          attempts := 2
          updatedAt := 2000000 }
        (some ⟨1, 60000000, object, true, some 4000⟩) t := by
  have hrun : (run ⟨3, 4, "localhost"⟩ (State.init 0 KeyedTable.empty 0)
      (posted 0 1 ++ [.ok 0])).any (fun s =>
        decide (s.world.row 1 = some postedRow) && decide (s.world.container 1 = none) &&
        decide (secondTry.job 1 ∈ s.world.queue) && decide (s.procs.rows = []) &&
        decide (s.world.now ≤ 1000000)) = true := by decide
  obtain ⟨s, hs, hp⟩ := LabelledRuns.exists_run hrun
  simp only [Bool.and_eq_true, decide_eq_true_eq] at hp
  obtain ⟨⟨⟨⟨hrow, hcontainer⟩, hjob⟩, hprocs⟩, hnow⟩ := hp
  have hposted : secondTry.Posted s := by
    refine ⟨hrow, rfl, rfl, hcontainer, hjob, State.idle_of_rows hprocs 1, fun p x hp => ?_, hnow⟩
    rw [State.idle_of_rows hprocs] at hp
    cases hp
  have hclock : ∀ i : Nat, (i : Int) * 1000000 ≤ ((i + 1 : Nat) : Int) * 1000000 := by
    intro i
    omega
  have hlate : ∀ j, j ∈ secondTry.expiries → 2 < j := by
    rintro j ⟨-, hj⟩
    have : (60000000 : Int) ≤ (j : Int) * 1000000 := hj
    omega
  have hsucceeds : secondTry.Succeeds 3 2 := by
    refine ⟨⟨⟨by decide, rfl⟩, ?_⟩, fun j hj => hlate j hj.1, by decide⟩
    rintro k ⟨hk, hready⟩
    by_contra hlt
    obtain rfl : k = 1 := by omega
    cases hready
  obtain ⟨p, object, t, hp, hends⟩ := (retry_ladder ⟨3, 4, "localhost"⟩ secondTry s hposted (by decide)
    fun i _ => hclock i).1 2 hsucceeds
  cases hp
  exact ⟨s, t, object, hs, hends⟩

end SandboxOrchestrator
