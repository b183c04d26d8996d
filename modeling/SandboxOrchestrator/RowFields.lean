import SandboxOrchestrator.Provenance

/-!
# The fields of a row fit its status

Each writer sets some columns of a row and leaves the others as it finds them. `Coherent`
is what all of them together keep, from the insert of the POST on; what it rests on is what
a handler in flight carries to its next write.
-/

namespace SandboxOrchestrator

set_option autoImplicit false

structure Sandbox.Coherent (settings : Settings) (r : Sandbox) : Prop where
  running : r.status = .running →
    (∃ hostPort, r.url = some (launchUrl settings hostPort)) ∧ r.error = none ∧ 1 ≤ r.attempts
  startable : r.status ∈ startable → r.url = none
  starting : r.status = .starting → 1 ≤ r.attempts
  failed : r.status = .failed → r.error.isSome

/-- A start delivery knows its try and, once the server answered, the url. -/
def StartSandbox.Fits (settings : Settings) (d : StartSandbox) : Prop :=
  1 ≤ d.jobTry ∧
    match d.pc with
    | .succeed _ url => ∃ hostPort, url = launchUrl settings hostPort
    | _ => True

def CreateSandbox.Fits (c : CreateSandbox) : Prop :=
  match c.pc with
  | .insert r => ∃ deployment now, r = c.draft deployment now
  | _ => True

def Proc.Fits (settings : Settings) : Proc → Prop
  | .create c => c.Fits
  | .start d => d.Fits settings
  | _ => True

structure RowFields (settings : Settings) (s : State) : Prop where
  rows : ∀ sid r, s.world.row sid = some r → r.Coherent settings
  procs : ∀ pid proc, s.proc pid = some proc → proc.Fits settings
  queue : ∀ job ∈ s.world.queue, 1 ≤ job.jobTry

def Action.redelivers : Action → Option Job
  | .redeliver _ job => some job
  | _ => none

/-- arq counts the tries of a job from 1. -/
def TryCounted (_ : State) (a : Action) (_ : State) : Prop :=
  (a.redelivers.all fun job => decide (1 ≤ job.jobTry)) = true

instance (s : State) (a : Action) (t : State) : Decidable (TryCounted s a t) :=
  inferInstanceAs (Decidable (_ = true))

theorem rowFields_init (settings : Settings) (now : Time) (containers : Containers)
    (nextObject : Nat) : RowFields settings (State.init now containers nextObject) where
  rows _ _ h := by cases h
  procs _ _ h := by cases h
  queue _ h := by cases h

/-! ## What each writer leaves in a row -/

theorem CreateSandbox.coherent_draft (settings : Settings) (c : CreateSandbox)
    (deployment : Deployment) (now t : Time) :
    ({ c.draft deployment now with createdAt := t, updatedAt := t } : Sandbox).Coherent settings where
  running h := by cases h
  startable _ := rfl
  starting h := by cases h
  failed h := by cases h

theorem Values.coherent_of_settled {settings : Settings} {v : Values} {now : Time} {r : Sandbox}
    (h : v.status = .stopping ∨ v.status = .stopped) : (v.apply now r).Coherent settings := by
  constructor <;> rcases h with h | h <;> simp [h, SandboxOrchestrator.startable]

theorem Values.coherent_of_failed {settings : Settings} {v : Values} {now : Time} {r : Sandbox}
    {error : String} (h : v.status = .failed) (he : v.error = some (some error)) :
    (v.apply now r).Coherent settings := by
  constructor <;> simp [h, he, Values.apply, SandboxOrchestrator.startable]

theorem Proc.coherent_of_writes {settings : Settings} {proc : Proc} {r : Sandbox} {v : Values}
    {now : Time} (hp : proc.Fits settings) (hr : r.Coherent settings)
    (h : proc.request.writes r = some v) : (v.apply now r).Coherent settings := by
  cases Proc.writes_of h with
  | markFailed => exact Values.coherent_of_failed rfl rfl
  | mark => exact Values.coherent_of_settled (.inl rfl)
  | expire => exact Values.coherent_of_settled (.inr rfl)
  | pickUp jobTry pool r₀ hst =>
    obtain ⟨htry, -⟩ := hp
    exact ⟨fun h => by simp at h, fun _ => hr.startable hst, fun _ => htry, fun h => by simp at h⟩
  | retry jobTry pool reason hst =>
    have hnone : r.url = none := hr.startable (by simp [hst, SandboxOrchestrator.startable])
    exact ⟨fun h => by simp at h, fun _ => hnone, fun h => by simp at h, fun h => by simp at h⟩
  | fail => exact Values.coherent_of_failed rfl rfl
  | succeed jobTry pool r₀ url hst =>
    obtain ⟨-, hostPort, rfl⟩ := hp
    have hattempts : 1 ≤ r.attempts := hr.starting hst
    exact ⟨fun _ => ⟨⟨hostPort, rfl⟩, rfl, hattempts⟩,
      fun h => by simp [SandboxOrchestrator.startable] at h, fun h => by simp at h, fun h => by simp at h⟩
  | finish => exact Values.coherent_of_settled (.inr rfl)
  | settle => exact Values.coherent_of_settled (.inr rfl)
  | vanish => exact Values.coherent_of_failed rfl rfl
  | finishStops => exact Values.coherent_of_settled (.inr rfl)

theorem Proc.draft_of_insert {settings : Settings} {proc : Proc} {r : Sandbox}
    (hp : proc.Fits settings) (h : proc.request = .insert r) :
    ∃ c deployment now, proc = .create c ∧ c.pc = .insert r ∧ r = c.draft deployment now := by
  obtain ⟨⟨body, key, sid, pc⟩, rfl, rfl⟩ := Proc.create_of_insert h
  obtain ⟨deployment, now, hr⟩ := hp
  exact ⟨_, deployment, now, rfl, rfl, hr⟩

/-! ## What a handler carries on -/

theorem Proc.fits_goes {settings : Settings} {proc proc' : Proc} {reply : Reply}
    (hp : proc.Fits settings) (h : proc.Goes settings reply proc') : proc'.Fits settings := by
  cases h with
  | create c reply pc goes =>
    obtain ⟨body, key, sid, pc₀⟩ := c
    cases goes with
    | stamped deployment now => exact ⟨deployment, now, rfl⟩
    | _ => trivial
  | start d reply pc goes =>
    obtain ⟨sid, jobTry, pool, pc₀⟩ := d
    refine ⟨hp.1, ?_⟩
    cases goes with
    | ready r hostPort => exact ⟨hostPort, rfl⟩
    | _ => trivial
  | _ => trivial

theorem Proc.fits_ofJob {settings : Settings} {job : Job} (h : 1 ≤ job.jobTry) :
    (Proc.ofJob job).Fits settings := by
  obtain ⟨task, sid, queue, jobTry⟩ := job
  cases task with
  | startSandbox => exact ⟨h, trivial⟩
  | stopSandbox => trivial

theorem Proc.first_of_enqueue {proc : Proc} {job : Job} (h : proc.request = .enqueue job) :
    job.jobTry = 1 := by
  cases Proc.asks_of h <;> rfl

theorem rowFields_step {settings : Settings} {s t : State} {a : Action} (hs : RowFields settings s)
    (htry : TryCounted s a t) (h : step settings s a = some t) : RowFields settings t := by
  have hst := stepped h
  refine ⟨fun sid r hr => ?_, fun pid proc hp => ?_, fun job hj => ?_⟩
  · rcases hst.row sid with hsame | ⟨pid, how, choice, proc, -, found, hchange⟩
    · exact hs.rows sid r (hsame.symm.trans hr)
    · rw [hr] at hchange
      generalize hx : some r = x at hchange
      cases hchange with
      | same => exact hs.rows sid r hx.symm
      | wrote r₀ v found' writes =>
        cases hx
        exact Proc.coherent_of_writes (hs.procs pid proc found) (hs.rows sid r₀ found') writes
      | inserted r₀ isInsert =>
        cases hx
        obtain ⟨c, deployment, now, -, -, rfl⟩ := Proc.draft_of_insert (hs.procs pid proc found) isInsert
        exact CreateSandbox.coherent_draft settings c deployment now s.world.now
  · cases hst.came hp with
    | stayed found => exact hs.procs pid proc found
    | spawned world drawn spawn =>
      cases spawn with
      | post _ body key sid => cases key <;> trivial
      | delete => trivial
      | put => trivial
      | deliver _ job queued => exact Proc.fits_ofJob (hs.queue job queued)
      | redeliver _ job => exact Proc.fits_ofJob (of_decide_eq_true htry)
      | sweep => trivial
    | resumed how choice old events isAwait found lives goes =>
      exact Proc.fits_goes (hs.procs pid old found) goes
  · rcases hst.mem_queue hj with hold | ⟨pid, how, choice, proc, -, found, hq | ⟨old, -, rfl⟩⟩
    · exact hs.queue job hold
    · exact Nat.le_of_eq (Proc.first_of_enqueue hq).symm
    · exact Nat.le_add_left 1 old.jobTry

theorem rowFields_run {settings : Settings} {s t : State} {as : List Action}
    (hs : RowFields settings s) (htry : Along settings TryCounted s as)
    (h : run settings s as = some t) : RowFields settings t := by
  have hkept : ∀ u a v, RowFields settings u → TryCounted u a v → step settings u a = some v →
      RowFields settings v := fun _ _ _ hu hcount hstep => rowFields_step hu hcount hstep
  exact LabelledRuns.invariant hkept hs htry h

/-! ## The columns that only the POST sets -/

/-- The run inserted the row `r` by a POST that had drafted it, at the clock it was created
at, and `r` still is that draft in every column no UPDATE sets. -/
def InsertedIn (settings : Settings) (s t : State) (as : List Action) (r : Sandbox) : Prop :=
  ∃ before pid how choice after u v c draft deployment now,
    as = before ++ .await pid how choice :: after ∧ run settings s before = some u ∧
      u.proc pid = some (.create c) ∧ c.pc = .insert draft ∧ draft = c.draft deployment now ∧
      u.world.row r.id = none ∧ step settings u (.await pid how choice) = some v ∧
      v.world.row r.id = some { draft with createdAt := u.world.now, updatedAt := u.world.now } ∧
      run settings v after = some t ∧ r.id = draft.id ∧ r.type = draft.type ∧
      r.deployment = draft.deployment ∧ r.expiresAt = draft.expiresAt ∧
      r.idempotencyKey = draft.idempotencyKey ∧ r.createdAt = u.world.now

theorem inserted_in {settings : Settings} {s t : State} {as : List Action} {sid : Uuid} {r : Sandbox}
    (hs : RowFields settings s) (absent : s.world.row sid = none)
    (htry : Along settings TryCounted s as) (h : run settings s as = some t)
    (hr : t.world.row sid = some r) : InsertedIn settings s t as r := by
  obtain rfl := World.row_id hr
  obtain ⟨before, a, after, u, v, rfl, hu, hDu, hv, hDv, ht⟩ :=
    LabelledRuns.exists_switch (D := fun x : State => x.world.row r.id ≠ none)
      (fun hne => hne absent) h (by simp [hr])
  have hnone : u.world.row r.id = none := by simpa using hDu
  obtain ⟨r₀, hr₀⟩ := Option.ne_none_iff_exists'.mp hDv
  have hfields := rowFields_run hs ((LabelledRuns.along_append hu).mp htry).1 hu
  rcases (stepped hv).row r.id with hsame | ⟨pid, how, choice, proc, rfl, found, hchange⟩
  · exact absurd (hsame.trans hnone) hDv
  · rw [hr₀] at hchange
    generalize hx : some r₀ = x at hchange
    cases hchange with
    | same => cases hx.trans hnone
    | wrote r₁ _ found' => cases found'.symm.trans hnone
    | inserted draft isInsert id absent' =>
      cases hx
      obtain ⟨c, deployment, now, rfl, hpc, hdraft⟩ :=
        Proc.draft_of_insert (hfields.procs pid proc found) isInsert
      obtain ⟨r', hr', hf⟩ := run_forward ht r.id _ hr₀
      obtain rfl := Option.some.inj (hr'.symm.trans hr)
      exact ⟨before, pid, how, choice, after, u, v, c, draft, deployment, now, rfl, hu, found, hpc,
        hdraft, hnone, hv, hr₀, ht, hf.id, hf.type, hf.deployment, hf.expiresAt, hf.key, hf.created⟩

/-- A delivery whose launch fails, and the delivery of its retry. -/
def failedOnce : List Action :=
  [.ok 0, .deliver 1 ⟨.startSandbox, 1, .stable, 1⟩, .ok 1, .ok 1, .ok 1, .fails 1, .ok 1, .ok 1,
    .deliver 2 ⟨.startSandbox, 1, .stable, 2⟩] ++ List.replicate 9 (.ok 2)

/-- In every state of a run, however handlers overlap, fail and are killed, each row has the
columns its status calls for, and those of its POST. -/
theorem row_fields (settings : Settings) (now : Time) (containers : Containers) (nextObject : Nat)
    (as : List Action) (t : State) (h : run settings (State.init now containers nextObject) as = some t)
    (tries : Along settings TryCounted (State.init now containers nextObject) as)
    (sid : Uuid) (r : Sandbox) (hr : t.world.row sid = some r) :
    r.Coherent settings ∧ InsertedIn settings (State.init now containers nextObject) t as r := by
  have hinit := rowFields_init settings now containers nextObject
  exact ⟨(rowFields_run hinit tries h).rows sid r hr, inserted_in hinit rfl tries h hr⟩

/-- A launch that fails, its retry, and the sandbox running. -/
theorem row_fields_retried : ∃ t r,
    run ⟨2, 4, "localhost"⟩ (State.init 0 KeyedTable.empty 0) (posted 0 1 ++ failedOnce) = some t ∧
      t.world.row 1 = some r ∧ r.status = .running ∧ r.Coherent ⟨2, 4, "localhost"⟩ ∧
      InsertedIn ⟨2, 4, "localhost"⟩ (State.init 0 KeyedTable.empty 0) t (posted 0 1 ++ failedOnce) r := by
  have hrun : (run ⟨2, 4, "localhost"⟩ (State.init 0 KeyedTable.empty 0)
      (posted 0 1 ++ failedOnce)).any
      (fun t => (t.world.row 1).any fun r => decide (r.status = .running)) = true := by decide
  obtain ⟨t, ht, hp⟩ := LabelledRuns.exists_run hrun
  obtain ⟨r, hr, hrunning⟩ := (Option.any_eq_true _ _).mp hp
  obtain ⟨hfits, hinserted⟩ := row_fields ⟨2, 4, "localhost"⟩ 0 KeyedTable.empty 0
    (posted 0 1 ++ failedOnce) t ht (LabelledRuns.along_of_check (by decide)) 1 r hr
  exact ⟨t, r, ht, hr, of_decide_eq_true hrunning, hfits, hinserted⟩

end SandboxOrchestrator
