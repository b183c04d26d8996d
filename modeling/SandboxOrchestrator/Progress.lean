import SandboxOrchestrator.Provenance
import SandboxOrchestrator.Library.FairRuns
import Mathlib.Data.Prod.Lex

/-!
# Every handler ends

No reply leaves a handler without a way on, and it has only so many calls ahead: each one
takes it closer to its end, the two loops of a sweep included. So where calls resolve, a
handler does not stay in flight.
-/

namespace SandboxOrchestrator

set_option autoImplicit false

/-! ## No handler is stuck -/

inductive Request.Gives : Request → Reply → Prop where
  | row (sid : Uuid) (r : Option Sandbox) : Gives (.get sid) (.row r)
  | original (key : IdempotencyKey) (r : Option Sandbox) : Gives (.replay key) (.row r)
  | count (n : Nat) : Gives .countActive (.count n)
  | inserted (r : Sandbox) : Gives (.insert r) .inserted
  | taken (r : Sandbox) : Gives (.insert r) .integrityError
  | marked (sid : Uuid) (error : String) : Gives (.markFailed sid error) .done
  | changed (sid : Uuid) (from_ : List SandboxStatus) (v : Values) (b : Bool) :
      Gives (.transition sid from_ v) (.changed b)
  | running (ids : List Uuid) : Gives .selectRunning (.ids ids)
  | statuses (ids : List Uuid) (rows : List (Uuid × SandboxStatus)) :
      Gives (.selectStatuses ids) (.statuses rows)
  | finished (live : List Uuid) : Gives (.finishStops live) .done
  | time (t : Time) : Gives .clock (.time t)
  | weight (raw : Option Int) : Gives .getWeight (.weight raw)
  | weightSet (weight : Int) (raw : Option Int) : Gives (.setWeight weight) (.weight raw)
  | enqueued (job : Job) (fresh : Bool) : Gives (.enqueue job) (.enqueued fresh)
  | object (sid : Uuid) (found : Option (Nat × Bool)) : Gives (.inspect sid) (.object found)
  | removedObject (sid : Uuid) (n : Nat) : Gives (.removeObject sid n) .done
  | removedNone (sid : Uuid) (n : Nat) : Gives (.removeObject sid n) .notFound
  | created (sid : Uuid) (expiresAt : Time) (n : Nat) : Gives (.create sid expiresAt) (.objectId n)
  | conflict (sid : Uuid) (expiresAt : Time) : Gives (.create sid expiresAt) .conflict
  | started (sid : Uuid) (n : Nat) : Gives (.startObject sid n) .done
  | startedNone (sid : Uuid) (n : Nat) : Gives (.startObject sid n) .notFound
  | port (sid : Uuid) (n : Nat) (p : Option Nat) : Gives (.reload sid n) (.port p)
  | reloadedNone (sid : Uuid) (n : Nat) : Gives (.reload sid n) .notFound
  | ready : Gives .probe .done
  | removed (sid : Uuid) (b : Bool) : Gives (.remove sid) (.removed b)
  | containers (cs : List RuntimeSandbox) : Gives .listSandboxes (.containers cs)
  | raised (q : Request) (e : Exc) : Gives q (.raised e)

theorem World.perform_gives (w : World) (actor : Actor) (choice : Choice) (q : Request) :
    q.Gives (w.perform actor choice q).2 := by
  cases q with
  | insert r =>
    simp only [World.perform]
    split
    · exact .inserted r
    · exact .taken r
  | enqueue job =>
    simp only [World.perform, World.enqueue]
    split
    · exact .enqueued job false
    · exact .enqueued job true
  | removeObject sid n =>
    simp only [World.perform]
    split
    · exact .removedObject sid n
    · exact .removedNone sid n
  | create sid expiresAt =>
    simp only [World.perform, World.createContainer]
    split
    · exact .created sid expiresAt w.nextObject
    · exact .conflict sid expiresAt
  | startObject sid n =>
    simp only [World.perform]
    split
    · exact .started sid n
    · exact .startedNone sid n
  | reload sid n =>
    simp only [World.perform]
    split
    · exact .port sid n _
    · exact .reloadedNone sid n
  | _ => constructor

theorem World.reply_gives (w : World) (actor : Actor) (how : How) (choice : Choice) (q : Request) :
    q.Gives (w.reply actor how choice q) := by
  cases how with
  | raises e effect => exact .raised q e
  | _ => exact w.perform_gives actor choice q

section

variable {settings : Settings} {now : Time} {reply : Reply}

theorem CreateSandbox.resume_isSome {c : CreateSandbox} {cap : Nat}
    (hkeyed : c.pc = .replay ∨ c.pc = .lostInsert → c.key.isSome) (h : c.request.Gives reply) :
    (c.resume cap reply).isSome := by
  obtain ⟨body, key, sid, pc⟩ := c
  cases pc with
  | replay =>
    obtain ⟨k, rfl⟩ := Option.isSome_iff_exists.mp (hkeyed (.inl rfl))
    cases h with
    | original _ r => cases r <;> rfl
    | raised => rfl
  | lostInsert =>
    obtain ⟨k, rfl⟩ := Option.isSome_iff_exists.mp (hkeyed (.inr rfl))
    cases h with
    | original _ r => cases r <;> rfl
    | raised => rfl
  | capacity =>
    cases h with
    | count n => simp only [resume]; split <;> rfl
    | raised => rfl
  | insert r =>
    cases h with
    | taken => simp only [resume]; split <;> rfl
    | _ => rfl
  | _ => cases h <;> rfl

theorem DeleteSandbox.resume_isSome {d : DeleteSandbox} (h : d.request.Gives reply) :
    (d.resume reply).isSome := by
  obtain ⟨sid, pc⟩ := d
  cases pc with
  | get =>
    cases h with
    | row _ r =>
      cases r with
      | none => rfl
      | some r => simp only [resume]; split <;> rfl
    | raised => rfl
  | refresh =>
    cases h with
    | row _ r =>
      cases r with
      | none => rfl
      | some r => simp only [resume]; split <;> rfl
    | raised => rfl
  | _ => cases h <;> rfl

theorem StartSandbox.resume_isSome {d : StartSandbox} (h : d.request.Gives reply) :
    (d.resume settings now reply).isSome := by
  obtain ⟨sid, jobTry, pool, pc⟩ := d
  cases pc with
  | get =>
    cases h with
    | row _ r =>
      cases r with
      | none => rfl
      | some r => simp only [resume]; split <;> rfl
    | raised => rfl
  | expiryCheck r =>
    cases h with
    | time t => simp only [resume]; split <;> rfl
    | raised => rfl
  | inspect r =>
    cases h with
    | object _ found =>
      rcases found with _ | ⟨n, _ | _⟩ <;> rfl
    | raised => rfl
  | conflict r =>
    cases h with
    | object _ found => cases found <;> rfl
    | raised => rfl
  | reload r n =>
    cases h with
    | port _ _ p => cases p <;> rfl
    | _ => rfl
  | pickUp r =>
    cases h with
    | changed _ _ _ b => cases b <;> rfl
    | raised => rfl
  | retry reason =>
    cases h with
    | changed _ _ _ b => cases b <;> rfl
    | raised => rfl
  | succeed r url =>
    cases h with
    | changed _ _ _ b => cases b <;> rfl
    | raised => rfl
  | _ => cases h <;> rfl

theorem StopSandbox.resume_isSome {d : StopSandbox} (h : d.request.Gives reply) :
    (d.resume settings reply).isSome := by
  obtain ⟨sid, jobTry, pool, pc⟩ := d
  cases pc with
  | remove =>
    cases h with
    | removed => rfl
    | raised => simp only [resume]; split <;> rfl
  | finish => cases h <;> rfl

theorem ReconcileSandboxes.resume_isSome {p : ReconcileSandboxes} (h : p.request.Gives reply) :
    (p.resume reply).isSome := by
  obtain ⟨n, pc⟩ := p
  cases pc with
  | vanish v sid rest =>
    cases h with
    | changed _ _ _ b => cases b <;> rfl
    | raised => rfl
  | _ => cases h <;> rfl

theorem Proc.resume_isSome (settings : Settings) (now : Time) {proc : Proc} {w : World}
    (hk : proc.Known w) (h : proc.request.Gives reply) : (proc.resume settings now reply).isSome := by
  cases proc with
  | create c =>
    refine Option.isSome_map.trans (CreateSandbox.resume_isSome ?_ h)
    intro hpc
    obtain ⟨body, key, sid, pc⟩ := c
    rcases hpc with rfl | rfl
    · exact hk
    · exact hk.1
  | delete d => exact Option.isSome_map.trans (DeleteSandbox.resume_isSome h)
  | put p =>
    cases h <;> rfl
  | start d => exact Option.isSome_map.trans (StartSandbox.resume_isSome h)
  | stop d => exact Option.isSome_map.trans (StopSandbox.resume_isSome h)
  | sweep p => exact Option.isSome_map.trans (ReconcileSandboxes.resume_isSome h)

end

/-! ## Calls ahead -/

/-- How many calls a POST has ahead at most, the one it awaits included. -/
def CreatePc.ahead : CreatePc → Nat
  | .replay => 7
  | .capacity => 6
  | .pick => 5
  | .stamp _ => 4
  | .insert _ => 3
  | .lostInsert => 1
  | .enqueue _ => 2
  | .enqueueFailed _ _ => 1

def DeletePc.ahead : DeletePc → Nat
  | .get => 5
  | .mark => 4
  | .refresh => 3
  | .pick _ => 2
  | .enqueue _ _ => 1

def StartPc.ahead : StartPc → Nat
  | .get => 12
  | .expiryCheck _ => 11
  | .expire => 1
  | .pickUp _ => 10
  | .inspect _ => 9
  | .removeLeftover _ _ => 8
  | .create _ => 7
  | .startObject _ _ => 6
  | .conflict _ => 5
  | .reload _ _ => 4
  | .waitReady _ _ => 3
  | .discardBroken _ => 2
  | .retry _ => 1
  | .fail _ => 1
  | .succeed _ _ => 2
  | .discardUnwanted => 1

def StopPc.ahead : StopPc → Nat
  | .remove => 2
  | .finish => 1

def SweepPc.queries : SweepPc → Nat
  | .snapshot => 4
  | .list _ => 3
  | .statuses _ _ => 2
  | .clock _ _ _ => 1
  | _ => 0

/-- The calls of the loops, two for each container and one for each missing row. -/
def SweepPc.work : SweepPc → Nat
  | .remove v _ _ rest => 2 * rest.length + v.missing.length + 3
  | .settle v _ _ rest => 2 * rest.length + v.missing.length + 2
  | .vanish _ _ rest => rest.length + 2
  | .finishStops _ => 1
  | _ => 0

/-- Only a sweep has calls ahead that its next reply may add to: the loops come after the
queries. -/
def Proc.callsAhead : Proc → Nat ×ₗ Nat
  | .create c => toLex (0, c.pc.ahead)
  | .delete d => toLex (0, d.pc.ahead)
  | .put _ => toLex (0, 1)
  | .start d => toLex (0, d.pc.ahead)
  | .stop d => toLex (0, d.pc.ahead)
  | .sweep p => toLex (p.pc.queries, p.pc.work)

section

variable {settings : Settings} {reply : Reply}

theorem CreateSandbox.ahead_of_goes {cap : Nat} {c : CreateSandbox} {pc pc' : CreatePc}
    (h : c.Goes cap pc reply pc') : pc'.ahead < pc.ahead := by
  cases h <;> simp [CreatePc.ahead]

theorem DeleteSandbox.ahead_of_goes {d : DeleteSandbox} {pc pc' : DeletePc}
    (h : d.Goes pc reply pc') : pc'.ahead < pc.ahead := by
  cases h <;> simp [DeletePc.ahead]

theorem StartSandbox.ahead_of_goes {d : StartSandbox} {pc pc' : StartPc}
    (h : d.Goes settings pc reply pc') : pc'.ahead < pc.ahead := by
  cases h with
  | launchFailed pc _ e launching => cases pc <;> simp_all [StartPc.ahead, StartPc.launching]
  | _ => simp [StartPc.ahead]

theorem StopSandbox.ahead_of_goes {d : StopSandbox} {pc pc' : StopPc} (h : d.Goes pc reply pc') :
    pc'.ahead < pc.ahead := by
  cases h
  exact Nat.lt_succ_self 1

theorem work_nextMissing (v : Snapshot) (l : List Uuid) :
    (ReconcileSandboxes.nextMissing v l).queries = 0 ∧
      (ReconcileSandboxes.nextMissing v l).work = l.length + 1 := by
  cases l <;> exact ⟨rfl, rfl⟩

theorem work_nextContainer (v : Snapshot) (cs : List RuntimeSandbox) :
    (ReconcileSandboxes.nextContainer v cs).queries = 0 ∧
      (ReconcileSandboxes.nextContainer v cs).work ≤ 2 * cs.length + v.missing.length + 1 := by
  induction cs with
  | nil =>
    obtain ⟨hqueries, hwork⟩ := work_nextMissing v v.missing
    refine ⟨hqueries, ?_⟩
    rw [ReconcileSandboxes.nextContainer, hwork]
    simp
  | cons c cs ih =>
    rw [ReconcileSandboxes.nextContainer]
    split
    · refine ⟨rfl, ?_⟩
      simp only [SweepPc.work, List.length_cons]
      omega
    · refine ⟨ih.1, Nat.le_trans ih.2 ?_⟩
      simp only [List.length_cons]
      omega

theorem ReconcileSandboxes.ahead_of_goes {p p' : ReconcileSandboxes} (h : p.Goes reply p') :
    p'.pc.queries < p.pc.queries ∨ p'.pc.queries = p.pc.queries ∧ p'.pc.work < p.pc.work := by
  cases h with
  | clocked n running cs rows now =>
    left
    rw [(work_nextContainer _ cs).1]
    exact Nat.one_pos
  | removed => exact .inr ⟨rfl, Nat.lt_succ_self _⟩
  | settled n v c reason rest b =>
    obtain ⟨hqueries, hwork⟩ := work_nextContainer v rest
    exact .inr ⟨hqueries, Nat.lt_succ_of_le hwork⟩
  | vanished n v sid rest =>
    obtain ⟨hqueries, hwork⟩ := work_nextMissing v rest
    exact .inr ⟨hqueries, by rw [hwork]; exact Nat.lt_succ_self _⟩
  | kept n v sid rest =>
    obtain ⟨hqueries, hwork⟩ := work_nextMissing v rest
    exact .inr ⟨hqueries, by rw [hwork]; exact Nat.lt_succ_self _⟩
  | _ => exact .inl (Nat.lt_succ_self _)

/-- Every reply that a handler goes on with takes it closer to its end. -/
theorem Proc.ahead_of_goes {proc proc' : Proc} (h : proc.Goes settings reply proc') :
    proc'.callsAhead < proc.callsAhead := by
  refine Prod.Lex.toLex_lt_toLex.mpr ?_
  cases h with
  | create c _ pc goes => exact .inr ⟨rfl, CreateSandbox.ahead_of_goes goes⟩
  | delete d _ pc goes => exact .inr ⟨rfl, DeleteSandbox.ahead_of_goes goes⟩
  | start d _ pc goes => exact .inr ⟨rfl, StartSandbox.ahead_of_goes goes⟩
  | stop d _ pc goes => exact .inr ⟨rfl, StopSandbox.ahead_of_goes goes⟩
  | sweep p _ p' goes => exact ReconcileSandboxes.ahead_of_goes goes

end

/-! ## Every run -/

abbrev EndlessRun (settings : Settings) : Type := LabelledRuns.InfiniteRun (step settings)

/-- The calls of handlers resolve: with a reply, an exception or the death of the handler. -/
def CallsResolve {settings : Settings} (x : EndlessRun settings) : Prop :=
  x.Fair (fun s pid => (s.proc pid).isSome = true) fun a pid => ∃ how choice, a = .await pid how choice

section

variable {settings : Settings} {s t : State} {a : Action} {pid : Nat} {proc : Proc}

theorem await_possible (hs : Provenance s) (found : s.proc pid = some proc) (how : How)
    (choice : Choice) : ∃ t, step settings s (.await pid how choice) = some t := by
  by_cases hkilled : ∃ e r, how = .killed e r
  · obtain ⟨e, r, rfl⟩ := hkilled
    simp only [step, found, Option.bind_some]
    exact ⟨_, rfl⟩
  · have lives : ∀ e r, how ≠ .killed e r := fun e r he => hkilled ⟨e, r, he⟩
    have hgives := s.world.reply_gives proc.actor how choice proc.request
    obtain ⟨⟨events, next⟩, hresume⟩ := Option.isSome_iff_exists.mp
      (Proc.resume_isSome settings s.world.now (hs.procs pid proc found) hgives)
    cases next with
    | goto proc' =>
      obtain ⟨t, ht, -⟩ := await_goes found lives hresume
      exact ⟨t, ht⟩
    | done outcome =>
      obtain ⟨t, ht, -⟩ := await_ends found lives hresume
      exact ⟨t, ht⟩

/-- A handler in flight stays where it is until its own call resolves, which takes it closer to
its end. -/
theorem Stepped.closer (h : Stepped settings s t a) (found : s.proc pid = some proc) :
    (t.proc pid = some proc ∧ ∀ how choice, a ≠ .await pid how choice) ∨ t.proc pid = none ∨
      ∃ proc', t.proc pid = some proc' ∧ proc'.callsAhead < proc.callsAhead := by
  cases h with
  | tick _ _ result => subst result; exact .inl ⟨found, by simp⟩
  | dropped _ _ _ _ result => subst result; exact .inl ⟨found, by simp⟩
  | died _ _ _ result => subst result; exact .inl ⟨found, by simp⟩
  | exited _ _ _ result => subst result; exact .inl ⟨found, by simp⟩
  | spawned q new world drawn spawn absent _ _ procs =>
    refine .inl ⟨?_, fun how choice => by cases spawn <;> simp⟩
    rw [procs, if_neg (fun hq => by rw [hq, found] at absent; cases absent), found]
  | resumed q how choice old new events found' lives resume _ _ procs =>
    by_cases hq : q = pid
    · subst hq
      cases found.symm.trans found'
      exact .inr (.inr ⟨new, by rw [procs, if_pos rfl], Proc.ahead_of_goes (Proc.goes_of_resume resume)⟩)
    · exact .inl ⟨by rw [procs, if_neg hq, found], by simp [hq]⟩
  | ended q how choice old outcome events _ _ _ _ _ procs =>
    by_cases hq : q = pid
    · exact .inr (.inl (by rw [procs, if_pos hq]))
    · exact .inl ⟨by rw [procs, if_neg hq, found], by simp [hq]⟩
  | killed q effect requeue choice old _ _ _ procs =>
    by_cases hq : q = pid
    · exact .inr (.inl (by rw [procs, if_pos hq]))
    · exact .inl ⟨by rw [procs, if_neg hq, found], by simp [hq]⟩

def State.callsAhead (pid : Nat) (s : State) : Nat ×ₗ Nat :=
  ((s.proc pid).map Proc.callsAhead).getD (toLex (0, 0))

theorem Stepped.descends (h : Stepped settings s t a) (hthere : s.proc pid ≠ none) :
    LabelledRuns.InfiniteRun.Descends (fun s => s.proc pid = none)
      (fun s q => q = pid ∧ (s.proc q).isSome = true) (fun a q => ∃ how choice, a = .await q how choice)
      (State.callsAhead pid) s a t := by
  obtain ⟨proc, found⟩ := Option.ne_none_iff_exists'.mp hthere
  refine ⟨?_, ?_, ?_⟩
  · rintro q ⟨rfl, hsome⟩ hnot
    rcases h.closer found with ⟨hkept, -⟩ | hgone | ⟨proc', hgoes, -⟩
    · exact .inr ⟨rfl, by rw [hkept]; rfl⟩
    · exact .inl hgone
    · exact .inr ⟨rfl, by rw [hgoes]; rfl⟩
  · rintro q ⟨rfl, hsome⟩ ⟨how, choice, rfl⟩
    rcases h.closer found with ⟨-, hnot⟩ | hgone | ⟨proc', hgoes, hlt⟩
    · exact absurd rfl (hnot how choice)
    · exact .inl hgone
    · exact .inr (by simpa [State.callsAhead, found, hgoes] using hlt)
  · rcases h.closer found with ⟨hkept, -⟩ | hgone | ⟨proc', hgoes, hlt⟩
    · exact .inr (by rw [State.callsAhead, State.callsAhead, hkept, found])
    · exact .inl hgone
    · exact .inr (le_of_lt (by simpa [State.callsAhead, found, hgoes] using hlt))

theorem CallsResolve.ends {x : EndlessRun settings} (hfair : CallsResolve x) (n pid : Nat) :
    ∃ m, n ≤ m ∧ (x.state m).proc pid = none := by
  have hown : x.Fair (fun s q => q = pid ∧ (s.proc q).isSome = true)
      (fun a q => ∃ how choice, a = .await q how choice) :=
    fun m q hheld => hfair m q fun k hk => (hheld k hk).2
  exact hown.eventually x (fun m _ hthere => ⟨pid, rfl, Option.isSome_iff_ne_none.mpr hthere⟩)
    fun m _ hthere => (stepped (x.steps m)).descends hthere

end

/-- In every endless run, however handlers overlap, fail and are killed: whatever the call of a
handler comes to, it has a way on, and where calls resolve each handler ends, sweeps with their
two loops included. -/
theorem handlers_end (settings : Settings) (now : Time) (containers : Containers) (nextObject : Nat)
    (x : EndlessRun settings) (hinit : x.state 0 = State.init now containers nextObject) (n pid : Nat) :
    (∀ proc how choice, (x.state n).proc pid = some proc →
        ∃ t, step settings (x.state n) (.await pid how choice) = some t) ∧
      (CallsResolve x → ∃ m, n ≤ m ∧ (x.state m).proc pid = none) := by
  have hprovenance : Provenance (x.state n) :=
    x.invariant (P := fun _ _ _ => True) (fun _ _ _ hs _ h => provenance_step hs h)
      (hinit ▸ provenance_init now containers nextObject) (fun _ _ => trivial) (Nat.zero_le n)
  exact ⟨fun _ how choice found => await_possible hprovenance found how choice,
    fun hfair => hfair.ends n pid⟩

theorem step_tick_now (settings : Settings) (s : State) :
    step settings s (.tick s.world.now) = some s := by
  simp [step]

/-- After one POST nothing happens any more but the clock being read. -/
theorem handlers_end_posted : ∃ x : EndlessRun ⟨3, 4, "localhost"⟩,
    CallsResolve x ∧ (x.state 1).proc 0 ≠ none ∧ ∃ m, 1 ≤ m ∧ (x.state m).proc 0 = none := by
  have hrun : (run ⟨3, 4, "localhost"⟩ (State.init 0 KeyedTable.empty 0)
      (posted 0 1 ++ [.ok 0])).any (fun s => decide (s.procs.rows = [])) = true := by decide
  obtain ⟨s, hs, hrows⟩ := LabelledRuns.exists_run hrun
  have hidle := State.idle_of_rows (of_decide_eq_true hrows)
  have hfair : CallsResolve (.after hs (.rest (step_tick_now _ s)) rfl) :=
    LabelledRuns.InfiniteRun.after_fair <| LabelledRuns.InfiniteRun.rest_fair fun pid hsome => by
      rw [hidle pid] at hsome
      cases hsome
  obtain ⟨-, hends⟩ := handlers_end ⟨3, 4, "localhost"⟩ 0 KeyedTable.empty 0
    (.after hs (.rest (step_tick_now _ s)) rfl) rfl 1 0
  exact ⟨_, hfair, Option.isSome_iff_ne_none.mp rfl, hends hfair⟩

end SandboxOrchestrator
