import SandboxOrchestrator.Steps

/-!
# What a rollout weight governs

A run is watched with the weight of the last PUT that answered, as long as no PUT began
after it, and with the requests whose read of the weight raised. A PUT answers some time after
its SET returned, and the answers of two PUTs may cross. A request reads the weight in one await
and enqueues in a later one; a PUT that takes effect in between overtakes it. An enqueue that
timed out and acts later is here one that raises later: its request is still in flight.
-/

namespace SandboxOrchestrator

set_option autoImplicit false

structure Rollout where
  /-- The weight of the last PUT that answered 200, until another PUT begins. -/
  governing : Option Nat
  /-- The PUTs whose SET has returned and that have not answered yet. -/
  answering : List PutRollout
  /-- The last read of the weight by this handler raised. -/
  misread : Nat → Bool

def Proc.picking : Proc → Bool
  | .create c => decide (c.pc = .pick)
  | .delete ⟨_, .pick _⟩ => true
  | _ => false

/-- The sandbox and the pool of a POST or DELETE that has picked and not yet enqueued. -/
def Proc.picked : Proc → Option (Uuid × Deployment)
  | .create c =>
    match c.pc with
    | .stamp dep => some (c.sandboxId, dep)
    | .insert sandbox => some (sandbox.id, sandbox.deployment)
    | .enqueue sandbox => some (sandbox.id, sandbox.deployment)
    | _ => none
  | .delete ⟨sid, .enqueue _ dep⟩ => some (sid, dep)
  | _ => none

def How.isRaise : How → Bool
  | .raises _ _ => true
  | _ => false

def Rollout.after (o : Rollout) (s : State) : Action → Rollout
  | .put _ _ => { o with governing := none }
  | .await pid how _ =>
    match s.proc pid with
    | some (.put p) => if how = .ok then { o with answering := p :: o.answering } else o
    | some proc =>
      if proc.picking then
        { o with misread := fun q => if q = pid then how.isRaise else o.misread q }
      else o
    | none => o
  | _ => o

def stepRollout (settings : Settings) (x : State × Rollout) (a : Action) :
    Option (State × Rollout) :=
  (step settings x.1 a).map fun t => (t, x.2.after x.1 a)

/-- A step of the system, or the answer 200 of the `i`-th PUT that has one to give. -/
inductive RolloutAction
  | step (a : Action)
  | answer (i : Nat)

def Rollout.answered (o : Rollout) (i : Nat) (p : PutRollout) : Rollout :=
  { o with governing := some p.canaryWeight, answering := o.answering.eraseIdx i }

def stepAnswers (settings : Settings) (x : State × Rollout) :
    RolloutAction → Option (State × Rollout)
  | .step a => stepRollout settings x a
  | .answer i => x.2.answering[i]?.map fun p => (x.1, x.2.answered i p)

def State.places (s : State) (pid : Nat) (how : How) (job : Job) : Prop :=
  how.effect = true ∧ (∃ proc, s.proc pid = some proc ∧ proc.request = .enqueue job) ∧
    (s.world.enqueue job).2 = .enqueued true

/-- A job placed while `w` governs goes to the pool of `w`, or to stable if its request could
not read the weight. -/
def Governed (x : State × Rollout) (a : RolloutAction) : Prop :=
  ∀ w pid how choice job, x.2.governing = some w → a = .step (.await pid how choice) →
    x.1.places pid how job →
      (job.queue = route job.sandboxId w ∨ (job.queue = .stable ∧ x.2.misread pid = true)) ∧
        (w = 0 → job.queue = .stable)

/-- The SET of a PUT takes effect while another weight governs; or a PUT answers while the
weight in Redis is not its own, or while a POST or DELETE in flight still holds a pool, picked
by a weight it read, that is not the pool of the new weight. -/
def overtakes (x : State × Rollout) : RolloutAction → Bool
  | .step (.await pid how _) =>
    match x.1.proc pid with
    | some (.put p) => how.effect && x.2.governing.any fun w => decide (w ≠ p.canaryWeight)
    | _ => false
  | .step _ => false
  | .answer i => x.2.answering[i]?.any fun p =>
      decide (x.1.world.weight ≠ some (p.canaryWeight : Int)) ||
        x.1.procs.rows.any fun e => !x.2.misread e.1 && e.2.picked.any fun held =>
          decide (held.2 ≠ route held.1 p.canaryWeight)

theorem overtakes_of_governing {x : State × Rollout} {pid : Nat} {how : How} {choice : Choice}
    {p : PutRollout} {w : Nat} (hp : x.1.proc pid = some (.put p)) (heffect : how.effect = true)
    (hw : x.2.governing = some w) (hne : w ≠ p.canaryWeight) :
    overtakes x (.step (.await pid how choice)) = true := by
  simp [overtakes, hp, heffect, hw, hne]

theorem of_answer {x : State × Rollout} {i : Nat} {p : PutRollout}
    (hp : x.2.answering[i]? = some p) (hnot : overtakes x (.answer i) = false) :
    x.1.world.weight = some (p.canaryWeight : Int) ∧
      ∀ pid proc sid pool, x.1.proc pid = some proc → proc.picked = some (sid, pool) →
        x.2.misread pid = false → pool = route sid p.canaryWeight := by
  simp only [overtakes, hp, Option.any_some, Bool.or_eq_false_iff, decide_eq_false_iff_not,
    not_not] at hnot
  obtain ⟨hweight, hheld⟩ := hnot
  refine ⟨hweight, fun pid proc sid pool hproc hpicked hmis => ?_⟩
  have hthis := List.any_eq_false.mp hheld (pid, proc) (State.mem_procs_iff.mpr hproc)
  simpa [hmis, hpicked] using hthis

theorem route_zero (sid : Uuid) : route sid 0 = .stable := by
  simp [route]

theorem clampWeight_of_le {w : Nat} (h : w ≤ 100) : clampWeight (some (w : Int)) = w := by
  simp only [clampWeight]
  omega

/-! ## Picking -/

theorem Proc.picked_of_enqueue {proc : Proc} {job : Job} (h : proc.request = .enqueue job) :
    proc.picked = some (job.sandboxId, job.queue) := by
  cases Proc.asks_of h <;> rfl

theorem Proc.Goes.picked {settings : Settings} {old proc : Proc} {reply : Reply}
    (h : old.Goes settings reply proc) {sid : Uuid} {pool : Deployment}
    (hp : proc.picked = some (sid, pool)) :
    (old.picking = false ∧ old.picked = some (sid, pool)) ∨
      (old.picking = true ∧ old.request = .getWeight ∧ pickDeployment sid reply = some pool) := by
  cases h with
  | create c reply pc goes =>
    generalize hpc : c.pc = from_ at goes
    cases goes with
    | picked reply d pick =>
      cases hp
      exact .inr ⟨by simp [picking, hpc], by simp [request, CreateSandbox.request, hpc], pick⟩
    | stamped d now =>
      cases hp
      exact .inl ⟨by simp [picking, hpc], by simp [Proc.picked, hpc, CreateSandbox.draft]⟩
    | inserted r =>
      cases hp
      exact .inl ⟨by simp [picking, hpc], by simp [Proc.picked, hpc]⟩
    | _ => cases hp
  | delete d reply pc goes =>
    obtain ⟨id, pc₀⟩ := d
    generalize hpc : pc₀ = from_ at goes
    cases goes with
    | picked r reply dep pick =>
      cases hp
      exact .inr ⟨by simp [picking], by simp [request, DeleteSandbox.request], pick⟩
    | _ => cases hp
  | _ => cases hp

theorem Spawned.picked {settings : Settings} {s : State} {a : Action} {pid : Nat} {proc : Proc}
    {w : World} {drawn : List Uuid} (h : Spawned settings s a pid proc w drawn) :
    proc.picked = none := by
  cases h with
  | post _ body key sid => cases key <;> rfl
  | deliver _ job => obtain ⟨_ | _, _⟩ := job <;> rfl
  | redeliver _ job => obtain ⟨_ | _, _⟩ := job <;> rfl
  | _ => rfl

/-! ## The weight -/

theorem World.weight_after {w : World} {actor : Actor} {how : How} {choice : Choice} {q : Request}
    (h : ∀ v, q ≠ .setWeight v) : (w.after actor how choice q).weight = w.weight := by
  unfold World.after
  split
  · cases q with
    | setWeight v => exact absurd rfl (h v)
    | insert r => simp only [World.perform]; split <;> rfl
    | enqueue job => simp only [World.perform, World.enqueue]; split <;> rfl
    | create id t => simp only [World.perform, World.createContainer]; split <;> rfl
    | removeObject id n => simp only [World.perform]; split <;> rfl
    | startObject id n => simp only [World.perform]; split <;> rfl
    | reload id n => simp only [World.perform]; split <;> rfl
    | _ => rfl
  · rfl

@[simp] theorem World.settleJob_weight (w : World) (proc : Proc) (again : Bool) :
    (w.settleJob proc again).weight = w.weight := by
  unfold settleJob
  split
  · rfl
  · split <;> rfl

theorem Proc.put_of_setWeight {proc : Proc} {v : Int} (h : proc.request = .setWeight v) :
    ∃ p, proc = .put p ∧ v = p.canaryWeight := by
  cases Proc.asks_of h with
  | setWeight p => exact ⟨p, rfl, rfl⟩

theorem State.weight_worldAfter (s : State) (proc : Proc) (how : How) (choice : Choice) :
    (s.worldAfter proc how choice).weight = s.world.weight ∨
      ∃ p, proc = .put p ∧ how.effect = true ∧
        (s.worldAfter proc how choice).weight = some (p.canaryWeight : Int) := by
  by_cases hq : ∃ v, proc.request = .setWeight v
  · obtain ⟨v, hv⟩ := hq
    obtain ⟨p, rfl, rfl⟩ := Proc.put_of_setWeight hv
    cases heffect : how.effect with
    | false => exact .inl (by simp [State.worldAfter, World.after, heffect])
    | true =>
      exact .inr ⟨p, rfl, rfl, by
        simp [State.worldAfter, World.after, heffect, Proc.request, PutRollout.request,
          World.perform]⟩
  · exact .inl (World.weight_after fun v hv => hq ⟨v, hv⟩)

theorem Stepped.weight {settings : Settings} {s t : State} {a : Action}
    (h : Stepped settings s t a) : t.world.weight = s.world.weight ∨
      ∃ pid how choice p, a = .await pid how choice ∧ s.proc pid = some (.put p) ∧
        how.effect = true ∧ t.world.weight = some (p.canaryWeight : Int) := by
  cases h with
  | tick _ _ result => subst result; exact .inl rfl
  | spawned pid proc world drawn spawn absent world_eq =>
    rw [world_eq]
    cases spawn <;> exact .inl rfl
  | dropped _ _ _ _ result => subst result; exact .inl rfl
  | died _ _ _ result => subst result; exact .inl rfl
  | exited _ _ _ result => subst result; exact .inl rfl
  | resumed pid how choice proc proc' events found lives resume world_eq =>
    rcases s.weight_worldAfter proc how choice with hw | ⟨p, rfl, heffect, hw⟩
    · exact .inl (by rw [world_eq]; exact hw)
    · exact .inr ⟨pid, how, choice, p, rfl, found, heffect, by rw [world_eq]; exact hw⟩
  | ended pid how choice proc outcome events found lives resume world_eq =>
    rcases s.weight_worldAfter proc how choice with hw | ⟨p, rfl, heffect, hw⟩
    · exact .inl (by rw [world_eq, World.settleJob_weight]; exact hw)
    · exact .inr ⟨pid, how, choice, p, rfl, found, heffect, by
        rw [world_eq, World.settleJob_weight]; exact hw⟩
  | killed pid effect requeue choice proc found world_eq =>
    rcases s.weight_worldAfter proc (.killed effect requeue) choice with hw | ⟨p, rfl, heffect, hw⟩
    · exact .inl (by rw [world_eq, World.settleJob_weight]; exact hw)
    · exact .inr ⟨pid, .killed effect requeue, choice, p, rfl, found, heffect, by
        rw [world_eq, World.settleJob_weight]; exact hw⟩

theorem Stepped.weight_of_put {settings : Settings} {s t : State} {pid : Nat} {how : How}
    {choice : Choice} (h : Stepped settings s t (.await pid how choice)) {p : PutRollout}
    (hp : s.proc pid = some (.put p)) (heffect : how.effect = true) :
    t.world.weight = some (p.canaryWeight : Int) := by
  have hset : (s.worldAfter (.put p) how choice).weight = some (p.canaryWeight : Int) := by
    simp [State.worldAfter, World.after, heffect, Proc.request, PutRollout.request, World.perform]
  cases h with
  | resumed _ _ _ proc proc' events found lives resume world_eq =>
    cases hp.symm.trans found
    rw [world_eq]
    exact hset
  | ended _ _ _ proc outcome events found lives resume world_eq =>
    cases hp.symm.trans found
    rw [world_eq, World.settleJob_weight]
    exact hset
  | killed _ effect requeue _ proc found world_eq =>
    cases hp.symm.trans found
    rw [world_eq, World.settleJob_weight]
    exact hset
  | spawned _ _ _ _ spawn => cases spawn

/-! ## The watch -/

theorem Rollout.governing_after {o : Rollout} {s : State} {a : Action} {w : Nat}
    (h : (o.after s a).governing = some w) : o.governing = some w := by
  cases a with
  | put pid p => cases h
  | await pid how choice =>
    cases hp : s.proc pid with
    | none => simpa [Rollout.after, hp] using h
    | some proc =>
      cases proc <;>
        · simp only [Rollout.after, hp] at h
          split at h <;> exact h
  | _ => exact h

theorem Rollout.misread_after (o : Rollout) (s : State) (a : Action) (q : Nat) :
    ((o.after s a).misread q = o.misread q ∧
        ∀ how choice old, a = .await q how choice → s.proc q = some old → old.picking = false) ∨
      ∃ how choice old, a = .await q how choice ∧ s.proc q = some old ∧ old.picking = true ∧
        (o.after s a).misread q = how.isRaise := by
  cases a with
  | await pid how choice =>
    cases hp : s.proc pid with
    | none =>
      refine .inl ⟨by simp [Rollout.after, hp], fun how' choice' old ha hold => ?_⟩
      cases ha
      cases hp.symm.trans hold
    | some proc =>
      cases hpick : proc.picking with
      | true =>
        have hafter : o.after s (.await pid how choice) =
            { o with misread := fun q => if q = pid then how.isRaise else o.misread q } := by
          cases proc with
          | put p => cases hpick
          | _ => simp only [Rollout.after, hp, hpick, if_true]
        by_cases hq : q = pid
        · subst hq
          exact .inr ⟨how, choice, proc, rfl, hp, hpick, by simp [hafter]⟩
        · refine .inl ⟨by simp [hafter, hq], fun how' choice' old ha => ?_⟩
          cases ha
          exact absurd rfl hq
      | false =>
        refine .inl ⟨?_, fun how' choice' old ha hold => ?_⟩
        · cases proc with
          | put p =>
            simp only [Rollout.after, hp]
            split <;> rfl
          | _ => simp [Rollout.after, hp, hpick]
        · cases ha
          cases hp.symm.trans hold
          exact hpick
  | _ => exact .inl ⟨rfl, fun how choice old ha => by cases ha⟩

/-- A pool held after a step was held before it, or comes from a read of the weight. -/
theorem held_after {settings : Settings} {s t : State} {a : Action} (o : Rollout)
    (h : Stepped settings s t a) {pid : Nat} {proc : Proc} {sid : Uuid} {pool : Deployment}
    (hp : t.proc pid = some proc) (hpicked : proc.picked = some (sid, pool)) :
    (∃ old, s.proc pid = some old ∧ old.picked = some (sid, pool) ∧
        (o.after s a).misread pid = o.misread pid) ∨
      ∃ how choice old, a = .await pid how choice ∧ s.proc pid = some old ∧ old.picking = true ∧
        (o.after s a).misread pid = how.isRaise ∧
        pickDeployment sid (s.world.reply old.actor how choice .getWeight) = some pool ∧
        ∀ e r, how ≠ .killed e r := by
  cases h.came hp with
  | stayed found other =>
    rcases o.misread_after s a pid with ⟨hkept, -⟩ | ⟨how, choice, old, ha, -⟩
    · exact .inl ⟨proc, found, hpicked, hkept⟩
    · exact absurd ha (other how choice)
  | spawned world drawn spawn => simp [spawn.picked] at hpicked
  | resumed how choice old events isAwait found lives goes =>
    subst isAwait
    rcases o.misread_after s (.await pid how choice) pid with
      ⟨hkept, hnot⟩ | ⟨how', choice', old', ha, hold, hpicking, hmis⟩
    · rcases goes.picked hpicked with ⟨-, hold⟩ | ⟨hpicking, -⟩
      · exact .inl ⟨old, found, hold, hkept⟩
      · exact absurd hpicking (by simp [hnot how choice old rfl found])
    · cases ha
      cases found.symm.trans hold
      rcases goes.picked hpicked with ⟨hnot, -⟩ | ⟨-, hq, hpick⟩
      · exact absurd hpicking (by simp [hnot])
      · exact .inr ⟨how, choice, old, rfl, found, hpicking, hmis, hq ▸ hpick, lives⟩

/-- While a weight governs it is the weight in Redis, and every pool in flight is its pool
or was picked without reading it. -/
structure Settled (x : State × Rollout) : Prop where
  misread : ∀ pid proc sid pool, x.1.proc pid = some proc → proc.picked = some (sid, pool) →
    x.2.misread pid = true → pool = .stable
  weight : ∀ w, x.2.governing = some w → w ≤ 100 ∧ x.1.world.weight = some (w : Int)
  picks : ∀ w, x.2.governing = some w → ∀ pid proc sid pool, x.1.proc pid = some proc →
    proc.picked = some (sid, pool) → x.2.misread pid = false → pool = route sid w

theorem settled_init (now : Time) (containers : Containers) (nextObject : Nat) :
    Settled (State.init now containers nextObject, ⟨none, [], fun _ => false⟩) where
  misread := fun pid proc sid pool hp => by cases hp
  weight := fun w hw => by cases hw
  picks := fun w hw => by cases hw

theorem settled_base {settings : Settings} {x y : State × Rollout} {a : Action} (hx : Settled x)
    (hnot : overtakes x (.step a) = false) (h : stepRollout settings x a = some y) :
    Settled y := by
  obtain ⟨t, hstep, rfl⟩ := Option.map_eq_some_iff.mp h
  have hstepped := stepped hstep
  refine ⟨?_, ?_, ?_⟩
  · intro pid proc sid pool hp hpicked hmis
    rcases held_after x.2 hstepped hp hpicked with ⟨old, hold, hpicked', hkept⟩ |
      ⟨how, choice, old, -, -, -, hraise, hpick, -⟩
    · exact hx.misread pid old sid pool hold hpicked' (hkept ▸ hmis)
    · cases how with
      | raises e b => cases hpick; rfl
      | _ => simp [hraise, How.isRaise] at hmis
  · intro w hw
    obtain ⟨hle, hredis⟩ := hx.weight w (Rollout.governing_after hw)
    refine ⟨hle, ?_⟩
    rcases hstepped.weight with hsame | ⟨pid, how, choice, p, rfl, hp, heffect, hset⟩
    · exact hsame.trans hredis
    · have heq : p.canaryWeight = w := by
        by_contra hne
        exact Bool.eq_false_iff.mp hnot
          (overtakes_of_governing hp heffect (Rollout.governing_after hw) fun h => hne h.symm)
      exact heq ▸ hset
  · intro w hw pid proc sid pool hp hpicked hmis
    have hgov := Rollout.governing_after hw
    rcases held_after x.2 hstepped hp hpicked with ⟨old, hold, hpicked', hkept⟩ |
      ⟨how, choice, old, rfl, hold, hpicking, hraise, hpick, lives⟩
    · exact hx.picks w hgov pid old sid pool hold hpicked' (hkept ▸ hmis)
    · obtain ⟨hle, hredis⟩ := hx.weight w hgov
      cases how with
      | ok =>
        simp only [World.reply, World.perform, hredis, pickDeployment, clampWeight_of_le hle,
          Option.some.injEq] at hpick
        exact hpick.symm
      | raises e b => simp [hraise, How.isRaise] at hmis
      | killed e r => exact absurd rfl (lives e r)

theorem settled_step {settings : Settings} {x y : State × Rollout} {a : RolloutAction}
    (hx : Settled x) (hnot : overtakes x a = false) (h : stepAnswers settings x a = some y) :
    Settled y := by
  cases a with
  | step a => exact settled_base hx hnot h
  | answer i =>
    obtain ⟨p, hp, rfl⟩ := Option.map_eq_some_iff.mp h
    obtain ⟨hweight, hheld⟩ := of_answer hp hnot
    refine ⟨hx.misread, ?_, ?_⟩
    · rintro w ⟨⟩
      exact ⟨p.bounded, hweight⟩
    · rintro w ⟨⟩
      exact hheld

end SandboxOrchestrator
