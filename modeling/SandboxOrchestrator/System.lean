import SandboxOrchestrator.Reconcile
import SandboxOrchestrator.Library.LabelledRuns

/-!
# The whole system

Any number of handlers in flight over one world. An action starts a handler, lets the
call of one handler resolve, moves the clock, or removes or stops a container from
outside. `step` puts no condition on which handlers overlap, which calls fail and which
handlers are killed; a result that needs one states it over the actions of its run.
-/

namespace SandboxOrchestrator

set_option autoImplicit false

inductive Proc where
  | create (c : CreateSandbox)
  | delete (d : DeleteSandbox)
  | put (p : PutRollout)
  | start (d : StartSandbox)
  | stop (d : StopSandbox)
  | sweep (p : ReconcileSandboxes)
  deriving DecidableEq

namespace Proc

def actor : Proc → Actor
  | .create _ => .createSandbox
  | .delete _ => .deleteSandbox
  | .put _ => .putRollout
  | .start _ => .startSandbox
  | .stop _ => .stopSandbox
  | .sweep _ => .reconcileSandboxes

def request : Proc → Request
  | .create c => c.request
  | .delete d => d.request
  | .put p => p.request
  | .start d => d.request
  | .stop d => d.request
  | .sweep p => p.request

def ended (outcome : End) : Proc → Event
  | .create c => .created c.key c.sandboxId outcome
  | .delete d => .deleted d.sandboxId outcome
  | .put p => .weightSet p.canaryWeight outcome
  | .start d => .worked .startSandbox d.sandboxId outcome
  | .stop d => .worked .stopSandbox d.sandboxId outcome
  | .sweep _ => .reconciled outcome

def job? : Proc → Option Job
  | .start d => some ⟨.startSandbox, d.sandboxId, d.pool, d.jobTry⟩
  | .stop d => some ⟨.stopSandbox, d.sandboxId, d.pool, d.jobTry⟩
  | _ => none

def ofJob (job : Job) : Proc :=
  match job.task with
  | .startSandbox => .start (StartSandbox.start job.sandboxId job.jobTry job.queue)
  | .stopSandbox => .stop (StopSandbox.start job.sandboxId job.jobTry job.queue)

end Proc

def Next.map {L M : Type} (f : L → M) : Next L → Next M
  | .goto l => .goto (f l)
  | .done outcome => .done outcome

def Proc.resume (settings : Settings) (now : Time) (proc : Proc) (reply : Reply) :
    Option (List Event × Next Proc) :=
  match proc with
  | .create c => (c.resume settings.sandboxMaxActive reply).map fun x => (x.1, x.2.map .create)
  | .delete d => (d.resume reply).map fun x => (x.1, x.2.map .delete)
  | .put p => (p.resume reply).map fun x => (x.1, x.2.map .put)
  | .start d => (d.resume settings now reply).map fun x => (x.1, x.2.map .start)
  | .stop d => (d.resume settings reply).map fun x => (x.1, x.2.map .stop)
  | .sweep p => (p.resume reply).map fun x => (x.1, x.2.map .sweep)

abbrev Procs := KeyedTable (Prod.fst : Nat × Proc → Nat) (KeyedTable.noAlt (α := Nat × Proc))

structure State where
  world : World
  procs : Procs
  /-- The ids `uuid4` has drawn, of this program and of the one before it. -/
  drawn : List Uuid

def State.proc (s : State) (pid : Nat) : Option Proc := (s.procs.find? pid).map Prod.snd

/-- No row, no job, no handler; the containers were there before the program. -/
def State.init (now : Time) (containers : Containers) (nextObject : Nat) : State where
  world := ⟨now, KeyedTable.empty, containers, nextObject, [], [], none, []⟩
  procs := KeyedTable.empty
  drawn := containers.rows.map (·.sandboxId)

inductive Action where
  | tick (now : Time)
  | post (pid : Nat) (body : SandboxCreate) (key : Option IdempotencyKey) (sid : Uuid)
  | delete (pid : Nat) (sid : Uuid)
  | put (pid : Nat) (p : PutRollout)
  /-- A worker takes a job off its queue. -/
  | deliver (pid : Nat) (job : Job)
  /-- Delivery is at least once: a job Redis accepted earlier is delivered again. -/
  | redeliver (pid : Nat) (job : Job)
  | sweep (pid : Nat)
  /-- The call of handler `pid` resolves. -/
  | await (pid : Nat) (how : How) (choice : Choice)
  /-- Something outside the program removes a container. -/
  | die (sid : Uuid)
  /-- A container stops running; the daemon still lists it. -/
  | exit (sid : Uuid)
  deriving DecidableEq

def World.record (w : World) (events : List Event) : World := { w with log := events ++ w.log }

/-- The job of a delivery that ended: back in its queue for another try, or done for,
and then its id is free again. -/
def World.settleJob (w : World) (proc : Proc) (again : Bool) : World :=
  match proc.job? with
  | none => w
  | some job =>
    if again then { w with queue := w.queue ++ [{ job with jobTry := job.jobTry + 1 }] }
    else { w with jobKeys := w.jobKeys.erase (job.task, job.sandboxId) }

/-- The reply a handler gets, when it lives to get one. -/
def World.reply (w : World) (actor : Actor) (how : How) (choice : Choice) (q : Request) : Reply :=
  match how with
  | .raises e _ => .raised e
  | _ => (w.perform actor choice q).2

def State.setProc (s : State) (pid : Nat) (proc : Proc) : Procs :=
  s.procs.update (fun e => decide (e.1 = pid)) (fun e => (e.1, proc)) (fun _ => rfl) (fun _ => rfl)

def State.spawn (s : State) (pid : Nat) (proc : Proc) : Option State :=
  (s.procs.insert (pid, proc)).map fun procs => { s with procs := procs }

def State.worldAfter (s : State) (proc : Proc) (how : How) (choice : Choice) : World :=
  s.world.after proc.actor how choice proc.request

def State.await (settings : Settings) (s : State) (pid : Nat) (how : How) (choice : Choice)
    (proc : Proc) : Option State :=
  let w := s.worldAfter proc how choice
  match how with
  | .killed _ requeue =>
    some { s with world := w.settleJob proc requeue, procs := s.procs.erase pid }
  | _ =>
    match proc.resume settings s.world.now (s.world.reply proc.actor how choice proc.request) with
    | none => none
    | some (events, .goto proc') =>
      some { s with world := w.record events, procs := s.setProc pid proc' }
    | some (events, .done outcome) =>
      some { s with
        world := (w.record (proc.ended outcome :: events)).settleJob proc (decide (outcome = .retry))
        procs := s.procs.erase pid }

def step (settings : Settings) (s : State) : Action → Option State
  | .tick now => if s.world.now ≤ now then some { s with world := { s.world with now := now } } else none
  | .post pid body key sid =>
    ({ s with drawn := sid :: s.drawn } : State).spawn pid (.create (.start body key sid))
  | .delete pid sid => s.spawn pid (.delete ⟨sid, .get⟩)
  | .put pid p => s.spawn pid (.put p)
  | .deliver pid job =>
    if job ∈ s.world.queue then
      let w := { s.world with queue := s.world.queue.erase job }
      if job.jobTry ≤ settings.jobMaxTries then ({ s with world := w } : State).spawn pid (.ofJob job)
      -- arq drops a job that is out of tries without calling its handler.
      else some { s with world := { w with jobKeys := w.jobKeys.erase (job.task, job.sandboxId) } }
    else none
  | .redeliver pid job =>
    if s.world.log.any (fun e =>
        match e with
        | .placed j => decide (j.task = job.task) && decide (j.sandboxId = job.sandboxId)
        | _ => false) then
      s.spawn pid (.ofJob job)
    else none
  | .sweep pid => s.spawn pid (.sweep .start)
  | .await pid how choice => (s.proc pid).bind fun proc => s.await settings pid how choice proc
  | .die sid =>
    match s.world.container sid with
    | some _ =>
      some { s with world := { s.world.removeContainer sid with log := .died sid :: s.world.log } }
    | none => none
  | .exit sid =>
    match s.world.container sid with
    | some c => some { s with world := s.world.setContainer { c with running := false } }
    | none => none

def Action.draws : Action → Option Uuid
  | .post _ _ _ sid => some sid
  | _ => none

/-- `uuid4` never draws an id twice. -/
def Fresh (s : State) (a : Action) (_ : State) : Prop :=
  (a.draws.all fun sid => decide (sid ∉ s.drawn)) = true

instance (s : State) (a : Action) (t : State) : Decidable (Fresh s a t) :=
  inferInstanceAs (Decidable (_ = true))

theorem Fresh.not_drawn {s t : State} {pid : Nat} {body : SandboxCreate}
    {key : Option IdempotencyKey} {sid : Uuid} (h : Fresh s (.post pid body key sid) t) :
    sid ∉ s.drawn := by
  simpa [Fresh, Action.draws] using h

abbrev run (settings : Settings) : State → List Action → Option State :=
  LabelledRuns.run (step settings)

abbrev Along (settings : Settings) : (State → Action → State → Prop) → State → List Action → Prop :=
  LabelledRuns.Along (step settings)

/-! ## Shorthands for concrete runs -/

def Action.ok (pid : Nat) : Action := .await pid .ok {}

def Action.fails (pid : Nat) : Action := .await pid (.raises ⟨"ConnectionError", ""⟩ false) {}

/-- The call of `pid` takes effect, and then its reply is lost. -/
def Action.timesOut (pid : Nat) : Action := .await pid (.raises ⟨"TimeoutError", ""⟩ true) {}

def oneMinute : SandboxCreate := ⟨.http, 60, by decide⟩

/-- A POST of `sid` by handler `pid` up to its committed row. Its weight read fails, so it
routes to stable. -/
def posted (pid : Nat) (sid : Uuid) : List Action :=
  [.post pid oneMinute none sid, .ok pid, .fails pid, .ok pid, .ok pid]

/-- Handler `pid` takes the start job of `sid` and has no setback. -/
def started (pid : Nat) (sid : Uuid) : List Action :=
  .deliver pid ⟨.startSandbox, sid, .stable, 1⟩ :: List.replicate 9 (.ok pid)

end SandboxOrchestrator
