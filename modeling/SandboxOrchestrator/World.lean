import SandboxOrchestrator.Models
import SandboxOrchestrator.Library.KeyedTable
import SandboxOrchestrator.Library.Rounding

/-!
# Postgres, Docker and Redis

The shared state of all processes and the calls a handler awaits on it. A call is one
atomic step: an UPDATE with its commit, one request to the Docker daemon, one Redis
command. `perform` is its effect and its reply; a call that raises, or whose caller is
killed, took effect or did not. What the thread of a Docker call still does once nobody
waits for it are steps of their own, in `Threads`.
-/

namespace SandboxOrchestrator

set_option autoImplicit false

/-- A container of the daemon: its two labels (decoded), its object id, whether its
status is "running", and its published port, known once it was started. -/
structure Container where
  sandboxId : Uuid
  expiresAt : Time
  objectId : Nat
  running : Bool
  hostPort : Option Nat
  deriving DecidableEq, Repr

def Container.seen (c : Container) : RuntimeSandbox := ⟨c.sandboxId, c.expiresAt⟩

/-- Rows are unique by id, and by idempotency key where there is one. -/
abbrev Sandboxes := KeyedTable Sandbox.id Sandbox.idempotencyKey

/-- The name of a container is a function of its sandbox id, and names are unique. -/
abbrev Containers := KeyedTable Container.sandboxId (KeyedTable.noAlt (α := Container))

structure World where
  now : Time
  sandboxes : Sandboxes
  containers : Containers
  nextObject : Nat
  queue : List Job
  /-- arq's job keys: a job has one from its enqueue until it ends without a retry. -/
  jobKeys : List (Task × Uuid)
  /-- The integer under `rollout:canary_weight`. -/
  weight : Option Int
  /-- Newest first. -/
  log : List Event

def World.row (w : World) (sid : Uuid) : Option Sandbox := w.sandboxes.find? sid

def World.container (w : World) (sid : Uuid) : Option Container := w.containers.find? sid

def World.status (w : World) (sid : Uuid) : Option SandboxStatus := (w.row sid).map (·.status)

inductive Request where
  /-- `session.get` and `session.refresh`. -/
  | get (sid : Uuid)
  | replay (key : IdempotencyKey)
  | countActive
  | insert (r : Sandbox)
  /-- The ORM write of `create_sandbox`: no condition on the status. -/
  | markFailed (sid : Uuid) (error : String)
  /-- `_transition`: an UPDATE guarded by the status. -/
  | transition (sid : Uuid) (from_ : List SandboxStatus) (v : Values)
  | selectRunning
  | selectStatuses (ids : List Uuid)
  | finishStops (live : List Uuid)
  /-- `datetime.now(UTC)`. -/
  | clock
  | getWeight
  | setWeight (weight : Int)
  | enqueue (job : Job)
  /-- `containers.get(name)`. -/
  | inspect (sid : Uuid)
  /-- `container.remove(force=True)` on an object fetched earlier. -/
  | removeObject (sid : Uuid) (objectId : Nat)
  /-- The create step of `containers.run`. -/
  | create (sid : Uuid) (expiresAt : Time)
  /-- The start step of `containers.run`. -/
  | startObject (sid : Uuid) (objectId : Nat)
  | reload (sid : Uuid) (objectId : Nat)
  /-- `_wait_ready`. -/
  | probe
  /-- `runtime.remove`: by the time it returns there was a moment without a container. -/
  | remove (sid : Uuid)
  | listSandboxes
  deriving DecidableEq

inductive Reply where
  | row (r : Option Sandbox)
  | count (n : Nat)
  | inserted
  | integrityError
  | changed (b : Bool)
  | done
  | ids (ids : List Uuid)
  | statuses (rows : List (Uuid × SandboxStatus))
  | time (t : Time)
  | weight (raw : Option Int)
  | enqueued (fresh : Bool)
  | object (found : Option (Nat × Bool))
  | notFound
  | conflict
  | objectId (n : Nat)
  | port (p : Option Nat)
  | removed (b : Bool)
  | containers (cs : List RuntimeSandbox)
  | raised (e : Exc)
  deriving DecidableEq

/-- What the environment chooses in a call: the port the daemon publishes and the order
in which a query returns its rows. -/
structure Choice where
  hostPort : Nat := 0
  order : List Uuid := []
  deriving DecidableEq

/-- An UPDATE of every row satisfying `p`, and the number of rows it matched. -/
def World.update (w : World) (actor : Actor) (p : Sandbox → Bool) (v : Values) : World × Nat :=
  let hit := w.sandboxes.rows.filter p
  ({ w with
      sandboxes := w.sandboxes.update p (v.apply w.now) (fun _ => rfl) (fun _ => rfl)
      log := hit.map (fun r => .wrote actor r.id r.status v.status w.now) ++ w.log },
    hit.length)

def guard (sid : Uuid) (from_ : List SandboxStatus) (r : Sandbox) : Bool :=
  decide (r.id = sid) && decide (r.status ∈ from_)

def World.transition (w : World) (actor : Actor) (sid : Uuid) (from_ : List SandboxStatus)
    (v : Values) : World × Reply :=
  let (w', n) := w.update actor (guard sid from_) v
  (w', .changed (decide (n = 1)))

/-- Put a container back with other contents; name and labels stay. -/
def World.setContainer (w : World) (c : Container) : World :=
  { w with
    containers := w.containers.update (fun d => decide (d.sandboxId = c.sandboxId))
      (fun d => { d with running := c.running, hostPort := c.hostPort })
      (fun _ => rfl) (fun _ => rfl) }

def World.removeContainer (w : World) (sid : Uuid) : World :=
  { w with containers := w.containers.erase sid }

/-- `int(expires_at.timestamp())`. The timestamp is the binary64 number nearest to the exact
quotient: of its 53 bits, those that its integer part leaves stand after the point. -/
def wholeSeconds (t : Time) : Int :=
  t.sign * Rounding.truncated (52 - Nat.log2 (t.natAbs / 1000000)) t.natAbs 1000000

/-- The label of a container and back: whole seconds. -/
def labelExpiry (t : Time) : Time := wholeSeconds t * 1000000

def World.createContainer (w : World) (sid : Uuid) (expiresAt : Time) : World × Reply :=
  match w.containers.insert ⟨sid, labelExpiry expiresAt, w.nextObject, false, none⟩ with
  | some containers =>
    ({ w with containers := containers, nextObject := w.nextObject + 1 }, .objectId w.nextObject)
  | none => (w, .conflict)

def World.object (w : World) (sid : Uuid) (n : Nat) : Option Container :=
  (w.container sid).filter fun c => decide (c.objectId = n)

/-- `enqueue_job`: nothing happens while the job's key exists. -/
def World.enqueue (w : World) (job : Job) : World × Reply :=
  if (job.task, job.sandboxId) ∈ w.jobKeys then (w, .enqueued false)
  else
    ({ w with
        queue := w.queue ++ [job]
        jobKeys := (job.task, job.sandboxId) :: w.jobKeys
        log := .placed job :: w.log }, .enqueued true)

def World.runningIds (w : World) : List Uuid :=
  (w.sandboxes.rows.filter fun r => decide (r.status = .running)).map (·.id)

def World.perform (w : World) (actor : Actor) (choice : Choice) : Request → World × Reply
  | .get sid => (w, .row (w.row sid))
  | .replay key => (w, .row (w.sandboxes.findAlt? key))
  | .countActive => (w, .count (w.sandboxes.rows.countP fun r => decide (r.status ∈ activeStatuses)))
  | .insert r =>
    match w.sandboxes.insert { r with createdAt := w.now, updatedAt := w.now } with
    | some sandboxes => ({ w with sandboxes := sandboxes }, .inserted)
    | none => (w, .integrityError)
  | .markFailed sid error =>
    ((w.update actor (fun r => decide (r.id = sid))
      { status := .failed, error := some (some error) }).1, .done)
  | .transition sid from_ v => w.transition actor sid from_ v
  | .selectRunning =>
    (w, .ids (if choice.order.isPerm w.runningIds then choice.order else w.runningIds))
  | .selectStatuses ids =>
    (w, .statuses ((w.sandboxes.rows.filter fun r => decide (r.id ∈ ids)).map
      fun r => (r.id, r.status)))
  | .finishStops live =>
    ((w.update actor (fun r => decide (r.status = .stopping) && decide (r.id ∉ live))
      { status := .stopped }).1, .done)
  | .clock => (w, .time w.now)
  | .getWeight => (w, .weight w.weight)
  | .setWeight weight => ({ w with weight := some weight }, .weight w.weight)
  | .enqueue job => w.enqueue job
  | .inspect sid => (w, .object ((w.container sid).map fun c => (c.objectId, c.running)))
  | .removeObject sid n =>
    match w.object sid n with
    | some _ => (w.removeContainer sid, .done)
    | none => (w, .notFound)
  | .create sid expiresAt => w.createContainer sid expiresAt
  | .startObject sid n =>
    match w.object sid n with
    | some c => (w.setContainer { c with running := true, hostPort := some choice.hostPort }, .done)
    | none => (w, .notFound)
  | .reload sid n =>
    match w.object sid n with
    | some c => (w, .port c.hostPort)
    | none => (w, .notFound)
  | .probe => (w, .done)
  | .remove sid => (w.removeContainer sid, .removed (w.container sid).isSome)
  | .listSandboxes => (w, .containers (w.containers.rows.map Container.seen))

inductive How where
  | ok
  | raises (e : Exc) (effect : Bool)
  /-- The handler dies during the call; `requeue` says whether its job is run again. -/
  | killed (effect requeue : Bool)
  deriving DecidableEq

def How.effect : How → Bool
  | .ok => true
  | .raises _ effect => effect
  | .killed effect _ => effect

/-- The state the call leaves for its caller, whether or not the caller learns of it. A thread
that acts after its caller has gone is a `Thread`. -/
def World.after (w : World) (actor : Actor) (how : How) (choice : Choice) (q : Request) : World :=
  if how.effect then (w.perform actor choice q).1 else w

end SandboxOrchestrator
