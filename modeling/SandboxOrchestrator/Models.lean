import Mathlib.Data.List.Basic
import Mathlib.Algebra.Group.Nat.Defs

/-!
# Rows, jobs and answers

The data the API and the worker share: `app/models.py`, `app/schemas.py` and the
job identifiers of `app/queue.py`. A timestamp is a number of microseconds since the
epoch, the resolution of both `datetime` and `timestamptz`.
-/

namespace SandboxOrchestrator

set_option autoImplicit false

abbrev Uuid := BitVec 128

instance : LawfulBEq Uuid := inferInstance

abbrev Time := Int

inductive SandboxType where
  | http
  deriving DecidableEq, Repr

/-- Worker pools; each consumes its own queue. -/
inductive Deployment where
  | stable
  | canary
  deriving DecidableEq, Repr

inductive SandboxStatus where
  | queued
  | starting
  | running
  | stopping
  | stopped
  | failed
  deriving DecidableEq, Repr

def SandboxStatus.value : SandboxStatus → String
  | .queued => "queued"
  | .starting => "starting"
  | .running => "running"
  | .stopping => "stopping"
  | .stopped => "stopped"
  | .failed => "failed"

/-- `ACTIVE_STATUSES`: they count against the cap. -/
def activeStatuses : List SandboxStatus := [.queued, .starting, .running, .stopping]

/-- `_STARTABLE`: the start job means something in these. -/
def startable : List SandboxStatus := [.queued, .starting]

/-- `_NO_CONTAINER_WANTED`: a container of such a sandbox is a leak. -/
def noContainerWanted : List SandboxStatus := [.stopping, .stopped, .failed]

def keyChar (c : Char) : Bool := c.isAlphanum || c ∈ ['_', '.', ':', '-']

/-- A header value that passed `min_length=1, max_length=64, pattern=^[A-Za-z0-9_.:-]+$`. -/
structure IdempotencyKey where
  value : String
  bounded : 1 ≤ value.toList.length ∧ value.toList.length ≤ 64
  allowed : value.toList.all keyChar = true
  deriving DecidableEq

structure Sandbox where
  id : Uuid
  type : SandboxType
  status : SandboxStatus
  url : Option String
  error : Option String
  attempts : Nat
  deployment : Deployment
  expiresAt : Time
  idempotencyKey : Option IdempotencyKey
  createdAt : Time
  updatedAt : Time
  deriving DecidableEq

/-- The `values(...)` of an UPDATE: every one sets the status, some also other columns. -/
structure Values where
  status : SandboxStatus
  url : Option (Option String) := none
  error : Option (Option String) := none
  attempts : Option Nat := none
  deriving DecidableEq

/-- The columns an UPDATE at `now` leaves in a row it matches; `updated_at` is `onupdate`. -/
def Values.apply (v : Values) (now : Time) (r : Sandbox) : Sandbox :=
  { r with
    status := v.status
    url := v.url.getD r.url
    error := v.error.getD r.error
    attempts := v.attempts.getD r.attempts
    updatedAt := now }

@[simp] theorem Values.apply_status (v : Values) (now : Time) (r : Sandbox) :
    (v.apply now r).status = v.status := rfl

@[simp] theorem Values.apply_id (v : Values) (now : Time) (r : Sandbox) :
    (v.apply now r).id = r.id := rfl

@[simp] theorem Values.apply_idempotencyKey (v : Values) (now : Time) (r : Sandbox) :
    (v.apply now r).idempotencyKey = r.idempotencyKey := rfl

inductive Task where
  | startSandbox
  | stopSandbox
  deriving DecidableEq, Repr

def Task.name : Task → String
  | .startSandbox => "start_sandbox"
  | .stopSandbox => "stop_sandbox"

def hexDigit (n : Nat) : Char := Char.ofNat (if n < 10 then 48 + n else 87 + n)

/-- The 32 lowercase hexadecimal digits of an id, most significant first. -/
def hexDigits (sid : Uuid) : List Char :=
  (List.range 32).map fun i => hexDigit (sid.toNat / 16 ^ (31 - i) % 16)

/-- `str(uuid)`: the digits in groups of 8, 4, 4, 4 and 12. -/
def uuidString (sid : Uuid) : String :=
  let d := hexDigits sid
  String.ofList (d.take 8 ++ '-' :: (d.drop 8).take 4 ++ '-' :: (d.drop 12).take 4 ++
    '-' :: (d.drop 16).take 4 ++ '-' :: d.drop 20)

def sandboxJobId (task : Task) (sid : Uuid) : String := task.name ++ ":" ++ uuidString sid

/-- A queued job: arq's id is `sandbox_job_id`, its queue is the pool's. -/
structure Job where
  task : Task
  sandboxId : Uuid
  queue : Deployment
  jobTry : Nat
  deriving DecidableEq, Repr

structure Exc where
  name : String
  message : String
  deriving DecidableEq, Repr

/-- `f"{type(exc).__name__}: {exc}"[:500]`. -/
def Exc.reason (e : Exc) : String :=
  String.ofList ((e.name ++ ": " ++ e.message).toList.take 500)

/-- `exc.status_code == 409`: the text of an `APIError` begins with its status. -/
def Exc.isConflict (e : Exc) : Bool :=
  decide (e.name = "APIError") && "409".toList.isPrefixOf e.message.toList

/-- `SandboxAccepted`, with the `Idempotent-Replayed` header beside it. -/
structure SandboxAccepted where
  jobId : String
  sandboxId : Uuid
  type : SandboxType
  status : SandboxStatus
  deployment : Deployment
  expiresAt : Time
  replayed : Bool
  deriving DecidableEq

def accepted (r : Sandbox) (replayed : Bool) : SandboxAccepted where
  jobId := sandboxJobId .startSandbox r.id
  sandboxId := r.id
  type := r.type
  status := r.status
  deployment := r.deployment
  expiresAt := r.expiresAt
  replayed := replayed

inductive Response where
  | accepted (a : SandboxAccepted)
  | capacityReached
  | notFound
  | sandbox (r : Sandbox)
  | rollout (canaryWeight : Int)
  | unavailable
  deriving DecidableEq

structure RuntimeSandbox where
  sandboxId : Uuid
  expiresAt : Time
  deriving DecidableEq, Repr

inductive ReapReason where
  | expired
  | orphan
  | vanished
  deriving DecidableEq, Repr

structure Reaped where
  expired : Nat := 0
  orphan : Nat := 0
  vanished : Nat := 0
  deriving DecidableEq, Repr

def Reaped.count (n : Reaped) : ReapReason → Reaped
  | .expired => { n with expired := n.expired + 1 }
  | .orphan => { n with orphan := n.orphan + 1 }
  | .vanished => { n with vanished := n.vanished + 1 }

inductive JobOutcome where
  | success
  | retry
  | failed
  | expired
  deriving DecidableEq, Repr

inductive EnqueueOutcome where
  | enqueued
  | error
  | deduplicated
  deriving DecidableEq, Repr

/-- The five functions that write rows or containers; two of them are called
`stop_sandbox`, the route of the API and the job of the worker. -/
inductive Actor where
  | createSandbox
  | deleteSandbox
  | startSandbox
  | stopSandbox
  | reconcileSandboxes
  | putRollout
  deriving DecidableEq, Repr

/-- How a handler ends: a request is answered, a job returns a string or asks for a
retry, a sweep returns its counts, and anything may raise. `integrityError` is the
`raise` of `create_sandbox`. -/
inductive End where
  | answered (r : Response)
  | returned (result : String)
  | retry
  | swept (reaped : Reaped)
  | raised (e : Exc)
  | integrityError
  deriving DecidableEq

/-- What a run leaves on record: metrics, ends of handlers, committed row writes, jobs
accepted by Redis, and containers lost to something outside the program. -/
inductive Event where
  | wrote (actor : Actor) (sid : Uuid) (old new : SandboxStatus) (at_ : Time)
  | jobs (task : Task) (outcome : JobOutcome) (pool : Deployment) (sid : Uuid)
  | timeToRunning (pool : Deployment) (sid : Uuid) (waited : Time)
  | jobsEnqueued (task : Task) (outcome : EnqueueOutcome) (deployment : Deployment)
  | reaped (reason : ReapReason) (sid : Uuid)
  | reconcileRuns (success : Bool)
  | placed (job : Job)
  | created (key : Option IdempotencyKey) (sid : Uuid) (outcome : End)
  | deleted (sid : Uuid) (outcome : End)
  | weightSet (weight : Int) (outcome : End)
  | worked (task : Task) (sid : Uuid) (outcome : End)
  | reconciled (outcome : End)
  | died (sid : Uuid)
  deriving DecidableEq

end SandboxOrchestrator
