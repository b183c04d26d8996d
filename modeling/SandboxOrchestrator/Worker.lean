import SandboxOrchestrator.Api

/-!
# The worker's jobs

`start_sandbox` and `stop_sandbox`, in the same form as the API handlers. The launch is
spelled out down to the daemon calls of `_ensure_container`, each of which may raise;
`asyncio.timeout` around the launch is one way for any of them to raise.
-/

namespace SandboxOrchestrator

set_option autoImplicit false

structure Settings where
  jobMaxTries : Nat
  sandboxMaxActive : Nat
  sandboxPublicHost : String
  deriving DecidableEq

/-! ## `start_sandbox` -/

inductive StartPc where
  | get
  | expiryCheck (sandbox : Sandbox)
  | expire
  | pickUp (sandbox : Sandbox)
  /-- `_get(name)`. -/
  | inspect (sandbox : Sandbox)
  /-- Created but never started, or exited: start over. -/
  | removeLeftover (sandbox : Sandbox) (objectId : Nat)
  | create (sandbox : Sandbox)
  /-- Lost a create race: reuse. -/
  | conflict (sandbox : Sandbox)
  | startObject (sandbox : Sandbox) (objectId : Nat)
  | reload (sandbox : Sandbox) (objectId : Nat)
  | waitReady (sandbox : Sandbox) (hostPort : Nat)
  /-- `_discard` after a failed launch. -/
  | discardBroken (reason : String)
  | retry (reason : String)
  | fail (reason : String)
  | succeed (sandbox : Sandbox) (url : String)
  /-- `_discard` after the row left `starting` during the launch. -/
  | discardUnwanted
  deriving DecidableEq

/-- A delivery of a start job; `pool` is `settings.deployment` of its worker. -/
structure StartSandbox where
  sandboxId : Uuid
  jobTry : Nat
  pool : Deployment
  pc : StartPc
  deriving DecidableEq

def containerName (sid : Uuid) : String := "sandbox-" ++ uuidString sid

/-- `_ensure_container` raises this when Docker knows no binding for the port. -/
def noHostPort (sid : Uuid) : Exc := ⟨"RuntimeError", containerName sid ++ ": no host port published"⟩

def notFoundExc (sid : Uuid) : Exc := ⟨"NotFound", containerName sid⟩

def launchUrl (settings : Settings) (hostPort : Nat) : String :=
  "http://" ++ settings.sandboxPublicHost ++ ":" ++ toString hostPort

namespace StartSandbox

def start (sid : Uuid) (jobTry : Nat) (pool : Deployment) : StartSandbox := ⟨sid, jobTry, pool, .get⟩

def request (d : StartSandbox) : Request :=
  match d.pc with
  | .get => .get d.sandboxId
  | .expiryCheck _ => .clock
  | .expire =>
    .transition d.sandboxId startable { status := .stopped, error := some (some "expired") }
  | .pickUp _ =>
    .transition d.sandboxId startable { status := .starting, attempts := some d.jobTry }
  | .inspect _ => .inspect d.sandboxId
  | .removeLeftover _ n => .removeObject d.sandboxId n
  | .create sandbox => .create d.sandboxId sandbox.expiresAt
  | .conflict _ => .inspect d.sandboxId
  | .startObject _ n => .startObject d.sandboxId n
  | .reload _ n => .reload d.sandboxId n
  | .waitReady _ _ => .probe
  | .discardBroken _ => .remove d.sandboxId
  | .retry reason =>
    .transition d.sandboxId [.starting] { status := .queued, error := some (some reason) }
  | .fail reason =>
    .transition d.sandboxId [.starting] { status := .failed, error := some (some reason) }
  | .succeed _ url =>
    .transition d.sandboxId [.starting]
      { status := .running, url := some (some url), error := some none }
  | .discardUnwanted => .remove d.sandboxId

def launchFailed (d : StartSandbox) (e : Exc) : List Event × Next StartSandbox :=
  ([], .goto { d with pc := .discardBroken e.reason })

/-- The `except APIError` around `containers.run`, which creates and starts: a 409 of either
means that another call got there first. -/
def runFailed (d : StartSandbox) (sandbox : Sandbox) (e : Exc) : StartSandbox :=
  { d with pc := if e.isConflict then .conflict sandbox else .discardBroken e.reason }

/-- After `_discard`, which swallows its own failure. -/
def afterDiscard (settings : Settings) (d : StartSandbox) (reason : String) : StartSandbox :=
  { d with pc := if d.jobTry < settings.jobMaxTries then .retry reason else .fail reason }

/-- `now` is the clock at the reply, read only for `sandbox_time_to_running_seconds`. -/
def resume (settings : Settings) (now : Time) (d : StartSandbox) (reply : Reply) :
    Option (List Event × Next StartSandbox) :=
  match d.pc, reply with
  | .get, .row none =>
    some ([.jobs .startSandbox .failed d.pool d.sandboxId], .done (.returned "missing"))
  | .get, .row (some sandbox) =>
    if sandbox.status ∈ startable then some ([], .goto { d with pc := .expiryCheck sandbox })
    else some ([], .done (.returned sandbox.status.value))
  | .expiryCheck sandbox, .time t =>
    if sandbox.expiresAt ≤ t then some ([], .goto { d with pc := .expire })
    else some ([], .goto { d with pc := .pickUp sandbox })
  | .expire, .changed _ =>
    some ([.jobs .startSandbox .expired d.pool d.sandboxId], .done (.returned "expired"))
  | .pickUp sandbox, .changed true => some ([], .goto { d with pc := .inspect sandbox })
  | .pickUp _, .changed false => some ([], .done (.returned "cancelled"))
  | .inspect sandbox, .object none => some ([], .goto { d with pc := .create sandbox })
  | .inspect sandbox, .object (some (n, running)) =>
    if running then some ([], .goto { d with pc := .reload sandbox n })
    else some ([], .goto { d with pc := .removeLeftover sandbox n })
  | .removeLeftover sandbox _, .done => some ([], .goto { d with pc := .create sandbox })
  | .create sandbox, .objectId n => some ([], .goto { d with pc := .startObject sandbox n })
  | .create sandbox, .conflict => some ([], .goto { d with pc := .conflict sandbox })
  | .conflict sandbox, .object (some (n, _)) => some ([], .goto { d with pc := .reload sandbox n })
  | .conflict _, .object none => some (d.launchFailed (notFoundExc d.sandboxId))
  | .startObject sandbox n, .done => some ([], .goto { d with pc := .reload sandbox n })
  | .reload sandbox _, .port (some p) => some ([], .goto { d with pc := .waitReady sandbox p })
  | .reload _ _, .port none => some (d.launchFailed (noHostPort d.sandboxId))
  | .waitReady sandbox p, .done =>
    some ([], .goto { d with pc := .succeed sandbox (launchUrl settings p) })
  | .removeLeftover _ _, .notFound => some (d.launchFailed (notFoundExc d.sandboxId))
  | .startObject _ _, .notFound => some (d.launchFailed (notFoundExc d.sandboxId))
  | .reload _ _, .notFound => some (d.launchFailed (notFoundExc d.sandboxId))
  | .inspect _, .raised e => some (d.launchFailed e)
  | .removeLeftover _ _, .raised e => some (d.launchFailed e)
  | .create sandbox, .raised e => some ([], .goto (d.runFailed sandbox e))
  | .conflict _, .raised e => some (d.launchFailed e)
  | .startObject sandbox _, .raised e => some ([], .goto (d.runFailed sandbox e))
  | .reload _ _, .raised e => some (d.launchFailed e)
  | .waitReady _ _, .raised e => some (d.launchFailed e)
  | .discardBroken reason, .removed _ => some ([], .goto (d.afterDiscard settings reason))
  | .discardBroken reason, .raised _ => some ([], .goto (d.afterDiscard settings reason))
  | .retry _, .changed true =>
    some ([.jobs .startSandbox .retry d.pool d.sandboxId], .done .retry)
  | .retry _, .changed false => some ([], .done (.returned "cancelled"))
  | .fail _, .changed _ =>
    some ([.jobs .startSandbox .failed d.pool d.sandboxId], .done (.returned "failed"))
  | .succeed sandbox _, .changed true =>
    some ([.jobs .startSandbox .success d.pool d.sandboxId,
      .timeToRunning d.pool d.sandboxId (now - sandbox.createdAt)], .done (.returned "running"))
  | .succeed _ _, .changed false => some ([], .goto { d with pc := .discardUnwanted })
  | .discardUnwanted, .removed _ => some ([], .done (.returned "cancelled"))
  | .discardUnwanted, .raised _ => some ([], .done (.returned "cancelled"))
  | _, .raised e => some ([], .done (.raised e))
  | _, _ => none

end StartSandbox

/-! ## `stop_sandbox` -/

inductive StopPc where
  | remove
  | finish
  deriving DecidableEq

structure StopSandbox where
  sandboxId : Uuid
  jobTry : Nat
  pool : Deployment
  pc : StopPc
  deriving DecidableEq

namespace StopSandbox

def start (sid : Uuid) (jobTry : Nat) (pool : Deployment) : StopSandbox := ⟨sid, jobTry, pool, .remove⟩

def request (d : StopSandbox) : Request :=
  match d.pc with
  | .remove => .remove d.sandboxId
  | .finish => .transition d.sandboxId [.stopping] { status := .stopped }

def resume (settings : Settings) (d : StopSandbox) (reply : Reply) :
    Option (List Event × Next StopSandbox) :=
  match d.pc, reply with
  | .remove, .removed _ => some ([], .goto { d with pc := .finish })
  | .remove, .raised _ =>
    if d.jobTry < settings.jobMaxTries then
      some ([.jobs .stopSandbox .retry d.pool d.sandboxId], .done .retry)
    else some ([.jobs .stopSandbox .failed d.pool d.sandboxId], .done (.returned "failed"))
  | .finish, .changed _ =>
    some ([.jobs .stopSandbox .success d.pool d.sandboxId], .done (.returned "stopped"))
  | .finish, .raised e => some ([], .done (.raised e))
  | _, _ => none

end StopSandbox

end SandboxOrchestrator
