import SandboxOrchestrator.Worker

/-!
# The reaper

`reconcile_sandboxes` in the form of the other handlers. Its two loops are program
points that carry what is left to do; `continue` in the first loop is `nextContainer`
going on to the next container without a call.
-/

namespace SandboxOrchestrator

set_option autoImplicit false

/-- What a sweep has read: the running rows, then the containers, then the statuses of
their rows, then the clock. -/
structure Snapshot where
  running : List Uuid
  containers : List RuntimeSandbox
  statuses : List (Uuid × SandboxStatus)
  now : Time
  deriving DecidableEq

namespace Snapshot

def live (v : Snapshot) : List Uuid := v.containers.map (·.sandboxId)

def status (v : Snapshot) (sid : Uuid) : Option SandboxStatus := v.statuses.lookup sid

/-- Why a container has to go, `none` for `continue`. -/
def reason (v : Snapshot) (c : RuntimeSandbox) : Option ReapReason :=
  if c.expiresAt ≤ v.now then some .expired
  else
    match v.status c.sandboxId with
    | none => some .orphan
    | some status => if status ∈ noContainerWanted then some .orphan else none

def missing (v : Snapshot) : List Uuid := v.running.filter fun sid => decide (sid ∉ v.live)

end Snapshot

inductive SweepPc where
  | snapshot
  | list (running : List Uuid)
  | statuses (running : List Uuid) (containers : List RuntimeSandbox)
  | clock (running : List Uuid) (containers : List RuntimeSandbox)
      (statuses : List (Uuid × SandboxStatus))
  | remove (view : Snapshot) (c : RuntimeSandbox) (reason : ReapReason) (rest : List RuntimeSandbox)
  | settle (view : Snapshot) (c : RuntimeSandbox) (reason : ReapReason) (rest : List RuntimeSandbox)
  | vanish (view : Snapshot) (sid : Uuid) (rest : List Uuid)
  | finishStops (view : Snapshot)
  deriving DecidableEq

structure ReconcileSandboxes where
  reaped : Reaped
  pc : SweepPc
  deriving DecidableEq

namespace ReconcileSandboxes

def start : ReconcileSandboxes := ⟨{}, .snapshot⟩

/-- The second loop, over the running rows without a container. -/
def nextMissing (v : Snapshot) : List Uuid → SweepPc
  | [] => .finishStops v
  | sid :: rest => .vanish v sid rest

def nextContainer (v : Snapshot) : List RuntimeSandbox → SweepPc
  | [] => nextMissing v v.missing
  | c :: rest =>
    match v.reason c with
    | some reason => .remove v c reason rest
    | none => nextContainer v rest

def request (p : ReconcileSandboxes) : Request :=
  match p.pc with
  | .snapshot => .selectRunning
  | .list _ => .listSandboxes
  | .statuses _ containers => .selectStatuses (containers.map (·.sandboxId))
  | .clock _ _ _ => .clock
  | .remove _ c _ _ => .remove c.sandboxId
  | .settle _ c _ _ => .transition c.sandboxId activeStatuses { status := .stopped }
  | .vanish _ sid _ =>
    .transition sid [.running] { status := .failed, error := some (some "container disappeared") }
  | .finishStops v => .finishStops v.live

def count (p : ReconcileSandboxes) (reason : ReapReason) (sid : Uuid) (pc : SweepPc) :
    List Event × Next ReconcileSandboxes :=
  ([.reaped reason sid], .goto ⟨p.reaped.count reason, pc⟩)

def resume (p : ReconcileSandboxes) (reply : Reply) :
    Option (List Event × Next ReconcileSandboxes) :=
  match p.pc, reply with
  | .snapshot, .ids running => some ([], .goto { p with pc := .list running })
  | .list running, .containers cs => some ([], .goto { p with pc := .statuses running cs })
  | .statuses running cs, .statuses rows => some ([], .goto { p with pc := .clock running cs rows })
  | .clock running cs rows, .time now =>
    some ([], .goto { p with pc := nextContainer ⟨running, cs, rows, now⟩ cs })
  | .remove v c reason rest, .removed _ => some ([], .goto { p with pc := .settle v c reason rest })
  | .settle v c reason rest, .changed _ =>
    some (p.count reason c.sandboxId (nextContainer v rest))
  | .vanish v sid rest, .changed true => some (p.count .vanished sid (nextMissing v rest))
  | .vanish v _ rest, .changed false => some ([], .goto { p with pc := nextMissing v rest })
  | .finishStops _, .done => some ([.reconcileRuns true], .done (.swept p.reaped))
  | _, .raised _ => some ([.reconcileRuns false], .done (.swept p.reaped))
  | _, _ => none

end ReconcileSandboxes

end SandboxOrchestrator
