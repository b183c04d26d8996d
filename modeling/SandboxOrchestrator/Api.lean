import SandboxOrchestrator.World

/-!
# The API handlers

`create_sandbox`, `stop_sandbox` (DELETE) and `put_rollout` as programs over the calls
of `World`: `request` is the call a handler awaits at a program point, `resume` the code
it runs from the reply to the next await. `resume` is `none` on a reply that its call
never gives.
-/

namespace SandboxOrchestrator

set_option autoImplicit false

inductive Next (L : Type) where
  | goto (l : L)
  | done (outcome : End)

/-! ## Canary routing -/

def crc32Bit (c : BitVec 32) : BitVec 32 :=
  if c.getLsbD 0 then (c >>> 1) ^^^ 0xEDB88320#32 else c >>> 1

def crc32Byte (c : BitVec 32) (b : BitVec 8) : BitVec 32 :=
  (List.range 8).foldl (fun c _ => crc32Bit c) (c ^^^ b.zeroExtend 32)

def crc32 (bytes : List (BitVec 8)) : BitVec 32 :=
  bytes.foldl crc32Byte 0xFFFFFFFF#32 ^^^ 0xFFFFFFFF#32

/-- `uuid.bytes`, big-endian. -/
def uuidBytes (sid : Uuid) : List (BitVec 8) :=
  (List.range 16).map fun i => sid.extractLsb' (8 * (15 - i)) 8

def bucket (sid : Uuid) : Nat := (crc32 (uuidBytes sid)).toNat % 100

def route (sid : Uuid) (canaryWeight : Int) : Deployment :=
  if (bucket sid : Int) < canaryWeight then .canary else .stable

theorem route_canary_iff {sid : Uuid} {w : Int} : route sid w = .canary ↔ (bucket sid : Int) < w := by
  simp [route]

def clampWeight : Option Int → Int
  | some raw => min (max raw 0) 100
  | none => 0

theorem clampWeight_range (raw : Option Int) : 0 ≤ clampWeight raw ∧ clampWeight raw ≤ 100 := by
  cases raw with
  | none => exact ⟨Int.le_refl 0, by decide⟩
  | some raw =>
    simp only [clampWeight]
    omega

/-- `pick_deployment`: an unreadable weight routes to stable. -/
def pickDeployment (sid : Uuid) : Reply → Option Deployment
  | .weight raw => some (route sid (clampWeight raw))
  | .raised _ => some .stable
  | _ => none

/-! ## `POST /sandboxes` -/

structure SandboxCreate where
  type : SandboxType
  ttlS : Nat
  bounded : 60 ≤ ttlS ∧ ttlS ≤ 3600
  deriving DecidableEq

inductive CreatePc where
  | replay
  | capacity
  | pick
  | stamp (deployment : Deployment)
  | insert (sandbox : Sandbox)
  /-- The insert lost to a concurrent request; replay its row. -/
  | lostInsert
  | enqueue (sandbox : Sandbox)
  /-- The enqueue raised; mark the row failed. -/
  | enqueueFailed (sandbox : Sandbox) (exc : Exc)
  deriving DecidableEq

/-- A POST in flight. `sandboxId` is what `uuid4` draws for it. -/
structure CreateSandbox where
  body : SandboxCreate
  key : Option IdempotencyKey
  sandboxId : Uuid
  pc : CreatePc
  deriving DecidableEq

namespace CreateSandbox

def start (body : SandboxCreate) (key : Option IdempotencyKey) (sid : Uuid) : CreateSandbox :=
  ⟨body, key, sid, if key.isSome then .replay else .capacity⟩

/-- The row of the request, before the database stamps its two timestamps. -/
def draft (c : CreateSandbox) (deployment : Deployment) (now : Time) : Sandbox where
  id := c.sandboxId
  type := c.body.type
  status := .queued
  url := none
  error := none
  attempts := 0
  deployment := deployment
  expiresAt := now + c.body.ttlS * 1000000
  idempotencyKey := c.key
  createdAt := now
  updatedAt := now

def startJob (sandbox : Sandbox) : Job := ⟨.startSandbox, sandbox.id, sandbox.deployment, 1⟩

/-- `_replay` with the key of the request; `none` never happens, a request without a key
does not get there. -/
def replayRequest (c : CreateSandbox) : Request :=
  match c.key with
  | some key => .replay key
  | none => .countActive

def request (c : CreateSandbox) : Request :=
  match c.pc with
  | .replay => c.replayRequest
  | .capacity => .countActive
  | .pick => .getWeight
  | .stamp _ => .clock
  | .insert sandbox => .insert sandbox
  | .lostInsert => c.replayRequest
  | .enqueue sandbox => .enqueue (startJob sandbox)
  | .enqueueFailed sandbox exc => .markFailed sandbox.id ("enqueue: " ++ exc.name)

def replayed (original : Sandbox) : List Event × Next CreateSandbox :=
  ([.jobsEnqueued .startSandbox .deduplicated original.deployment],
    .done (.answered (.accepted (accepted original true))))

def resume (cap : Nat) (c : CreateSandbox) (reply : Reply) :
    Option (List Event × Next CreateSandbox) :=
  match c.pc, reply with
  | .replay, .row (some original) => some (replayed original)
  | .replay, .row none => some ([], .goto { c with pc := .capacity })
  | .capacity, .count active =>
    if active ≥ cap then some ([], .done (.answered .capacityReached))
    else some ([], .goto { c with pc := .pick })
  | .pick, reply =>
    (pickDeployment c.sandboxId reply).map fun deployment =>
      ([], .goto { c with pc := .stamp deployment })
  | .stamp deployment, .time now => some ([], .goto { c with pc := .insert (c.draft deployment now) })
  | .insert sandbox, .inserted => some ([], .goto { c with pc := .enqueue sandbox })
  | .insert _, .integrityError =>
    if c.key.isSome then some ([], .goto { c with pc := .lostInsert })
    else some ([], .done .integrityError)
  | .lostInsert, .row (some original) => some (replayed original)
  | .lostInsert, .row none => some ([], .done .integrityError)
  | .enqueue sandbox, .enqueued _ =>
    some ([.jobsEnqueued .startSandbox .enqueued sandbox.deployment],
      .done (.answered (.accepted (accepted sandbox false))))
  | .enqueue sandbox, .raised e =>
    some ([.jobsEnqueued .startSandbox .error sandbox.deployment],
      .goto { c with pc := .enqueueFailed sandbox e })
  | .enqueueFailed _ _, .done => some ([], .done (.answered .unavailable))
  | _, .raised e => some ([], .done (.raised e))
  | _, _ => none

end CreateSandbox

/-! ## `DELETE /sandboxes/{id}` -/

inductive DeletePc where
  | get
  | mark
  | refresh
  | pick (sandbox : Sandbox)
  | enqueue (sandbox : Sandbox) (deployment : Deployment)
  deriving DecidableEq

structure DeleteSandbox where
  sandboxId : Uuid
  pc : DeletePc
  deriving DecidableEq

namespace DeleteSandbox

def stopJob (sid : Uuid) (deployment : Deployment) : Job := ⟨.stopSandbox, sid, deployment, 1⟩

def request (d : DeleteSandbox) : Request :=
  match d.pc with
  | .get => .get d.sandboxId
  | .mark => .transition d.sandboxId activeStatuses { status := .stopping }
  | .refresh => .get d.sandboxId
  | .pick _ => .getWeight
  | .enqueue _ deployment => .enqueue (stopJob d.sandboxId deployment)

def resume (d : DeleteSandbox) (reply : Reply) : Option (List Event × Next DeleteSandbox) :=
  match d.pc, reply with
  | .get, .row none => some ([], .done (.answered .notFound))
  | .get, .row (some r) =>
    if r.status ∈ activeStatuses then some ([], .goto { d with pc := .mark })
    else some ([], .done (.answered (.sandbox r)))
  | .mark, .changed _ => some ([], .goto { d with pc := .refresh })
  | .refresh, .row (some r) =>
    if r.status = .stopping then some ([], .goto { d with pc := .pick r })
    else some ([], .done (.answered (.sandbox r)))
  | .refresh, .row none =>
    some ([], .done (.raised ⟨"InvalidRequestError", "could not refresh instance"⟩))
  | .pick r, reply =>
    (pickDeployment d.sandboxId reply).map fun deployment =>
      ([], .goto { d with pc := .enqueue r deployment })
  | .enqueue r deployment, .enqueued _ =>
    some ([.jobsEnqueued .stopSandbox .enqueued deployment], .done (.answered (.sandbox r)))
  | .enqueue _ deployment, .raised _ =>
    some ([.jobsEnqueued .stopSandbox .error deployment], .done (.answered .unavailable))
  | _, .raised e => some ([], .done (.raised e))
  | _, _ => none

end DeleteSandbox

/-! ## `PUT /rollout` -/

/-- `RolloutUpdate` and its one await. -/
structure PutRollout where
  canaryWeight : Nat
  bounded : canaryWeight ≤ 100
  deriving DecidableEq

namespace PutRollout

def request (p : PutRollout) : Request := .setWeight p.canaryWeight

def resume (p : PutRollout) : Reply → Option (List Event × Next PutRollout)
  | .weight _ => some ([], .done (.answered (.rollout p.canaryWeight)))
  | .raised _ => some ([], .done (.answered .unavailable))
  | _ => none

end PutRollout

end SandboxOrchestrator
