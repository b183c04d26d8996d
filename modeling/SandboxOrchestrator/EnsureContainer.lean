import SandboxOrchestrator.Handlers
import SandboxOrchestrator.WorldLemmas
import Mathlib.Logic.Function.Basic

/-!
# Concurrent calls of `_ensure_container`

The daemon calls of `_ensure_container`, any number of them for one sandbox, interleaved
in any order. The launch of a delivery makes these calls and no others.
-/

namespace SandboxOrchestrator

set_option autoImplicit false

namespace EnsureContainer

inductive Pc where
  /-- `_get(name)`. -/
  | inspect
  /-- Created but never started, or exited: start over. -/
  | removeLeftover (objectId : Nat)
  | create
  /-- Lost a create race: reuse. -/
  | conflict
  | startObject (objectId : Nat)
  | reload (objectId : Nat)
  deriving DecidableEq

/-- A call in its thread: at an await of the daemon, or finished. -/
inductive Call where
  | awaits (pc : Pc)
  | returned (hostPort : Nat)
  | raised (e : Exc)
  deriving DecidableEq

def Call.finished : Call → Bool
  | .awaits _ => false
  | _ => true

def request (sid : Uuid) (expiresAt : Time) : Pc → Request
  | .inspect => .inspect sid
  | .removeLeftover n => .removeObject sid n
  | .create => .create sid expiresAt
  | .conflict => .inspect sid
  | .startObject n => .startObject sid n
  | .reload n => .reload sid n

/-- The `except APIError` around `containers.run`, which creates and starts. -/
def runFailed (e : Exc) : Call := if e.isConflict then .awaits .conflict else .raised e

def resume (sid : Uuid) (pc : Pc) (reply : Reply) : Option Call :=
  match pc, reply with
  | .inspect, .object none => some (.awaits .create)
  | .inspect, .object (some (n, running)) =>
    if running then some (.awaits (.reload n)) else some (.awaits (.removeLeftover n))
  | .removeLeftover _, .done => some (.awaits .create)
  | .create, .objectId n => some (.awaits (.startObject n))
  | .create, .conflict => some (.awaits .conflict)
  | .conflict, .object (some (n, _)) => some (.awaits (.reload n))
  | .conflict, .object none => some (.raised (notFoundExc sid))
  | .startObject n, .done => some (.awaits (.reload n))
  | .reload _, .port (some p) => some (.returned p)
  | .reload _, .port none => some (.raised (noHostPort sid))
  | .removeLeftover _, .notFound => some (.raised (notFoundExc sid))
  | .startObject _, .notFound => some (.raised (notFoundExc sid))
  | .reload _, .notFound => some (.raised (notFoundExc sid))
  | .create, .raised e => some (runFailed e)
  | .startObject _, .raised e => some (runFailed e)
  | _, .raised e => some (.raised e)
  | _, _ => none

/-! ## The launch of a delivery is such a call -/

/-- Where a delivery in its launch is in `_ensure_container`, and the row it launches. -/
def ofStart : StartPc → Option (Sandbox × Pc)
  | .inspect r => some (r, .inspect)
  | .removeLeftover r n => some (r, .removeLeftover n)
  | .create r => some (r, .create)
  | .conflict r => some (r, .conflict)
  | .startObject r n => some (r, .startObject n)
  | .reload r n => some (r, .reload n)
  | _ => none

/-- The delivery goes on as its call does: it waits for the server on the port it got, or
discards what the exception left. -/
inductive Follows (r : Sandbox) : Call → StartPc → Prop where
  | awaits (pc : Pc) (pc' : StartPc) (same : ofStart pc' = some (r, pc)) : Follows r (.awaits pc) pc'
  | returned (p : Nat) : Follows r (.returned p) (.waitReady r p)
  | raised (e : Exc) : Follows r (.raised e) (.discardBroken e.reason)

theorem request_of_ofStart {d : StartSandbox} {r : Sandbox} {pc : Pc}
    (h : ofStart d.pc = some (r, pc)) : d.request = request d.sandboxId r.expiresAt pc := by
  obtain ⟨sid, jobTry, pool, pc₀⟩ := d
  cases pc₀ <;> cases h <;> rfl

theorem follows_of_runFailed (d : StartSandbox) (r : Sandbox) (e : Exc) :
    ∃ pc', d.runFailed r e = { d with pc := pc' } ∧ Follows r (runFailed e) pc' := by
  unfold StartSandbox.runFailed runFailed
  split
  · exact ⟨_, rfl, .awaits .conflict _ rfl⟩
  · exact ⟨_, rfl, .raised e⟩

theorem follows_of_resume {settings : Settings} {now : Time} {d : StartSandbox} {r : Sandbox} {pc : Pc}
    (h : ofStart d.pc = some (r, pc)) (reply : Reply) :
    (resume d.sandboxId pc reply = none ∧ d.resume settings now reply = none) ∨
      ∃ call pc', resume d.sandboxId pc reply = some call ∧
        d.resume settings now reply = some ([], .goto { d with pc := pc' }) ∧ Follows r call pc' := by
  obtain ⟨sid, jobTry, pool, pc₀⟩ := d
  cases pc₀ <;> cases h
  case inspect =>
    cases reply with
    | object found =>
      obtain _ | ⟨n, _ | _⟩ := found
      · exact .inr ⟨_, _, rfl, rfl, .awaits .create _ rfl⟩
      · exact .inr ⟨_, _, rfl, rfl, .awaits (.removeLeftover n) _ rfl⟩
      · exact .inr ⟨_, _, rfl, rfl, .awaits (.reload n) _ rfl⟩
    | raised e => exact .inr ⟨_, _, rfl, rfl, .raised e⟩
    | _ => exact .inl ⟨rfl, rfl⟩
  case removeLeftover =>
    cases reply with
    | done => exact .inr ⟨_, _, rfl, rfl, .awaits .create _ rfl⟩
    | notFound => exact .inr ⟨_, _, rfl, rfl, .raised (notFoundExc sid)⟩
    | raised e => exact .inr ⟨_, _, rfl, rfl, .raised e⟩
    | _ => exact .inl ⟨rfl, rfl⟩
  case create =>
    cases reply with
    | objectId n => exact .inr ⟨_, _, rfl, rfl, .awaits (.startObject n) _ rfl⟩
    | conflict => exact .inr ⟨_, _, rfl, rfl, .awaits .conflict _ rfl⟩
    | raised e =>
      obtain ⟨pc', hpc, hfollows⟩ := follows_of_runFailed ⟨sid, jobTry, pool, .create r⟩ r e
      exact .inr ⟨_, pc', rfl, congrArg (fun d => some ([], Next.goto d)) hpc, hfollows⟩
    | _ => exact .inl ⟨rfl, rfl⟩
  case conflict =>
    cases reply with
    | object found =>
      obtain _ | ⟨n, _⟩ := found
      · exact .inr ⟨_, _, rfl, rfl, .raised (notFoundExc sid)⟩
      · exact .inr ⟨_, _, rfl, rfl, .awaits (.reload n) _ rfl⟩
    | raised e => exact .inr ⟨_, _, rfl, rfl, .raised e⟩
    | _ => exact .inl ⟨rfl, rfl⟩
  case startObject n =>
    cases reply with
    | done => exact .inr ⟨_, _, rfl, rfl, .awaits (.reload n) _ rfl⟩
    | notFound => exact .inr ⟨_, _, rfl, rfl, .raised (notFoundExc sid)⟩
    | raised e =>
      obtain ⟨pc', hpc, hfollows⟩ := follows_of_runFailed ⟨sid, jobTry, pool, .startObject r n⟩ r e
      exact .inr ⟨_, pc', rfl, congrArg (fun d => some ([], Next.goto d)) hpc, hfollows⟩
    | _ => exact .inl ⟨rfl, rfl⟩
  case reload n =>
    cases reply with
    | port found =>
      cases found with
      | none => exact .inr ⟨_, _, rfl, rfl, .raised (noHostPort sid)⟩
      | some p => exact .inr ⟨_, _, rfl, rfl, .returned p⟩
    | notFound => exact .inr ⟨_, _, rfl, rfl, .raised (notFoundExc sid)⟩
    | raised e => exact .inr ⟨_, _, rfl, rfl, .raised e⟩
    | _ => exact .inl ⟨rfl, rfl⟩

/-! ## Calls in a race -/

def hostPort (sid : Uuid) (w : World) : Option Nat := (w.container sid).bind (·.hostPort)

theorem hostPort_eq_some {sid : Uuid} {w : World} {p : Nat} :
    hostPort sid w = some p ↔ ∃ c, w.container sid = some c ∧ c.hostPort = some p := by
  simp [hostPort, Option.bind_eq_some_iff]

structure Race (ι : Type) where
  world : World
  calls : ι → Call
  /-- The host ports the daemon has published so far. -/
  published : List Nat
  /-- The containers that have answered a `reload` with a published port so far. -/
  reloaded : List Nat

structure Turn (ι : Type) where
  call : ι
  how : How := .ok
  choice : Choice := {}

/-- The ports a request publishes: each started container gets its own. -/
def publishes (pc : Pc) (choice : Choice) : List Nat :=
  match pc with
  | .startObject _ => [choice.hostPort]
  | _ => []

def reloads (pc : Pc) (reply : Reply) : List Nat :=
  match pc, reply with
  | .reload n, .port (some _) => [n]
  | _, _ => []

variable {ι : Type}

/-- No call has made a request yet, and the container under the name may be any. -/
def Race.init (sid : Uuid) (w : World) : Race ι :=
  ⟨w, fun _ => .awaits .inspect, (hostPort sid w).toList, []⟩

/-- Every port a call returned is that of the container under the name. -/
def Race.Valid (sid : Uuid) (s : Race ι) : Prop :=
  ∀ i p, s.calls i = .returned p → hostPort sid s.world = some p

/-- A `remove` takes effect on no container that has answered a `reload` with its port. -/
def Spares (sid : Uuid) (s : Race ι) (a : Turn ι) (_ : Race ι) : Prop :=
  ∀ n, s.calls a.call = .awaits (.removeLeftover n) → a.how.effect = true →
    (s.world.object sid n).isSome → n ∉ s.reloaded

structure Sound (sid : Uuid) (s : Race ι) : Prop where
  returned : ∀ i p, s.calls i = .returned p → p ∈ s.published
  bound : ∀ p, hostPort sid s.world = some p → p ∈ s.published
  object : ∀ c, s.world.container sid = some c → c.objectId < s.world.nextObject
  fresh : ∀ i n, s.calls i = .awaits (.startObject n) → n < s.world.nextObject
  unbound : ∀ i n c, s.calls i = .awaits (.startObject n) → s.world.container sid = some c →
    c.objectId = n → c.hostPort = none
  sole : ∀ i j n, s.calls i = .awaits (.startObject n) → s.calls j = .awaits (.startObject n) → i = j

/-- The container under the name has answered a `reload` if and only if a call returned its port. -/
structure Answered (sid : Uuid) (s : Race ι) : Prop where
  known : ∀ n ∈ s.reloaded, n < s.world.nextObject
  returned : ∀ c, s.world.container sid = some c → c.objectId ∈ s.reloaded →
    ∃ i p, s.calls i = .returned p ∧ c.hostPort = some p
  reloaded : ∀ i p c, s.calls i = .returned p → s.world.container sid = some c →
    c.hostPort = some p → c.objectId ∈ s.reloaded

theorem sound_init {sid : Uuid} {w : World}
    (objects : ∀ c, w.container sid = some c → c.objectId < w.nextObject) :
    Sound sid (Race.init sid w : Race ι) where
  returned _ _ h := by cases h
  bound p h := by
    change p ∈ (hostPort sid w).toList
    exact Option.mem_toList.mpr h
  object := objects
  fresh _ _ h := by cases h
  unbound _ _ _ h := by cases h
  sole _ _ _ h := by cases h

theorem answered_init {sid : Uuid} {w : World} : Answered sid (Race.init sid w : Race ι) where
  known _ h := by cases h
  returned _ _ h := by cases h
  reloaded _ _ _ h := by cases h

variable [DecidableEq ι]

/-- A thread is not killed, and the daemon publishes no port twice. -/
def step (sid : Uuid) (expiresAt : Time) (s : Race ι) (a : Turn ι) : Option (Race ι) :=
  match s.calls a.call, a.how with
  | .awaits _, .killed _ _ => none
  | .awaits pc, how =>
    if (publishes pc a.choice).any fun p => decide (p ∈ s.published) then none
    else
      let q := request sid expiresAt pc
      let reply := s.world.reply .startSandbox how a.choice q
      (resume sid pc reply).map fun call =>
        { world := s.world.after .startSandbox how a.choice q
          calls := Function.update s.calls a.call call
          published := publishes pc a.choice ++ s.published
          reloaded := reloads pc reply ++ s.reloaded }
  | _, _ => none

/-! ## What one request does -/

/-- The container under the name and the next object id, before and after a request. -/
inductive Effect (sid : Uuid) (w : World) (choice : Choice) (w' : World) : Pc → Prop where
  | same (pc : Pc) (container : w'.container sid = w.container sid)
      (next : w'.nextObject = w.nextObject) : Effect sid w choice w' pc
  | removed (n : Nat) (c : Container) (found : w.container sid = some c) (object : c.objectId = n)
      (container : w'.container sid = none) (next : w'.nextObject = w.nextObject) :
      Effect sid w choice w' (.removeLeftover n)
  | created (c : Container) (absent : w.container sid = none) (container : w'.container sid = some c)
      (object : c.objectId = w.nextObject) (port : c.hostPort = none)
      (next : w'.nextObject = w.nextObject + 1) : Effect sid w choice w' .create
  | started (n : Nat) (c : Container) (found : w.container sid = some c) (object : c.objectId = n)
      (container : w'.container sid =
        some { c with running := true, hostPort := some choice.hostPort })
      (next : w'.nextObject = w.nextObject) : Effect sid w choice w' (.startObject n)

theorem effect_perform (sid : Uuid) (expiresAt : Time) (w : World) (choice : Choice) (pc : Pc) :
    Effect sid w choice (w.perform .startSandbox choice (request sid expiresAt pc)).1 pc := by
  cases pc with
  | inspect => exact .same _ rfl rfl
  | conflict => exact .same _ rfl rfl
  | reload n =>
    refine .same _ ?_ ?_ <;>
    · simp only [request, World.perform]
      split <;> rfl
  | removeLeftover n =>
    simp only [request, World.perform]
    split
    · rename_i c hc
      obtain ⟨hfound, hobject⟩ := World.object_eq_some hc
      exact .removed n c hfound hobject (by simp [World.container_removeContainer]) rfl
    · exact .same _ rfl rfl
  | create =>
    simp only [request, World.perform, World.createContainer]
    split
    · rename_i cs hcs
      refine .created ⟨sid, labelExpiry expiresAt, w.nextObject, false, none⟩
        (KeyedTable.find?_of_insert hcs) ?_ rfl rfl rfl
      exact (KeyedTable.find?_insert hcs sid).trans (if_pos rfl)
    · exact .same _ rfl rfl
  | startObject n =>
    simp only [request, World.perform]
    split
    · rename_i c hc
      obtain ⟨hfound, hobject⟩ := World.object_eq_some hc
      refine .started n c hfound hobject ?_ rfl
      simp [World.container_setContainer, hfound]
    · exact .same _ rfl rfl

theorem effect_after (sid : Uuid) (expiresAt : Time) (w : World) (how : How) (choice : Choice) (pc : Pc) :
    Effect sid w choice (w.after .startSandbox how choice (request sid expiresAt pc)) pc := by
  unfold World.after
  split
  · exact effect_perform sid expiresAt w choice pc
  · exact .same _ rfl rfl

theorem Effect.next_mono {sid : Uuid} {w w' : World} {choice : Choice} {pc : Pc}
    (h : Effect sid w choice w' pc) : w.nextObject ≤ w'.nextObject := by
  cases h with
  | same _ _ next => exact Nat.le_of_eq next.symm
  | removed _ _ _ _ _ next => exact Nat.le_of_eq next.symm
  | created _ _ _ _ _ next => omega
  | started _ _ _ _ _ next => exact Nat.le_of_eq next.symm

theorem created_of_resume {sid : Uuid} {expiresAt : Time} {w : World} {how : How} {choice : Choice}
    {pc : Pc} {n : Nat} (lives : ∀ e r, how ≠ .killed e r)
    (h : resume sid pc (w.reply .startSandbox how choice (request sid expiresAt pc)) =
      some (.awaits (.startObject n))) :
    n = w.nextObject ∧ ∃ c, c.objectId = n ∧ c.hostPort = none ∧
      (w.after .startSandbox how choice (request sid expiresAt pc)).container sid = some c ∧
      (w.after .startSandbox how choice (request sid expiresAt pc)).nextObject = w.nextObject + 1 := by
  generalize hq : w.reply .startSandbox how choice (request sid expiresAt pc) = reply at h
  have hcreate : pc = .create ∧ reply = .objectId n := by
    unfold resume at h
    split at h <;> simp_all [runFailed]
    all_goals split at h <;> simp_all
  obtain ⟨rfl, rfl⟩ := hcreate
  obtain ⟨hafter, hreply⟩ := World.after_of_reply lives hq (by simp)
  rw [hafter]
  simp only [request, World.perform, World.createContainer] at hreply ⊢
  split at hreply
  · rename_i cs hcs
    obtain rfl : w.nextObject = n := by simpa using hreply
    exact ⟨rfl, ⟨sid, labelExpiry expiresAt, w.nextObject, false, none⟩, rfl, rfl,
      (KeyedTable.find?_insert hcs sid).trans (if_pos rfl), rfl⟩
  · cases hreply

theorem bound_of_resume {sid : Uuid} {expiresAt : Time} {w : World} {how : How} {choice : Choice}
    {pc : Pc} {p : Nat} (lives : ∀ e r, how ≠ .killed e r)
    (h : resume sid pc (w.reply .startSandbox how choice (request sid expiresAt pc)) =
      some (.returned p)) :
    ∃ c, pc = .reload c.objectId ∧ w.container sid = some c ∧ c.hostPort = some p ∧
      reloads pc (w.reply .startSandbox how choice (request sid expiresAt pc)) = [c.objectId] := by
  generalize hq : w.reply .startSandbox how choice (request sid expiresAt pc) = reply at h ⊢
  have hreload : ∃ n, pc = .reload n ∧ reply = .port (some p) := by
    unfold resume at h
    split at h <;> simp_all [runFailed]
    all_goals split at h <;> simp_all
  obtain ⟨n, rfl, rfl⟩ := hreload
  obtain ⟨-, hreply⟩ := World.after_of_reply lives hq (by simp)
  simp only [request, World.perform] at hreply
  split at hreply
  · rename_i c hc
    obtain ⟨hfound, rfl⟩ := World.object_eq_some hc
    exact ⟨c, rfl, hfound, by simpa using hreply, rfl⟩
  · cases hreply

/-- A call that gets a port in `reload` returns it. -/
theorem reloads_eq_nil {sid : Uuid} {pc : Pc} {reply : Reply}
    (h : ∀ p, resume sid pc reply ≠ some (.returned p)) : reloads pc reply = [] := by
  unfold reloads
  split
  · exact absurd rfl (h _)
  · rfl

theorem step_eq_some {sid : Uuid} {expiresAt : Time} {s t : Race ι} {a : Turn ι}
    (h : step sid expiresAt s a = some t) :
    ∃ pc call, s.calls a.call = .awaits pc ∧ (∀ e r, a.how ≠ .killed e r) ∧
      resume sid pc (s.world.reply .startSandbox a.how a.choice (request sid expiresAt pc)) = some call ∧
      (∀ p ∈ publishes pc a.choice, p ∉ s.published) ∧
      t = ⟨s.world.after .startSandbox a.how a.choice (request sid expiresAt pc),
        Function.update s.calls a.call call, publishes pc a.choice ++ s.published,
        reloads pc (s.world.reply .startSandbox a.how a.choice (request sid expiresAt pc)) ++
          s.reloaded⟩ := by
  unfold step at h
  split at h
  · cases h
  · rename_i pc hcall lives
    split at h
    · cases h
    · rename_i hports
      obtain ⟨call, hresume, rfl⟩ := Option.map_eq_some_iff.mp h
      refine ⟨pc, call, hcall, fun e r he => lives e r he, hresume, ?_, rfl⟩
      simpa using hports
  · cases h

/-! ## What the calls of a race keep -/

theorem mem_published {sid : Uuid} {w w' : World} {choice : Choice} {pc : Pc} {published : List Nat}
    (hw : Effect sid w choice w' pc) (hs : ∀ p, hostPort sid w = some p → p ∈ published) {p : Nat}
    (h : hostPort sid w' = some p) : p ∈ publishes pc choice ++ published := by
  cases hw with
  | same _ container =>
    rw [hostPort, container] at h
    exact List.mem_append_right _ (hs p h)
  | removed _ _ _ _ container => simp [hostPort, container] at h
  | created c _ container _ port => simp [hostPort, container, port] at h
  | started n c _ _ container =>
    simp only [hostPort, container, Option.bind_some, Option.some.injEq] at h
    simp [publishes, h]

theorem sound_step {sid : Uuid} {expiresAt : Time} {s t : Race ι} {a : Turn ι} (hs : Sound sid s)
    (h : step sid expiresAt s a = some t) : Sound sid t := by
  obtain ⟨pc, call, hcall, lives, hresume, -, rfl⟩ := step_eq_some h
  have heffect := effect_after sid expiresAt s.world a.how a.choice pc
  have hcreated := fun n (hn : call = .awaits (.startObject n)) =>
    created_of_resume lives (hn ▸ hresume)
  have hnext := heffect.next_mono
  generalize s.world.after .startSandbox a.how a.choice (request sid expiresAt pc) = w' at *
  have hstarts : ∀ i n, Function.update s.calls a.call call i = .awaits (.startObject n) →
      (i = a.call ∧ call = .awaits (.startObject n)) ∨
        (i ≠ a.call ∧ s.calls i = .awaits (.startObject n)) := by
    intro i n hi
    by_cases hia : i = a.call
    · subst hia
      exact .inl ⟨rfl, by simpa using hi⟩
    · exact .inr ⟨hia, by simpa [hia] using hi⟩
  refine ⟨fun i p hi => ?_, fun p hp => mem_published heffect hs.bound hp, fun c hc => ?_,
    fun i n hi => ?_, fun i n c hi hc hobj => ?_, fun i j n hi hj => ?_⟩
  · by_cases hia : i = a.call
    · subst hia
      obtain rfl : call = .returned p := by simpa using hi
      obtain ⟨c, -, hc, hport, -⟩ := bound_of_resume lives hresume
      exact List.mem_append_right _ (hs.bound p (hostPort_eq_some.mpr ⟨c, hc, hport⟩))
    · exact List.mem_append_right _ (hs.returned i p (by simpa [hia] using hi))
  · cases heffect with
    | same _ container next => exact next ▸ hs.object c (container ▸ hc)
    | removed _ _ _ _ container => cases container.symm.trans hc
    | created c' _ container object _ next =>
      cases container.symm.trans hc
      exact next ▸ object ▸ Nat.lt_succ_self _
    | started n c' found _ container next =>
      cases container.symm.trans hc
      exact next ▸ hs.object c' found
  · rcases hstarts i n hi with ⟨-, hn⟩ | ⟨-, hold⟩
    · obtain ⟨rfl, c, -, -, -, next⟩ := hcreated n hn
      exact next ▸ Nat.lt_succ_self _
    · exact Nat.lt_of_lt_of_le (hs.fresh i n hold) hnext
  · rcases hstarts i n hi with ⟨-, hn⟩ | ⟨hia, hold⟩
    · obtain ⟨-, c', -, port, container, -⟩ := hcreated n hn
      cases container.symm.trans hc
      exact port
    · cases heffect with
      | same _ container => exact hs.unbound i n c hold (container ▸ hc) hobj
      | removed _ _ _ _ container => cases container.symm.trans hc
      | created c' _ container object =>
        cases container.symm.trans hc
        exact absurd (hs.fresh i n hold) (by omega)
      | started m c' _ object container =>
        cases container.symm.trans hc
        obtain rfl : m = n := object.symm.trans hobj
        exact absurd (hs.sole i a.call m hold hcall) hia
  · rcases hstarts i n hi with ⟨hia, hn⟩ | ⟨-, hold⟩
    · rcases hstarts j n hj with ⟨hja, -⟩ | ⟨-, hold'⟩
      · exact hia.trans hja.symm
      · exact absurd (hs.fresh j n hold') (by rw [(hcreated n hn).1]; exact Nat.lt_irrefl _)
    · rcases hstarts j n hj with ⟨-, hn⟩ | ⟨-, hold'⟩
      · exact absurd (hs.fresh i n hold) (by rw [(hcreated n hn).1]; exact Nat.lt_irrefl _)
      · exact hs.sole i j n hold hold'

theorem returned_update {calls : ι → Call} {j : ι} {pc : Pc} {call : Call}
    (hcall : calls j = .awaits pc) (h : ∀ p, call ≠ .returned p) (i : ι) (p : Nat) :
    Function.update calls j call i = .returned p ↔ calls i = .returned p := by
  by_cases hij : i = j
  · subst hij
    simp only [Function.update_self, hcall, reduceCtorEq, iff_false]
    exact h p
  · rw [Function.update_of_ne hij]

theorem answered_step {sid : Uuid} {expiresAt : Time} {s t : Race ι} {a : Turn ι} (hs : Sound sid s)
    (ha : Answered sid s) (h : step sid expiresAt s a = some t) : Answered sid t := by
  obtain ⟨pc, call, hcall, lives, hresume, hports, rfl⟩ := step_eq_some h
  have heffect := effect_after sid expiresAt s.world a.how a.choice pc
  by_cases hreturns : ∃ p, call = .returned p
  · obtain ⟨p, rfl⟩ := hreturns
    obtain ⟨c, rfl, hc, hport, hreloads⟩ := bound_of_resume lives hresume
    obtain ⟨hcontainer, hnext⟩ : _ = _ ∧ _ = _ := by
      cases heffect with
      | same _ container next => exact ⟨container, next⟩
    rw [hreloads]
    refine ⟨fun n hn => ?_, fun c' hc' _ => ?_, fun i p' c' _ hc' _ => ?_⟩
    · rw [hnext]
      rcases List.mem_append.mp hn with hn | hold
      · obtain rfl := List.mem_singleton.mp hn
        exact hs.object c hc
      · exact ha.known n hold
    · cases (hcontainer ▸ hc').symm.trans hc
      exact ⟨a.call, p, Function.update_self .., hport⟩
    · cases (hcontainer ▸ hc').symm.trans hc
      exact List.mem_append_left _ (List.mem_singleton_self _)
  · have hcalls := returned_update hcall fun p hp => hreturns ⟨p, hp⟩
    have hnext := heffect.next_mono
    rw [reloads_eq_nil fun p hp => hreturns ⟨p, Option.some.inj (hresume.symm.trans hp)⟩,
      List.nil_append]
    refine ⟨fun n hn => Nat.lt_of_lt_of_le (ha.known n hn) hnext, fun c hc hn => ?_,
      fun i p c hi hc hport => ?_⟩
    · simp only [hcalls]
      cases heffect with
      | same _ container => exact ha.returned c (container ▸ hc) hn
      | removed _ _ _ _ container => cases container.symm.trans hc
      | created c' _ container object =>
        cases container.symm.trans hc
        exact absurd (ha.known _ hn) (object ▸ Nat.lt_irrefl _)
      | started n c' found object container =>
        cases container.symm.trans hc
        obtain ⟨i, p, -, hport⟩ := ha.returned c' found hn
        cases (hs.unbound a.call n c' hcall found object).symm.trans hport
    · have hold := (hcalls i p).mp hi
      cases heffect with
      | same _ container => exact ha.reloaded i p c hold (container ▸ hc) hport
      | removed _ _ _ _ container => cases container.symm.trans hc
      | created c' _ container _ port =>
        cases container.symm.trans hc
        cases port.symm.trans hport
      | started n c' _ _ container =>
        cases container.symm.trans hc
        cases hport
        exact absurd (hs.returned i _ hold) (hports _ (List.mem_singleton_self _))

theorem returned_stays {sid : Uuid} {expiresAt : Time} {s t : Race ι} {a : Turn ι}
    (h : step sid expiresAt s a = some t) {i : ι} {p : Nat} (hi : s.calls i = .returned p) :
    t.calls i = .returned p := by
  obtain ⟨pc, call, hcall, -, -, -, rfl⟩ := step_eq_some h
  have hia : i ≠ a.call := by
    rintro rfl
    cases hi.symm.trans hcall
  simpa [hia] using hi

theorem container_of_removed {sid : Uuid} (expiresAt : Time) {w : World} {how : How} (choice : Choice)
    {n : Nat} {c : Container} (effective : how.effect = true) (found : w.container sid = some c)
    (object : c.objectId = n) :
    (w.after .startSandbox how choice (request sid expiresAt (.removeLeftover n))).container sid =
      none := by
  have hobject : w.object sid n = some c := by simp [World.object, found, object]
  rw [World.after, if_pos effective]
  simp [request, World.perform, hobject, World.container_removeContainer]

/-- A step keeps the returned ports valid exactly if it removes no container that was reloaded. -/
theorem valid_step {sid : Uuid} {expiresAt : Time} {s t : Race ι} {a : Turn ι} (hs : Sound sid s)
    (ha : Answered sid s) (h : step sid expiresAt s a = some t) (hv : s.Valid sid) :
    Spares sid s a t ↔ t.Valid sid := by
  constructor
  · intro hspare i p hi
    obtain ⟨pc, call, hcall, lives, hresume, -, rfl⟩ := step_eq_some h
    have heffect := effect_after sid expiresAt s.world a.how a.choice pc
    by_cases hia : i = a.call
    · subst hia
      obtain rfl : call = .returned p := by simpa using hi
      obtain ⟨c, rfl, hc, hport, -⟩ := bound_of_resume lives hresume
      cases heffect with
      | same _ container => exact hostPort_eq_some.mpr ⟨c, container.trans hc, hport⟩
    · have hold : s.calls i = .returned p := by simpa [hia] using hi
      obtain ⟨c, hc, hport⟩ := hostPort_eq_some.mp (hv i p hold)
      cases heffect with
      | same _ container => exact hostPort_eq_some.mpr ⟨c, container.trans hc, hport⟩
      | removed n c' found object container =>
        cases found.symm.trans hc
        have effective : a.how.effect = true := by
          by_contra hne
          rw [World.after, if_neg hne, hc] at container
          cases container
        have hobject : (s.world.object sid n).isSome := by simp [World.object, found, object]
        exact absurd (object ▸ ha.reloaded i p c hold hc hport) (hspare n hcall effective hobject)
      | created c' absent => cases absent.symm.trans hc
      | started n c' found object =>
        cases found.symm.trans hc
        cases (hs.unbound a.call n c hcall hc object).symm.trans hport
  · intro ht n hcall effective hobject hn
    obtain ⟨c, hc⟩ := Option.isSome_iff_exists.mp hobject
    obtain ⟨hfound, rfl⟩ := World.object_eq_some hc
    obtain ⟨j, p, hj, -⟩ := ha.returned c hfound hn
    have hstays := ht j p (returned_stays h hj)
    obtain ⟨pc, call, hcall', -, -, -, rfl⟩ := step_eq_some h
    cases hcall.symm.trans hcall'
    have hgone := container_of_removed expiresAt a.choice effective hfound rfl
    simp [hostPort, hgone] at hstays

theorem valid_of_step {sid : Uuid} {expiresAt : Time} {s t : Race ι} {a : Turn ι} (hs : Sound sid s)
    (h : step sid expiresAt s a = some t) (hv : t.Valid sid) : s.Valid sid := by
  intro i p hi
  have hport := hv i p (returned_stays h hi)
  obtain ⟨pc, call, -, -, -, hports, rfl⟩ := step_eq_some h
  cases effect_after sid expiresAt s.world a.how a.choice pc with
  | same _ container => rwa [hostPort, container] at hport
  | removed _ _ _ _ container => simp [hostPort, container] at hport
  | created c _ container _ port => simp [hostPort, container, port] at hport
  | started n c _ _ container =>
    simp only [hostPort, container, Option.bind_some, Option.some.injEq] at hport
    exact absurd (hs.returned i p hi) (hports p (by simp [publishes, hport]))

/-- The first call creates and starts the container, and the second one adopts it. -/
def adopting : List (Turn (Fin 2)) :=
  [⟨0, .ok, {}⟩, ⟨0, .ok, {}⟩, ⟨0, .ok, ⟨8001, []⟩⟩, ⟨1, .ok, {}⟩, ⟨0, .ok, {}⟩, ⟨1, .ok, {}⟩]

end EnsureContainer

end SandboxOrchestrator
