import SandboxOrchestrator.Scrape
import SandboxOrchestrator.Admission
import SandboxOrchestrator.WeightRuns

/-!
# Dashboards and handlers agree

A scrape samples Postgres and Redis as the handlers read them. The capacity it shows is
the one that admission goes by, and the weight it shows is the one that `GET /rollout`
answers and that routing uses: the last one that a SET stored.
-/

namespace SandboxOrchestrator

set_option autoImplicit false

def World.scraped (w : World) (settings : Settings) (depth : Deployment → Nat) : Scrape where
  zcount := fun d => .ok (depth d)
  getWeight := .ok w.weight
  sandboxes := .ok w.sandboxes.rows
  now := w.now
  sandboxMaxActive := settings.sandboxMaxActive

/-- The gauges of a process that has been scraped before, whatever failed then. -/
def Gauges.after (u : UnlabelledClear) (earlier : List Scrape) : Gauges :=
  earlier.foldl (fun g x => (scrape u g x).2) Gauges.init

theorem Gauges.activeOnly_after (u : UnlabelledClear) (earlier : List Scrape) :
    (Gauges.after u earlier).ActiveOnly := by
  have hall : ∀ (xs : List Scrape) (g : Gauges), g.ActiveOnly →
      (xs.foldl (fun g x => (scrape u g x).2) g).ActiveOnly := by
    intro xs
    induction xs with
    | nil => exact fun _ hg => hg
    | cons x xs ih => exact fun g hg => ih _ (activeOnly_scrape hg)
  exact hall earlier Gauges.init fun _ _ => ⟨rfl, rfl⟩

theorem World.survives_scraped (w : World) (settings : Settings) (depth : Deployment → Nat)
    (u : UnlabelledClear) (earlier : List Scrape) :
    Survives u (Gauges.after u earlier) (w.scraped settings depth) :=
  survives_of_queuesSampled (Gauges.activeOnly_after u earlier) rfl

/-! ## Capacity -/

theorem sum_active (rows : List Sandbox) :
    (activeStatuses.map fun status => rows.countP fun r => decide (r.status = status)).sum =
      rows.countP fun r => decide (r.status ∈ activeStatuses) := by
  induction rows with
  | nil => rfl
  | cons r rows ih =>
    simp only [List.countP_cons, activeStatuses, List.map_cons, List.map_nil, List.sum_cons,
      List.sum_nil] at ih ⊢
    cases hst : r.status <;> simp at ih ⊢ <;> omega

def total (gauge : Gauge) (body : List Sample) : Int := ((linesOf gauge body).map (·.value)).sum

/-- Whatever is in the database and whatever the scrapes before showed: a POST that checks the
cap now is admitted exactly if the active sandboxes a scrape shows now are fewer than the
capacity it shows, and refused with 429 otherwise. -/
theorem capacity_agrees (w : World) (settings : Settings) (depth : Deployment → Nat)
    (u : UnlabelledClear) (earlier : List Scrape) (c : CreateSandbox) (hc : c.pc = .capacity)
    (choice : Choice) :
    ∃ body, (scrape u (Gauges.after u earlier) (w.scraped settings depth)).1 = .ok body ∧
      c.resume settings.sandboxMaxActive (w.perform .createSandbox choice c.request).2 =
        if total .sandboxesActive body < total .sandboxCapacity body then
          some ([], .goto { c with pc := .pick })
        else some ([], .done (.answered .capacityReached)) := by
  obtain ⟨body, hbody, honest⟩ := w.survives_scraped settings depth u earlier
  refine ⟨body, hbody, ?_⟩
  have hactive : total .sandboxesActive body = (w.active : Int) := by
    have hok : (w.scraped settings depth).sandboxes.isOk = true := rfl
    have hlines := honest.sandboxes .sandboxesActive List.mem_cons_self
    rw [if_pos hok] at hlines
    rw [total, hlines, World.active, ← sum_active]
    simp [Scrape.lines, World.scraped, activeStatuses]
  have hcap : total .sandboxCapacity body = (settings.sandboxMaxActive : Int) := by
    rw [total, honest.capacity rfl]
    simp [Scrape.lines, World.scraped]
  obtain ⟨create, key, sid, pc⟩ := c
  cases hc
  rw [hactive, hcap]
  change (if w.active ≥ settings.sandboxMaxActive then _ else _) = _
  by_cases hroom : w.active < settings.sandboxMaxActive
  · rw [if_neg (Nat.not_le.mpr hroom), if_pos (Int.ofNat_lt.mpr hroom)]
  · rw [if_pos (Nat.not_lt.mp hroom), if_neg fun h => hroom (Int.ofNat_lt.mp h)]

theorem capacity_agrees_empty : ∃ body,
    (scrape .keeps (Gauges.after .keeps [redisDown])
        ((State.init 0 KeyedTable.empty 0).world.scraped ⟨3, 1, "localhost"⟩ fun _ => 0)).1 = .ok body ∧
      (CreateSandbox.mk oneMinute none 2 .capacity).resume 1
        ((State.init 0 KeyedTable.empty 0).world.perform .createSandbox {} .countActive).2 =
        if total .sandboxesActive body < total .sandboxCapacity body then
          some ([], .goto ⟨oneMinute, none, 2, .pick⟩)
        else some ([], .done (.answered .capacityReached)) :=
  capacity_agrees (State.init 0 KeyedTable.empty 0).world ⟨3, 1, "localhost"⟩ (fun _ => 0) .keeps
    [redisDown] ⟨oneMinute, none, 2, .capacity⟩ rfl {}

/-! ## The weight -/

/-- `GET /rollout`: one read of the weight. -/
def getRollout : Reply → Option Response
  | .weight raw => some (.rollout (clampWeight raw))
  | .raised _ => some .unavailable
  | _ => none

def State.stores (s : State) : Action → Option Nat
  | .await pid how _ =>
    match s.proc pid with
    | some (.put p) => if how.effect then some p.canaryWeight else none
    | _ => none
  | _ => none

/-- A step of the system, watched with the last weight that was stored. -/
def stepStored (settings : Settings) (x : State × Nat) (a : Action) : Option (State × Nat) :=
  (step settings x.1 a).map fun t => (t, (x.1.stores a).getD x.2)

/-- Redis holds the last weight stored, and before the first none, which reads as 0. -/
structure Stored (x : State × Nat) : Prop where
  le : x.2 ≤ 100
  weight : x.1.world.weight = some (x.2 : Int) ∨ (x.1.world.weight = none ∧ x.2 = 0)

theorem stored_step {settings : Settings} {x y : State × Nat} {a : Action} (hx : Stored x)
    (h : stepStored settings x a = some y) : Stored y := by
  obtain ⟨t, hstep, rfl⟩ := Option.map_eq_some_iff.mp h
  have hst := stepped hstep
  cases hs : x.1.stores a with
  | some w =>
    -- the SET of a PUT took effect
    cases a with
    | await pid how choice =>
      simp only [State.stores] at hs
      split at hs
      · rename_i p hp
        obtain ⟨heffect, rfl⟩ : how.effect = true ∧ p.canaryWeight = w := by simpa using hs
        exact ⟨p.bounded, .inl (hst.weight_of_put hp heffect)⟩
      · cases hs
    | _ => cases hs
  | none =>
    have hsame : t.world.weight = x.1.world.weight := by
      rcases hst.weight with hsame | ⟨pid, how, choice, p, rfl, hp, heffect, -⟩
      · exact hsame
      · simp [State.stores, hp, heffect] at hs
    exact ⟨hx.le, by rw [hsame]; exact hx.weight⟩

theorem Stored.clamp {x : State × Nat} (h : Stored x) : clampWeight x.1.world.weight = x.2 := by
  rcases h.weight with hw | ⟨hw, h0⟩
  · rw [hw, clampWeight_of_le h.le]
  · rw [hw, h0]
    rfl

/-- In every run, whatever PUTs overlap, fail or die: `GET /rollout`, the routing of every
request that reads the weight, and a scrape all go by the last weight that a SET stored,
which is between 0 and 100, and by 0 before the first. -/
theorem weight_is_last_stored (settings : Settings) (now : Time) (containers : Containers)
    (nextObject : Nat) (actions : List Action) (s : State) (stored : Nat)
    (h : LabelledRuns.run (stepStored settings) (State.init now containers nextObject, 0) actions =
      some (s, stored)) (actor : Actor) (choice : Choice) (depth : Deployment → Nat)
    (u : UnlabelledClear) (earlier : List Scrape) :
    let reply := s.world.reply actor .ok choice .getWeight
    stored ≤ 100 ∧ getRollout reply = some (.rollout stored) ∧
      (∀ sid, pickDeployment sid reply = some (route sid stored)) ∧
      ∃ body, (scrape u (Gauges.after u earlier) (s.world.scraped settings depth)).1 = .ok body ∧
        linesOf .rolloutCanaryWeight body = [⟨.rolloutCanaryWeight, none, stored⟩] := by
  have hinit : Stored (State.init now containers nextObject, 0) := ⟨Nat.zero_le _, .inr ⟨rfl, rfl⟩⟩
  have hlast : Stored (s, stored) := LabelledRuns.always (fun _ _ _ hx hxy => stored_step hx hxy) hinit h
  have hclamp : clampWeight s.world.weight = stored := hlast.clamp
  obtain ⟨body, hbody, honest⟩ := s.world.survives_scraped settings depth u earlier
  have hok : (s.world.scraped settings depth).queuesSampled = true := rfl
  have hlines := honest.queues .rolloutCanaryWeight (by simp)
  rw [if_pos hok] at hlines
  refine ⟨hlast.le, ?_, fun sid => ?_, body, hbody, hlines.trans ?_⟩
  · exact congrArg (fun w => some (Response.rollout w)) hclamp
  · exact congrArg (fun w => some (route sid w)) hclamp
  · exact congrArg (fun w => [Sample.mk .rolloutCanaryWeight none w]) hclamp

/-- Two PUTs overlap; the one that began first stores last, and its answer is lost. -/
theorem weight_is_last_stored_overlapping : ∃ s,
    LabelledRuns.run (stepStored ⟨3, 4, "localhost"⟩) (State.init 0 KeyedTable.empty 0, 0)
        [.put 0 ⟨25, by decide⟩, .put 1 ⟨50, by decide⟩, .ok 1, .timesOut 0] = some (s, 25) ∧
      getRollout (s.world.reply .putRollout .ok {} .getWeight) = some (.rollout 25) := by
  have hrun : (LabelledRuns.run (stepStored ⟨3, 4, "localhost"⟩) (State.init 0 KeyedTable.empty 0, 0)
      [.put 0 ⟨25, by decide⟩, .put 1 ⟨50, by decide⟩, .ok 1, .timesOut 0]).any
      (fun x => decide (x.2 = 25)) = true := by decide
  obtain ⟨⟨s, stored⟩, hs, hp⟩ := LabelledRuns.exists_run hrun
  obtain rfl : stored = 25 := by simpa using hp
  exact ⟨s, hs, (weight_is_last_stored _ 0 _ 0 _ s 25 hs .putRollout {} (fun _ => 0) .keeps []).2.1⟩

end SandboxOrchestrator
