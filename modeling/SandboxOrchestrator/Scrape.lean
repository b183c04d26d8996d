import SandboxOrchestrator.Api
import SandboxOrchestrator.Library.LabelledRuns

/-!
# The metrics scrape

`routes/metrics.py`. Two samplers set gauges of the process, one update after another
until an await raises; `metrics` clears the gauges of a sampler that raised and answers
with all gauges as they then are. Gauges outlive the scrape. Seconds are kept in
microseconds.
-/

namespace SandboxOrchestrator

set_option autoImplicit false

inductive Gauge where
  | queueDepth
  | sandboxesActive
  | sandboxOldest
  | sandboxCapacity
  | rolloutCanaryWeight
  deriving DecidableEq, Repr

/-- The gauges of a process. One with labels has the children made since it was last
cleared; one without labels has its value. -/
structure Gauges where
  queueDepth : Deployment → Option Int
  sandboxesActive : SandboxStatus → Option Int
  sandboxOldest : SandboxStatus → Option Int
  sandboxCapacity : Int
  rolloutCanaryWeight : Int

def Gauges.init : Gauges := ⟨fun _ => none, fun _ => none, fun _ => none, 0, 0⟩

/-- A line of the exposition, with its label value where the gauge has a label. -/
structure Sample where
  gauge : Gauge
  label : Option String
  value : Int
  deriving DecidableEq

def Deployment.value : Deployment → String
  | .stable => "stable"
  | .canary => "canary"

def queues : List Deployment := [.stable, .canary]

def allStatuses : List SandboxStatus := activeStatuses ++ [.stopped, .failed]

def childLines {L : Type} (gauge : Gauge) (name : L → String) (labels : List L)
    (children : L → Option Int) : List Sample :=
  labels.filterMap fun l => (children l).map fun v => ⟨gauge, some (name l), v⟩

def generateLatest (g : Gauges) : List Sample :=
  childLines .queueDepth Deployment.value queues g.queueDepth ++
  childLines .sandboxesActive SandboxStatus.value allStatuses g.sandboxesActive ++
  childLines .sandboxOldest SandboxStatus.value allStatuses g.sandboxOldest ++
  [⟨.sandboxCapacity, none, g.sandboxCapacity⟩,
    ⟨.rolloutCanaryWeight, none, g.rolloutCanaryWeight⟩]

/-- What `clear()` does on a gauge declared without labels. -/
inductive UnlabelledClear where
  | raises (e : Exc)
  | keeps
  deriving DecidableEq

/-- What the awaits of one scrape give: two ZCOUNTs, the weight, the rows the query reads;
with the clock and the cap of the settings. -/
structure Scrape where
  zcount : Deployment → Except Exc Nat
  getWeight : Except Exc (Option Int)
  sandboxes : Except Exc (List Sandbox)
  now : Time
  sandboxMaxActive : Nat

abbrev Sampler := EStateM Exc Gauges Unit

def Gauges.setQueueDepth (g : Gauges) (d : Deployment) (v : Int) : Gauges :=
  { g with queueDepth := fun d' => if d' = d then some v else g.queueDepth d' }

def sampleQueues (x : Scrape) : Sampler := do
  for d in queues do
    -- `labels` makes the child, at 0, before the await inside `set(...)`.
    modify fun g => g.setQueueDepth d ((g.queueDepth d).getD 0)
    let depth ← MonadExcept.ofExcept (x.zcount d)
    modify fun g => g.setQueueDepth d depth
  let raw ← MonadExcept.ofExcept x.getWeight
  modify fun g => { g with rolloutCanaryWeight := clampWeight raw }

def oldestUpdate (rows : List Sandbox) (status : SandboxStatus) : Option Time :=
  ((rows.filter fun r => decide (r.status = status)).map (·.updatedAt)).min?

/-- The row of the query for one status: a status without rows has no group. -/
def groupOf (rows : List Sandbox) (status : SandboxStatus) : Option (Int × Time) :=
  (oldestUpdate rows status).map fun oldest =>
    ((rows.countP fun r => decide (r.status = status) : Nat), oldest)

def found (rows : List Sandbox) : List (SandboxStatus × Int × Time) :=
  activeStatuses.filterMap fun status => (groupOf rows status).map fun group => (status, group)

/-- `(now - oldest).total_seconds() if oldest else 0`. -/
def ageOf (now : Time) : Option Time → Int
  | some oldest => now - oldest
  | none => 0

def Gauges.setStatus (g : Gauges) (status : SandboxStatus) (count oldest : Int) : Gauges :=
  { g with
    sandboxesActive := fun s => if s = status then some count else g.sandboxesActive s
    sandboxOldest := fun s => if s = status then some oldest else g.sandboxOldest s }

def sampleSandboxes (x : Scrape) : Sampler := do
  modify fun g => { g with sandboxCapacity := x.sandboxMaxActive }
  let rows ← MonadExcept.ofExcept x.sandboxes
  for status in activeStatuses do
    let group := (found rows).lookup status
    modify fun g => g.setStatus status ((group.map (·.1)).getD 0) (ageOf x.now (group.map (·.2)))

def Gauge.clear (unlabelled : UnlabelledClear) : Gauge → Sampler
  | .queueDepth => modify fun g => { g with queueDepth := fun _ => none }
  | .sandboxesActive => modify fun g => { g with sandboxesActive := fun _ => none }
  | .sandboxOldest => modify fun g => { g with sandboxOldest := fun _ => none }
  | .sandboxCapacity | .rolloutCanaryWeight =>
    match unlabelled with
    | .raises e => throw e
    | .keeps => pure ()

def samplers (x : Scrape) : List (Sampler × List Gauge) :=
  [(sampleQueues x, [.queueDepth, .rolloutCanaryWeight]),
    (sampleSandboxes x, [.sandboxesActive, .sandboxOldest])]

def metrics (unlabelled : UnlabelledClear) (x : Scrape) : Sampler := do
  for (sampler, gauges) in samplers x do
    try sampler
    catch _ =>
      for gauge in gauges do gauge.clear unlabelled

/-- How `GET /metrics` is answered; an exception that leaves `metrics` is a 500. -/
inductive ScrapeAnswer where
  | ok (body : List Sample)
  | internalError (e : Exc)
  deriving DecidableEq

def scrape (unlabelled : UnlabelledClear) (g : Gauges) (x : Scrape) : ScrapeAnswer × Gauges :=
  match (metrics unlabelled x).run g with
  | .ok _ g' => (.ok (generateLatest g'), g')
  | .error e g' => (.internalError e, g')

/-! ## What a scrape shows -/

/-- The Redis sampler runs to its end: none of its awaits raises. -/
def Scrape.queuesSampled (x : Scrape) : Bool :=
  queues.all (fun d => (x.zcount d).isOk) && x.getWeight.isOk

/-- What each gauge should show after a scrape that sampled it. -/
def Scrape.lines (x : Scrape) : Gauge → List Sample
  | .queueDepth => queues.flatMap fun d =>
    match x.zcount d with
    | .ok depth => [⟨.queueDepth, some d.value, depth⟩]
    | .error _ => []
  | .rolloutCanaryWeight =>
    match x.getWeight with
    | .ok raw => [⟨.rolloutCanaryWeight, none, clampWeight raw⟩]
    | .error _ => []
  | .sandboxesActive =>
    match x.sandboxes with
    | .ok rows => activeStatuses.map fun status => ⟨.sandboxesActive, some status.value,
        ((rows.countP fun r => decide (r.status = status)) : Nat)⟩
    | .error _ => []
  | .sandboxOldest =>
    match x.sandboxes with
    | .ok rows => activeStatuses.map fun status =>
        ⟨.sandboxOldest, some status.value, ageOf x.now (oldestUpdate rows status)⟩
    | .error _ => []
  | .sandboxCapacity => [⟨.sandboxCapacity, none, x.sandboxMaxActive⟩]

def linesOf (gauge : Gauge) (body : List Sample) : List Sample :=
  body.filter fun l => decide (l.gauge = gauge)

/-- The body shows the values of this scrape, and nothing for a sampler that failed. -/
structure Scrape.Honest (x : Scrape) (body : List Sample) : Prop where
  queues : ∀ gauge ∈ [Gauge.queueDepth, .rolloutCanaryWeight],
    linesOf gauge body = if x.queuesSampled then x.lines gauge else []
  sandboxes : ∀ gauge ∈ [Gauge.sandboxesActive, .sandboxOldest],
    linesOf gauge body = if x.sandboxes.isOk then x.lines gauge else []
  capacity : x.sandboxes.isOk = true → linesOf .sandboxCapacity body = x.lines .sandboxCapacity

def Survives (unlabelled : UnlabelledClear) (g : Gauges) (x : Scrape) : Prop :=
  ∃ body, (scrape unlabelled g x).1 = .ok body ∧ x.Honest body

@[simp] theorem linesOf_append (gauge : Gauge) (as bs : List Sample) :
    linesOf gauge (as ++ bs) = linesOf gauge as ++ linesOf gauge bs := List.filter_append ..

theorem linesOf_cons (gauge : Gauge) (l : Sample) (ls : List Sample) :
    linesOf gauge (l :: ls) =
      if l.gauge = gauge then l :: linesOf gauge ls else linesOf gauge ls := by
  simp [linesOf, List.filter_cons]

@[simp] theorem linesOf_nil (gauge : Gauge) : linesOf gauge [] = [] := rfl

theorem linesOf_childLines {L : Type} (gauge gauge' : Gauge) (name : L → String)
    (labels : List L) (children : L → Option Int) :
    linesOf gauge (childLines gauge' name labels children) =
      if gauge' = gauge then childLines gauge' name labels children else [] := by
  have hg : ∀ l ∈ childLines gauge' name labels children, l.gauge = gauge' := by
    intro l hl
    obtain ⟨a, -, ha⟩ := List.mem_filterMap.mp hl
    obtain ⟨v, -, rfl⟩ := Option.map_eq_some_iff.mp ha
    rfl
  split
  case isTrue h => exact List.filter_eq_self.mpr fun l hl => decide_eq_true (h ▸ hg l hl)
  case isFalse h =>
    exact List.filter_eq_nil_iff.mpr fun l hl => by simpa [hg l hl] using h

theorem linesOf_generateLatest (gauge : Gauge) (g : Gauges) :
    linesOf gauge (generateLatest g) =
      match gauge with
      | .queueDepth => childLines .queueDepth Deployment.value queues g.queueDepth
      | .sandboxesActive =>
        childLines .sandboxesActive SandboxStatus.value allStatuses g.sandboxesActive
      | .sandboxOldest =>
        childLines .sandboxOldest SandboxStatus.value allStatuses g.sandboxOldest
      | .sandboxCapacity => [⟨.sandboxCapacity, none, g.sandboxCapacity⟩]
      | .rolloutCanaryWeight => [⟨.rolloutCanaryWeight, none, g.rolloutCanaryWeight⟩] := by
  cases gauge <;> simp [generateLatest, linesOf_childLines, linesOf_cons]

theorem childLines_none {L : Type} (gauge : Gauge) (name : L → String) (labels : List L) :
    childLines gauge name labels (fun _ => none) = [] := by
  simp [childLines]

/-! ## The samplers -/

/-- Only active statuses have children: nothing else is ever set. -/
def Gauges.ActiveOnly (g : Gauges) : Prop :=
  ∀ s, s ∉ activeStatuses → g.sandboxesActive s = none ∧ g.sandboxOldest s = none

@[simp] theorem run_ofExcept_ok {α : Type} (a : α) (g : Gauges) :
    (MonadExcept.ofExcept (.ok a) : EStateM Exc Gauges α).run g = .ok a g := rfl

@[simp] theorem run_ofExcept_error {α : Type} (e : Exc) (g : Gauges) :
    (MonadExcept.ofExcept (.error e) : EStateM Exc Gauges α).run g = .error e g := rfl

theorem sampleQueues_ok {x : Scrape} {depth : Deployment → Nat} {raw : Option Int} (g : Gauges)
    (hd : ∀ d, x.zcount d = .ok (depth d)) (hw : x.getWeight = .ok raw) :
    (sampleQueues x).run g = .ok () { g with
      queueDepth := fun d => some (depth d)
      rolloutCanaryWeight := clampWeight raw } := by
  have hboth : ((g.setQueueDepth .stable (depth .stable)).setQueueDepth .canary
      (depth .canary)).queueDepth = fun d => some (depth d : Int) := by
    funext d
    cases d <;> rfl
  rw [← hboth]
  simp [sampleQueues, queues, hd, hw, Gauges.setQueueDepth]
  funext d
  cases d <;> rfl

theorem sampleQueues_error {x : Scrape} (g : Gauges) (h : x.queuesSampled = false) :
    ∃ e depths, (sampleQueues x).run g = .error e { g with queueDepth := depths } := by
  cases hs : x.zcount .stable with
  | error e => exact ⟨e, _, by simp [sampleQueues, queues, hs]; rfl⟩
  | ok stable =>
    cases hc : x.zcount .canary with
    | error e => exact ⟨e, _, by simp [sampleQueues, queues, hs, hc]; rfl⟩
    | ok canary =>
      cases hw : x.getWeight with
      | error e => exact ⟨e, _, by simp [sampleQueues, queues, hs, hc, hw]; rfl⟩
      | ok raw => simp [Scrape.queuesSampled, queues, hs, hc, hw, Except.isOk, Except.toBool] at h

theorem lookup_filterMap {L V : Type} [DecidableEq L] (f : L → Option V) (labels : List L)
    (l : L) : (labels.filterMap fun l => (f l).map fun v => (l, v)).lookup l =
      if l ∈ labels then f l else none := by
  induction labels with
  | nil => rfl
  | cons a labels ih =>
    by_cases hl : l = a
    · subst hl
      cases hf : f l with
      | none => simp [hf, ih]
      | some v => simp [hf]
    · have hb : (l == a) = false := beq_false_of_ne hl
      cases hf : f a with
      | none => simp [hf, ih, hl]
      | some v => simp [hf, ih, hl, hb, List.lookup_cons]

theorem lookup_found (rows : List Sandbox) {status : SandboxStatus} (h : status ∈ activeStatuses) :
    (found rows).lookup status = groupOf rows status := by
  rw [found, lookup_filterMap, if_pos h]

theorem countP_of_oldestUpdate_eq_none {rows : List Sandbox} {status : SandboxStatus}
    (h : oldestUpdate rows status = none) :
    rows.countP (fun r => decide (r.status = status)) = 0 := by
  rw [oldestUpdate, List.min?_eq_none_iff, List.map_eq_nil_iff] at h
  rw [List.countP_eq_length_filter, h, List.length_nil]

theorem groupOf_count (rows : List Sandbox) (status : SandboxStatus) :
    ((groupOf rows status).map (·.1)).getD 0 =
      ((rows.countP fun r => decide (r.status = status) : Nat) : Int) := by
  cases h : oldestUpdate rows status with
  | none => simp [groupOf, h, countP_of_oldestUpdate_eq_none h]
  | some oldest => simp [groupOf, h]

theorem groupOf_oldest (rows : List Sandbox) (status : SandboxStatus) :
    (groupOf rows status).map (·.2) = oldestUpdate rows status := by
  cases h : oldestUpdate rows status with
  | none => simp [groupOf, h]
  | some oldest => simp [groupOf, h]

theorem sampleSandboxes_ok {x : Scrape} {rows : List Sandbox} (g : Gauges)
    (h : x.sandboxes = .ok rows) :
    (sampleSandboxes x).run g = .ok () { g with
      sandboxCapacity := x.sandboxMaxActive
      sandboxesActive := fun s => if s ∈ activeStatuses then
        some ((rows.countP fun r => decide (r.status = s)) : Nat) else g.sandboxesActive s
      sandboxOldest := fun s => if s ∈ activeStatuses then
        some (ageOf x.now (oldestUpdate rows s)) else g.sandboxOldest s } := by
  have hl := fun s (hs : s ∈ activeStatuses) => lookup_found rows hs
  simp only [activeStatuses, List.forall_mem_cons] at hl
  obtain ⟨hq, hst, hr, hsp, -⟩ := hl
  simp [sampleSandboxes, h, activeStatuses, hq, hst, hr, hsp, groupOf_count, groupOf_oldest,
    Gauges.setStatus]
  constructor
  · funext s
    cases s <;> rfl
  · funext s
    cases s <;> rfl

theorem sampleSandboxes_error {x : Scrape} {e : Exc} (g : Gauges) (h : x.sandboxes = .error e) :
    (sampleSandboxes x).run g = .error e { g with sandboxCapacity := x.sandboxMaxActive } := by
  simp [sampleSandboxes, h]

theorem run_try (m : Sampler) (f : Exc → Sampler) (g : Gauges) :
    (tryCatch m f : Sampler).run g =
      match m.run g with
      | .ok a g' => .ok a g'
      | .error e g' => (f e).run g' := by
  change (EStateM.tryCatch m f) g = _
  unfold EStateM.tryCatch EStateM.run
  cases m g <;> rfl

/-! ## Runs of scrapes -/

theorem queuesSampled_iff {x : Scrape} : x.queuesSampled = true ↔
    ∃ (depth : Deployment → Nat) (raw : Option Int),
      (∀ d, x.zcount d = .ok (depth d)) ∧ x.getWeight = .ok raw := by
  constructor
  · intro h
    cases hs : x.zcount .stable with
    | error e => simp [Scrape.queuesSampled, queues, hs, Except.isOk, Except.toBool] at h
    | ok stable =>
      cases hc : x.zcount .canary with
      | error e => simp [Scrape.queuesSampled, queues, hs, hc, Except.isOk, Except.toBool] at h
      | ok canary =>
        cases hw : x.getWeight with
        | error e =>
          simp [Scrape.queuesSampled, queues, hs, hc, hw, Except.isOk, Except.toBool] at h
        | ok raw =>
          refine ⟨fun d => match d with | .stable => stable | .canary => canary, raw, ?_, rfl⟩
          intro d
          cases d
          · exact hs
          · exact hc
  · rintro ⟨depth, raw, hd, hw⟩
    simp [Scrape.queuesSampled, hd, hw, Except.isOk, Except.toBool]

/-- The gauges after the second sampler, with the clean-up where it raised. -/
def Scrape.sandboxesAfter (x : Scrape) (g : Gauges) : Gauges :=
  match x.sandboxes with
  | .ok rows => { g with
      sandboxCapacity := x.sandboxMaxActive
      sandboxesActive := fun s => if s ∈ activeStatuses then
        some ((rows.countP fun r => decide (r.status = s)) : Nat) else g.sandboxesActive s
      sandboxOldest := fun s => if s ∈ activeStatuses then
        some (ageOf x.now (oldestUpdate rows s)) else g.sandboxOldest s }
  | .error _ => { g with
      sandboxCapacity := x.sandboxMaxActive
      sandboxesActive := fun _ => none
      sandboxOldest := fun _ => none }

theorem metrics_run_sampled {x : Scrape} {depth : Deployment → Nat} {raw : Option Int}
    (u : UnlabelledClear) (g : Gauges) (hd : ∀ d, x.zcount d = .ok (depth d))
    (hw : x.getWeight = .ok raw) :
    (metrics u x).run g = .ok () (x.sandboxesAfter { g with
      queueDepth := fun d => some (depth d)
      rolloutCanaryWeight := clampWeight raw }) := by
  have hq := sampleQueues_ok g hd hw
  cases hx : x.sandboxes with
  | error e =>
    simp only [metrics, samplers, List.forIn_cons, List.forIn_nil, EStateM.run_bind,
      EStateM.run_pure, EStateM.run_modify, run_try, hq, sampleSandboxes_error _ hx, Gauge.clear,
      Scrape.sandboxesAfter, hx]
  | ok rows =>
    simp only [metrics, samplers, List.forIn_cons, List.forIn_nil, EStateM.run_bind,
      EStateM.run_pure, run_try, hq, sampleSandboxes_ok _ hx, Scrape.sandboxesAfter, hx]

theorem metrics_run_failed {x : Scrape} (u : UnlabelledClear) (g : Gauges)
    (h : x.queuesSampled = false) : (metrics u x).run g =
      match u with
      | .raises e => .error e { g with queueDepth := fun _ => none }
      | .keeps => .ok () (x.sandboxesAfter { g with queueDepth := fun _ => none }) := by
  obtain ⟨e, depths, hq⟩ := sampleQueues_error g h
  cases u with
  | raises e' =>
    simp only [metrics, samplers, List.forIn_cons, EStateM.run_bind, EStateM.run_modify,
      EStateM.run_pure, EStateM.run_throw, run_try, hq, Gauge.clear]
  | keeps =>
    cases hx : x.sandboxes with
    | error e =>
      simp only [metrics, samplers, List.forIn_cons, List.forIn_nil, EStateM.run_bind,
        EStateM.run_pure, EStateM.run_modify, run_try, hq, sampleSandboxes_error _ hx,
        Gauge.clear, Scrape.sandboxesAfter, hx]
    | ok rows =>
      simp only [metrics, samplers, List.forIn_cons, List.forIn_nil, EStateM.run_bind,
        EStateM.run_pure, EStateM.run_modify, run_try, hq, sampleSandboxes_ok _ hx, Gauge.clear,
        Scrape.sandboxesAfter, hx]

theorem Gauges.ActiveOnly.sandboxesAfter {g : Gauges} (h : g.ActiveOnly) (x : Scrape) :
    (x.sandboxesAfter g).ActiveOnly := by
  intro s hs
  cases hx : x.sandboxes with
  | error e => simp [Scrape.sandboxesAfter, hx]
  | ok rows => simpa [Scrape.sandboxesAfter, hx, hs] using h s hs

theorem activeOnly_scrape {u : UnlabelledClear} {g : Gauges} {x : Scrape} (h : g.ActiveOnly) :
    (scrape u g x).2.ActiveOnly := by
  cases hq : x.queuesSampled with
  | true =>
    obtain ⟨depth, raw, hd, hw⟩ := queuesSampled_iff.mp hq
    rw [scrape, metrics_run_sampled u g hd hw]
    exact Gauges.ActiveOnly.sandboxesAfter (g := { g with
      queueDepth := fun d => some (depth d), rolloutCanaryWeight := clampWeight raw }) h x
  | false =>
    rw [scrape, metrics_run_failed u g hq]
    cases u with
    | raises e => exact h
    | keeps =>
      exact Gauges.ActiveOnly.sandboxesAfter (g := { g with queueDepth := fun _ => none }) h x

theorem linesOf_sandboxesAfter {g : Gauges} (h : g.ActiveOnly) (x : Scrape) :
    (∀ gauge ∈ [Gauge.sandboxesActive, .sandboxOldest],
      linesOf gauge (generateLatest (x.sandboxesAfter g)) =
        if x.sandboxes.isOk then x.lines gauge else []) ∧
    linesOf .sandboxCapacity (generateLatest (x.sandboxesAfter g)) = x.lines .sandboxCapacity := by
  have hs := h .stopped (by decide)
  have hf := h .failed (by decide)
  simp only [linesOf_generateLatest]
  cases hx : x.sandboxes with
  | error e =>
    simp [Scrape.sandboxesAfter, hx, childLines_none, Scrape.lines, Except.isOk, Except.toBool]
  | ok rows =>
    simp [Scrape.sandboxesAfter, hx, Scrape.lines, Except.isOk, Except.toBool, childLines,
      allStatuses, activeStatuses, hs, hf]

@[simp] theorem sandboxesAfter_queueDepth (x : Scrape) (g : Gauges) :
    (x.sandboxesAfter g).queueDepth = g.queueDepth := by
  cases hx : x.sandboxes <;> simp [Scrape.sandboxesAfter, hx]

@[simp] theorem sandboxesAfter_rolloutCanaryWeight (x : Scrape) (g : Gauges) :
    (x.sandboxesAfter g).rolloutCanaryWeight = g.rolloutCanaryWeight := by
  cases hx : x.sandboxes <;> simp [Scrape.sandboxesAfter, hx]

theorem survives_of_queuesSampled {u : UnlabelledClear} {g : Gauges} {x : Scrape}
    (hg : g.ActiveOnly) (h : x.queuesSampled = true) : Survives u g x := by
  obtain ⟨depth, raw, hd, hw⟩ := queuesSampled_iff.mp h
  refine ⟨_, by rw [scrape, metrics_run_sampled u g hd hw], ?_, ?_, ?_⟩
  · intro gauge hgauge
    rw [if_pos h]
    simp only [List.mem_cons, List.not_mem_nil, or_false] at hgauge
    rcases hgauge with rfl | rfl
    · simp [linesOf_generateLatest, Scrape.lines, hd, childLines, queues]
    · simp [linesOf_generateLatest, Scrape.lines, hw]
  · exact (linesOf_sandboxesAfter (g := { g with
      queueDepth := fun d => some (depth d), rolloutCanaryWeight := clampWeight raw }) hg x).1
  · exact fun _ => (linesOf_sandboxesAfter (g := { g with
      queueDepth := fun d => some (depth d), rolloutCanaryWeight := clampWeight raw }) hg x).2

/-- The weight has a value whenever there is a body at all. -/
theorem not_survives_of_failed {u : UnlabelledClear} {g : Gauges} {x : Scrape}
    (h : x.queuesSampled = false) : ¬ Survives u g x := by
  rintro ⟨body, hbody, honest⟩
  cases u with
  | raises e => simp [scrape, metrics_run_failed _ g h] at hbody
  | keeps =>
    have hq := honest.queues .rolloutCanaryWeight (by simp)
    simp only [scrape, metrics_run_failed _ g h, ScrapeAnswer.ok.injEq] at hbody
    simp [← hbody, linesOf_generateLatest, h] at hq

def scrapeStep (u : UnlabelledClear) (g : Gauges) (x : Scrape) : Option Gauges :=
  some (scrape u g x).2

/-- In every sequence of scrapes, whatever fails in each: a scrape answers 200 and shows the
values of this scrape and nothing of a failed sampler, exactly when Redis could be sampled. -/
theorem scrape_survives_iff (u : UnlabelledClear) (scrapes : List Scrape) :
    LabelledRuns.Along (scrapeStep u)
      (fun g x _ => Survives u g x ↔ x.queuesSampled = true) Gauges.init scrapes := by
  refine LabelledRuns.along_of_invariant (I := Gauges.ActiveOnly) (P := fun _ _ _ => True)
    ?_ ?_ ?_ ?_
  · intro g x g' hg _ hstep
    cases hstep
    exact activeOnly_scrape hg
  · intro g x g' hg _ _
    refine ⟨fun hs => ?_, survives_of_queuesSampled hg⟩
    by_contra hq
    exact not_survives_of_failed (Bool.eq_false_iff.mpr hq) hs
  · exact fun s _ => ⟨rfl, rfl⟩
  · exact LabelledRuns.Along.of_forall (fun _ _ _ _ => trivial) _ _

def healthyScrape : Scrape :=
  ⟨fun _ => .ok 0, .ok (some 100), .ok [], 0, 50⟩

def redisDown : Scrape :=
  ⟨fun _ => .error ⟨"ConnectionError", "redis down"⟩, .error ⟨"ConnectionError", "redis down"⟩,
    .ok [], 0, 50⟩

/-- Redis fails after a healthy scrape: the answer is a 500, or it shows the weight of the
scrape before. -/
theorem scrape_redis_down :
    ¬ LabelledRuns.Along (scrapeStep (.raises ⟨"AttributeError", "_lock"⟩))
        (fun g x _ => Survives (.raises ⟨"AttributeError", "_lock"⟩) g x) Gauges.init
        [healthyScrape, redisDown] ∧
      ¬ LabelledRuns.Along (scrapeStep .keeps) (fun g x _ => Survives .keeps g x) Gauges.init
        [healthyScrape, redisDown] := by
  constructor
  · rintro ⟨-, hs, -⟩
    exact not_survives_of_failed (by decide) hs
  · rintro ⟨-, hs, -⟩
    exact not_survives_of_failed (by decide) hs

end SandboxOrchestrator
