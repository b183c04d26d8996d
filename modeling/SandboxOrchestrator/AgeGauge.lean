import SandboxOrchestrator.Scrape
import SandboxOrchestrator.Lifecycle

/-!
# What the age gauge measures

`sandbox_oldest_in_status_seconds` is the time since `updated_at`. A run is watched with
the time of each row's last change of status beside it, and the two agree as long as no
UPDATE writes an active row its own status at a later time.
-/

namespace SandboxOrchestrator

set_option autoImplicit false

abbrev Since := Uuid → Option Time

def stepSince (settings : Settings) (x : State × Since) (a : Action) : Option (State × Since) :=
  (step settings x.1 a).map fun t =>
    (t, fun sid => if t.world.status sid = x.1.world.status sid then x.2 sid else x.1.world.now)

def longestWait (rows : List Sandbox) (since : Since) (now : Time) (status : SandboxStatus) : Int :=
  (((rows.filter fun r => decide (r.status = status)).map fun r =>
    now - (since r.id).getD now).max?).getD 0

/-- `updated_at` of an active row is the time it entered its status, and a scrape of this
state reports the longest wait of each active status. -/
structure Ages (x : State × Since) : Prop where
  updatedAt : ∀ sid r, x.1.world.row sid = some r → r.status ∈ activeStatuses →
    x.2 sid = some r.updatedAt
  gauge : ∀ scrape : Scrape, scrape.sandboxes = .ok x.1.world.sandboxes.rows → ∀ g, ∃ g',
    (sampleSandboxes scrape).run g = .ok () g' ∧ ∀ status ∈ activeStatuses,
      g'.sandboxOldest status =
        some (longestWait x.1.world.sandboxes.rows x.2 scrape.now status)

/-- The row of `sid` is in `status` and was last written at another time than now. -/
def World.dated (w : World) (sid : Uuid) (status : SandboxStatus) : Bool :=
  (w.row sid).any fun r => decide (r.status = status) && decide (r.updatedAt ≠ w.now)

/-- The UPDATE of a DELETE takes effect on a row already stopping, or that of a pick-up on
a row already starting, later than the row was last written. -/
def refreshes (s : State) : Action → Bool
  | .await pid how _ =>
    how.effect &&
      match s.proc pid with
      | some (.delete ⟨sid, .mark⟩) => s.world.dated sid .stopping
      | some (.start ⟨sid, _, _, .pickUp _⟩) => s.world.dated sid .starting
      | _ => false
  | _ => false

theorem World.dated_eq_true {w : World} {sid : Uuid} {status : SandboxStatus} :
    w.dated sid status = true ↔
      ∃ r, w.row sid = some r ∧ r.status = status ∧ r.updatedAt ≠ w.now := by
  simp [World.dated, Option.any_eq_true]

/-- The only UPDATEs that may write an active row the status it has. -/
inductive SelfLoop (proc : Proc) (r : Sandbox) : Prop where
  | mark (isMark : proc = .delete ⟨r.id, .mark⟩) (stopping : r.status = .stopping)
  | pickUp (jobTry : Nat) (pool : Deployment) (sandbox : Sandbox)
      (isPickUp : proc = .start ⟨r.id, jobTry, pool, .pickUp sandbox⟩)
      (starting : r.status = .starting)

theorem selfLoop_of_writes {proc : Proc} {r : Sandbox} {v : Values}
    (hw : proc.request.writes r = some v) (hv : v.status = r.status)
    (ha : r.status ∈ activeStatuses) : SelfLoop proc r := by
  cases Proc.writes_of hw with
  | mark => exact .mark rfl hv.symm
  | pickUp => exact .pickUp _ _ _ rfl hv.symm
  | retry _ _ _ status =>
    rw [status] at hv
    cases hv
  | succeed _ _ _ _ status =>
    rw [status] at hv
    cases hv
  | _ =>
    rw [← hv] at ha
    simp [activeStatuses] at ha

/-! ## The gauge -/

theorem max_sub_eq_ageOf (now : Time) (l : List Time) :
    (((l.map fun t => now - t).max?).getD 0) = ageOf now l.min? := by
  cases hmin : l.min? with
  | none =>
    rw [List.min?_eq_none_iff] at hmin
    subst hmin
    rfl
  | some m =>
    obtain ⟨hmem, hle⟩ := List.min?_eq_some_iff.mp hmin
    have hmax : (l.map fun t => now - t).max? = some (now - m) := by
      refine List.max?_eq_some_iff.mpr ⟨List.mem_map.mpr ⟨m, hmem, rfl⟩, ?_⟩
      intro b hb
      obtain ⟨t, ht, rfl⟩ := List.mem_map.mp hb
      exact Int.sub_le_sub_left (hle t ht) now
    rw [hmax]
    rfl

theorem longestWait_eq {rows : List Sandbox} {since : Since} {status : SandboxStatus}
    (h : ∀ r ∈ rows, r.status = status → since r.id = some r.updatedAt) (now : Time) :
    longestWait rows since now status = ageOf now (oldestUpdate rows status) := by
  have hmap : ((rows.filter fun r => decide (r.status = status)).map fun r =>
      now - (since r.id).getD now) =
      ((rows.filter fun r => decide (r.status = status)).map (·.updatedAt)).map
        fun t => now - t := by
    rw [List.map_map]
    refine List.map_congr_left fun r hr => ?_
    obtain ⟨hmem, hst⟩ := List.mem_filter.mp hr
    simp [h r hmem (of_decide_eq_true hst)]
  rw [longestWait, hmap, max_sub_eq_ageOf]
  rfl

theorem Ages.of_updatedAt {x : State × Since}
    (h : ∀ sid r, x.1.world.row sid = some r → r.status ∈ activeStatuses →
      x.2 sid = some r.updatedAt) : Ages x := by
  refine ⟨h, fun scrape hrows g => ⟨_, sampleSandboxes_ok g hrows, fun status hactive => ?_⟩⟩
  simp only [if_pos hactive]
  rw [longestWait_eq]
  rintro r hr rfl
  exact h r.id r (World.mem_rows_iff.mp hr) hactive

/-! ## One step -/

theorem stepSince_eq_some {settings : Settings} {x y : State × Since} {a : Action}
    (h : stepSince settings x a = some y) : step settings x.1 a = some y.1 ∧
      ∀ sid, y.2 sid =
        if y.1.world.status sid = x.1.world.status sid then x.2 sid else x.1.world.now := by
  obtain ⟨t, ht, rfl⟩ := Option.map_eq_some_iff.mp h
  exact ⟨ht, fun _ => rfl⟩

theorem refreshes_of_selfLoop {s : State} {pid : Nat} {how : How} {choice : Choice} {proc : Proc}
    {r : Sandbox} (hp : s.proc pid = some proc) (effect : how.effect = true)
    (hrow : s.world.row r.id = some r) (loop : SelfLoop proc r)
    (hne : r.updatedAt ≠ s.world.now) : refreshes s (.await pid how choice) = true := by
  cases loop with
  | mark isMark stopping =>
    simp only [refreshes, effect, hp, isMark, Bool.true_and]
    exact World.dated_eq_true.mpr ⟨r, hrow, stopping, hne⟩
  | pickUp jobTry pool sandbox isPickUp starting =>
    simp only [refreshes, effect, hp, isPickUp, Bool.true_and]
    exact World.dated_eq_true.mpr ⟨r, hrow, starting, hne⟩

theorem ages_step {settings : Settings} {x y : State × Since} {a : Action} (hx : Ages x)
    (h : stepSince settings x a = some y) (hr : refreshes x.1 a = false) : Ages y := by
  obtain ⟨hstep, hsince⟩ := stepSince_eq_some h
  refine .of_updatedAt fun sid r hrow hactive => ?_
  have hkept : y.1.world.row sid = x.1.world.row sid → y.2 sid = some r.updatedAt := by
    intro hsame
    rw [hsince, World.status, World.status, hsame, if_pos rfl]
    exact hx.updatedAt sid r (hsame ▸ hrow) hactive
  rcases (stepped hstep).row sid with hsame | ⟨pid, how, choice, proc, rfl, hp, hchange⟩
  · exact hkept hsame
  · cases heffect : how.effect with
    | false =>
      have hcalled := ((stepped hstep).called hp).1 sid
      rw [State.worldAfter, World.after, heffect] at hcalled
      exact hkept hcalled
    | true =>
      generalize hrow' : y.1.world.row sid = row at hchange
      cases hchange with
      | same => exact hkept hrow'
      | inserted r₀ isInsert id absent =>
        cases hrow'.symm.trans hrow
        rw [hsince, if_neg (by simp [World.status, hrow', absent])]
      | wrote r₀ v found writes =>
        cases hrow'.symm.trans hrow
        by_cases hv : v.status = r₀.status
        · have hid := World.row_id found
          have hloop := selfLoop_of_writes writes hv (hv ▸ hactive)
          have hnow : r₀.updatedAt = x.1.world.now := by
            by_contra hne
            exact Bool.eq_false_iff.mp hr
              (refreshes_of_selfLoop hp heffect (hid ▸ found) hloop hne)
          rw [hsince, if_pos (by simp [World.status, hrow', found, hv]),
            hx.updatedAt sid r₀ found (hv ▸ hactive), hnow]
          rfl
        · rw [hsince, if_neg (by simpa [World.status, hrow', found] using hv)]
          rfl

theorem row_of_refreshes {settings : Settings} {s t : State} {a : Action}
    (h : step settings s a = some t) (hr : refreshes s a = true) :
    ∃ sid r r', s.world.row sid = some r ∧ t.world.row sid = some r' ∧ r'.status = r.status ∧
      r.status ∈ activeStatuses ∧ r'.updatedAt = s.world.now ∧ r.updatedAt ≠ s.world.now := by
  cases a with
  | await pid how choice =>
    obtain ⟨heffect, hr⟩ := Bool.and_eq_true_iff.mp hr
    have hwrite : ∀ proc sid from_ v r, s.proc pid = some proc →
        proc.request = .transition sid from_ v → s.world.row sid = some r → r.status ∈ from_ →
        t.world.row sid = some (v.apply s.world.now r) := by
      intro proc sid from_ v r hp hq hrow hst
      rw [((stepped h).called hp).1 sid, State.worldAfter, World.after, if_pos heffect, hq]
      refine (World.row_update s.world proc.actor (guard sid from_) v sid).trans ?_
      simp [hrow, guard_eq_true.mpr ⟨World.row_id hrow, hst⟩]
    split at hr
    · rename_i sid hp
      obtain ⟨r, hrow, hst, hne⟩ := World.dated_eq_true.mp hr
      exact ⟨sid, r, _, hrow, hwrite _ sid _ _ r hp rfl hrow (by rw [hst]; decide), hst.symm,
        by rw [hst]; decide, rfl, hne⟩
    · rename_i sid _ _ _ hp
      obtain ⟨r, hrow, hst, hne⟩ := World.dated_eq_true.mp hr
      exact ⟨sid, r, _, hrow, hwrite _ sid _ _ r hp rfl hrow (by rw [hst]; decide), hst.symm,
        by rw [hst]; decide, rfl, hne⟩
    · cases hr
  | _ => cases hr

/-- A refreshed row has spent more time in its status than its `updated_at` says. -/
theorem not_ages_of_refreshes {settings : Settings} {x y : State × Since} {a : Action}
    (hx : Ages x) (h : stepSince settings x a = some y) (hr : refreshes x.1 a = true) :
    ¬ Ages y := by
  obtain ⟨hstep, hsince⟩ := stepSince_eq_some h
  obtain ⟨sid, r, r', hrow, hrow', hst, hactive, hnow, hne⟩ := row_of_refreshes hstep hr
  intro hy
  have hage := hy.updatedAt sid r' hrow' (hst ▸ hactive)
  rw [hsince, if_pos (by simp [World.status, hrow, hrow', hst]), hx.updatedAt sid r hrow hactive,
    hnow] at hage
  exact hne (Option.some.inj hage)

/-- In every run, `updated_at` is in every state the time of the last change of status and
every scrape shows the longest wait in each status, exactly when no step of the run
refreshes an active row. -/
theorem age_gauge_iff (settings : Settings) (now : Time) (containers : Containers)
    (nextObject : Nat) (actions : List Action) :
    LabelledRuns.Along (stepSince settings) (fun x a _ => refreshes x.1 a = false)
        (State.init now containers nextObject, fun _ => none) actions ↔
      LabelledRuns.Along (stepSince settings) (fun _ _ y => Ages y)
        (State.init now containers nextObject, fun _ => none) actions := by
  have hinit : Ages (State.init now containers nextObject, fun _ => none) :=
    .of_updatedAt fun sid r hrow _ => by cases hrow
  refine LabelledRuns.along_iff_invariant (I := Ages) ?_ hinit actions
  intro x a y hx h
  refine ⟨ages_step hx h, fun hy => ?_⟩
  cases hr : refreshes x.1 a with
  | false => rfl
  | true => exact absurd hy (not_ages_of_refreshes hx h hr)

/-- DELETE repeated a minute after the first: `updated_at` says the row just entered
`stopping`. -/
theorem age_gauge_delete_twice : ∃ x,
    LabelledRuns.run (stepSince ⟨3, 4, "localhost"⟩)
        (State.init 0 KeyedTable.empty 0, fun _ => none)
        (posted 0 1 ++ [.delete 1 1, .ok 1, .ok 1, .tick 60000000, .delete 2 1, .ok 2, .ok 2]) =
      some x ∧ ¬ Ages x := by
  have hrun : (LabelledRuns.run (stepSince ⟨3, 4, "localhost"⟩)
      (State.init 0 KeyedTable.empty 0, fun _ => none)
      (posted 0 1 ++ [.delete 1 1, .ok 1, .ok 1, .tick 60000000, .delete 2 1, .ok 2, .ok 2])).any
      (fun x => (x.1.world.row 1).any (fun r => decide (r.status = .stopping) &&
        decide (r.updatedAt = 60000000)) && decide (x.2 1 = some 0)) = true := by decide
  obtain ⟨x, hx, hp⟩ := LabelledRuns.exists_run hrun
  obtain ⟨hrow, hsince⟩ := Bool.and_eq_true_iff.mp hp
  obtain ⟨r, hr, hr'⟩ := (Option.any_eq_true _ _).mp hrow
  obtain ⟨hst, hupdated⟩ := Bool.and_eq_true_iff.mp hr'
  refine ⟨x, hx, fun hages => ?_⟩
  have hage := hages.updatedAt 1 r hr (by rw [of_decide_eq_true hst]; decide)
  rw [of_decide_eq_true hsince, of_decide_eq_true hupdated] at hage
  exact absurd hage (by decide)

end SandboxOrchestrator
