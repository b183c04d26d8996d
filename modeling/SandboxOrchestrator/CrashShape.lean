import SandboxOrchestrator.StaleReads
import SandboxOrchestrator.Vanished
import SandboxOrchestrator.TryAlone

/-!
# What crashes leave behind

A start delivery can be killed at any of its calls, and sweeps can run at any time before
the expiry on the label. `Shape` is what any mixture of these leaves of the row and the
container of one sandbox, and `Fits` what the delivery in flight knows of them.
-/

namespace SandboxOrchestrator

set_option autoImplicit false

/-! ## What can be left of a sandbox -/

/-- The row waits, or starts, or runs on its container; a container has the label of its
row, and once it runs it has a port. -/
structure Shape (settings : Settings) (row : Option Sandbox) (container : Option Container) :
    Prop where
  status : ∀ r, row = some r → r.status ∈ wanted
  running : ∀ r, row = some r → r.status = .running → r.error = none ∧
    ∃ c p, container = some c ∧ c.running = true ∧ c.hostPort = some p ∧
      r.url = some (launchUrl settings p)
  labelled : ∀ c, container = some c → ∃ r, row = some r ∧
    c.expiresAt = labelExpiry r.expiresAt ∧ c.running = c.hostPort.isSome

/-- The row is `starting` and has the expiry that the delivery has read. -/
def Starting (row : Option Sandbox) (r₀ : Sandbox) : Prop :=
  ∃ r, row = some r ∧ r.status = .starting ∧ r₀.expiresAt = r.expiresAt

/-- What the only delivery in flight knows at each of its calls. -/
def StartPc.Fits (settings : Settings) (row : Option Sandbox) (container : Option Container) :
    StartPc → Prop
  | .get => True
  | .expiryCheck r₀ => ∃ r, row = some r ∧ r₀.expiresAt = r.expiresAt
  | .expire => True
  | .pickUp r₀ => ∃ r, row = some r ∧ r₀.expiresAt = r.expiresAt
  | .inspect r₀ => Starting row r₀
  | .removeLeftover r₀ n => Starting row r₀ ∧ ∃ c, container = some c ∧ c.objectId = n
  | .create r₀ => Starting row r₀ ∧ container = none
  | .conflict r₀ => Starting row r₀
  | .startObject r₀ n => Starting row r₀ ∧ ∃ c, container = some c ∧ c.objectId = n
  | .reload r₀ n => Starting row r₀ ∧ ∃ c, container = some c ∧ c.objectId = n
  | .waitReady r₀ p =>
    Starting row r₀ ∧ ∃ c, container = some c ∧ c.running = true ∧ c.hostPort = some p
  | .discardBroken _ => ∃ r, row = some r ∧ r.status = .starting
  | .retry _ => ∃ r, row = some r ∧ r.status = .starting
  | .fail _ => ∃ r, row = some r ∧ r.status = .starting
  | .succeed _ url => (∃ r, row = some r ∧ r.status = .starting) ∧
    ∃ c p, container = some c ∧ c.running = true ∧ c.hostPort = some p ∧ url = launchUrl settings p
  | .discardUnwanted => False

variable {settings : Settings} {row : Option Sandbox} {container : Option Container}
  {w : World} {sid : Uuid} {d : StartSandbox} {how : How} {choice : Choice}

theorem StartPc.Fits.starting {pc : StartPc} (h : pc.Fits settings row container)
    (hsec : pc.section = true) : ∃ r, row = some r ∧ r.status = .starting := by
  have hweaken : ∀ {r₀}, Starting row r₀ → ∃ r, row = some r ∧ r.status = .starting :=
    fun ⟨r, hr, hst, _⟩ => ⟨r, hr, hst⟩
  cases pc with
  | get => cases hsec
  | expiryCheck => cases hsec
  | expire => cases hsec
  | pickUp => cases hsec
  | inspect => exact hweaken h
  | conflict => exact hweaken h
  | discardBroken => exact h
  | retry => exact h
  | fail => exact h
  | succeed => exact h.1
  | discardUnwanted => exact h.elim
  | _ => exact hweaken h.1

theorem Shape.waits {r r' : Sandbox} (h : Shape settings (some r) container)
    (hst : r'.status ∈ startable) (hexp : r'.expiresAt = r.expiresAt) :
    Shape settings (some r') container where
  status r₁ hr₁ := by
    cases hr₁
    rw [mem_wanted, (mem_startable _).mp hst]
    exact Nat.zero_le 1
  running r₁ hr₁ hrun := by
    cases hr₁
    rw [hrun] at hst
    cases (mem_startable _).mp hst
  labelled c hc := by
    obtain ⟨r₁, hr₁, hlabel, hport⟩ := h.labelled c hc
    cases hr₁
    exact ⟨r', rfl, hexp ▸ hlabel, hport⟩

theorem Shape.replaces {r : Sandbox} {container' : Option Container}
    (h : Shape settings (some r) container) (hst : r.status = .starting)
    (hc : ∀ c, container' = some c →
      c.expiresAt = labelExpiry r.expiresAt ∧ c.running = c.hostPort.isSome) :
    Shape settings (some r) container' where
  status := h.status
  running r₁ hr₁ hrun := by
    cases hr₁
    cases hst.symm.trans hrun
  labelled c hc' := ⟨r, rfl, hc c hc'⟩

/-! ## One call of the delivery -/

theorem ContainerChange.of_writes {q : Request} {r : Sandbox} {v : Values} {y : Option Container}
    (h : ContainerChange w q sid y) (hw : q.writes r = some v) : y = w.container sid := by
  cases h with
  | same => rfl
  | removed cause => rcases cause with rfl | ⟨n, rfl⟩ <;> cases hw
  | created t isCreate => subst isCreate; cases hw
  | started n port c isStart => subst isStart; cases hw

theorem shape_wrote {r : Sandbox} {v : Values} {now : Time}
    (h : Shape settings (some r) container) (hfits : d.pc.Fits settings (some r) container)
    (hwrites : d.request.writes r = some v) (hwanted : v.status ∈ wanted) :
    Shape settings (some (v.apply now r)) container := by
  cases @Proc.writes_of (.start d) r v hwrites with
  | expire => exact absurd hwanted (by simp [wanted])
  | fail => exact absurd hwanted (by simp [wanted])
  | pickUp => exact h.waits (by simp [startable]) rfl
  | retry => exact h.waits (by simp [startable]) rfl
  | succeed =>
    obtain ⟨-, c, p, hc, hrun, hport, rfl⟩ := hfits
    refine ⟨fun r₁ hr₁ => ?_, fun r₁ hr₁ _ => ?_, fun c hc => ?_⟩
    · cases hr₁
      exact hwanted
    · cases hr₁
      exact ⟨rfl, c, p, hc, hrun, hport, rfl⟩
    · obtain ⟨r₁, hr₁, hlabel, hport⟩ := h.labelled c hc
      cases hr₁
      exact ⟨_, rfl, hlabel, hport⟩

theorem shape_contained {y : Option Container}
    (h : Shape settings (w.row d.sandboxId) (w.container d.sandboxId))
    (hfits : d.pc.Fits settings (w.row d.sandboxId) (w.container d.sandboxId))
    (hchange : ContainerChange w d.request d.sandboxId y) :
    Shape settings (w.row d.sandboxId) y := by
  obtain ⟨sid, i, pool, pc⟩ := d
  cases hchange with
  | same => exact h
  | removed cause =>
    have hsec : pc.section = true := by
      cases pc <;> simp [StartSandbox.request] at cause <;> rfl
    obtain ⟨r, hr, hst⟩ := hfits.starting hsec
    rw [hr] at h ⊢
    exact h.replaces hst fun c hc => by cases hc
  | created t isCreate absent =>
    cases pc <;> simp only [StartSandbox.request, Request.create.injEq, reduceCtorEq] at isCreate
    obtain ⟨-, rfl⟩ := isCreate
    obtain ⟨⟨r, hr, hst, hexp⟩, -⟩ := hfits
    have hr : w.row sid = some r := hr
    rw [hr] at h ⊢
    refine h.replaces hst fun c hc => ?_
    cases hc
    exact ⟨congrArg labelExpiry hexp, rfl⟩
  | started n port c isStart found =>
    cases pc <;> simp only [StartSandbox.request, Request.startObject.injEq, reduceCtorEq] at isStart
    obtain ⟨⟨r, hr, hst, -⟩, -⟩ := hfits
    have hr : w.row sid = some r := hr
    obtain ⟨r₁, hr₁, hlabel, -⟩ := h.labelled c found
    rw [hr] at h hr₁ ⊢
    cases hr₁
    refine h.replaces hst fun c' hc' => ?_
    cases hc'
    exact ⟨hlabel, rfl⟩

theorem shape_own (h : Shape settings (w.row d.sandboxId) (w.container d.sandboxId))
    (hfits : d.pc.Fits settings (w.row d.sandboxId) (w.container d.sandboxId))
    (hwrites : how.effect = true → ∀ r v, w.row d.sandboxId = some r →
      d.request.writes r = some v → v.status ∈ wanted) :
    Shape settings ((w.after .startSandbox how choice d.request).row d.sandboxId)
      ((w.after .startSandbox how choice d.request).container d.sandboxId) := by
  unfold World.after
  split
  · rename_i heffect
    have hrow := rowChange_perform w .startSandbox choice d.request d.sandboxId
    have hcontainer := containerChange_perform w .startSandbox choice d.request d.sandboxId
    generalize (w.perform .startSandbox choice d.request).1.row d.sandboxId = x at hrow ⊢
    generalize (w.perform .startSandbox choice d.request).1.container d.sandboxId = y at hcontainer ⊢
    cases hrow with
    | same => exact shape_contained h hfits hcontainer
    | wrote r v found writes =>
      rw [hcontainer.of_writes writes]
      rw [found] at h hfits
      exact shape_wrote h hfits writes (hwrites heffect r v found writes)
    | inserted r isInsert =>
      unfold StartSandbox.request at isInsert
      split at isInsert <;> cases isInsert
  · exact h

def Reply.breaks : Reply → Bool
  | .raised _ => true
  | .notFound => true
  | .port none => true
  | _ => false

theorem StartSandbox.breaks_of_resume {now : Time} {reply : Reply} {events : List Event}
    {reason : String}
    (h : d.resume settings now reply = some (events, .goto { d with pc := .discardBroken reason })) :
    reply.breaks = true ∨ ∃ r, d.pc = .conflict r := by
  unfold StartSandbox.resume at h
  split at h
  all_goals try split at h
  all_goals
    simp only [StartSandbox.launchFailed, afterDiscard, Option.some.injEq, Prod.mk.injEq,
      Next.goto.injEq, StartSandbox.mk.injEq, reduceCtorEq, and_false] at h
  all_goals try exact .inl rfl
  · exact .inr ⟨_, ‹d.pc = _›⟩
  · split at h <;> simp at h

theorem World.remove_found (actor : Actor) (choice : Choice) {c : Container}
    (h : w.container sid = some c) :
    w.perform actor choice (.removeObject sid c.objectId) = (w.removeContainer sid, .done) := by
  simp only [World.perform, World.object_of_container h]

theorem World.reload_found (actor : Actor) (choice : Choice) {c : Container}
    (h : w.container sid = some c) :
    w.perform actor choice (.reload sid c.objectId) = (w, .port c.hostPort) := by
  simp only [World.perform, World.object_of_container h]

theorem World.row_remove (w : World) (actor : Actor) (how : How) (choice : Choice) (id sid : Uuid) :
    (w.after actor how choice (.remove id)).row sid = w.row sid := by
  unfold World.after
  split <;> rfl

theorem fits_goes {pc : StartPc} (h : Shape settings (w.row d.sandboxId) (w.container d.sandboxId))
    (hfits : d.pc.Fits settings (w.row d.sandboxId) (w.container d.sandboxId))
    (lives : ∀ e r, how ≠ .killed e r)
    (goes : d.Goes settings d.pc (w.reply .startSandbox how choice d.request) pc) :
    pc.Fits settings ((w.after .startSandbox how choice d.request).row d.sandboxId)
      ((w.after .startSandbox how choice d.request).container d.sandboxId) := by
  obtain ⟨sid, i, pool, pc₀⟩ := d
  have hrow₀ : pc₀.launching = true →
      (w.after .startSandbox how choice (StartSandbox.request ⟨sid, i, pool, pc₀⟩)).row sid =
        w.row sid := fun hpc => StartSandbox.row_of_launching hpc w how choice sid
  have hbroken : pc₀.launching = true → ∃ r,
      (w.after .startSandbox how choice (StartSandbox.request ⟨sid, i, pool, pc₀⟩)).row sid = some r ∧
        r.status = .starting := by
    intro hpc
    rw [hrow₀ hpc]
    exact hfits.starting (by cases pc₀ <;> first | rfl | cases hpc)
  have hsame : (∀ e, w.reply .startSandbox how choice (StartSandbox.request ⟨sid, i, pool, pc₀⟩) ≠
      .raised e) → w.after .startSandbox how choice (StartSandbox.request ⟨sid, i, pool, pc₀⟩) =
        (w.perform .startSandbox choice (StartSandbox.request ⟨sid, i, pool, pc₀⟩)).1 ∧
      w.reply .startSandbox how choice (StartSandbox.request ⟨sid, i, pool, pc₀⟩) =
        (w.perform .startSandbox choice (StartSandbox.request ⟨sid, i, pool, pc₀⟩)).2 := by
    intro hne
    obtain ⟨hafter, hreply⟩ := World.after_of_reply lives rfl hne
    exact ⟨hafter, hreply.symm⟩
  generalize hq : w.reply _ how choice _ = reply at goes hsame
  cases goes with
  | launchFailed pc reply e launching => exact hbroken launching
  | startable r st =>
    obtain ⟨hafter, hreply⟩ := hsame (by simp)
    rw [hafter]
    exact ⟨r, (Reply.row.inj hreply).symm, rfl⟩
  | late => trivial
  | inTime r t ahead =>
    obtain ⟨hafter, -⟩ := hsame (by simp)
    rw [hafter]
    exact hfits
  | pickedUp r =>
    obtain ⟨r₁, hr₁, hexp⟩ := hfits
    obtain ⟨r₂, hr₂, -, hrow⟩ := World.changed_true lives hq
    cases hr₂.symm.trans hr₁
    exact ⟨_, hrow, rfl, hexp⟩
  | absent r =>
    obtain ⟨hafter, hreply⟩ := hsame (by simp)
    rw [hafter]
    refine ⟨hfits, ?_⟩
    simpa [StartSandbox.request, World.perform] using hreply.symm
  | reuse r n =>
    obtain ⟨hafter, hreply⟩ := hsame (by simp)
    rw [hafter]
    obtain ⟨c, hc, hn, -⟩ : ∃ c, w.container sid = some c ∧ c.objectId = n ∧ c.running = true := by
      simpa [StartSandbox.request, World.perform] using hreply.symm
    exact ⟨hfits, c, hc, hn⟩
  | leftover r n =>
    obtain ⟨hafter, hreply⟩ := hsame (by simp)
    rw [hafter]
    obtain ⟨c, hc, hn, -⟩ : ∃ c, w.container sid = some c ∧ c.objectId = n ∧ c.running = false := by
      simpa [StartSandbox.request, World.perform] using hreply.symm
    exact ⟨hfits, c, hc, hn⟩
  | cleared r n =>
    obtain ⟨hstarting, c, hc, rfl⟩ := hfits
    obtain ⟨hafter, -⟩ := hsame (by simp)
    rw [hafter, StartSandbox.request, World.remove_found _ _ hc]
    exact ⟨hstarting, (w.container_removeContainer ..).trans (if_pos rfl)⟩
  | created r n =>
    obtain ⟨hstarting, hnone⟩ := hfits
    obtain ⟨hafter, hreply⟩ := hsame (by simp)
    obtain ⟨hcreated, hc, hrow⟩ := World.create_absent .startSandbox choice
      r.expiresAt hnone
    cases hreply.trans hcreated
    rw [hafter]
    refine ⟨?_, _, hc, rfl⟩
    rw [StartSandbox.request, hrow]
    exact hstarting
  | raced r =>
    obtain ⟨-, hnone⟩ := hfits
    obtain ⟨-, hreply⟩ := hsame (by simp)
    obtain ⟨hcreated, -⟩ := World.create_absent .startSandbox choice
      r.expiresAt hnone
    cases hreply.trans hcreated
  | createRefused r e conflict =>
    rw [show StartPc.Fits settings _ _ (.conflict r) = Starting _ r from rfl, hrow₀ rfl]
    exact hfits.1
  | startRefused r n e conflict =>
    rw [show StartPc.Fits settings _ _ (.conflict r) = Starting _ r from rfl, hrow₀ rfl]
    exact hfits.1
  | reuseWinner r n b =>
    obtain ⟨hafter, hreply⟩ := hsame (by simp)
    rw [hafter]
    obtain ⟨c, hc, hn, -⟩ : ∃ c, w.container sid = some c ∧ c.objectId = n ∧ c.running = b := by
      simpa [StartSandbox.request, World.perform] using hreply.symm
    exact ⟨hfits, c, hc, hn⟩
  | started r n =>
    obtain ⟨hstarting, c, hc, rfl⟩ := hfits
    obtain ⟨hafter, -⟩ := hsame (by simp)
    obtain ⟨-, hstarted, hrow⟩ := World.start_found .startSandbox choice hc
    rw [hafter]
    refine ⟨?_, _, hstarted, rfl⟩
    rw [StartSandbox.request, hrow]
    exact hstarting
  | bound r n p =>
    obtain ⟨hstarting, c, hc, rfl⟩ := hfits
    obtain ⟨hafter, hreply⟩ := hsame (by simp)
    have hfound := World.reload_found .startSandbox choice hc
    have hport : c.hostPort = some p :=
      Reply.port.inj (hreply.trans (congrArg Prod.snd hfound)).symm
    obtain ⟨-, -, -, hrun⟩ := h.labelled c hc
    rw [hafter, StartSandbox.request, hfound]
    exact ⟨hstarting, c, hc, by simp [hrun, hport], hport⟩
  | ready r p =>
    obtain ⟨⟨r₁, hr₁, hst, -⟩, c, hc, hrun, hport⟩ := hfits
    obtain ⟨hafter, -⟩ := hsame (by simp)
    rw [hafter]
    exact ⟨⟨r₁, hr₁, hst⟩, c, p, hc, hrun, hport, rfl⟩
  | retrying reason reply discarded tries =>
    obtain ⟨r, hr, hst⟩ := hfits
    exact ⟨r, (w.row_remove ..).trans hr, hst⟩
  | failing reason reply discarded tries =>
    obtain ⟨r, hr, hst⟩ := hfits
    exact ⟨r, (w.row_remove ..).trans hr, hst⟩
  | unwanted r url =>
    obtain ⟨⟨r₁, hr₁, hst⟩, -⟩ := hfits
    exact absurd (by simp [hst]) (World.changed_false lives hq hr₁)

/-! ## Sweeps spare the sandbox -/

/-- The container, as a sweep lists it, has the label of its row. -/
def World.Labelled (w : World) (c : RuntimeSandbox) : Prop :=
  ∃ r, w.row c.sandboxId = some r ∧ c.expiresAt = labelExpiry r.expiresAt

def SweepPc.inHand : SweepPc → Option RuntimeSandbox
  | .remove _ c _ _ => some c
  | .settle _ c _ _ => some c
  | _ => none

/-- What a sweep has read and what it has left to do spare `sid`. -/
structure SweepPc.Spares (sid : Uuid) (w : World) (pc : SweepPc) : Prop where
  running : ∀ ids, pc = .list ids → sid ∈ ids → w.status sid = some .running
  candidates : (∀ ids, pc ≠ .list ids) → sid ∉ pc.candidates
  listed : ∀ ids cs, pc = .statuses ids cs → ∀ c ∈ cs, c.sandboxId = sid → w.Labelled c
  read : ∀ ids cs rows, pc = .clock ids cs rows → ∀ c ∈ cs, c.sandboxId = sid →
    w.Labelled c ∧ ∃ st ∈ wanted, rows.lookup c.sandboxId = some st
  view : ∀ v, pc.view = some v → ∀ c ∈ v.containers, c.sandboxId = sid → v.reason c = none
  left : ∀ v, pc.view = some v → ∀ c ∈ pc.left, c ∈ v.containers
  hand : ∀ c, pc.inHand = some c → c.sandboxId ≠ sid

theorem World.Labelled.forward {w' : World} {c : RuntimeSandbox} (h : w.Labelled c)
    (hf : RowsForward w w') : w'.Labelled c := by
  obtain ⟨r, hr, hlabel⟩ := h
  obtain ⟨r', hr', hr''⟩ := hf _ r hr
  exact ⟨r', hr', hlabel.trans (congrArg labelExpiry hr''.expiresAt.symm)⟩

theorem running_forward {w' : World} (h : w.status sid = some .running) (hf : RowsForward w w')
    (hwanted : ∀ r, w'.row sid = some r → r.status ∈ wanted) : w'.status sid = some .running := by
  obtain ⟨r, hr, hst⟩ := World.status_eq_some.mp h
  obtain ⟨r', hr', hr''⟩ := hf _ r hr
  refine World.status_eq_some.mpr ⟨r', hr', ?_⟩
  have hmem := hwanted r' hr'
  have hrank := hr''.rank
  rw [hst] at hrank
  cases h' : r'.status <;> simp_all [wanted, SandboxStatus.rank]

theorem SweepPc.Spares.forward {w' : World} {pc : SweepPc} (h : pc.Spares sid w)
    (hf : RowsForward w w') (hwanted : ∀ r, w'.row sid = some r → r.status ∈ wanted) :
    pc.Spares sid w' where
  running ids hpc hmem := running_forward (h.running ids hpc hmem) hf hwanted
  candidates := h.candidates
  listed ids cs hpc c hc hid := (h.listed ids cs hpc c hc hid).forward hf
  read ids cs rows hpc c hc hid := (h.read ids cs rows hpc c hc hid).imp_left fun hl => hl.forward hf
  view := h.view
  left := h.left
  hand := h.hand

theorem nextMissing_inHand (v : Snapshot) (l : List Uuid) :
    (ReconcileSandboxes.nextMissing v l).inHand = none := by
  cases l <;> rfl

theorem spares_of_view {pc : SweepPc} {v : Snapshot} (hview : pc.view = some v)
    (hcandidates : sid ∉ pc.candidates)
    (hv : ∀ c ∈ v.containers, c.sandboxId = sid → v.reason c = none)
    (hleft : ∀ c ∈ pc.left, c ∈ v.containers) (hhand : ∀ c, pc.inHand = some c → c.sandboxId ≠ sid) :
    pc.Spares sid w where
  running ids hpc := by
    subst hpc
    cases hview
  candidates _ := hcandidates
  listed ids cs hpc := by
    subst hpc
    cases hview
  read ids cs rows hpc := by
    subst hpc
    cases hview
  view v' hv' := by
    cases hview.symm.trans hv'
    exact hv
  left v' hv' := by
    cases hview.symm.trans hv'
    exact hleft
  hand := hhand

theorem spares_nextMissing {v : Snapshot} (hv : ∀ c ∈ v.containers, c.sandboxId = sid → v.reason c = none)
    {l : List Uuid} (hl : sid ∉ l) : (ReconcileSandboxes.nextMissing v l).Spares sid w := by
  refine spares_of_view (nextMissing_view v l) ?_ hv (by simp [nextMissing_left])
    (by simp [nextMissing_inHand])
  rw [nextMissing_candidates]
  exact hl

theorem spares_nextContainer {v : Snapshot}
    (hv : ∀ c ∈ v.containers, c.sandboxId = sid → v.reason c = none) (hmissing : sid ∉ v.missing)
    {cs : List RuntimeSandbox} (hcs : ∀ c ∈ cs, c ∈ v.containers) :
    (ReconcileSandboxes.nextContainer v cs).Spares sid w := by
  rcases nextContainer_cases v cs with ⟨hnext, -⟩ | ⟨_, c, reason, rest, rfl, -, hreason, hnext⟩
  · rw [hnext]
    exact spares_nextMissing hv hmissing
  · rw [hnext]
    refine spares_of_view rfl hmissing hv (fun c' hc' => hcs c' (List.mem_append_right _ hc'))
      fun c' hc' hid => ?_
    cases hc'
    cases hreason.symm.trans (hv c (hcs c (by simp)) hid)

theorem spares_goes {p p' : ReconcileSandboxes} (h : Shape settings (w.row sid) (w.container sid))
    (hp : p.pc.Spares sid w) (lives : ∀ e r, how ≠ .killed e r)
    (hclock : ∀ ids cs rows r, p.pc = .clock ids cs rows → w.row sid = some r →
      w.now < labelExpiry r.expiresAt)
    (goes : p.Goes (w.reply .reconcileSandboxes how choice p.request) p') : p'.pc.Spares sid w := by
  have hcandidates : (∀ ids, p'.pc ≠ .list ids) → sid ∉ p'.pc.candidates := by
    intro hpc hmem
    rcases ReconcileSandboxes.candidates_of_goes goes hpc hmem with
      ⟨ids, cs, hlist, hreply, hids, hnot⟩ | ⟨hpc₀, hmem₀⟩
    · obtain ⟨r, hr, hst⟩ := World.status_eq_some.mp (hp.running ids hlist hids)
      obtain ⟨-, c, port, hc, -⟩ := h.running r hr hst
      have hreq : p.request = .listSandboxes := by simp [ReconcileSandboxes.request, hlist]
      rw [hreq] at hreply
      obtain ⟨-, hreply⟩ := World.after_of_reply lives hreply (by simp)
      exact hnot (World.listed_of_isSome hreply (by simp [hc]))
    · exact hp.candidates hpc₀ hmem₀
  generalize hq : w.reply _ how choice _ = reply at goes
  cases goes with
  | snapshot n ids =>
    refine ⟨fun ids' hpc hmem => ?_, hcandidates, fun _ _ h => (by cases h), fun _ _ _ h => (by cases h),
      fun _ h => (by cases h), fun _ h => (by cases h), fun _ h => (by cases h)⟩
    cases hpc
    obtain ⟨-, hreply⟩ := World.after_of_reply lives hq (by simp)
    exact World.mem_runningIds_iff.mp (World.selectRunning_sub hreply hmem)
  | listed n ids cs =>
    obtain ⟨-, hreply⟩ := World.after_of_reply lives hq (by simp)
    have hcs : w.containers.rows.map Container.seen = cs := by
      simpa [ReconcileSandboxes.request, World.perform] using hreply
    refine ⟨fun _ h => (by cases h), hcandidates, fun ids' cs' hpc c hmem hid => ?_,
      fun _ _ _ h => (by cases h), fun _ h => (by cases h), fun _ h => (by cases h),
      fun _ h => (by cases h)⟩
    cases hpc
    rw [← hcs] at hmem
    obtain ⟨c', hc', rfl⟩ := List.mem_map.mp hmem
    have hid' : c'.sandboxId = sid := hid
    obtain ⟨r, hr, hlabel, -⟩ := h.labelled c' (hid' ▸ World.mem_containers_iff.mp hc')
    exact ⟨r, by rw [hid]; exact hr, hlabel⟩
  | read n ids cs rows =>
    obtain ⟨-, hreply⟩ := World.after_of_reply lives hq (by simp)
    have hrows : (w.sandboxes.rows.filter fun r =>
        decide (r.id ∈ cs.map (·.sandboxId))).map (fun r => (r.id, r.status)) = rows := by
      simpa [ReconcileSandboxes.request, World.perform] using hreply
    refine ⟨fun _ h => (by cases h), hcandidates, fun _ _ h => (by cases h),
      fun ids' cs' rows' hpc c hmem hid => ?_, fun _ h => (by cases h), fun _ h => (by cases h),
      fun _ h => (by cases h)⟩
    cases hpc
    obtain ⟨r, hr, hlabel⟩ := hp.listed ids cs rfl c hmem hid
    refine ⟨⟨r, hr, hlabel⟩, r.status, h.status r (hid ▸ hr), ?_⟩
    rw [← hrows, lookup_rows w _ _ (List.mem_map_of_mem hmem)]
    exact World.status_eq_some.mpr ⟨r, hr, rfl⟩
  | clocked n ids cs rows now =>
    obtain ⟨-, hreply⟩ := World.after_of_reply lives hq (by simp)
    obtain rfl : w.now = now := by simpa [ReconcileSandboxes.request, World.perform] using hreply
    refine spares_nextContainer (fun c hmem hid => ?_) (hp.candidates (by simp)) fun c hc => hc
    obtain ⟨⟨r, hr, hlabel⟩, st, hst, hlook⟩ := hp.read ids cs rows rfl c hmem hid
    have hahead := hclock ids cs rows r rfl (hid ▸ hr)
    have hnot : st ∉ noContainerWanted := by
      rw [mem_wanted] at hst
      rw [mem_noContainerWanted]
      omega
    have hlook : Snapshot.status ⟨ids, cs, rows, w.now⟩ c.sandboxId = some st := hlook
    simp only [Snapshot.reason, hlabel, if_neg (Int.not_le.mpr hahead), hlook, if_neg hnot]
  | removed n v c reason rest b =>
    exact spares_of_view rfl (hp.candidates (by simp)) (hp.view v rfl)
      (fun c' hc' => hp.left v rfl c' (List.mem_cons_of_mem _ hc')) fun c' hc' => hp.hand c' hc'
  | settled n v c reason rest b =>
    exact spares_nextContainer (hp.view v rfl) (hp.candidates (by simp)) (hp.left v rfl)
  | vanished n v id rest =>
    exact spares_nextMissing (hp.view v rfl) fun hmem =>
      hp.candidates (by simp) (List.mem_cons_of_mem _ hmem)
  | kept n v id rest =>
    exact spares_nextMissing (hp.view v rfl) fun hmem =>
      hp.candidates (by simp) (List.mem_cons_of_mem _ hmem)

/-! ## One step -/

theorem Proc.start_of_startObject {proc : Proc} {n : Nat} (h : proc.request = .startObject sid n) :
    ∃ d, proc = .start d ∧ d.sandboxId = sid := by
  cases Proc.asks_of h with
  | startObject => exact ⟨_, rfl, rfl⟩

def Proc.givesUp : Proc → Bool
  | .start ⟨_, _, _, .fail _⟩ => true
  | _ => false

/-- The deliveries of `sid` do not overlap, its container is not lost to anything outside,
sweeps read the clock before the expiry on its label, and no call that takes effect, but for the
last one of a delivery that is out of tries, takes its row out of `queued`, `starting` and
`running`. -/
def crashes (sid : Uuid) (s : State) : Action → Bool
  | .deliver _ job =>
    decide (job.task = .stopSandbox) || decide (job.sandboxId ≠ sid) ||
      s.procs.rows.all fun e => !e.2.startsOf sid
  | .redeliver _ job =>
    decide (job.task = .stopSandbox) || decide (job.sandboxId ≠ sid) ||
      s.procs.rows.all fun e => !e.2.startsOf sid
  | .die id => decide (id ≠ sid)
  | .exit id => decide (id ≠ sid)
  | .await pid how _ =>
    match s.proc pid, s.world.row sid with
    | some (.sweep ⟨_, .clock _ _ _⟩), some r => decide (s.world.now < labelExpiry r.expiresAt)
    | some (.sweep _), _ => true
    | some proc, some r => proc.givesUp ||
      !how.effect || (proc.request.writes r).all fun v => decide (v.status ∈ wanted)
    | _, _ => true
  | _ => true

/-- No delivery of `sid` in flight is about to fail it for good. -/
def State.Unfailing (sid : Uuid) (s : State) : Prop :=
  ∀ p d, s.proc p = some (.start d) → d.sandboxId = sid → (Proc.start d).givesUp = false

structure Repairable (settings : Settings) (sid : Uuid) (s : State) : Prop where
  shape : Shape settings (s.world.row sid) (s.world.container sid)
  sole : StartSole sid s
  starts : ∀ p d, s.proc p = some (.start d) → d.sandboxId = sid →
    d.pc.Fits settings (s.world.row sid) (s.world.container sid)
  sweeps : ∀ p q, s.proc p = some (.sweep q) → q.pc.Spares sid s.world

variable {s t : State} {a : Action}

theorem repairable_init (now : Time) (containers : Containers) (nextObject : Nat)
    (foreign : containers.find? sid = none) :
    Repairable settings sid (State.init now containers nextObject) where
  shape := ⟨fun _ h => (by cases h), fun _ h => (by cases h), fun c hc => by
    cases foreign.symm.trans hc⟩
  sole _ _ _ _ h := by cases h
  starts _ _ h := by cases h
  sweeps _ _ h := by cases h

theorem Repairable.container_spared (hk : Provenance s) (hs : Repairable settings sid s) {pid : Nat}
    {proc : Proc} (hp : s.proc pid = some proc) (hother : proc.startsOf sid = false) (how : How)
    (choice : Choice) : (s.worldAfter proc how choice).container sid = s.world.container sid := by
  have hchange : ContainerChange s.world proc.request sid ((s.worldAfter proc how choice).container sid) :=
    containerChange_after ..
  generalize (s.worldAfter proc how choice).container sid = y at hchange ⊢
  cases hchange with
  | same => rfl
  | removed cause =>
    have hremoves := Proc.removes_of_request cause
    unfold Proc.removes at hremoves
    split at hremoves
    · split at hremoves
      · cases hremoves
        simp [Proc.startsOf] at hother
      · cases hremoves
    · split at hremoves
      · cases hremoves
        obtain ⟨r, hr, hrank⟩ := hk.procs pid _ hp
        have := hs.shape.status r hr
        rw [mem_wanted] at this
        omega
      · cases hremoves
    · cases hremoves
      exact absurd rfl ((hs.sweeps pid _ hp).hand _ rfl)
    · cases hremoves
  | created time isCreate =>
    obtain ⟨d, rfl, rfl, -⟩ := Proc.start_of_create isCreate
    simp [Proc.startsOf] at hother
  | started n port c isStart =>
    obtain ⟨d, rfl, rfl⟩ := Proc.start_of_startObject isStart
    simp [Proc.startsOf] at hother

theorem wanted_of_crashes {pid : Nat} {proc : Proc} {r : Sandbox} {v : Values}
    (ha : crashes sid s (.await pid how choice) = true) (hp : s.proc pid = some proc)
    (hsweep : proc.isSweep = false) (hfail : proc.givesUp = false) (heffect : how.effect = true) (hr : s.world.row sid = some r)
    (hw : proc.request.writes r = some v) : v.status ∈ wanted := by
  cases proc with
  | sweep p => cases hsweep
  | _ => simpa [crashes, hp, hr, heffect, hw, hfail] using ha

theorem SweepPc.Spares.not_writes {n : Reaped} {pc : SweepPc} {r : Sandbox} {v : Values}
    (h : pc.Spares sid w) (hr : w.row sid = some r) (hst : r.status ∈ wanted)
    (hw : (ReconcileSandboxes.request ⟨n, pc⟩).writes r = some v) : False := by
  have hid := World.row_id hr
  cases @Proc.writes_of (.sweep ⟨n, pc⟩) r v hw with
  | settle n view c reason rest hc => exact h.hand _ rfl (hc.symm.trans hid)
  | vanish =>
    refine h.candidates (by simp) ?_
    rw [← hid]
    exact List.mem_cons_self
  | finishStops n view hstopping =>
    rw [hstopping] at hst
    exact absurd hst (by decide)

/-- A call of a handler other than a delivery of `sid` leaves its row alone, or is its
insert. -/
theorem Repairable.row_spared (hk : Provenance s) (hs : Repairable settings sid s) {pid : Nat}
    {proc : Proc} (hp : s.proc pid = some proc) (hother : proc.startsOf sid = false)
    (ha : crashes sid s (.await pid how choice) = true) :
    (s.worldAfter proc how choice).row sid = s.world.row sid ∨
      s.world.row sid = none ∧
        ∃ r, (s.worldAfter proc how choice).row sid = some r ∧ r.status = .queued := by
  by_cases heffect : how.effect = true
  · have hchange : RowChange s.world proc.request sid ((s.worldAfter proc how choice).row sid) :=
      rowChange_after ..
    generalize (s.worldAfter proc how choice).row sid = x at hchange ⊢
    cases hchange with
    | same => exact .inl rfl
    | inserted r isInsert id absent =>
      obtain ⟨c, -, -, -, hst, -⟩ := Proc.drafted_of_insert (hk.procs pid proc hp) isInsert
      exact .inr ⟨absent, _, rfl, hst⟩
    | wrote r v found writes =>
      exfalso
      have hmoves := Proc.writes_moves writes
      have hwanted := fun hsweep hfail => wanted_of_crashes ha hp hsweep hfail heffect found writes
      cases proc with
      | create c =>
        have hmem := hwanted rfl rfl
        simp only [Proc.actor, moves, decide_eq_true_eq] at hmoves
        rw [hmoves] at hmem
        exact absurd hmem (by decide)
      | delete d =>
        have hmem := hwanted rfl rfl
        simp only [Proc.actor, moves, Bool.and_eq_true, decide_eq_true_eq] at hmoves
        rw [hmoves.2] at hmem
        exact absurd hmem (by decide)
      | put p => cases hmoves
      | start d =>
        have hid : r.id = d.sandboxId := by cases Proc.writes_of writes <;> rfl
        simp [Proc.startsOf, ← hid, World.row_id found] at hother
      | stop d =>
        have hmem := hwanted rfl rfl
        simp only [Proc.actor, moves, Bool.and_eq_true, decide_eq_true_eq] at hmoves
        rw [hmoves.2] at hmem
        exact absurd hmem (by decide)
      | sweep p => exact (hs.sweeps pid p hp).not_writes found (hs.shape.status r found) writes
  · left
    rw [State.worldAfter, World.after, if_neg heffect]

theorem Stepped.untouched (h : Stepped settings s t a) (ha : crashes sid s a = true)
    (hother : ∀ pid how choice, a ≠ .await pid how choice) :
    t.world.row sid = s.world.row sid ∧ t.world.container sid = s.world.container sid := by
  refine ⟨(h.row sid).resolve_right fun ⟨pid, how, choice, proc, he, _⟩ => hother _ _ _ he, ?_⟩
  cases h with
  | tick now later result => subst result; rfl
  | spawned pid proc world drawn spawn absent world_eq =>
    rw [world_eq]
    cases spawn <;> rfl
  | dropped pid job queued tries result => subst result; rfl
  | died id c found result =>
    subst result
    have hid : id ≠ sid := by simpa [crashes] using ha
    exact (s.world.container_removeContainer id sid).trans (if_neg hid)
  | exited id c found result =>
    subst result
    have hid : id ≠ sid := by simpa [crashes] using ha
    rw [World.container_setContainer]
    cases hc : s.world.container sid with
    | none => rfl
    | some d =>
      have hne : d.sandboxId ≠ c.sandboxId := by
        rw [World.container_id hc, World.container_id found]
        exact Ne.symm hid
      rw [Option.map_some, if_neg hne]
  | resumed pid how choice => exact absurd rfl (hother pid how choice)
  | ended pid how choice => exact absurd rfl (hother pid how choice)
  | killed pid e q choice => exact absurd rfl (hother pid _ choice)

theorem Repairable.outside (hk : Provenance s) (hs : Repairable settings sid s)
    (ha : crashes sid s a = true) (h : Stepped settings s t a)
    (hother : ∀ pid how choice d, a = .await pid how choice → s.proc pid = some (.start d) →
      d.sandboxId ≠ sid) :
    (t.world.row sid = s.world.row sid ∨
      s.world.row sid = none ∧ ∃ r, t.world.row sid = some r ∧ r.status = .queued) ∧
    t.world.container sid = s.world.container sid := by
  by_cases hawait : ∃ pid how choice, a = .await pid how choice
  · obtain ⟨pid, how, choice, rfl⟩ := hawait
    obtain ⟨proc, hp⟩ := h.awaited
    have hstarts : proc.startsOf sid = false := by
      rw [Bool.eq_false_iff]
      intro hstarts
      obtain ⟨d, rfl, hid⟩ := Proc.startsOf_iff.mp hstarts
      exact hother pid how choice d rfl hp hid
    obtain ⟨hrow, hcontainer⟩ := h.called hp
    rw [hrow, hcontainer]
    exact ⟨hs.row_spared hk hp hstarts ha, hs.container_spared hk hp hstarts how choice⟩
  · obtain ⟨hrow, hcontainer⟩ := h.untouched ha fun pid how choice he => hawait ⟨_, _, _, he⟩
    exact ⟨.inl hrow, hcontainer⟩

theorem shape_step (hk : Provenance s) (hs : Repairable settings sid s) (ha : crashes sid s a = true)
    (hfail : s.Unfailing sid) (h : Stepped settings s t a) : Shape settings (t.world.row sid) (t.world.container sid) := by
  by_cases hown : ∃ pid how choice d, a = .await pid how choice ∧ s.proc pid = some (.start d) ∧
      d.sandboxId = sid
  · obtain ⟨pid, how, choice, d, rfl, hp, rfl⟩ := hown
    obtain ⟨hrow, hcontainer⟩ := h.called hp
    rw [hrow, hcontainer]
    refine shape_own hs.shape (hs.starts pid d hp rfl) fun heffect r v hr hw => ?_
    exact wanted_of_crashes ha hp rfl (hfail pid d hp rfl) heffect hr hw
  · obtain ⟨hrow, hcontainer⟩ := hs.outside hk ha h fun pid how choice d ha' hp hid =>
      hown ⟨pid, how, choice, d, ha', hp, hid⟩
    rw [hcontainer]
    rcases hrow with hsame | ⟨hnone, r, hr, hst⟩
    · rw [hsame]
      exact hs.shape
    · rw [hr]
      refine ⟨fun r₁ hr₁ => ?_, fun r₁ hr₁ hrun => ?_, fun c hc => ?_⟩
      · cases hr₁
        rw [hst]
        decide
      · cases hr₁
        cases hst.symm.trans hrun
      · obtain ⟨r₁, hr₁, -⟩ := hs.shape.labelled c hc
        cases hnone.symm.trans hr₁

theorem repairable_step (hk : Provenance s) (hs : Repairable settings sid s)
    (ha : crashes sid s a = true) (hfail : s.Unfailing sid) (h : step settings s a = some t) :
    Repairable settings sid t := by
  have hst := stepped h
  have hshape := shape_step hk hs ha hfail hst
  refine ⟨hshape, startSole_of_alone hs.sole ?_ hst, fun p d hp hid => ?_, fun p q hp => ?_⟩
  · intro p job hjob htask hid
    rcases hjob with rfl | rfl <;> simpa [crashes, htask, hid] using ha
  · cases hst.came hp with
    | stayed found other =>
      obtain ⟨hrow, hcontainer⟩ := hs.outside hk ha hst fun pid how choice d' ha' hp' hid' => by
        obtain rfl := hs.sole pid p _ _ hp' found (Proc.startsOf_iff.mpr ⟨d', rfl, hid'⟩)
          (Proc.startsOf_iff.mpr ⟨d, rfl, hid⟩)
        exact other how choice ha'
      have hsame := hrow.resolve_right fun ⟨hnone, _⟩ => by
        have hreached : s.world.Reached d.sandboxId 0 := hk.procs p _ found
        obtain ⟨r, hr, -⟩ := hreached
        rw [hid] at hr
        cases hnone.symm.trans hr
      rw [hsame, hcontainer]
      exact hs.starts p d found hid
    | spawned world drawn spawn =>
      obtain ⟨job, -, -, rfl⟩ := spawn.of_start
      trivial
    | resumed how choice old events isAwait found lives goes world_eq =>
      obtain ⟨d₀, pc, rfl, rfl, hgoes⟩ := goes.of_start
      subst hid
      rw [world_eq, World.record_row, World.record_container]
      exact fits_goes hs.shape (hs.starts p d₀ found rfl) lives hgoes
  · cases hst.came hp with
    | stayed found => exact (hs.sweeps p q found).forward hst.forward hshape.status
    | spawned world drawn spawn =>
      obtain ⟨-, rfl⟩ := spawn.of_sweep
      exact ⟨fun _ h => (by cases h), fun _ h => (by cases h), fun _ _ h => (by cases h),
        fun _ _ _ h => (by cases h), fun _ h => (by cases h), fun _ h => (by cases h),
        fun _ h => (by cases h)⟩
    | resumed how choice old events isAwait found lives goes =>
      obtain ⟨q₀, rfl, hgoes⟩ := goes.of_sweep
      refine (spares_goes hs.shape (hs.sweeps p q₀ found) lives ?_ hgoes).forward hst.forward
        hshape.status
      intro ids cs rows r hpc hr
      obtain ⟨n, pc⟩ := q₀
      cases hpc
      subst isAwait
      simpa [crashes, found, hr] using ha

end SandboxOrchestrator
