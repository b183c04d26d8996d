import SandboxOrchestrator.Posting

/-!
# One sandbox for each idempotency key

With ids that are never drawn twice, an insert is refused only because its key is taken,
and rows are never deleted. So the replay after a lost insert finds the winner, and every
answer to the key is read off the same row.
-/

namespace SandboxOrchestrator

set_option autoImplicit false

/-! ## Fresh ids -/

structure FreshIds (s : State) : Prop where
  proc : ∀ p c, s.proc p = some (.create c) → c.sandboxId ∈ s.drawn
  row : ∀ sid r, s.world.row sid = some r → sid ∈ s.drawn
  unique : ∀ p q c d, s.proc p = some (.create c) → s.proc q = some (.create d) →
    c.sandboxId = d.sandboxId → p = q
  absent : ∀ p c, s.proc p = some (.create c) → c.committed = false →
    s.world.row c.sandboxId = none

theorem freshIds_init (now : Time) (containers : Containers) (nextObject : Nat) :
    FreshIds (State.init now containers nextObject) where
  proc _ _ h := by cases h
  row _ _ h := by cases h
  unique _ _ _ _ h := by cases h
  absent _ _ h := by cases h

theorem Came.create {settings : Settings} {s t : State} {a : Action} {p : Nat} {c : CreateSandbox}
    (h : Came settings s t a p (.create c)) :
    (∃ body key sid, a = .post p body key sid ∧ c = .start body key sid ∧ t.drawn = sid :: s.drawn) ∨
      ∃ c₀, s.proc p = some (.create c₀) ∧ c₀.sandboxId = c.sandboxId := by
  cases h with
  | stayed found => exact .inr ⟨c, found, rfl⟩
  | spawned world drawn spawn absent world_eq drawn_eq =>
    obtain ⟨body, key, sid, ha, hc, hd⟩ := spawn.of_create
    exact .inl ⟨body, key, sid, ha, hc, drawn_eq.trans hd⟩
  | resumed how choice old events isAwait found lives goes =>
    obtain ⟨c₀, pc, rfl, rfl, hgoes⟩ := goes.of_create
    exact .inr ⟨c₀, found, rfl⟩

theorem World.insert_refused {w : World} {actor : Actor} {how : How} {choice : Choice} {r : Sandbox}
    (lives : ∀ e r, how ≠ .killed e r)
    (h : w.reply actor how choice (.insert r) = .integrityError) :
    w.after actor how choice (.insert r) = w := by
  obtain ⟨hafter, hreply⟩ := World.after_of_reply lives h (by simp)
  rw [hafter]
  simp only [World.perform] at hreply ⊢
  split at hreply
  · cases hreply
  · rfl

theorem CreateSandbox.absent_goes {cap : Nat} {c : CreateSandbox} {w : World} {how : How}
    {choice : Choice} {pc : CreatePc} (hk : c.Known w)
    (hs : c.committed = false → w.row c.sandboxId = none) (lives : ∀ e r, how ≠ .killed e r)
    (h : c.Goes cap c.pc (w.reply .createSandbox how choice c.request) pc)
    (hpc : ({ c with pc := pc } : CreateSandbox).committed = false) :
    (w.after .createSandbox how choice c.request).row c.sandboxId = none := by
  generalize hq : w.reply _ how choice _ = reply at h
  have hnone : w.row c.sandboxId = none := by
    refine hs ?_
    clear hq hk hs
    obtain ⟨body, key, sid, pc₀⟩ := c
    cases h with
    | enqueueFailed => cases hpc
    | _ => rfl
  have hchange := rowChange_after w .createSandbox how choice c.request c.sandboxId
  generalize hx : (w.after .createSandbox how choice c.request).row c.sandboxId = x at hchange
  cases hchange with
  | same => exact hnone
  | wrote r v found => cases hnone.symm.trans found
  | inserted r isInsert id absent =>
    have hk : (Proc.create c).Known w := hk
    obtain ⟨c', hc', hpc', -⟩ := Proc.drafted_of_insert hk isInsert
    cases hc'
    rw [hpc'] at h
    cases h with
    | inserted => cases hpc
    | lost =>
      rw [isInsert] at hq hx
      rw [World.insert_refused lives hq, hnone] at hx
      cases hx

section

variable {settings : Settings} {s t : State} {a : Action}

theorem FreshIds.proc_step (hs : FreshIds s) (hst : Stepped settings s t a) {p : Nat}
    {c : CreateSandbox} (hp : t.proc p = some (.create c)) : c.sandboxId ∈ t.drawn := by
  rcases (hst.came hp).create with ⟨body, key, sid, -, rfl, hd⟩ | ⟨c₀, hc₀, hid⟩
  · exact hd ▸ List.mem_cons_self
  · exact hid ▸ hst.drawn_mono (hs.proc p c₀ hc₀)

theorem FreshIds.row_step (hs : FreshIds s) (hk : Provenance s) (hst : Stepped settings s t a)
    {sid : Uuid} {r : Sandbox} (hr : t.world.row sid = some r) : sid ∈ t.drawn := by
  rcases hst.row sid with hsame | ⟨pid, how, choice, proc, -, found, hchange⟩
  · exact hst.drawn_mono (hs.row sid r (hsame ▸ hr))
  · generalize hx : t.world.row sid = x at hchange
    cases hchange with
    | same => exact hst.drawn_mono (hs.row sid r (hx ▸ hr))
    | wrote r' v found' => exact hst.drawn_mono (hs.row sid r' found')
    | inserted r' isInsert id absent =>
      obtain ⟨c, rfl, -, hid, -⟩ := Proc.drafted_of_insert (hk.procs pid proc found) isInsert
      rw [← id, hid]
      exact hst.drawn_mono (hs.proc pid c found)

theorem FreshIds.unique_step (hs : FreshIds s) (hf : Fresh s a t) (hst : Stepped settings s t a)
    {p q : Nat} {c d : CreateSandbox} (hp : t.proc p = some (.create c))
    (hq : t.proc q = some (.create d)) (hid : c.sandboxId = d.sandboxId) : p = q := by
  rcases (hst.came hp).create with ⟨body, key, sid, rfl, rfl, -⟩ | ⟨c₀, hc₀, hcid⟩ <;>
  rcases (hst.came hq).create with ⟨body', key', sid', ha, rfl, -⟩ | ⟨d₀, hd₀, hdid⟩
  · cases ha; rfl
  · have hdrawn := hs.proc q d₀ hd₀
    rw [hdid, ← hid] at hdrawn
    exact absurd hdrawn hf.not_drawn
  · subst ha
    have hdrawn := hs.proc p c₀ hc₀
    rw [hcid, hid] at hdrawn
    exact absurd hdrawn hf.not_drawn
  · exact hs.unique p q c₀ d₀ hc₀ hd₀ (hcid.trans (hid.trans hdid.symm))

theorem FreshIds.absent_step (hs : FreshIds s) (hk : Provenance s) (hf : Fresh s a t)
    (hst : Stepped settings s t a) {p : Nat} {c : CreateSandbox} (hp : t.proc p = some (.create c))
    (hc : c.committed = false) : t.world.row c.sandboxId = none := by
  cases hst.came hp with
  | stayed found other =>
    have hnone := hs.absent p c found hc
    rcases hst.row c.sandboxId with hsame | ⟨q, how, choice, proc, ha, hq, hchange⟩
    · exact hsame.trans hnone
    · generalize t.world.row c.sandboxId = x at hchange
      cases hchange with
      | same => exact hnone
      | wrote r v found' => cases hnone.symm.trans found'
      | inserted r isInsert id =>
        obtain ⟨d, rfl, -, hid, -⟩ := Proc.drafted_of_insert (hk.procs q proc hq) isInsert
        obtain rfl := hs.unique p q c d found hq (id.symm.trans hid)
        exact absurd ha (other _ _)
  | spawned world drawn spawn absent world_eq =>
    obtain ⟨body, key, sid, rfl, rfl, -⟩ := spawn.of_create
    rcases hst.row sid with hsame | ⟨q, how, choice, proc, ha, -⟩
    · cases hr : s.world.row sid with
      | none => exact hsame.trans hr
      | some r => exact absurd (hs.row sid r hr) hf.not_drawn
    · cases ha
  | resumed how choice old events isAwait found lives goes world_eq =>
    obtain ⟨c₀, pc, rfl, rfl, hgoes⟩ := goes.of_create
    rw [world_eq]
    exact CreateSandbox.absent_goes (hk.procs p _ found) (hs.absent p c₀ found) lives hgoes hc

theorem freshIds_step (hk : Provenance s) (hs : FreshIds s) (hf : Fresh s a t)
    (h : step settings s a = some t) : FreshIds t where
  proc _ _ hp := hs.proc_step (stepped h) hp
  row _ _ hr := hs.row_step hk (stepped h) hr
  unique _ _ _ _ hp hq hid := hs.unique_step hf (stepped h) hp hq hid
  absent _ _ hp hc := hs.absent_step hk hf (stepped h) hp hc

end

/-! ## Answers -/

def AnswerFor (w : World) (key : IdempotencyKey) (a : SandboxAccepted) : Prop :=
  ∃ r, w.row a.sandboxId = some r ∧ r.idempotencyKey = some key ∧
    a.jobId = sandboxJobId .startSandbox a.sandboxId ∧ a.type = r.type ∧
    a.deployment = r.deployment ∧ a.expiresAt = r.expiresAt

structure Answered (s : State) : Prop where
  accepted : ∀ key sid a, .created (some key) sid (.answered (.accepted a)) ∈ s.world.log →
    AnswerFor s.world key a
  noRaise : ∀ key sid, .created (some key) sid .integrityError ∉ s.world.log

theorem answered_init (now : Time) (containers : Containers) (nextObject : Nat) :
    Answered (State.init now containers nextObject) where
  accepted _ _ _ h := by cases h
  noRaise _ _ h := by cases h

theorem AnswerFor.forward {w w' : World} {key : IdempotencyKey} {a : SandboxAccepted}
    (h : AnswerFor w key a) (hf : RowsForward w w') : AnswerFor w' key a := by
  obtain ⟨r, hr, hk, hj, ht, hd, he⟩ := h
  obtain ⟨r', hr', hfr⟩ := hf _ _ hr
  exact ⟨r', hr', hfr.key.trans hk, hj, ht.trans hfr.type.symm, hd.trans hfr.deployment.symm,
    he.trans hfr.expiresAt.symm⟩

theorem World.row_of_replay {w : World} {actor : Actor} {how : How} {choice : Choice}
    {key : IdempotencyKey} {x : Option Sandbox} (lives : ∀ e r, how ≠ .killed e r)
    (h : w.reply actor how choice (.replay key) = .row x) :
    (∀ r, x = some r → w.row r.id = some r ∧ r.idempotencyKey = some key) ∧
      (x = none → ∀ r, w.row r.id = some r → r.idempotencyKey ≠ some key) := by
  obtain ⟨-, hreply⟩ := World.after_of_reply lives h (by simp)
  simp only [World.perform, Reply.row.injEq] at hreply
  refine ⟨fun r hr => ?_, fun hx r hr hk => ?_⟩
  · obtain ⟨hmem, hkey⟩ := (KeyedTable.findAlt?_eq_some_iff _).mp (hreply.trans hr)
    exact ⟨World.mem_rows_iff.mp hmem, hkey⟩
  · exact (KeyedTable.findAlt?_eq_none_iff _).mp (hreply.trans hx) r (World.mem_rows_iff.mpr hr) hk

theorem answerFor_accepted {w : World} {key : IdempotencyKey} {r : Sandbox} {replayed : Bool}
    (hr : w.row r.id = some r) (hk : r.idempotencyKey = some key) :
    AnswerFor w key (accepted r replayed) := ⟨r, hr, hk, rfl, rfl, rfl, rfl⟩

theorem CreateSandbox.answer_of_ends {cap : Nat} {c : CreateSandbox} {w : World} {how : How}
    {choice : Choice} {outcome : End} {key : IdempotencyKey} (hkey : c.key = some key)
    (hk : c.Known w) (habsent : c.committed = false → w.row c.sandboxId = none)
    (lives : ∀ e r, how ≠ .killed e r)
    (h : c.Ends cap c.pc (w.reply .createSandbox how choice c.request) outcome) :
    outcome ≠ .integrityError ∧
      ∀ a, outcome = .answered (.accepted a) → AnswerFor w key a := by
  generalize hq : w.reply _ how choice _ = reply at h
  obtain ⟨body, _, sid, pc⟩ := c
  obtain rfl := hkey
  cases h with
  | replayed r =>
    refine ⟨by simp, fun a ha => ?_⟩
    cases ha
    obtain ⟨hr, hkr⟩ := (World.row_of_replay lives hq).1 r rfl
    exact answerFor_accepted hr hkr
  | replayedWinner r =>
    refine ⟨by simp, fun a ha => ?_⟩
    cases ha
    obtain ⟨hr, hkr⟩ := (World.row_of_replay lives hq).1 r rfl
    exact answerFor_accepted hr hkr
  | taken r keyless => cases keyless
  | noWinner =>
    exfalso
    rcases hk.2 with hsome | ⟨key', r, hck, hr, hkr⟩
    · rw [habsent rfl] at hsome
      cases hsome
    · cases hck
      exact (World.row_of_replay lives hq).2 rfl r hr hkr
  | enqueued r b =>
    refine ⟨by simp, fun a ha => ?_⟩
    cases ha
    obtain ⟨⟨-, -, hkr⟩, r', hr', ht, hd, he, hkr'⟩ := hk
    exact ⟨r', hr', hkr'.trans hkr, rfl, ht.symm, hd.symm, he.symm⟩
  | _ => simp

theorem answered_step {settings : Settings} {s t : State} {a : Action} (hk : Provenance s)
    (hi : FreshIds s) (hs : Answered s) (h : step settings s a = some t) : Answered t := by
  have hst := stepped h
  have hnew : ∀ key sid outcome, .created (some key) sid outcome ∈ t.world.log →
      .created (some key) sid outcome ∈ s.world.log ∨
        outcome ≠ .integrityError ∧
          ∀ b, outcome = .answered (.accepted b) → AnswerFor s.world key b := by
    intro key sid outcome he
    refine (hst.mem_log_of_end rfl he).imp_right ?_
    rintro ⟨pid, how, choice, proc, outcome', -, found, lives, -, ends, he'⟩
    cases ends with
    | create c reply outcome' ends =>
      injection he' with hkey _ hout
      subst hout
      exact CreateSandbox.answer_of_ends hkey.symm (hk.procs pid _ found) (hi.absent pid c found)
        lives ends
    | _ => cases he'
  refine ⟨fun key sid b he => ?_, fun key sid he => ?_⟩
  · rcases hnew key sid _ he with hold | ⟨-, hans⟩
    · exact (hs.accepted key sid b hold).forward hst.forward
    · exact (hans b rfl).forward hst.forward
  · rcases hnew key sid _ he with hold | ⟨hne, -⟩
    · exact hs.noRaise key sid hold
    · exact hne rfl

/-! ## Every run -/

/-- A start job that Redis accepted for a row that carries the key. -/
def placedFor (w : World) (key : IdempotencyKey) : Event → Bool
  | .placed job => decide (job.task = .startSandbox) &&
      (w.row job.sandboxId).any fun r => decide (r.idempotencyKey = some key)
  | _ => false

theorem World.eq_of_key {w : World} {key : IdempotencyKey} {sid sid' : Uuid} {r r' : Sandbox}
    (hr : w.row sid = some r) (hr' : w.row sid' = some r') (hk : r.idempotencyKey = some key)
    (hk' : r'.idempotencyKey = some key) : r = r' := by
  have hmem : ∀ {sid r}, w.row sid = some r → r ∈ w.sandboxes.rows := by
    intro sid r hr
    rw [World.mem_rows_iff, World.row_id hr]
    exact hr
  exact w.sandboxes.eq_of_alt_eq (hmem hr) (hmem hr') hk hk'

theorem countP_placedFor_le_one {s : State} (hs : Posting s) (key : IdempotencyKey) :
    s.world.log.countP (placedFor s.world key) ≤ 1 := by
  by_cases hnone : ∃ e ∈ s.world.log, placedFor s.world key e = true
  · obtain ⟨e, he, hp⟩ := hnone
    cases e <;> simp only [placedFor, Bool.and_eq_true, decide_eq_true_eq, Option.any_eq_true,
      reduceCtorEq] at hp
    rename_i job
    obtain ⟨-, r, hr, hk⟩ := hp
    refine Nat.le_trans (List.countP_mono_left fun e' _ hp' => ?_) (hs.placed job.sandboxId)
    cases e' <;> simp only [placedFor, Bool.and_eq_true, decide_eq_true_eq, Option.any_eq_true,
      reduceCtorEq] at hp'
    obtain ⟨htask, r', hr', hk'⟩ := hp'
    obtain rfl := World.eq_of_key hr hr' hk hk'
    simp [isStartOf, htask, ← World.row_id hr, ← World.row_id hr']
  · rw [Nat.le_one_iff_eq_zero_or_eq_one, List.countP_eq_zero]
    exact .inl fun e he hp => hnone ⟨e, he, hp⟩

def KeysSettled (s : State) : Prop := Grounded s ∧ FreshIds s ∧ Answered s

theorem keysSettled_step {settings : Settings} {s t : State} {a : Action} (hs : KeysSettled s)
    (hf : Fresh s a t) (h : step settings s a = some t) : KeysSettled t :=
  ⟨grounded_step hs.1 h, freshIds_step hs.1.provenance hs.2.1 hf h,
    answered_step hs.1.provenance hs.2.1 hs.2.2 h⟩

theorem keysSettled_run {settings : Settings} {now : Time} {containers : Containers}
    {nextObject : Nat} {t : State} {as : List Action}
    (hfresh : Along settings Fresh (State.init now containers nextObject) as)
    (h : run settings (State.init now containers nextObject) as = some t) : KeysSettled t :=
  LabelledRuns.invariant (I := KeysSettled) (P := Fresh)
    (fun _ _ _ hm hf h => keysSettled_step hm hf h)
    ⟨grounded_init now containers nextObject, freshIds_init now containers nextObject,
      answered_init now containers nextObject⟩ hfresh h

/-- In every run with fresh ids: all rows that ever carry a key have one id, one start job
at most is accepted for it, its answers agree, and no POST with it ends in an
`IntegrityError`. -/
theorem idempotency_key_exactly_one (settings : Settings) (now : Time) (containers : Containers)
    (nextObject : Nat) (as bs : List Action) (s t : State)
    (hfresh : Along settings Fresh (State.init now containers nextObject) (as ++ bs))
    (hs : run settings (State.init now containers nextObject) as = some s)
    (ht : run settings s bs = some t) (key : IdempotencyKey) :
    (∀ sid sid' r r', s.world.row sid = some r → t.world.row sid' = some r' →
        r.idempotencyKey = some key → r'.idempotencyKey = some key → sid' = sid) ∧
      t.world.log.countP (placedFor t.world key) ≤ 1 ∧
      (∀ sid sid' a a', .created (some key) sid (.answered (.accepted a)) ∈ t.world.log →
        .created (some key) sid' (.answered (.accepted a')) ∈ t.world.log →
        a.sandboxId = a'.sandboxId ∧ a.jobId = a'.jobId ∧ a.type = a'.type ∧
          a.deployment = a'.deployment ∧ a.expiresAt = a'.expiresAt) ∧
      ∀ sid, .created (some key) sid .integrityError ∉ t.world.log := by
  have hrun : run settings (State.init now containers nextObject) (as ++ bs) = some t := by
    simp [run, LabelledRuns.run_append, hs, ht]
  obtain ⟨hg, -, hans⟩ := keysSettled_run hfresh hrun
  refine ⟨?_, countP_placedFor_le_one hg.posting key, ?_, fun sid => hans.noRaise key sid⟩
  · intro sid sid' r r' hr hr' hk hk'
    obtain ⟨r'', hr'', hf⟩ := run_forward ht sid r hr
    obtain rfl := World.eq_of_key hr'' hr' (hf.key.trans hk) hk'
    exact (World.row_id hr').symm.trans (World.row_id hr'')
  · intro sid sid' a a' ha ha'
    obtain ⟨r, hr, hk, hj, hty, hd, he⟩ := hans.accepted key sid a ha
    obtain ⟨r', hr', hk', hj', hty', hd', he'⟩ := hans.accepted key sid' a' ha'
    obtain rfl := World.eq_of_key hr hr' hk hk'
    have hid : a.sandboxId = a'.sandboxId := (World.row_id hr).symm.trans (World.row_id hr')
    exact ⟨hid, by rw [hj, hj', hid], hty.trans hty'.symm, hd.trans hd'.symm, he.trans he'.symm⟩

def someKey : IdempotencyKey := ⟨"retry:1", by decide, by decide⟩

/-- Two POSTs with one key that overlap up to their inserts: the second loses its insert
and is answered with the row of the first. -/
def duplicates : List Action :=
  [.post 0 oneMinute (some someKey) 1, .post 1 oneMinute (some someKey) 2, .ok 0, .ok 1, .ok 0,
    .ok 1, .fails 0, .fails 1, .ok 0, .ok 1, .ok 0, .ok 1, .ok 1, .ok 0]

theorem idempotency_key_duplicates : ∃ t a a',
    run ⟨1, 4, "localhost"⟩ (State.init 0 KeyedTable.empty 0) duplicates = some t ∧
      .created (some someKey) 1 (.answered (.accepted a)) ∈ t.world.log ∧
      .created (some someKey) 2 (.answered (.accepted a')) ∈ t.world.log ∧
      a'.replayed = true ∧ a.sandboxId = a'.sandboxId := by
  have hrun : (run ⟨1, 4, "localhost"⟩ (State.init 0 KeyedTable.empty 0) duplicates).any
      (fun t => t.world.log.any (fun e =>
          match e with
          | .created key sid (.answered (.accepted _)) => decide (key = some someKey) && decide (sid = 1)
          | _ => false) &&
        t.world.log.any fun e =>
          match e with
          | .created key sid (.answered (.accepted a)) =>
            decide (key = some someKey) && decide (sid = 2) && a.replayed
          | _ => false) = true := by decide
  obtain ⟨t, ht, hp⟩ := LabelledRuns.exists_run hrun
  simp only [Bool.and_eq_true, List.any_eq_true] at hp
  obtain ⟨⟨e, he, hfirst⟩, e', he', hsecond⟩ := hp
  split at hfirst
  · rename_i key sid a
    split at hsecond
    · rename_i key' sid' a'
      simp only [Bool.and_eq_true, decide_eq_true_eq] at hfirst hsecond
      obtain ⟨rfl, rfl⟩ := hfirst
      obtain ⟨⟨rfl, rfl⟩, hreplayed⟩ := hsecond
      have hone := idempotency_key_exactly_one _ 0 _ 0 duplicates [] t t
        (LabelledRuns.along_of_check (by decide)) ht rfl someKey
      exact ⟨t, a, a', ht, he, he', hreplayed, (hone.2.2.1 1 2 a a' he he').1⟩
    · cases hsecond
  · cases hfirst

end SandboxOrchestrator
