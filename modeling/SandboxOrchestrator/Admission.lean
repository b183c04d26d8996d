import SandboxOrchestrator.Lifecycle

/-!
# The admission cap

A POST counts the active rows and inserts its own some calls later, so POSTs that overlap
can pass the cap. How far is bounded by the active rows plus the POSTs that have been
admitted and have not ended their insert: an admission needs room, an insert turns one
into the other, and no other handler makes a row active.
-/

namespace SandboxOrchestrator

set_option autoImplicit false

def World.active (w : World) : Nat :=
  w.sandboxes.rows.countP fun r => decide (r.status ∈ activeStatuses)

/-- The program points between a passed capacity check and the end of the insert. -/
def CreatePc.admitted : CreatePc → Bool
  | .pick => true
  | .stamp _ => true
  | .insert _ => true
  | _ => false

def Proc.admitted : Proc → Bool
  | .create c => c.pc.admitted
  | _ => false

/-- The POSTs that have been admitted and have not ended their insert. -/
def State.admitted (s : State) : Nat := s.procs.rows.countP fun e => e.2.admitted

/-! ## Active rows over one call -/

theorem World.active_update {w : World} {actor : Actor} {p : Sandbox → Bool} {v : Values}
    (h : ∀ r, p r = true → v.status ∈ activeStatuses → r.status ∈ activeStatuses) :
    (w.update actor p v).1.active ≤ w.active := by
  simp only [World.active, World.update, KeyedTable.update, List.countP_map]
  refine List.countP_mono_left fun r _ hr => ?_
  simp only [Function.comp_apply, decide_eq_true_eq] at hr ⊢
  split at hr
  · rename_i hp
    exact h r hp hr
  · exact hr

theorem Proc.active_of_writes {proc : Proc} {r : Sandbox} {v : Values}
    (h : proc.request.writes r = some v) (hv : v.status ∈ activeStatuses) :
    r.status ∈ activeStatuses := by
  have hrank := moves_rank _ _ _ (Proc.writes_moves h)
  rw [mem_activeStatuses] at hv ⊢
  omega

theorem Proc.active_after {proc : Proc} (w : World) (how : How) (choice : Choice)
    (h : ∀ r, proc.request ≠ .insert r) :
    (w.after proc.actor how choice proc.request).active ≤ w.active := by
  unfold World.after
  split
  · have hwrites : ∀ r v, proc.request.writes r = some v → v.status ∈ activeStatuses →
        r.status ∈ activeStatuses := fun r v hr hv => Proc.active_of_writes hr hv
    generalize proc.request = q at h hwrites
    cases q with
    | insert r => exact absurd rfl (h r)
    | markFailed id error =>
      refine World.active_update fun r hp => hwrites r _ ?_
      simpa [Request.writes] using hp
    | transition id from_ v =>
      refine World.active_update fun r hp => hwrites r _ ?_
      simp [Request.writes, hp]
    | finishStops live =>
      refine World.active_update fun r hp => hwrites r _ ?_
      simpa [Request.writes] using hp
    | enqueue job => simp only [World.perform, World.enqueue]; split <;> exact Nat.le_refl _
    | create id t => simp only [World.perform, World.createContainer]; split <;> exact Nat.le_refl _
    | removeObject id n => simp only [World.perform]; split <;> exact Nat.le_refl _
    | startObject id n => simp only [World.perform]; split <;> exact Nat.le_refl _
    | reload id n => simp only [World.perform]; split <;> exact Nat.le_refl _
    | _ => exact Nat.le_refl _
  · exact Nat.le_refl _

theorem World.active_insert (w : World) (actor : Actor) (how : How) (choice : Choice) (r : Sandbox) :
    (w.after actor how choice (.insert r)).active ≤ w.active + 1 := by
  unfold World.after
  split
  · simp only [World.perform]
    split
    · rename_i sandboxes hs
      unfold KeyedTable.insert at hs
      split at hs
      · cases hs
        simp only [World.active, List.countP_append]
        exact Nat.add_le_add_left (List.countP_le_length) _
      · cases hs
    · exact Nat.le_succ _
  · exact Nat.le_succ _

/-! ## Admitted POSTs over one step -/

theorem State.countP_frame {s t : State} (p : Proc → Bool) (pid : Nat)
    (h : ∀ q, q ≠ pid → t.proc q = s.proc q) :
    ∃ n, s.procs.rows.countP (fun e => p e.2) = ((s.proc pid).toList.countP p) + n ∧
      t.procs.rows.countP (fun e => p e.2) = ((t.proc pid).toList.countP p) + n := by
  have hcount : ∀ u : State, (∀ q, q ≠ pid → u.proc q = s.proc q) →
      u.procs.rows.countP (fun e => p e.2) = ((u.proc pid).toList.countP p) +
        (s.procs.rows.filter fun e => decide (e.1 ≠ pid)).countP (fun e => p e.2) := by
    intro u hu
    rw [(State.rows_perm hu).countP_eq, List.countP_append]
    cases u.proc pid <;> rfl
  exact ⟨_, hcount s fun _ _ => rfl, hcount t h⟩

theorem Proc.admitted_of_insert {proc : Proc} {r : Sandbox} (h : proc.request = .insert r) :
    proc.admitted = true := by
  cases Proc.asks_of h with
  | insert => rfl

theorem Spawned.not_admitted {settings : Settings} {s : State} {a : Action} {pid : Nat} {proc : Proc}
    {w : World} {drawn : List Uuid} (h : Spawned settings s a pid proc w drawn) :
    proc.admitted = false := by
  cases h with
  | post _ body key sid => cases key <;> rfl
  | deliver _ job => obtain ⟨_ | _, _⟩ := job <;> rfl
  | redeliver _ job => obtain ⟨_ | _, _⟩ := job <;> rfl
  | _ => rfl

theorem Proc.admitted_goes {settings : Settings} {proc proc' : Proc} {w : World} {how : How}
    {choice : Choice} (lives : ∀ e r, how ≠ .killed e r)
    (h : proc.Goes settings (w.reply proc.actor how choice proc.request) proc') :
    (∀ r, proc.request = .insert r → proc'.admitted = false) ∧
      (proc'.admitted = true → proc.admitted = true ∨ w.active < settings.sandboxMaxActive) := by
  cases h with
  | create c reply pc goes =>
    generalize hq : w.reply _ how choice _ = reply at goes
    obtain ⟨body, key, sid, pc₀⟩ := c
    cases goes with
    | unknownKey => exact ⟨fun r _ => rfl, fun h => (by cases h)⟩
    | admitted active room =>
      obtain ⟨-, hreply⟩ := World.after_of_reply lives hq (by simp)
      have hcount : Reply.count w.active = .count active := hreply
      cases hcount
      exact ⟨fun r hr => (by cases hr), fun _ => .inr room⟩
    | picked reply d pick => exact ⟨fun r hr => (by cases hr), fun _ => .inl rfl⟩
    | stamped d now => exact ⟨fun r hr => (by cases hr), fun _ => .inl rfl⟩
    | inserted r => exact ⟨fun _ _ => rfl, fun h => (by cases h)⟩
    | lost r keyed => exact ⟨fun _ _ => rfl, fun h => (by cases h)⟩
    | enqueueFailed r e => exact ⟨fun _ _ => rfl, fun h => (by cases h)⟩
  | delete d reply pc goes => exact ⟨fun _ _ => rfl, fun h => (by cases h)⟩
  | start d reply pc goes => exact ⟨fun _ _ => rfl, fun h => (by cases h)⟩
  | stop d reply pc goes => exact ⟨fun _ _ => rfl, fun h => (by cases h)⟩
  | sweep p reply p' goes => exact ⟨fun _ _ => rfl, fun h => (by cases h)⟩

theorem World.active_settleJob (w : World) (proc : Proc) (again : Bool) :
    (w.settleJob proc again).active = w.active := by
  unfold settleJob
  split
  · rfl
  · split <;> rfl

theorem Proc.admission_left {s t : State} {pid : Nat} {proc : Proc} (found : s.proc pid = some proc)
    (procs : ∀ q, t.proc q = if pid = q then none else s.proc q) (how : How) (choice : Choice) :
    (s.worldAfter proc how choice).active + t.admitted ≤ s.world.active + s.admitted := by
  obtain ⟨n, hs, ht⟩ := State.countP_frame Proc.admitted pid
    fun q hq => (procs q).trans (if_neg (Ne.symm hq))
  rw [found] at hs
  rw [procs, if_pos rfl] at ht
  simp only [Option.toList_none, Option.toList_some, List.countP_nil, List.countP_singleton] at hs ht
  unfold State.admitted
  by_cases hq : ∃ r, proc.request = .insert r
  · obtain ⟨r, hq⟩ := hq
    have hactive : (s.worldAfter proc how choice).active ≤ s.world.active + 1 := by
      rw [State.worldAfter, hq]
      exact s.world.active_insert ..
    rw [Proc.admitted_of_insert hq, if_pos rfl] at hs
    omega
  · have hactive : (s.worldAfter proc how choice).active ≤ s.world.active :=
      Proc.active_after s.world how choice fun r hr => hq ⟨r, hr⟩
    omega

/-- A step adds to the active rows and the admitted POSTs together only when it admits
one below the cap. -/
theorem Stepped.admission {settings : Settings} {s t : State} {a : Action}
    (h : Stepped settings s t a) :
    t.world.active + t.admitted ≤ s.world.active + s.admitted ∨
      (s.world.active < settings.sandboxMaxActive ∧ t.world.active ≤ s.world.active) := by
  cases h with
  | tick _ _ result => subst result; exact .inl (Nat.le_refl _)
  | dropped _ _ _ _ result => subst result; exact .inl (Nat.le_refl _)
  | died _ _ _ result => subst result; exact .inl (Nat.le_refl _)
  | exited _ _ _ result => subst result; exact .inl (Nat.le_refl _)
  | spawned pid proc world drawn spawn absent world_eq drawn_eq procs =>
    left
    have hworld : t.world.active = s.world.active := by
      rw [world_eq]
      cases spawn <;> rfl
    obtain ⟨n, hs, ht⟩ := State.countP_frame Proc.admitted pid
      fun q hq => (procs q).trans (if_neg (Ne.symm hq))
    rw [absent] at hs
    rw [procs, if_pos rfl] at ht
    simp only [Option.toList_none, Option.toList_some, List.countP_nil,
      List.countP_singleton, spawn.not_admitted, Bool.false_eq_true, if_false] at hs ht
    unfold State.admitted
    omega
  | resumed pid how choice proc proc' events found lives resume world_eq drawn_eq procs =>
    have hworld : t.world.active = (s.worldAfter proc how choice).active := by rw [world_eq]; rfl
    obtain ⟨hinsert, hroom⟩ := Proc.admitted_goes lives (Proc.goes_of_resume resume)
    obtain ⟨n, hs, ht⟩ := State.countP_frame Proc.admitted pid
      fun q hq => (procs q).trans (if_neg (Ne.symm hq))
    rw [found] at hs
    rw [procs, if_pos rfl] at ht
    simp only [Option.toList_some, List.countP_singleton] at hs ht
    unfold State.admitted
    by_cases hq : ∃ r, proc.request = .insert r
    · obtain ⟨r, hq⟩ := hq
      have hactive : (s.worldAfter proc how choice).active ≤ s.world.active + 1 := by
        rw [State.worldAfter, hq]
        exact s.world.active_insert ..
      rw [Proc.admitted_of_insert hq] at hs
      rw [hinsert r hq] at ht
      simp only [if_true, Bool.false_eq_true, if_false] at hs ht
      left
      omega
    · have hactive := Proc.active_after s.world how choice fun r hr => hq ⟨r, hr⟩
      have hactive : (s.worldAfter proc how choice).active ≤ s.world.active := hactive
      by_cases hnew : proc'.admitted = true
      · rcases hroom hnew with hold | hroom
        · rw [hold] at hs
          rw [hnew] at ht
          left
          omega
        · exact .inr ⟨hroom, hworld ▸ hactive⟩
      · rw [if_neg hnew] at ht
        left
        omega
  | ended pid how choice proc outcome events found lives resume world_eq drawn_eq procs =>
    have hworld : t.world.active = (s.worldAfter proc how choice).active := by
      rw [world_eq]
      exact World.active_settleJob _ proc _
    exact .inl (hworld ▸ Proc.admission_left found procs how choice)
  | killed pid effect requeue choice proc found world_eq drawn_eq procs =>
    have hworld : t.world.active = (s.worldAfter proc (.killed effect requeue) choice).active := by
      rw [world_eq]
      exact World.active_settleJob _ proc _
    exact .inl (hworld ▸ Proc.admission_left found procs _ choice)

/-! ## The bound -/

/-- After the step at most `k` POSTs are between their capacity check and the end of their
insert. -/
def Overlapping (k : Nat) (_ : State) (_ : Action) (t : State) : Prop := t.admitted ≤ k

instance (k : Nat) (s : State) (a : Action) (t : State) : Decidable (Overlapping k s a t) :=
  inferInstanceAs (Decidable (_ ≤ _))

theorem admission_step {settings : Settings} {k : Nat} {s t : State} {a : Action}
    (hs : s.world.active + s.admitted + 1 ≤ settings.sandboxMaxActive + k)
    (ha : Overlapping k s a t) (h : step settings s a = some t) :
    t.world.active + t.admitted + 1 ≤ settings.sandboxMaxActive + k := by
  have hk : t.admitted ≤ k := ha
  rcases (stepped h).admission with hle | ⟨hroom, hle⟩
  · omega
  · omega

/-- In every run in which at most `k` POSTs overlap between check and insert, the active
rows never exceed the cap by more than `k - 1`. -/
theorem active_le_cap (settings : Settings) (k : Nat) (hk : 1 ≤ k) (now : Time)
    (containers : Containers) (nextObject : Nat) (as : List Action) (t : State)
    (overlap : Along settings (Overlapping k) (State.init now containers nextObject) as)
    (h : run settings (State.init now containers nextObject) as = some t) :
    t.world.active ≤ settings.sandboxMaxActive + k - 1 := by
  have hinit : (State.init now containers nextObject).world.active +
      (State.init now containers nextObject).admitted + 1 ≤ settings.sandboxMaxActive + k :=
    Nat.le_add_left_of_le hk
  have hbound : t.world.active + t.admitted + 1 ≤ settings.sandboxMaxActive + k :=
    LabelledRuns.invariant (P := Overlapping k)
      (I := fun u => u.world.active + u.admitted + 1 ≤ settings.sandboxMaxActive + k)
      (fun _ _ _ hs ha h => admission_step hs ha h) hinit overlap h
  omega

/-- Two POSTs count before either inserts, with room for one. -/
theorem active_le_cap_overshot : ∃ t,
    run ⟨3, 1, "localhost"⟩ (State.init 0 KeyedTable.empty 0)
        [.post 0 oneMinute none 1, .post 1 oneMinute none 2, .ok 0, .ok 1, .fails 0, .ok 0, .ok 0,
          .fails 1, .ok 1, .ok 1] = some t ∧
      t.world.active = 2 ∧ t.world.active ≤ 1 + 2 - 1 := by
  have hrun : (run ⟨3, 1, "localhost"⟩ (State.init 0 KeyedTable.empty 0)
      [.post 0 oneMinute none 1, .post 1 oneMinute none 2, .ok 0, .ok 1, .fails 0, .ok 0, .ok 0,
        .fails 1, .ok 1, .ok 1]).any (fun t => decide (t.world.active = 2)) = true := by decide
  obtain ⟨t, ht, hactive⟩ := LabelledRuns.exists_run hrun
  exact ⟨t, ht, of_decide_eq_true hactive, active_le_cap _ 2 (by decide) 0 _ 0 _ t
    (LabelledRuns.along_of_check (by decide)) ht⟩

end SandboxOrchestrator
