import SandboxOrchestrator.JobKeys
import SandboxOrchestrator.AnswersKept

/-!
# Counters that add up

A counter of the program goes up in a handler's own code, and how the handler ends says by
how much. A ledger pairs the two and the credit of the handlers in flight, who have counted
what their end will account for. Its laws are about one resumption; the balance is about
every run.
-/

namespace SandboxOrchestrator

set_option autoImplicit false

/-- The increments of a counter and the observations of a histogram. -/
def Event.isMetric : Event → Bool
  | .jobs .. => true
  | .timeToRunning .. => true
  | .jobsEnqueued .. => true
  | .reaped .. => true
  | .reconcileRuns _ => true
  | _ => false

theorem Event.not_isMetric_of_byCall {e : Event} (h : e.byCall = true) : e.isMetric = false := by
  cases e <;> first | rfl | cases h

theorem Event.not_ofEnd_of_byCall {e : Event} (h : e.byCall = true) : e.ofEnd = false := by
  cases e <;> first | rfl | cases h

theorem Event.not_isMetric_of_ofEnd {e : Event} (h : e.ofEnd = true) : e.isMetric = false := by
  cases e <;> first | rfl | cases h

theorem Proc.ofEnd_ended (proc : Proc) (outcome : End) : (proc.ended outcome).ofEnd = true := by
  cases proc <;> rfl

def World.total (f : Event → Nat) (w : World) : Nat := (w.log.map f).sum

def State.credit (f : Proc → Nat) (s : State) : Nat := (s.procs.rows.map fun e => f e.2).sum

/-- What a counter counts, what the ends of handlers account for, and what a handler in flight
has counted so far. `sound` is what a handler knows of itself. -/
structure Ledger where
  counts : Event → Nat
  ends : Event → Nat
  credit : Proc → Nat
  sound : Proc → Prop
  counts_own : ∀ e, e.isMetric = false → counts e = 0
  ends_own : ∀ e, e.ofEnd = false → ends e = 0
  opens : ∀ {settings : Settings} {s : State} {a : Action} {pid : Nat} {proc : Proc} {w : World}
    {drawn : List Uuid}, Spawned settings s a pid proc w drawn → sound proc ∧ credit proc = 0
  goes : ∀ {settings : Settings} {now : Time} {proc proc' : Proc} {reply : Reply}
    {events : List Event}, sound proc → proc.resume settings now reply = some (events, .goto proc') →
    sound proc' ∧ (events.map counts).sum + credit proc = credit proc'
  done : ∀ {settings : Settings} {now : Time} {proc : Proc} {reply : Reply} {events : List Event}
    {outcome : End}, sound proc → proc.resume settings now reply = some (events, .done outcome) →
    (events.map counts).sum + credit proc = ends (proc.ended outcome)

namespace Ledger

variable (l : Ledger)

def lost (s : State) : Action → Nat
  | .await pid (.killed _ _) _ => ((s.proc pid).map l.credit).getD 0
  | _ => 0

theorem sum_eq_zero {f : Event → Nat} {events : List Event} (h : ∀ e ∈ events, f e = 0) :
    (events.map f).sum = 0 :=
  List.sum_eq_zero fun n hn => by
    obtain ⟨e, he, rfl⟩ := List.mem_map.mp hn
    exact h e he

theorem total_append {f : Event → Nat} {w w' : World} {own : List Event}
    (h : w'.log = own ++ w.log) : w'.total f = (own.map f).sum + w.total f := by
  simp only [World.total, h, List.map_append, List.sum_append]

theorem total_after {f : Event → Nat} (hf : ∀ e, e.byCall = true → f e = 0) (w : World)
    (actor : Actor) (how : How) (choice : Choice) (q : Request) :
    (w.after actor how choice q).total f = w.total f := by
  obtain ⟨es, hlog, hes⟩ := w.after_log actor how choice q
  rw [total_append hlog, sum_eq_zero fun e he => hf e (hes e he), Nat.zero_add]

section

variable {settings : Settings} {s t : State} {a : Action}

theorem ends_of_resume {now : Time} {proc : Proc} {reply : Reply} {events : List Event}
    {next : Next Proc} (h : proc.resume settings now reply = some (events, next)) :
    (events.map l.ends).sum = 0 := by
  refine sum_eq_zero fun e he => l.ends_own e ?_
  cases hend : e.ofEnd with
  | false => rfl
  | true => cases (Proc.not_emits_of_ofEnd hend).symm.trans (Proc.resume_emits h e he)

theorem balance_step (hsound : ∀ pid proc, s.proc pid = some proc → l.sound proc)
    (hst : Stepped settings s t a) :
    s.world.total l.counts + (t.world.total l.ends + t.credit l.credit) + l.lost s a =
      t.world.total l.counts + (s.world.total l.ends + s.credit l.credit) := by
  have hcounts := fun proc how choice => total_after (f := l.counts)
    (fun e he => l.counts_own e (Event.not_isMetric_of_byCall he)) s.world
    (Proc.actor proc) how choice (Proc.request proc)
  have hends := fun proc how choice => total_after (f := l.ends)
    (fun e he => l.ends_own e (Event.not_ofEnd_of_byCall he)) s.world
    (Proc.actor proc) how choice (Proc.request proc)
  cases hst with
  | tick _ _ result => subst result; exact Nat.add_zero _
  | dropped _ _ _ _ result => subst result; exact Nat.add_zero _
  | exited _ _ _ result => subst result; exact Nat.add_zero _
  | died sid _ _ result =>
    subst result
    change (_ + ((l.ends (.died sid) + s.world.total l.ends) + s.credit l.credit)) + 0 =
      (l.counts (.died sid) + s.world.total l.counts) + _
    rw [l.ends_own (.died sid) rfl, l.counts_own (.died sid) rfl, Nat.zero_add, Nat.zero_add,
      Nat.add_zero]
  | spawned pid proc world drawn spawn absent world_eq _ procs =>
    obtain ⟨n, hs, ht⟩ := State.sum_frame l.credit pid (s := s) (t := t) fun q hq => by
      rw [procs, if_neg (Ne.symm hq)]
    have hlog : t.world.log = s.world.log := world_eq ▸ spawn.log
    have hlost : l.lost s a = 0 := by cases spawn <;> rfl
    rw [absent] at hs
    rw [procs, if_pos rfl, Option.map_some, Option.getD_some, (l.opens spawn).2] at ht
    simp only [State.credit, World.total, hlog, hlost, hs, ht]
    rfl
  | resumed pid how choice proc proc' events found lives resume world_eq _ procs =>
    obtain ⟨n, hs, ht⟩ := State.sum_frame l.credit pid (s := s) (t := t) fun q hq => by
      rw [procs, if_neg (Ne.symm hq)]
    obtain ⟨-, hgoes⟩ := l.goes (hsound pid proc found) resume
    have hlog : t.world.log = events ++ (s.worldAfter proc how choice).log := by rw [world_eq]; rfl
    have hlost : l.lost s (.await pid how choice) = 0 := by
      cases how with
      | killed e r => exact absurd rfl (lives e r)
      | _ => rfl
    rw [found, Option.map_some, Option.getD_some] at hs
    rw [procs, if_pos rfl, Option.map_some, Option.getD_some] at ht
    have htc := total_append (f := l.counts) hlog
    have hte := total_append (f := l.ends) hlog
    rw [l.ends_of_resume resume] at hte
    have hc := hcounts proc how choice
    have he := hends proc how choice
    simp only [State.credit, State.worldAfter] at *
    omega
  | ended pid how choice proc outcome events found lives resume world_eq _ procs =>
    obtain ⟨n, hs, ht⟩ := State.sum_frame l.credit pid (s := s) (t := t) fun q hq => by
      rw [procs, if_neg (Ne.symm hq)]
    have hdone := l.done (hsound pid proc found) resume
    have hlog : t.world.log =
        (proc.ended outcome :: events) ++ (s.worldAfter proc how choice).log := by
      rw [world_eq, World.settleJob_log, World.record_log]
    have hlost : l.lost s (.await pid how choice) = 0 := by
      cases how with
      | killed e r => exact absurd rfl (lives e r)
      | _ => rfl
    rw [found, Option.map_some, Option.getD_some] at hs
    rw [procs, if_pos rfl] at ht
    have htc := total_append (f := l.counts) hlog
    have hte := total_append (f := l.ends) hlog
    rw [List.map_cons, List.sum_cons, l.ends_of_resume resume] at hte
    rw [List.map_cons, List.sum_cons, l.counts_own _ (Event.not_isMetric_of_ofEnd
      (proc.ofEnd_ended outcome))] at htc
    have hc := hcounts proc how choice
    have he := hends proc how choice
    simp only [State.credit, State.worldAfter, Option.map_none, Option.getD_none] at *
    omega
  | killed pid effect requeue choice proc found world_eq _ procs =>
    obtain ⟨n, hs, ht⟩ := State.sum_frame l.credit pid (s := s) (t := t) fun q hq => by
      rw [procs, if_neg (Ne.symm hq)]
    have hlog : t.world.log = [] ++ (s.worldAfter proc (.killed effect requeue) choice).log := by
      rw [world_eq, World.settleJob_log]
      rfl
    have hlost : l.lost s (.await pid (.killed effect requeue) choice) = l.credit proc := by
      rw [lost, found]
      rfl
    rw [found, Option.map_some, Option.getD_some] at hs
    rw [procs, if_pos rfl] at ht
    have htc := total_append (f := l.counts) hlog
    have hte := total_append (f := l.ends) hlog
    have hc := hcounts proc (.killed effect requeue) choice
    have he := hends proc (.killed effect requeue) choice
    simp only [State.credit, State.worldAfter, Option.map_none, Option.getD_none, List.map_nil,
      List.sum_nil] at *
    omega

theorem sound_step (hsound : ∀ pid proc, s.proc pid = some proc → l.sound proc)
    (hst : Stepped settings s t a) {p : Nat} {proc : Proc} (hp : t.proc p = some proc) :
    l.sound proc := by
  cases hst with
  | tick _ _ result => subst result; exact hsound p proc hp
  | dropped _ _ _ _ result => subst result; exact hsound p proc hp
  | died _ _ _ result => subst result; exact hsound p proc hp
  | exited _ _ _ result => subst result; exact hsound p proc hp
  | spawned pid new world drawn spawn _ _ _ procs =>
    rw [procs] at hp
    split at hp
    · cases hp
      exact (l.opens spawn).1
    · exact hsound p proc hp
  | resumed pid how choice old proc' events found _ resume _ _ procs =>
    rw [procs] at hp
    split at hp
    · cases hp
      exact (l.goes (hsound pid old found) resume).1
    · exact hsound p proc hp
  | ended pid _ _ old _ _ _ _ _ _ _ procs =>
    rw [procs] at hp
    split at hp
    · cases hp
    · exact hsound p proc hp
  | killed pid _ _ _ old _ _ _ procs =>
    rw [procs] at hp
    split at hp
    · cases hp
    · exact hsound p proc hp

end

def Spares (s : State) (a : Action) (_ : State) : Prop := l.lost s a = 0

instance (s : State) (a : Action) (t : State) : Decidable (l.Spares s a t) :=
  inferInstanceAs (Decidable (_ = _))

section

variable {settings : Settings} {now : Time} {containers : Containers} {nextObject : Nat}
  {actions : List Action} {s : State}

/-- After every run the ends on record and the handlers in flight account for no more than was
counted. -/
theorem balance_le (h : run settings (State.init now containers nextObject) actions = some s) :
    s.world.total l.ends + s.credit l.credit ≤ s.world.total l.counts := by
  have hrun : (∀ pid proc, s.proc pid = some proc → l.sound proc) ∧
      s.world.total l.ends + s.credit l.credit ≤ s.world.total l.counts :=
    LabelledRuns.always (I := fun s => (∀ pid proc, s.proc pid = some proc → l.sound proc) ∧
        s.world.total l.ends + s.credit l.credit ≤ s.world.total l.counts)
      (fun s a t hs (h : step settings s a = some t) => by
        have hstep := l.balance_step hs.1 (stepped h)
        exact ⟨fun _ _ => l.sound_step hs.1 (stepped h), by omega⟩)
      ⟨fun _ _ h => (by cases h), Nat.le_refl 0⟩ h
  exact hrun.2

theorem balance (h : run settings (State.init now containers nextObject) actions = some s)
    (hspares : Along settings l.Spares (State.init now containers nextObject) actions) :
    s.world.total l.counts = s.world.total l.ends + s.credit l.credit := by
  have hrun : (∀ pid proc, s.proc pid = some proc → l.sound proc) ∧
      s.world.total l.counts = s.world.total l.ends + s.credit l.credit :=
    LabelledRuns.invariant (P := l.Spares)
      (I := fun s => (∀ pid proc, s.proc pid = some proc → l.sound proc) ∧
        s.world.total l.counts = s.world.total l.ends + s.credit l.credit)
      (fun s a t hs hspares (h : step settings s a = some t) => by
        have hstep := l.balance_step hs.1 (stepped h)
        have hlost : l.lost s a = 0 := hspares
        exact ⟨fun _ _ => l.sound_step hs.1 (stepped h), by omega⟩)
      ⟨fun _ _ h => (by cases h), rfl⟩ hspares h
  exact hrun.2

theorem balance_of_no_credit (hcredit : ∀ proc, l.credit proc = 0)
    (h : run settings (State.init now containers nextObject) actions = some s) :
    s.world.total l.counts = s.world.total l.ends := by
  have hspares : ∀ s a t, step settings s a = some t → l.Spares s a t := by
    intro s a t hstep
    clear hstep
    unfold Spares lost
    split
    · rename_i pid effect requeue choice
      cases hp : s.proc pid with
      | none => rfl
      | some proc => exact hcredit proc
    · rfl
  have hbalance := l.balance h (LabelledRuns.Along.of_forall hspares _ _)
  have hzero : s.credit l.credit = 0 := List.sum_eq_zero fun n hn => by
    obtain ⟨e, -, rfl⟩ := List.mem_map.mp hn
    exact hcredit e.2
  rwa [hzero, Nat.add_zero] at hbalance

end

end Ledger

end SandboxOrchestrator
