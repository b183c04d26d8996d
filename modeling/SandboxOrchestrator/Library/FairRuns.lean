import SandboxOrchestrator.Library.LabelledRuns
import Mathlib.Order.WellFounded

/-!
# Runs without end

What a fair run comes to. Obligations wait for an action that serves them; where each served
obligation lowers a well-founded measure and no other action raises it, fairness leads to
the goal.
-/

namespace LabelledRuns

set_option autoImplicit false

universe u v w z
variable {σ : Type u} {α : Type v}

structure InfiniteRun (step : σ → α → Option σ) where
  state : Nat → σ
  action : Nat → α
  steps : ∀ n, step (state n) (action n) = some (state (n + 1))

namespace InfiniteRun

variable {step : σ → α → Option σ} {P : σ → α → σ → Prop} (x : InfiniteRun step)

def Always (P : σ → α → σ → Prop) : Prop := ∀ n, P (x.state n) (x.action n) (x.state (n + 1))

def segment (n k : Nat) : List α := (List.range k).map fun i => x.action (n + i)

theorem segment_succ (n k : Nat) : x.segment n (k + 1) = x.segment n k ++ [x.action (n + k)] := by
  simp [segment, List.range_succ]

theorem run_segment (n k : Nat) : run step (x.state n) (x.segment n k) = some (x.state (n + k)) := by
  induction k with
  | zero => rfl
  | succ k ih =>
    rw [segment_succ]
    exact run_snoc ih (x.steps (n + k))

theorem along_segment {n k : Nat} : Along step P (x.state n) (x.segment n k) ↔
    ∀ m, n ≤ m → m < n + k → P (x.state m) (x.action m) (x.state (m + 1)) := by
  induction k with
  | zero => exact iff_of_true trivial fun m hn hm => by omega
  | succ k ih =>
    rw [segment_succ, along_append (x.run_segment n k), along_cons (x.steps (n + k)), ih]
    constructor
    · rintro ⟨hbefore, hlast, -⟩ m hn hm
      rcases Nat.lt_or_eq_of_le (Nat.le_of_lt_succ hm) with hlt | rfl
      · exact hbefore m hn hlt
      · exact hlast
    · intro h
      exact ⟨fun m hn hm => h m hn (by omega), h (n + k) (by omega) (by omega), trivial⟩

theorem run_of_segment {n k : Nat} {first rest : List α} (h : x.segment n k = first ++ rest) :
    run step (x.state n) first = some (x.state (n + first.length)) := by
  have hlength : first.length ≤ k := by
    have := congrArg List.length h
    simp only [segment, List.length_map, List.length_range, List.length_append] at this
    omega
  have hfirst : first = x.segment n first.length := by
    have htake := congrArg (List.take first.length) h
    rw [List.take_left, segment, ← List.map_take, List.take_range, Nat.min_eq_left hlength] at htake
    exact htake.symm
  rw [hfirst, run_segment, ← hfirst]

theorem invariant {I : σ → Prop} (pres : ∀ s a t, I s → P s a t → step s a = some t → I t) {n : Nat}
    (hn : I (x.state n)) (hP : ∀ m, n ≤ m → P (x.state m) (x.action m) (x.state (m + 1))) {m : Nat}
    (h : n ≤ m) : I (x.state m) := by
  induction m, h using Nat.le_induction with
  | base => exact hn
  | succ m hm ih => exact pres _ _ _ ih (hP m hm) (x.steps m)

/-! ## Descent -/

/-- What one step does to the obligations `held` and to their measure, unless it reaches the
goal. -/
structure Descends {ι : Type w} {W : Type z} [Preorder W] (goal : σ → Prop) (held : σ → ι → Prop)
    (serves : α → ι → Prop) (measure : σ → W) (s : σ) (a : α) (t : σ) : Prop where
  keeps : ∀ i, held s i → ¬serves a i → goal t ∨ held t i
  falls : ∀ i, held s i → serves a i → goal t ∨ measure t < measure s
  le : goal t ∨ measure t ≤ measure s

/-- Every obligation that is held from some point on is served. -/
def Fair {ι : Type w} (held : σ → ι → Prop) (serves : α → ι → Prop) : Prop :=
  ∀ n i, (∀ m, n ≤ m → held (x.state m) i) → ∃ m, n ≤ m ∧ serves (x.action m) i

variable {ι : Type w} {W : Type z} [Preorder W] {goal : σ → Prop} {held : σ → ι → Prop}
  {serves : α → ι → Prop} {measure : σ → W} {n : Nat}

theorem Fair.served (hfair : x.Fair held serves) (hnever : ∀ m, n ≤ m → ¬goal (x.state m))
    (hdesc : ∀ m, n ≤ m → ¬goal (x.state m) →
      Descends goal held serves measure (x.state m) (x.action m) (x.state (m + 1)))
    {i : ι} (hi : held (x.state n) i) : ∃ m, n ≤ m ∧ held (x.state m) i ∧ serves (x.action m) i := by
  by_contra hnone
  have hheld : ∀ m, n ≤ m → held (x.state m) i := by
    intro m hm
    induction m, hm using Nat.le_induction with
    | base => exact hi
    | succ m hm ih =>
      have hnot : ¬serves (x.action m) i := fun hs => hnone ⟨m, hm, ih, hs⟩
      exact ((hdesc m hm (hnever m hm)).keeps i ih hnot).resolve_left (hnever (m + 1) (by omega))
  obtain ⟨m, hm, hserves⟩ := hfair n i hheld
  exact hnone ⟨m, hm, hheld m hm, hserves⟩

/-- Where something is held before the goal, a fair run reaches it. -/
theorem Fair.eventually [WellFoundedLT W] (hfair : x.Fair held serves)
    (hlive : ∀ m, n ≤ m → ¬goal (x.state m) → ∃ i, held (x.state m) i)
    (hdesc : ∀ m, n ≤ m → ¬goal (x.state m) →
      Descends goal held serves measure (x.state m) (x.action m) (x.state (m + 1))) :
    ∃ m, n ≤ m ∧ goal (x.state m) := by
  by_contra hnone
  have hnever : ∀ m, n ≤ m → ¬goal (x.state m) := fun m hm hg => hnone ⟨m, hm, hg⟩
  have hle : ∀ m, n ≤ m → ∀ k, m ≤ k → measure (x.state k) ≤ measure (x.state m) := by
    intro m hm k hk
    induction k, hk using Nat.le_induction with
    | base => exact le_refl _
    | succ k hk ih =>
      have hn := Nat.le_trans hm hk
      have hstep := (hdesc k hn (hnever k hn)).le.resolve_left (hnever (k + 1) (by omega))
      exact le_trans hstep ih
  have hdown : ∀ w, ∀ m, n ≤ m → measure (x.state m) = w → False := by
    intro w
    induction w using WellFoundedLT.induction with
    | ind w ih =>
      intro m hm hw
      obtain ⟨i, hi⟩ := hlive m hm (hnever m hm)
      obtain ⟨k, hk, hheld, hserves⟩ := hfair.served x (fun j hj => hnever j (Nat.le_trans hm hj))
        (fun j hj => hdesc j (Nat.le_trans hm hj)) hi
      have hn := Nat.le_trans hm hk
      have hlt := ((hdesc k hn (hnever k hn)).falls i hheld hserves).resolve_left
        (hnever (k + 1) (by omega))
      exact ih _ (hw ▸ lt_of_lt_of_le hlt (hle m hm k hk)) (k + 1) (by omega) rfl
  exact hdown _ n (Nat.le_refl n) rfl

/-! ## Runs made to order -/

/-- The states under a schedule; where its action is not possible nothing happens. -/
def scheduled (step : σ → α → Option σ) (act : Nat → σ → α) (s : σ) : Nat → σ
  | 0 => s
  | n + 1 =>
    (step (scheduled step act s n) (act n (scheduled step act s n))).getD (scheduled step act s n)

/-- A schedule whose actions are possible by an invariant that they keep. -/
structure Schedule (step : σ → α → Option σ) (I : σ → Prop) where
  act : Nat → σ → α
  possible : ∀ n s, I s → ∃ t, step s (act n s) = some t
  pres : ∀ n s t, I s → step s (act n s) = some t → I t

section

variable {I : σ → Prop} {s : σ} (p : Schedule step I)

theorem Schedule.step_scheduled {n : Nat} (h : I (scheduled step p.act s n)) :
    step (scheduled step p.act s n) (p.act n (scheduled step p.act s n)) =
      some (scheduled step p.act s (n + 1)) := by
  obtain ⟨t, ht⟩ := p.possible n _ h
  rw [scheduled, ht, Option.getD_some]

theorem Schedule.holds (hs : I s) (n : Nat) : I (scheduled step p.act s n) := by
  induction n with
  | zero => exact hs
  | succ n ih => exact p.pres n _ _ ih (p.step_scheduled ih)

def Schedule.run (hs : I s) : InfiniteRun step where
  state := scheduled step p.act s
  action n := p.act n (scheduled step p.act s n)
  steps n := p.step_scheduled (p.holds hs n)

end

def after {s t : σ} {as : List α} (h : LabelledRuns.run step s as = some t) (y : InfiniteRun step)
    (hy : y.state 0 = t) : InfiniteRun step where
  state n := if n < as.length then (LabelledRuns.run step s (as.take n)).getD t
    else y.state (n - as.length)
  action n := if hn : n < as.length then as[n] else y.action (n - as.length)
  steps n := by
    rcases Nat.lt_or_ge n as.length with hlt | hge
    · have hsplit : as = as.take n ++ as[n] :: as.drop (n + 1) := by simp
      have hrun := h
      rw [hsplit, run_append] at hrun
      obtain ⟨m, hm, hrest⟩ := Option.bind_eq_some_iff.mp hrun
      obtain ⟨m', hm', -⟩ := run_cons_eq_some.mp hrest
      have hnext : LabelledRuns.run step s (as.take (n + 1)) = some m' := by
        rw [List.take_add_one, List.getElem?_eq_getElem hlt, Option.toList_some]
        exact run_snoc hm hm'
      rw [if_pos hlt, dif_pos hlt, hm, Option.getD_some, hm']
      split
      · rw [hnext, Option.getD_some]
      · have hlast : n + 1 = as.length := by omega
        rw [hlast, List.take_length, h] at hnext
        rw [hlast, Nat.sub_self, hy]
        exact hnext.symm
    · rw [if_neg (by omega), dif_neg (by omega), if_neg (by omega), Nat.sub_add_comm hge]
      exact y.steps (n - as.length)

section

variable {s t : σ} {as : List α} {h : LabelledRuns.run step s as = some t} {y : InfiniteRun step}
  {hy : y.state 0 = t}

theorem after_state (n : Nat) : (after h y hy).state (as.length + n) = y.state n := by
  simp [after]

theorem after_action (n : Nat) : (after h y hy).action (as.length + n) = y.action n := by
  simp [after]

theorem after_zero : (after h y hy).state 0 = s := by
  cases as with
  | nil =>
    cases h
    exact hy
  | cons => rfl

theorem after_segment : (after h y hy).segment 0 as.length = as := by
  refine List.ext_getElem (by simp [segment]) fun i hi hi' => ?_
  simp [segment, after, hi']

theorem after_always (halong : Along step P s as) (hrest : y.Always P) : (after h y hy).Always P := by
  intro n
  rcases Nat.lt_or_ge n as.length with hlt | hge
  · have hsegment : Along step P ((after h y hy).state 0) ((after h y hy).segment 0 as.length) := by
      rw [after_segment, after_zero]
      exact halong
    exact (along_segment _).mp hsegment n (Nat.zero_le n) (by omega)
  · obtain ⟨k, rfl⟩ := Nat.exists_eq_add_of_le hge
    rw [Nat.add_assoc, after_state, after_state, after_action]
    exact hrest k

theorem after_fair {ι : Type w} {held : σ → ι → Prop} {serves : α → ι → Prop}
    (hfair : y.Fair held serves) : (after h y hy).Fair held serves := by
  intro n i hheld
  obtain ⟨m, hm, hserves⟩ := hfair n i fun m hm => by
    have hshifted := hheld (as.length + m) (by omega)
    rwa [after_state] at hshifted
  refine ⟨as.length + m, by omega, ?_⟩
  rw [after_action]
  exact hserves

end

def rest {t : σ} {a : α} (ha : step t a = some t) : InfiniteRun step where
  state _ := t
  action _ := a
  steps _ := ha

theorem rest_fair {ι : Type w} {held : σ → ι → Prop} {serves : α → ι → Prop} {t : σ} {a : α}
    {ha : step t a = some t} (hnone : ∀ i, ¬held t i) : (rest ha).Fair held serves :=
  fun n i hheld => absurd (hheld n (Nat.le_refl n)) (hnone i)

end InfiniteRun

end LabelledRuns
