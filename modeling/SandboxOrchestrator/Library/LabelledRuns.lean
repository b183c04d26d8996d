import Mathlib.Logic.Relation
import Mathlib.Data.List.Induction

/-!
# Finite runs of a partial labelled step function

`step s a = none` says that action `a` is not possible in state `s`. A run is a list
of actions; `Along` states a property of every step as it is taken, with the states
before and after it. The rules below turn what one step preserves into what a run
preserves.
-/

namespace LabelledRuns

set_option autoImplicit false

universe u v
variable {σ : Type u} {α : Type v}

/-- The state after a list of actions, `none` once one of them is not possible. -/
def run (step : σ → α → Option σ) : σ → List α → Option σ
  | s, [] => some s
  | s, a :: as => (step s a).bind fun t => run step t as

/-- `P before action after` holds of every step taken by the run. -/
def Along (step : σ → α → Option σ) (P : σ → α → σ → Prop) : σ → List α → Prop
  | _, [] => True
  | s, a :: as =>
    match step s a with
    | none => True
    | some t => P s a t ∧ Along step P t as

/-- The number of steps of the run that satisfy `p before action after`. -/
def tally (step : σ → α → Option σ) (p : σ → α → σ → Bool) : σ → List α → Nat
  | _, [] => 0
  | s, a :: as =>
    match step s a with
    | none => 0
    | some t => (if p s a t then 1 else 0) + tally step p t as

def check (step : σ → α → Option σ) (P : σ → α → σ → Prop) [∀ s a t, Decidable (P s a t)] :
    σ → List α → Bool
  | _, [] => true
  | s, a :: as =>
    match step s a with
    | none => true
    | some t => decide (P s a t) && check step P t as

variable {step : σ → α → Option σ} {P Q : σ → α → σ → Prop}

@[simp] theorem run_nil (s : σ) : run step s [] = some s := rfl

theorem run_cons (s : σ) (a : α) (as : List α) :
    run step s (a :: as) = (step s a).bind fun t => run step t as := rfl

theorem run_cons_eq_some {s t : σ} {a : α} {as : List α} :
    run step s (a :: as) = some t ↔ ∃ m, step s a = some m ∧ run step m as = some t := by
  simp [run, Option.bind_eq_some_iff]

theorem run_append (s : σ) (as bs : List α) :
    run step s (as ++ bs) = (run step s as).bind fun t => run step t bs := by
  induction as generalizing s with
  | nil => rfl
  | cons a as ih =>
    simp only [List.cons_append, run_cons]
    cases step s a with
    | none => rfl
    | some t => exact ih t

theorem run_trans {s t u : σ} {as bs : List α} (h : run step s as = some t)
    (h' : run step t bs = some u) : run step s (as ++ bs) = some u := by
  rw [run_append, h, Option.bind_some, h']

theorem run_snoc {s t u : σ} {as : List α} {a : α} (h : run step s as = some t)
    (ha : step t a = some u) : run step s (as ++ [a]) = some u :=
  run_trans h (by simp [run_cons, ha])

theorem exists_run {p : σ → Bool} {s : σ} {as : List α} (h : (run step s as).any p = true) :
    ∃ t, run step s as = some t ∧ p t = true := by
  simpa [Option.any_eq_true] using h

@[simp] theorem along_nil (s : σ) : Along step P s [] := trivial

theorem along_cons {s t : σ} {a : α} {as : List α} (h : step s a = some t) :
    Along step P s (a :: as) ↔ P s a t ∧ Along step P t as := by
  simp [Along, h]

theorem along_append {s t : σ} {as bs : List α} (h : run step s as = some t) :
    Along step P s (as ++ bs) ↔ Along step P s as ∧ Along step P t bs := by
  induction as generalizing s with
  | nil =>
    cases h
    simp
  | cons a as ih =>
    obtain ⟨m, hm, h⟩ := run_cons_eq_some.mp h
    rw [List.cons_append, along_cons hm, along_cons hm, ih h, and_assoc]

theorem Along.and {s : σ} {as : List α} (hP : Along step P s as) (hQ : Along step Q s as) :
    Along step (fun s a t => P s a t ∧ Q s a t) s as := by
  induction as generalizing s with
  | nil => trivial
  | cons a as ih =>
    cases hm : step s a with
    | none => simp [Along, hm]
    | some m =>
      obtain ⟨hPm, hP⟩ := (along_cons hm).mp hP
      obtain ⟨hQm, hQ⟩ := (along_cons hm).mp hQ
      exact (along_cons hm).mpr ⟨⟨hPm, hQm⟩, ih hP hQ⟩

theorem Along.mono {s : σ} {as : List α} (hP : Along step P s as)
    (h : ∀ s a t, P s a t → Q s a t) : Along step Q s as := by
  induction as generalizing s with
  | nil => trivial
  | cons a as ih =>
    cases hm : step s a with
    | none => simp [Along, hm]
    | some m =>
      obtain ⟨hPm, hP⟩ := (along_cons hm).mp hP
      exact (along_cons hm).mpr ⟨h s a m hPm, ih hP⟩

theorem along_of_check [∀ s a t, Decidable (P s a t)] {s : σ} {as : List α}
    (h : check step P s as = true) : Along step P s as := by
  induction as generalizing s with
  | nil => trivial
  | cons a as ih =>
    cases hm : step s a with
    | none => simp [Along, hm]
    | some m =>
      simp only [check, hm, Bool.and_eq_true, decide_eq_true_eq] at h
      exact (along_cons hm).mpr ⟨h.1, ih h.2⟩

/-- An invariant with its step lemma holds after every run whose steps satisfy `P`. -/
theorem invariant {I : σ → Prop} (pres : ∀ s a t, I s → P s a t → step s a = some t → I t)
    {s t : σ} {as : List α} (hs : I s) (hP : Along step P s as) (h : run step s as = some t) :
    I t := by
  induction as generalizing s with
  | nil => cases h; exact hs
  | cons a as ih =>
    obtain ⟨m, hm, h⟩ := run_cons_eq_some.mp h
    obtain ⟨hPm, hP⟩ := (along_cons hm).mp hP
    exact ih (pres s a m hs hPm hm) hP h

/-- What an invariant gives at one step holds along the whole run. -/
theorem along_of_invariant {I : σ → Prop}
    (pres : ∀ s a t, I s → P s a t → step s a = some t → I t)
    (gives : ∀ s a t, I s → P s a t → step s a = some t → Q s a t)
    {s : σ} {as : List α} (hs : I s) (hP : Along step P s as) : Along step Q s as := by
  induction as generalizing s with
  | nil => trivial
  | cons a as ih =>
    cases hm : step s a with
    | none => simp [Along, hm]
    | some m =>
      obtain ⟨hPm, hP⟩ := (along_cons hm).mp hP
      exact (along_cons hm).mpr ⟨gives s a m hs hPm hm, ih (pres s a m hs hPm hm) hP⟩

/-- Where a step keeps an invariant exactly if it satisfies `P`, the two hold of the same
runs. -/
theorem along_iff_invariant {I : σ → Prop}
    (pres : ∀ s a t, I s → step s a = some t → (P s a t ↔ I t)) {s : σ} (hs : I s)
    (as : List α) : Along step P s as ↔ Along step (fun _ _ t => I t) s as := by
  induction as generalizing s with
  | nil => exact Iff.rfl
  | cons a as ih =>
    cases hm : step s a with
    | none => simp [Along, hm]
    | some m =>
      rw [along_cons hm, along_cons hm, pres s a m hs hm]
      exact and_congr_right fun hI => ih hI

/-- Where a step keeps `I` exactly if it satisfies `P`, and no step brings it back, the runs
whose steps all satisfy `P` are those that end in `I`. -/
theorem along_iff_last {I J : σ → Prop} (keeps : ∀ s a t, J s → Q s a t → step s a = some t → J t)
    (pres : ∀ s a t, J s → Q s a t → step s a = some t → I s → (P s a t ↔ I t))
    (lost : ∀ s a t, J s → Q s a t → step s a = some t → I t → I s)
    {s t : σ} {as : List α} (hJ : J s) (hI : I s) (hQ : Along step Q s as)
    (h : run step s as = some t) : Along step P s as ↔ I t := by
  have back : ∀ (as : List α) (s : σ), J s → Along step Q s as → run step s as = some t → I t → I s := by
    intro as
    induction as with
    | nil =>
      intro s _ _ h ht
      cases h
      exact ht
    | cons a as ih =>
      intro s hJ hQ h ht
      obtain ⟨m, hm, h⟩ := run_cons_eq_some.mp h
      obtain ⟨hQm, hQ⟩ := (along_cons hm).mp hQ
      exact lost s a m hJ hQm hm (ih m (keeps s a m hJ hQm hm) hQ h ht)
  induction as generalizing s with
  | nil =>
    cases h
    exact iff_of_true trivial hI
  | cons a as ih =>
    obtain ⟨m, hm, h⟩ := run_cons_eq_some.mp h
    obtain ⟨hQm, hQ⟩ := (along_cons hm).mp hQ
    have hJm := keeps s a m hJ hQm hm
    rw [along_cons hm, pres s a m hJ hQm hm hI]
    constructor
    · rintro ⟨hIm, hP⟩
      exact (ih hJm hIm hQ h).mp hP
    · intro ht
      have hIm := back as m hJm hQ h ht
      exact ⟨hIm, (ih hJm hIm hQ h).mpr ht⟩

theorem along_of_mem {p : α → Prop} {as : List α} (h : ∀ a ∈ as, p a) (s : σ) :
    Along step (fun _ a _ => p a) s as := by
  induction as generalizing s with
  | nil => trivial
  | cons a as ih =>
    cases hm : step s a with
    | none => simp [Along, hm]
    | some m =>
      exact (along_cons hm).mpr
        ⟨h a List.mem_cons_self, ih (fun b hb => h b (List.mem_cons_of_mem a hb)) m⟩

theorem Along.of_forall (h : ∀ s a t, step s a = some t → P s a t) (s : σ) (as : List α) :
    Along step P s as :=
  along_of_invariant (I := fun _ => True) (P := fun _ _ _ => True)
    (fun _ _ _ _ _ _ => trivial) (fun s a t _ _ ht => h s a t ht) trivial (by
      induction as generalizing s with
      | nil => trivial
      | cons a as ih => cases hm : step s a with
        | none => simp [Along, hm]
        | some m => exact (along_cons hm).mpr ⟨trivial, ih m⟩)

theorem always {I : σ → Prop} (pres : ∀ s a t, I s → step s a = some t → I t) {s t : σ}
    {as : List α} (hs : I s) (h : run step s as = some t) : I t :=
  invariant (P := fun _ _ _ => True) (fun s a t hI _ ht => pres s a t hI ht) hs
    (Along.of_forall (fun _ _ _ _ => trivial) s as) h

theorem tally_snoc {p : σ → α → σ → Bool} {s t u : σ} {as : List α} {a : α}
    (h : run step s as = some t) (ha : step t a = some u) :
    tally step p s (as ++ [a]) = tally step p s as + if p t a u then 1 else 0 := by
  induction as generalizing s with
  | nil =>
    cases h
    simp [tally, ha]
  | cons b as ih =>
    obtain ⟨m, hm, h⟩ := run_cons_eq_some.mp h
    simp only [List.cons_append, tally, hm, ih h, Nat.add_assoc]

theorem tally_eq_zero {p : σ → α → σ → Bool} {s : σ} {as : List α}
    (h : Along step (fun s a t => p s a t = false) s as) : tally step p s as = 0 := by
  induction as generalizing s with
  | nil => rfl
  | cons a as ih =>
    cases hm : step s a with
    | none => simp [tally, hm]
    | some m =>
      obtain ⟨hp, h⟩ := (along_cons hm).mp h
      simp [tally, hm, hp, ih h]

/-- Where a step property switches a property of the states on and nothing switches it off,
it holds after a run exactly if it held before or there was such a step. -/
theorem tally_pos_iff {p : σ → α → σ → Bool} {I D : σ → Prop}
    (pres : ∀ s a t, I s → P s a t → step s a = some t → I t)
    (switch : ∀ s a t, I s → P s a t → step s a = some t → (D t ↔ D s ∨ p s a t = true))
    {s t : σ} {as : List α} (hs : I s) (hP : Along step P s as) (h : run step s as = some t) :
    D t ↔ D s ∨ 0 < tally step p s as := by
  induction as generalizing s with
  | nil =>
    cases h
    simp [tally]
  | cons a as ih =>
    obtain ⟨m, hm, h⟩ := run_cons_eq_some.mp h
    obtain ⟨hPm, hP⟩ := (along_cons hm).mp hP
    rw [ih (pres s a m hs hPm hm) hP h, switch s a m hs hPm hm]
    cases hp : p s a m with
    | false => simp [tally, hm, hp]
    | true => simp [tally, hm, hp, Nat.add_comm 1]

theorem exists_switch {D : σ → Prop} {s t : σ} {as : List α} (hs : ¬D s)
    (h : run step s as = some t) (ht : D t) :
    ∃ before a after u v, as = before ++ a :: after ∧ run step s before = some u ∧ ¬D u ∧
      step u a = some v ∧ D v ∧ run step v after = some t := by
  induction as generalizing s with
  | nil =>
    cases h
    exact absurd ht hs
  | cons a as ih =>
    obtain ⟨m, hm, h⟩ := run_cons_eq_some.mp h
    by_cases hD : D m
    · exact ⟨[], a, as, s, m, rfl, rfl, hs, hm, hD, h⟩
    · obtain ⟨before, b, after, u, v, rfl, hu, hDu, hv⟩ := ih hD h
      exact ⟨a :: before, b, after, u, v, rfl, run_cons_eq_some.mpr ⟨m, hm, hu⟩, hDu, hv⟩

/-- A run whose steps do not all satisfy `P` has a step that does not. -/
theorem exists_of_not_along {s t : σ} {as : List α} (h : run step s as = some t)
    (hP : ¬Along step P s as) :
    ∃ before a after u v, as = before ++ a :: after ∧ run step s before = some u ∧
      step u a = some v ∧ ¬P u a v ∧ run step v after = some t := by
  induction as generalizing s with
  | nil => exact absurd trivial hP
  | cons a as ih =>
    obtain ⟨m, hm, h⟩ := run_cons_eq_some.mp h
    by_cases hPm : P s a m
    · have hrest : ¬Along step P m as := fun hrest => hP ((along_cons hm).mpr ⟨hPm, hrest⟩)
      obtain ⟨before, b, after, u, v, rfl, hu, hv⟩ := ih h hrest
      exact ⟨a :: before, b, after, u, v, rfl, run_cons_eq_some.mpr ⟨m, hm, hu⟩, hv⟩
    · exact ⟨[], a, as, s, m, rfl, rfl, hm, hPm, h⟩

theorem along_iff_forall {s : σ} {as : List α} :
    Along step P s as ↔ ∀ before a after u v, as = before ++ a :: after →
      run step s before = some u → step u a = some v → P u a v := by
  constructor
  · rintro h before a after u v rfl hu hv
    exact ((along_cons hv).mp ((along_append hu).mp h).2).1
  · intro h
    induction as generalizing s with
    | nil => trivial
    | cons a as ih =>
      cases hm : step s a with
      | none => simp [Along, hm]
      | some m =>
        refine (along_cons hm).mpr ⟨h [] a as s m rfl rfl hm, ih ?_⟩
        rintro before b after u v rfl hu hv
        exact h (a :: before) b after u v rfl (run_cons_eq_some.mpr ⟨m, hm, hu⟩) hv

theorem exists_last_switch {D : σ → Prop} {s t : σ} {as : List α} (hs : ¬D s)
    (h : run step s as = some t) (ht : D t) :
    ∃ before a after u v, as = before ++ a :: after ∧ run step s before = some u ∧ ¬D u ∧
      step u a = some v ∧ D v ∧ run step v after = some t ∧ Along step (fun _ _ w => D w) v after := by
  induction as using List.reverseRecOn generalizing t with
  | nil =>
    cases h
    exact absurd ht hs
  | append_singleton as a ih =>
    rw [run_append] at h
    obtain ⟨m, hm, h⟩ := Option.bind_eq_some_iff.mp h
    obtain ⟨_, ha, ⟨⟩⟩ := run_cons_eq_some.mp h
    by_cases hD : D m
    · obtain ⟨before, b, after, u, v, rfl, hu, hDu, hb, hDv, hv, hstays⟩ := ih hm hD
      refine ⟨before, b, after ++ [a], u, v, by simp, hu, hDu, hb, hDv, run_snoc hv ha, ?_⟩
      exact (along_append hv).mpr ⟨hstays, (along_cons ha).mpr ⟨ht, along_nil _⟩⟩
    · exact ⟨as, a, [], m, t, rfl, hm, hD, ha, ht, rfl, along_nil _⟩

theorem tally_le_one {p : σ → α → σ → Bool} {D : σ → Prop}
    (first : ∀ s a t, step s a = some t → p s a t = true → D t)
    (stays : ∀ s a t, step s a = some t → D s → D t)
    (blocks : ∀ s a t, step s a = some t → D s → p s a t = false)
    (s : σ) (as : List α) : tally step p s as ≤ 1 := by
  have zero : ∀ (as : List α) (s : σ), D s → tally step p s as = 0 := by
    intro as
    induction as with
    | nil => intro s _; rfl
    | cons a as ih =>
      intro s hs
      cases hm : step s a with
      | none => simp [tally, hm]
      | some m => simp [tally, hm, blocks s a m hm hs, ih m (stays s a m hm hs)]
  induction as generalizing s with
  | nil => simp [tally]
  | cons a as ih =>
    cases hm : step s a with
    | none => simp [tally, hm]
    | some m =>
      cases hp : p s a m with
      | false => simpa [tally, hm, hp] using ih m
      | true => simp [tally, hm, hp, zero as m (first s a m hm hp)]

/-- Steps that are counted are paid for: by a potential that falls, or by a budget that grows. -/
theorem tally_le_of_pays {p : σ → α → σ → Bool} {potential budget : σ → Nat}
    (pays : ∀ s a t, P s a t → step s a = some t →
      (if p s a t then 1 else 0) + potential t + budget s ≤ potential s + budget t)
    {s t : σ} {as : List α} (hP : Along step P s as) (h : run step s as = some t) :
    tally step p s as + potential t + budget s ≤ potential s + budget t := by
  induction as generalizing s with
  | nil =>
    cases h
    simp only [tally]
    omega
  | cons a as ih =>
    obtain ⟨m, hm, h⟩ := run_cons_eq_some.mp h
    obtain ⟨hPm, hP⟩ := (along_cons hm).mp hP
    have hfirst := pays s a m hPm hm
    have hrest := ih hP h
    simp only [tally, hm]
    omega

end LabelledRuns
